import Mathlib.Data.List.Basic
import ScopeEngine.Proofs.Closing.Hooks
import ScopeEngine.Proofs.Registry.Filing
import ScopeEngine.Proofs.Rotation.Retirement

/-! Ending the sessions of an application that is shut down. No session enters the map any more, so one listing of it is all
that there is to end: the hooks are called in the order of the map, once for each session that was started. -/

namespace ScopeEngine

open ScopeEngine.Action Script World

variable {calls : List HookCall} {fit : HookCall → World → Prop} {host : Host} {later w : World}

/-- One call of a hook: whose, at which context, with which values, and what came of it. -/
structure HookCall where
  listener : ListenerId
  hook : Hook
  context : ContextId
  values : List Value
  outcome : Except Error Value

/-- The later world is reached by calls of hooks, one after the other, each from a world that is fit for it. In between no
code is run, and none is added. -/
inductive World.Calling (host : Host) (fit : HookCall → World → Prop) : World → List HookCall → World → Prop
  | done (w : World) : Calling host fit w [] w
  | prepare {w mid later : World} {calls : List HookCall} : w.Prepares mid → Calling host fit mid calls later →
    Calling host fit w calls later
  | call {w mid later : World} {called : HookCall} {calls : List HookCall} : fit called w →
    attempt (callHook host called.listener called.hook called.context called.values) w = (.ok called.outcome, mid) →
    Calling host fit mid calls later → Calling host fit w (called :: calls) later

theorem World.Calling.trans {mid : World} {more : List HookCall} (first : Calling host fit w calls mid)
    (second : Calling host fit mid more later) : Calling host fit w (calls ++ more) later := by
  induction first with
  | done => exact second
  | prepare prepares _ ih => exact .prepare prepares (ih second)
  | call fits ran _ ih => exact .call fits ran (ih second)

theorem World.Calling.mono {more : HookCall → World → Prop} (calling : Calling host fit w calls later)
    (fits : ∀ called before, fit called before → more called before) : Calling host more w calls later := by
  induction calling with
  | done => exact .done _
  | prepare prepares _ ih => exact .prepare prepares ih
  | call fit ran _ ih => exact .call (fits _ _ fit) ran ih

theorem World.Calling.release (calling : Calling host fit w calls later) (holds : List Hold) :
    Calling host fit w calls { later with holds } := by
  have released : later.Prepares { later with holds } := ⟨rfl, rfl, rfl⟩
  have all := calling.trans (.prepare released (.done { later with holds }))
  rwa [List.append_nil] at all

structure Closing where
  session : SessionId
  outcome : Option (Except Error Value)

namespace Closing

def failed (closing : Closing) : Option Error :=
  match closing.outcome with
  | some (.error error) => some error
  | _ => none

def call (w : World) (l : ListenerId) (d : ContextId) (a : ApplicationId) (closing : Closing) : Option HookCall :=
  closing.outcome.map fun outcome =>
    ⟨l, .sessionEnd, d, [.struct (w.session closing.session).scope, .struct (w.application a).scope], outcome⟩

def failure (w : World) (closing : Closing) : Option String :=
  closing.failed.map fun error => "session [" ++ (w.session closing.session).id.name ++ "]: " ++ error.message

def note (w : World) (report : ShutdownReport) (closing : Closing) : ShutdownReport :=
  match closing.failure w with
  | none => { report with sessionsClosed := report.sessionsClosed + 1 }
  | some text => { report with failures := report.failures ++ [text] }

theorem foldl_note (w : World) (closings : List Closing) (report : ShutdownReport) :
    closings.foldl (note w) report = { report with
      sessionsClosed := report.sessionsClosed + closings.countP (·.failed.isNone)
      failures := report.failures ++ closings.filterMap (·.failure w) } := by
  induction closings generalizing report with
  | nil => simp
  | cons closing rest ih =>
    rw [List.foldl_cons, ih]
    cases failed : closing.failed <;> simp [note, failure, failed, Nat.add_assoc, Nat.add_comm 1]

/-- Every session is counted once, among those closed or among the failures. -/
theorem accounts (w : World) (closings : List Closing) :
    closings.countP (·.failed.isNone) + (closings.filterMap (·.failure w)).length = closings.length := by
  induction closings with
  | nil => rfl
  | cons closing rest ih =>
    cases failed : closing.failed <;> simp [failure, failed] <;> simp only [failure] at ih <;> omega

end Closing

namespace World

variable {w later mid : World} {fuel : Nat} {l : ListenerId} {name : Key} {d : ContextId} {a : ApplicationId}
  {s : SessionId}

/-- The end hooks of an application that is shut down run in a request that is set aside for it, and keep to what is allowed
to them. -/
structure Presides (w : World) (fuel : Nat) (l : ListenerId) (name : Key) (d : ContextId) (a : ApplicationId) : Prop where
  secluded : w.Secluded true name d a
  sessionEnd : w.Admits False (LifecycleStep.isOfEnd name) fuel l .sessionEnd
  applicationEnd : w.Admits False (LifecycleStep.isOfEnd name) fuel l .applicationEnd

theorem Prepares.carries (prepares : w.Prepares later) : w.Carries later :=
  carries_of_same prepares.listeners prepares.functions

theorem Presides.carries (presides : w.Presides fuel l name d a) (carries : w.Carries later)
    (secluded : later.Secluded true name d a) : later.Presides fuel l name d a :=
  ⟨secluded, presides.sessionEnd.carries carries, presides.applicationEnd.carries carries⟩

/-- The application keeps what hooks rely on: all but its map, its times and its limits. -/
def Aligned (a : ApplicationId) (w later : World) : Prop :=
  later.application a = { w.application a with
    sessions := (later.application a).sessions, lastAccess := (later.application a).lastAccess
    timeout := (later.application a).timeout, sessionTimeout := (later.application a).sessionTimeout }

/-- Sessions were taken out of the map one after the other, and ended. -/
structure Closes (w : World) (fuel : Nat) (l : ListenerId) (name : Key) (d : ContextId) (a : ApplicationId)
    (closings : List Closing) (later : World) : Prop where
  once : ∀ closing ∈ closings, closing.outcome.isSome =
    ((w.session closing.session).started && !(w.session closing.session).shutDown)
  calls : Calling (hostOf (execute fuel)) (fun _ before => before.Secluded true name d a) w
    (closings.filterMap (·.call w l d a)) later
  presides : later.Presides fuel l name d a
  applications : later.applications.size = w.applications.size
  own : Aligned a w later
  others : ∀ b, b ≠ a → later.application b = w.application b
  registry : later.registry = w.registry
  sessions : later.sessions = closings.foldl (fun table closing =>
    table.set closing.session { table.get closing.session with shutDown := true }) w.sessions

theorem session_close {t : SessionId} (other : t ≠ s) (closed : later.sessions = (w.endSession s).2.sessions) :
    later.session t = w.session t := by
  rw [session, closed]
  exact (session_modify w s t _).trans (if_neg fun both => other both.1.symm)

theorem Closes.nil (presides : w.Presides fuel l name d a) : w.Closes fuel l name d a [] w where
  once := fun _ member => absurd member List.not_mem_nil
  calls := .done w
  presides := presides
  applications := rfl
  own := rfl
  others := fun _ _ => rfl
  registry := rfl
  sessions := rfl

theorem Closes.cons {first : Closing} {closings : List Closing} (one : w.Closes fuel l name d a [first] mid)
    (rest : mid.Closes fuel l name d a closings later) (other : ∀ closing ∈ closings, closing.session ≠ first.session) :
    w.Closes fuel l name d a (first :: closings) later := by
  have closed : mid.sessions = (w.endSession first.session).2.sessions := one.sessions
  have same : ∀ closing ∈ closings, mid.session closing.session = w.session closing.session :=
    fun closing member => session_close (other closing member) closed
  have scope : (mid.application a).scope = (w.application a).scope := by rw [one.own]
  have calls : closings.filterMap (·.call mid l d a) = closings.filterMap (·.call w l d a) := by
    refine List.filterMap_congr fun closing member => ?_
    rw [Closing.call, Closing.call, same closing member, scope]
  refine {
    once := ?_
    calls := ?_
    presides := rest.presides
    applications := rest.applications.trans one.applications
    own := ?_
    others := fun b different => (rest.others b different).trans (one.others b different)
    registry := rest.registry.trans one.registry
    sessions := ?_ }
  · intro closing member
    rcases List.mem_cons.mp member with rfl | further
    · exact one.once closing (List.mem_singleton.mpr rfl)
    · rw [← same closing further]
      exact rest.once closing further
  · have both := one.calls.trans rest.calls
    rwa [calls, ← List.filterMap_append] at both
  · rw [Aligned, rest.own, one.own]
  · rw [rest.sessions, one.sessions]
    rfl

end World

section

variable {w : World} {fuel : Nat} {l : ListenerId} {name : Key} {d : ContextId} {a : ApplicationId} {s : SessionId}
  (presides : w.Presides fuel l name d a)
include presides

theorem achieves_callEnd {hook : Hook} (admits : w.Admits False (LifecycleStep.isOfEnd name) fuel l hook)
    (values : List Value) : (attempt (callHook (hostOf (execute fuel)) l hook d values)).Achieves w fun outcome later =>
      Calling (hostOf (execute fuel)) (fun _ before => before.Secluded true name d a) w
        [⟨l, hook, d, values, outcome⟩] later ∧
      Aloof d a w later ∧ later.Presides fuel l name d a := by
  have steps : ∀ n c step, LifecycleStep.isOfEnd name step = true →
      KeepsAloof False true name d a c (LifecycleStep.run (hostOf (execute n)) c step) :=
    fun n c step allowed => keepsAloof_step (Nat.succ_pos 999999) allowed
  have leaves := leaves_callHook steps presides.secluded admits values
  have ends : (callHook (hostOf (execute fuel)) l hook d values).Ends w fun later =>
      Aloof d a w later ∧ later.Secluded true name d a := leaves
  obtain ⟨outcome, later, ran, aloof, secluded⟩ := ends.attempt
  exact ⟨outcome, later, ran, .call presides.secluded ran (.done later), aloof, presides.carries aloof.toCarries secluded⟩

/-- Ending a session calls its end hook if it was started and not ended before. -/
theorem achieves_shutdownSession (s : SessionId) (scope : ScopeId) :
    (attempt (shutdownSession (hostOf (execute fuel)) s d l scope)).Achieves w fun result later =>
      ∃ outcome : Option (Except Error Value), outcome.isSome = ((w.session s).started && !(w.session s).shutDown) ∧
        result = (match outcome with | some outcome => outcome.map fun _ => () | none => .ok ()) ∧
        Calling (hostOf (execute fuel)) (fun _ before => before.Secluded true name d a) w
          (outcome.map fun outcome => ⟨l, .sessionEnd, d, [.struct (w.session s).scope, .struct scope], outcome⟩).toList
          later ∧
        Aloof d a (w.endSession s).2 later ∧ later.Presides fuel l name d a := by
  let ended := (w.endSession s).2
  have prepares : w.Prepares ended := ⟨rfl, rfl, rfl⟩
  have here := presides.carries prepares.carries (presides.secluded.of_rows rfl rfl)
  cases due : (w.session s).started && !(w.session s).shutDown with
  | false =>
    refine ⟨.ok (), ended, ?_, none, rfl, rfl, .prepare prepares (.done ended), .refl d a ended, here⟩
    simp only [attempt, shutdownSession_eq, due, Bool.false_eq_true, if_false]
    rfl
  | true =>
    obtain ⟨outcome, later, ran, called, aloof, presides⟩ :=
      achieves_callEnd here here.sessionEnd [.struct (w.session s).scope, .struct scope]
    refine ⟨_, later, ?_, some outcome, rfl, rfl, .prepare prepares called, aloof, presides⟩
    rw [← attempt_discard ran]
    simp only [attempt, shutdownSession_eq, due, if_true]
    rfl

theorem achieves_closeSession {id : Key} {rest : List (Key × SessionId)}
    (entries : (w.application a).sessions.entries = (id, s) :: rest) (report : ShutdownReport) :
    (closeSession (hostOf (execute fuel)) a d l report id).Achieves w fun noted later =>
      ∃ closing : Closing, closing.session = s ∧ noted = closing.note w report ∧
        w.Closes fuel l name d a [closing] later ∧ (later.application a).sessions.entries = rest := by
  let taken := (w.takeSession a id).2
  have issued := presides.secluded.issued
  have found : (w.takeSession a id).1 = some s := by
    simp [takeSession, Bindings.find?, entries]
  have application : taken.application a =
      { w.application a with sessions := (w.application a).sessions.erase id } :=
    (application_modify w a a _).trans (if_pos ⟨rfl, issued⟩)
  have elsewhere : ∀ b, b ≠ a → taken.application b = w.application b := fun b other =>
    (application_modify w a b _).trans (if_neg fun both => other both.1.symm)
  have prepares : w.Prepares taken := ⟨rfl, rfl, rfl⟩
  have secluded : taken.Secluded true name d a :=
    presides.secluded.modifyApplication (fun application => { application with sessions := application.sessions.erase id })
      (fun _ => rfl) fun _ => rfl
  obtain ⟨result, later, ran, outcome, once, is, calls, aloof, still⟩ :=
    achieves_shutdownSession (presides.carries prepares.carries secluded) s (taken.application a).scope
  have scope : (taken.application a).scope = (w.application a).scope := by rw [application]
  have own := aloof.own
  have before : ((taken.endSession s).2.application a) = taken.application a := rfl
  rw [before, application] at own
  let closing : Closing := ⟨s, outcome⟩
  have closes : w.Closes fuel l name d a [closing] later := {
    once := by
      intro other member
      rw [List.mem_singleton.mp member]
      exact once
    calls := by
      have called : [closing].filterMap (·.call w l d a) = (closing.call w l d a).toList := by
        cases made : closing.call w l d a <;> simp [made]
      rw [called]
      rw [scope] at calls
      exact .prepare prepares calls
    presides := still
    applications := aloof.applications.trans (Table.size_set ..)
    own := by rw [Aligned, own]
    others := fun b other => (aloof.others b other).trans (elsewhere b other)
    registry := aloof.registry
    sessions := aloof.sessions }
  have emptied : (later.application a).sessions.entries = rest := by
    rw [own]
    simp [Bindings.erase, entries]
  have id_kept : (later.session s).id = (w.session s).id := by
    rw [session, aloof.sessions]
    exact taken.session_endSession_keeps s s Session.id fun _ => rfl
  simp only [closeSession, achieves_bind, achieves_modifyGet, found, achieves_get]
  refine (achieves_ok ran).mpr ?_
  rcases outcome with _ | ⟨error | value⟩
  · subst is
    exact (achieves_pure _).mpr ⟨closing, rfl, rfl, closes, emptied⟩
  · subst is
    simp only [Except.map, achieves_bind, achieves_get, achieves_pure, id_kept]
    exact ⟨closing, rfl, rfl, closes, emptied⟩
  · subst is
    exact (achieves_pure _).mpr ⟨closing, rfl, rfl, closes, emptied⟩

end

variable {w : World} {fuel : Nat} {l : ListenerId} {name : Key} {d : ContextId} {a : ApplicationId}

theorem achieves_closeAll (presides : w.Presides fuel l name d a) {entries : List (Key × SessionId)}
    (stored : (w.application a).sessions.entries = entries) (distinct : (entries.map (·.2)).Nodup)
    (report : ShutdownReport) :
    ((entries.map (·.1)).foldlM (closeSession (hostOf (execute fuel)) a d l) report).Achieves w fun noted later =>
      ∃ closings : List Closing, closings.map (·.session) = entries.map (·.2) ∧
        noted = closings.foldl (Closing.note w) report ∧ w.Closes fuel l name d a closings later ∧
        (later.application a).sessions.entries = [] := by
  induction entries generalizing w report with
  | nil => exact (achieves_pure _).mpr ⟨[], rfl, rfl, .nil presides, stored⟩
  | cons entry rest ih =>
    obtain ⟨id, s⟩ := entry
    obtain ⟨absent, apart⟩ := List.nodup_cons.mp distinct
    simp only [List.map_cons, List.foldlM_cons, achieves_bind]
    refine (achieves_closeSession presides stored report).mono ?_
    rintro _ mid ⟨first, rfl, rfl, one, left⟩
    refine (ih one.presides left apart (first.note w report)).mono ?_
    rintro _ later ⟨closings, sessions, rfl, closes, emptied⟩
    have other : ∀ closing ∈ closings, closing.session ≠ first.session := by
      intro closing member same
      refine absent ?_
      rw [← same, ← sessions]
      exact List.mem_map_of_mem member
    have texts : closings.filterMap (·.failure mid) = closings.filterMap (·.failure w) := by
      refine List.filterMap_congr fun closing member => ?_
      rw [Closing.failure, Closing.failure, session_close (other closing member) one.sessions]
    refine ⟨first :: closings, by rw [List.map_cons, sessions], ?_, one.cons closes other, emptied⟩
    rw [List.foldl_cons, Closing.foldl_note, Closing.foldl_note, texts]

/-- The second listing of the map is empty, since no session came in. -/
theorem achieves_drainSessions (presides : w.Presides fuel l name d a) (distinct : (w.application a).sessions.values.Nodup)
    (rounds : Nat) (report : ShutdownReport) :
    (drainSessions (hostOf (execute fuel)) a d l (rounds + 2) report).Achieves w fun noted later =>
      ∃ closings : List Closing, closings.map (·.session) = (w.application a).sessions.values ∧
        noted = closings.foldl (Closing.note w) report ∧ w.Closes fuel l name d a closings later ∧
        (later.application a).sessions.entries = [] := by
  have closes := achieves_closeAll presides rfl distinct report
  rw [drainSessions, achieves_bind, achieves_get]
  cases stored : (w.application a).sessions.keys with
  | nil =>
    have none : (w.application a).sessions.entries = [] := List.map_eq_nil_iff.mp stored
    refine (achieves_pure _).mpr ⟨[], ?_, rfl, .nil presides, none⟩
    rw [Bindings.values, none]
    rfl
  | cons id rest =>
    simp only [List.isEmpty_cons, Bool.false_eq_true, if_false, achieves_bind]
    rw [← stored]
    refine closes.mono ?_
    rintro noted later ⟨closings, sessions, is, closes, emptied⟩
    have none : (later.application a).sessions.keys = [] := by rw [Bindings.keys, emptied]; rfl
    rw [drainSessions, achieves_bind, achieves_get, none]
    exact (achieves_pure _).mpr ⟨closings, sessions, is, closes, emptied⟩

end ScopeEngine
