import ScopeEngine.Proofs.Readiness.Operations

/-! Sequential runs with restarts. A touch of the application from outside any hook answers with an instance that is not
defunct. It is started as well, unless the request had this instance already when it was last restarted: a restart takes
back the start, and a request that still has the instance does not look at its start again. -/

namespace ScopeEngine

open ScopeEngine.Action Script World

variable {host : Host} {start w later : World} {a : ApplicationId} {c r : ContextId}

variable {occurrence : Occurrence} {occurrences : List Occurrence}

/-- What happens outside any hook: operations of requests and servers, shutdowns by way of the registry, and code of
requests that reads and writes scopes. -/
inductive Occurrence where
  | performed (operation : Operation)
  | shutdownNamed (name : Key) (server : ContextId)
  | shutdownAll (server : ContextId)
  | access (c : ContextId) (body : Script.Body)

namespace Occurrence

def run (host : Host) : Occurrence → Action Unit
  | performed operation => operation.run host
  | shutdownNamed name server => do let _ ← ScopeEngine.shutdownNamed host name server
  | shutdownAll server => do let _ ← ScopeEngine.shutdownAll host server
  | access c body => do let _ ← host.run body c

def isKnown (w : World) : Occurrence → Bool
  | performed operation => operation.isKnown w
  | access _ body => areAccesses body
  | _ => true

def next? (host : Host) (w : World) (occurrence : Occurrence) : Option World :=
  match occurrence.isKnown w, occurrence.run host w with
  | true, (.ok _, later) | true, (.error (.failed _), later) => some later
  | _, _ => none

def runAll (host : Host) (start : World) (occurrences : List Occurrence) : Option World :=
  occurrences.foldlM (next? host) start

theorem of_next? {P : World → Prop} {occurrence : Occurrence}
    (runs : occurrence.isKnown w = true → (occurrence.run host).After w (fun _ => P) (fun _ => P))
    (ends : occurrence.next? host w = some later) : P later := by
  cases known : occurrence.isKnown w with
  | false => simp [next?, known] at ends
  | true =>
    have runs := runs known
    unfold After at runs
    simp only [next?, known] at ends
    rcases result : occurrence.run host w with ⟨⟨error | _⟩ | value, world⟩ <;>
      simp only [result, reduceCtorEq, Option.some.injEq] at ends runs
    · exact ends ▸ runs
    · exact ends ▸ runs

def isRestart (a : ApplicationId) : Occurrence → Bool
  | performed (.restart b _) => b == a
  | _ => false

end Occurrence

/-- The request at `r` had the application spliced in when the application was last restarted. -/
def HeldAtRestart (host : Host) (start : World) (occurrences : List Occurrence) (r : ContextId) (a : ApplicationId) :
    Prop :=
  ∃ before restart after early, occurrences = before ++ restart :: after ∧ restart.isRestart a = true ∧
    (∀ occurrence ∈ after, occurrence.isRestart a = false) ∧
    Occurrence.runAll host start before = some early ∧ early.splicedApplication r = some a

/-- Nothing was touched yet, and hooks only read and write scopes. -/
structure World.Untouched (w : World) : Prop where
  applications : w.applications.size = 0
  registry : w.registry.entries = []
  requests : ∀ r request, (w.context r).request? = some request → request.applicationNode = none
  hooks : ∀ l hook f, (w.listener l).hook hook = some f →
    f.number < w.functions.size ∧ areAccesses (w.function f).body = true

namespace World

theorem Untouched.grounded (untouched : w.Untouched) : w.Grounded := fun l hook f hooked =>
  (untouched.hooks l hook f hooked).1

theorem sane_of_empty (applications : w.applications.size = 0) (registry : w.registry.entries = [])
    (requests : ∀ r request, (w.context r).request? = some request → request.applicationNode = none)
    (hooks : ∀ l hook f, (w.listener l).hook hook = some f → areAccesses (w.function f).body = true)
    (code : w.Grounded ∨ w.Tame) : w.Sane where
  nodes := by
    intro r request node there spliced
    cases (requests r request there).symm.trans spliced
  registered := by
    intro entry member
    rw [registry] at member
    cases member
  named := by
    intro a issued
    rw [applications] at issued
    omega
  hooks := hooks
  code := code

theorem Untouched.sane (untouched : w.Untouched) : w.Sane :=
  sane_of_empty untouched.applications untouched.registry untouched.requests
    (fun l hook f hooked => (untouched.hooks l hook f hooked).2) (.inl untouched.grounded)

/-- What an occurrence does to the starts of applications and to the requests that hold them. -/
structure Passes (occurrence : Occurrence) (w later : World) : Prop where
  sane : later.Sane
  grounded : w.Grounded → later.Grounded
  decided : ∀ a, occurrence.isRestart a = false → w.Decided a → later.Decided a
  holds : ∀ r a, later.Holds r a → w.Holds r a ∨ later.Decided a

theorem Settles.passes (settles : w.Settles later) (occurrence : Occurrence) : Passes occurrence w later :=
  ⟨settles.sane, settles.grounded, fun a _ => settles.decided a, settles.holds⟩

/-- A restart undoes the start of its application and of no other, and no request moves. -/
theorem passes_reopen (sane : w.Sane) (a : ApplicationId) (server : ContextId) :
    Passes (.performed (.restart a server)) w (w.reopenApplication a) := by
  let change : Application → Application := fun application =>
    { application with listener := none, started := false, shutDown := false }
  let cleared := w.setScope (w.application a).scope
    (seedApplication (w.application a).name (w.scope (w.application a).scope).clear)
  let reopened := cleared.modifyApplication a change
  have clears : w.Keeps cleared := Calm.keeps (calm_of_same rfl rfl rfl rfl rfl (Int.le_refl _)) sane
  have sane_reopened : reopened.Sane := clears.sane.modifyApplication change (fun _ => rfl) a
  have touches : reopened.Keeps (w.reopenApplication a) := (reopened.calm_touchApplication a).keeps sane_reopened
  refine ⟨touches.sane, fun grounded => grounded.congr rfl, ?_, ?_⟩
  · intro b other done
    have different : a ≠ b := by simpa [Occurrence.isRestart] using other
    apply touches.decided b
    rw [Decided, application_modify, if_neg fun both => different both.1]
    exact clears.decided b done
  · intro r b held
    have same : reopened.standing = cleared.standing := standing_congr rfl
    have before := touches.held held
    rw [Holds, same] at before
    exact .inl (clears.held before)

end World

theorem after_restartApplication_passes (serene : host.Serene) (sane : w.Sane) (issued : a.number < w.applications.size)
    (server : ContextId) :
    (restartApplication host a server).After w (fun _ => Passes (.performed (.restart a server)) w)
      (fun _ => Passes (.performed (.restart a server)) w) := by
  simp only [restartApplication, after_bind]
  apply (after_shutdownApplication_keeps serene sane issued server).mono
  · intro report ended keeps
    rw [after_get]
    split
    · trivial
    · obtain ⟨sane, grounded, decided, holds⟩ := passes_reopen keeps.sane a server
      refine ⟨sane, grounded ∘ keeps.grounded, fun b other done => decided b other (keeps.decided b done), fun r b held => ?_⟩
      exact (holds r b held).imp_left keeps.held
  · exact fun _ _ keeps => keeps.settles.passes _

theorem World.Holds.spliced (holds : w.Holds r a) : w.splicedApplication r = some a := by
  obtain ⟨standing, at_, -, application⟩ := holds
  obtain ⟨request, there, rfl⟩ := Option.map_eq_some_iff.mp at_
  exact (splicedApplication_eq (requestOf_self there)).trans application

/-- Code that only reads and writes scopes does not matter to the starts of applications. -/
def Host.Settles (host : Host) : Prop :=
  ∀ body c, areAccesses body = true → SettlingIf (fun w => w.Sane ∧ w.Grounded) (host.run body c)

theorem settles_execute (fuel : Nat) : (hostOf (execute fuel)).Settles := fun _ c accesses =>
  have rules := settlingIf_rules settled_grounded
  rules.runBody fun _ member =>
    rules.execute fuel (fun n _ => settling_touches (serene_execute n) c) true (allows_of_mem accesses member)

namespace Occurrence

variable {occurrence : Occurrence}

theorem after_run (serene : host.Serene) (settles : host.Settles) (sane : w.Sane) (grounded : w.Grounded)
    (known : occurrence.isKnown w = true) :
    (occurrence.run host).After w (fun _ => Passes occurrence w) (fun _ => Passes occurrence w) := by
  have settled : ∀ {action : Action Unit}, Settling action →
      action.After w (fun _ => Passes occurrence w) (fun _ => Passes occurrence w) := fun settling =>
    (settling w sane).imp fun _ done => done.passes occurrence
  have ignored : ∀ {α : Type} {action : Action α}, Settling action → Settling (do let _ ← action) := fun settling =>
    settling_rules.bind settling fun _ => settling_rules.pure _
  cases occurrence with
  | shutdownNamed name server => exact settled (ignored (settling_shutdownNamed serene name server))
  | shutdownAll server => exact settled (ignored (settling_shutdownAll serene server))
  | access c body =>
    simp only [run, after_bind, after_pure]
    exact (settles body c known w ⟨sane, grounded⟩).imp fun _ done => done.passes _
  | performed operation =>
    cases operation with
    | newRequest parent => exact settled (ignored (settling_rules.calm fun w => w.calm_newRequest parent false))
    | wait ms => exact settled (settling_rules.sleep ms)
    | setListener c l => exact settled (settling_setListener c l)
    | updateSettings c settings => exact settled (settling_updateSettings c settings)
    | setSessionId c id => exact settled (settling_rules.setSessionId c id)
    | touchApplication c => exact settled (ignored (settling_ensureApplication serene c))
    | touchSession c => exact settled (ignored (settling_ensureSession serene c))
    | initializeSession c id => exact settled (ignored (settling_initializeSession serene c id))
    | rotateSession c => exact settled (ignored (settling_rotateSession serene c))
    | invalidateSession c id => exact settled (ignored (settling_invalidateSession serene c id))
    | shutdown a server =>
      have issued : a.number < w.applications.size := of_decide_eq_true known
      simp only [run, Operation.run, after_bind, after_pure]
      exact (after_shutdownApplication_keeps serene sane issued server).imp fun _ keeps => keeps.settles.passes _
    | restart a server =>
      have issued : a.number < w.applications.size := of_decide_eq_true known
      simp only [run, Operation.run, after_bind, after_pure]
      exact after_restartApplication_passes serene sane issued server

theorem passes_next? (serene : host.Serene) (settles : host.Settles) (sane : w.Sane) (grounded : w.Grounded)
    (ends : occurrence.next? host w = some later) : Passes occurrence w later :=
  of_next? (after_run serene settles sane grounded) ends

end Occurrence

structure Ready (host : Host) (start : World) (occurrences : List Occurrence) (w : World) : Prop where
  ran : Occurrence.runAll host start occurrences = some w
  sane : w.Sane
  grounded : w.Grounded
  holds : ∀ r a, w.Holds r a → w.Decided a ∨ HeldAtRestart host start occurrences r a

theorem HeldAtRestart.snoc (held : HeldAtRestart host start occurrences r a) (other : occurrence.isRestart a = false) :
    HeldAtRestart host start (occurrences ++ [occurrence]) r a := by
  obtain ⟨before, restart, after, early, same, restarts, none, ran, spliced⟩ := held
  refine ⟨before, restart, after ++ [occurrence], early, by simp [same], restarts, ?_, ran, spliced⟩
  intro next member
  rcases List.mem_append.mp member with inside | last
  · exact none next inside
  · rw [List.mem_singleton.mp last]
    exact other

section

variable (ready : Ready host start occurrences w) (serene : host.Serene) (settles : host.Settles)
include ready serene settles

theorem Ready.snoc (ends : occurrence.next? host w = some later) : Ready host start (occurrences ++ [occurrence]) later := by
  have passes := Occurrence.passes_next? serene settles ready.sane ready.grounded ends
  refine ⟨?_, passes.sane, passes.grounded ready.grounded, fun r a held => ?_⟩
  · have ran := ready.ran
    simp only [Occurrence.runAll] at ran
    simp [Occurrence.runAll, List.foldlM_append, ran, ends]
  · rcases passes.holds r a held with before | decided
    · cases restarts : occurrence.isRestart a with
      | true =>
        have last : ∀ next ∈ ([] : List Occurrence), next.isRestart a = false := List.forall_mem_nil _
        exact .inr ⟨occurrences, occurrence, [], w, rfl, restarts, last, ready.ran, before.spliced⟩
      | false => exact (ready.holds r a before).imp (passes.decided a restarts) fun held => held.snoc restarts
    · exact .inl decided

theorem Ready.append (more : List Occurrence) (ran : Occurrence.runAll host w more = some later) :
    Ready host start (occurrences ++ more) later := by
  induction more generalizing occurrences w with
  | nil =>
    cases ran
    simpa using ready
  | cons occurrence rest ih =>
    obtain ⟨middle, ends, runs⟩ := Option.bind_eq_some_iff.mp ran
    have next := ih (ready.snoc serene settles ends) runs
    rwa [List.append_assoc] at next

end

theorem World.Untouched.ready (untouched : start.Untouched) : Ready host start [] start where
  ran := rfl
  sane := untouched.sane
  grounded := untouched.grounded
  holds := by
    intro r a ⟨standing, at_, _, application⟩
    obtain ⟨request, there, rfl⟩ := Option.map_eq_some_iff.mp at_
    simp [standingOf, untouched.requests r request there] at application

/-- Whenever a request that is not detached touches its application outside any hook and gets an answer, the application
is not defunct. It is started as well, unless the request had it when it was last restarted. -/
theorem touched_applications_are_ready (fuel : Nat) (start w later : World) (occurrences : List Occurrence)
    (c r : ContextId) (request : Request) (a : ApplicationId) (untouched : start.Untouched)
    (ran : Occurrence.runAll (hostOf (execute fuel)) start occurrences = some w)
    (found : w.requestOf c = some (r, request)) (attached : request.detached = false)
    (touched : ensureApplication (hostOf (execute fuel)) c w = (.ok (some a), later)) :
    (later.application a).isDefunct = false ∧
      ((later.application a).started = true ∨ HeldAtRestart (hostOf (execute fuel)) start occurrences r a) := by
  have serene := serene_execute fuel
  have ready := (untouched.ready).append serene (settles_execute fuel) occurrences ran
  have answers := after_ensureApplication_settles serene ready.sane c
  simp only [After, touched] at answers
  obtain ⟨settles, runs⟩ := answers
  obtain ⟨t, running⟩ := runs a rfl
  have home : w.home c = some r := by rw [home, found]; rfl
  have there := request?_of_requestOf found
  -- the request is still the one of the touch, and still not detached
  have here := (settles.extends_.home (issued_of_home home)).trans home
  cases here.symm.trans running.home
  obtain ⟨standing, anchored⟩ := running.anchored
  have still : standing.detached = false := by
    have kept := settles.detached r (issued_of_request there)
    rw [anchored.at_, World.standing, there] at kept
    exact (Option.some.inj kept).trans attached
  have usable : (later.application a).isDefunct = false := by
    apply anchored.usable.resolve_left
    rw [still]
    exact Bool.noConfusion
  have starts : later.Decided a → (later.application a).started = true := by
    rw [Decided, Application.isDecided, usable, Bool.or_false]
    exact id
  refine ⟨usable, ?_⟩
  rcases settles.holds r a ⟨standing, anchored.at_, still, anchored.holds⟩ with before | decided
  · exact (ready.holds r a before).imp_left fun decided => starts (settles.decided a decided)
  · exact Or.inl (starts decided)

theorem untouched_shop {busy : Hook → Bool} {body : Script.Body} (accesses : areAccesses body = true) :
    (staffed busy body).Untouched where
  applications := rfl
  registry := rfl
  requests := by
    intro r request there
    cases (request_shop body r).symm.trans there
  hooks := by
    intro l hook f hooked
    rw [hook_shop hooked]
    exact ⟨Nat.zero_lt_one, accesses⟩

def readThenProceed : Script.Body :=
  [.mk (.scope (.read (.nearby ScopeName.application.key) .applicationName)) false,
    .mk (.return_ (.boolean true)) false]

def restarted : List Occurrence :=
  [.performed (.newRequest ⟨0⟩), .performed (.touchApplication ⟨1⟩), .performed (.restart ⟨0⟩ ⟨0⟩)]

def answer (occurrences : List Occurrence) (c : ContextId) : Option (Option Bool × Option (Option ApplicationId)) :=
  (Occurrence.runAll (hostOf (execute 3)) (shop readThenProceed) occurrences).map fun w =>
    ((w.requestOf c).map (·.2.detached), (ensureApplication (hostOf (execute 3)) c w).1.toOption)

/-- A request that comes after the restart gets the application started. -/
theorem touched_applications_are_ready_shop : ∃ w later r request,
    Occurrence.runAll (hostOf (execute 3)) (shop readThenProceed) (restarted ++ [.performed (.newRequest ⟨0⟩)]) = some w ∧
    w.requestOf ⟨6⟩ = some (r, request) ∧ request.detached = false ∧
    ensureApplication (hostOf (execute 3)) ⟨6⟩ w = (.ok (some ⟨0⟩), later) ∧
    (later.application ⟨0⟩).isDefunct = false ∧
    ((later.application ⟨0⟩).started = true ∨ HeldAtRestart (hostOf (execute 3)) (shop readThenProceed)
      (restarted ++ [.performed (.newRequest ⟨0⟩)]) r ⟨0⟩) := by
  have answers : answer (restarted ++ [.performed (.newRequest ⟨0⟩)]) ⟨6⟩ = some (some false, some (some ⟨0⟩)) := by
    decide +kernel
  obtain ⟨w, ran, same⟩ := Option.map_eq_some_iff.mp answers
  simp only [Prod.mk.injEq] at same
  obtain ⟨⟨r, request⟩, found, attached⟩ := Option.map_eq_some_iff.mp same.1
  rcases touched : ensureApplication (hostOf (execute 3)) ⟨6⟩ w with ⟨result, later⟩
  rw [touched] at same
  cases result with
  | error stop => cases same.2
  | ok value =>
    cases same.2
    have untouched : (shop readThenProceed).Untouched := untouched_shop (by decide)
    exact ⟨w, later, r, request, ran, found, attached, touched,
      touched_applications_are_ready 3 _ w later _ ⟨6⟩ r request ⟨0⟩ untouched ran found attached touched⟩

/-- A request that had the application when it was restarted gets it back although it is not started. -/
theorem restarted_application_stays_unstarted :
    (shop readThenProceed).Untouched ∧ answer restarted ⟨1⟩ = some (some false, some (some ⟨0⟩)) ∧
    ((Occurrence.runAll (hostOf (execute 3)) (shop readThenProceed) restarted).map fun w =>
      ((ensureApplication (hostOf (execute 3)) ⟨1⟩ w).2.application ⟨0⟩).started) = some false :=
  ⟨untouched_shop (by decide), by decide +kernel, by decide +kernel⟩

end ScopeEngine
