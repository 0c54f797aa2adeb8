import ScopeEngine.Proofs.Closing.Drain
import ScopeEngine.Proofs.Rotation.Rotate

/-! Shutting an application down: every session of its map is ended, then the application itself, and the report accounts for
each of them. -/

namespace ScopeEngine

open ScopeEngine.Action Script World

namespace World

/-- Code at `k` was called from the request at `d`. -/
structure CalledFrom (w : World) (k d : ContextId) : Prop where
  parent : (w.context k).parent = some d
  younger : d.number < k.number
  call : ((w.context k).call?).isSome = true

/-- Code at `k` finds the application when it touches it, and never a session. -/
structure TurnsAway (w : World) (host : Host) (k : ContextId) (a : ApplicationId) : Prop where
  application : (ensureApplication host k).Achieves w fun found _ => found = some a
  session : (ensureSession host k).Achieves w (fun found _ => found = none) ∨
    (ensureSession host k).Fails w (fun error _ => error = .scopeNotFound ScopeName.session.text)
  scope : (getScope host k ScopeName.session.key).Fails w fun error _ => error = .scopeNotFound ScopeName.session.text

variable {w later : World} {closed : Bool} {name : Key} {k d : ContextId} {a : ApplicationId} {host : Host}

namespace CalledFrom

variable (called : w.CalledFrom k d)
include called

theorem request? : (w.context k).request? = none := by
  obtain ⟨call, is⟩ := Option.isSome_iff_exists.mp called.call
  cases kind : (w.context k).kind <;> simp [Context.call?, Context.request?, kind] at is ⊢

theorem home (secluded : w.Secluded closed name d a) : w.home k = some d := by
  have above : w.ancestry k = k :: w.ancestry d := by
    rw [ancestry, called.parent]
    simp only [called.younger, if_true]
  rw [home_eq_find, above, List.find?_cons, called.request?]
  exact (home_eq_find w d).symm.trans secluded.home_self

theorem aloof (issued : k.number < w.contexts.size) (aloof : Aloof d a w later) : later.CalledFrom k d where
  parent := (aloof.extends_.parent k issued).trans called.parent
  younger := called.younger
  call := by
    have other : k ≠ d := by
      rintro rfl
      exact Nat.lt_irrefl _ called.younger
    have call := called.call
    rwa [Context.call?, ← aloof.kind k issued other] at call

end CalledFrom

theorem Secluded.turnsAway (secluded : w.Secluded closed name d a) (called : w.CalledFrom k d) (patient : 0 < host.patience) :
    w.TurnsAway host k a := by
  have home := called.home secluded
  refine ⟨?_, ?_, ?_⟩
  · refine (achieves_ensureApplication (secluded.running home)).mono ?_
    rintro _ _ ⟨rfl, -⟩
    rfl
  · obtain ⟨answer, after, ran, is, -⟩ := ensureSession_secluded secluded home patient
    rcases is with rfl | rfl
    · exact .inl ⟨none, after, ran, rfl⟩
    · exact .inr ⟨_, after, ran, rfl⟩
  · have asks : Fails (do
        let found ← ensureSession host d
        let w ← get
        orScopeNotFound ScopeName.session.key (found.map fun s => (w.session s).scope)) w fun error _ =>
          error = .scopeNotFound ScopeName.session.text := by
      obtain ⟨answer, after, ran, is, -⟩ := ensureSession_secluded secluded secluded.home_self patient
      rcases is with rfl | rfl
      · refine Achieves.bind_fails ((achieves_ok ran).mpr ?_)
        simp only [fails_get_bind, orScopeNotFound, Option.map_none, fails_fail]
        rfl
      · exact Fails.bind ((fails_error ran).mpr rfl) _
    obtain ⟨request, there, -⟩ := secluded.at_
    have asked : ScopeName.session.key.scopeName? = some .session := by decide
    have kind : (w.context d).kind = .request request := request?_eq_some.mp there
    obtain ⟨rest, here⟩ := w.ancestry_eq_cons d
    have above : w.ancestry k = k :: d :: rest := by
      rw [ancestry, called.parent]
      simp only [called.younger, if_true, here]
    have passes : (globalScope host ScopeName.session.key (some .session) (k :: d :: rest)).Fails w fun error _ =>
        error = .scopeNotFound ScopeName.session.text := by
      have further : (globalScope host ScopeName.session.key (some .session) (d :: rest)).Fails w fun error _ =>
          error = .scopeNotFound ScopeName.session.text := by
        rw [globalScope, fails_get_bind, kind]
        exact asks
      obtain ⟨call, is⟩ := Option.isSome_iff_exists.mp called.call
      rw [globalScope, fails_get_bind]
      cases own : (w.context k).kind with
      | function | closure | lambda => exact further
      | _ => simp [Context.call?, own] at is
    rw [getScope, fails_get_bind, asked, above]
    exact passes

end World

def endFailure (name : Key) : Except Error Value → Option String
  | .ok _ => none
  | .error error => some ("application [" ++ name.name ++ "]: " ++ error.message)

variable {w : World} {fuel : Nat} {l : ListenerId} {name : Key} {d : ContextId} {a : ApplicationId}

/-- The end hook of an application is called if the application was started. -/
theorem achieves_endApplication (presides : w.Presides fuel l name d a) (report : ShutdownReport) :
    (endApplication (hostOf (execute fuel)) a d l report).Achieves w fun noted later => ∃ ended : Option (Except Error Value),
      ended.isSome = (w.application a).started ∧
      noted = { report with failures := report.failures ++ (ended.bind (endFailure name)).toList } ∧
      Calling (hostOf (execute fuel)) (fun _ before => before.Secluded true name d a) w
        (ended.map fun ended => ⟨l, .applicationEnd, d, [.struct (w.application a).scope], ended⟩).toList later ∧
      Aloof d a w later := by
  have titled := presides.secluded.titled
  cases started : (w.application a).started with
  | false =>
    simp only [endApplication, achieves_bind, achieves_get, started, Bool.false_eq_true, if_false, achieves_pure]
    exact ⟨none, rfl, by simp, .done w, .refl d a w⟩
  | true =>
    simp only [endApplication, achieves_bind, achieves_get, started, if_true]
    refine (achieves_callEnd presides presides.applicationEnd _).mono ?_
    rintro (error | value) later ⟨calls, aloof, -⟩
    · exact (achieves_pure _).mpr ⟨some (.error error), rfl, by simp [endFailure, titled], calls, aloof⟩
    · exact (achieves_pure _).mpr ⟨some (.ok value), rfl, by simp [endFailure], calls, aloof⟩

/-- What the shutdown of an application did. The sessions of the map were closed in its order, and the end hook was called
for those that were started and not ended before; after them it was the application's turn. -/
structure World.ShutDown (w : World) (fuel : Nat) (a : ApplicationId) (closings : List Closing) (ended : Except Error Value)
    (report : ShutdownReport) (later : World) : Prop where
  sessions : closings.map (·.session) = (w.application a).sessions.values
  once : ∀ closing ∈ closings, closing.outcome.isSome =
    ((w.session closing.session).started && !(w.session closing.session).shutDown)
  calls : Calling (hostOf (execute fuel))
    (fun _ before => before.Secluded true (w.application a).name w.contexts.next a) w
    (closings.filterMap (·.call w ((w.application a).listener.getD silentListener) w.contexts.next a) ++
      [⟨(w.application a).listener.getD silentListener, .applicationEnd, w.contexts.next,
        [.struct (w.application a).scope], ended⟩]) later
  reported : report = {
    application := (w.application a).name.name
    sessionsClosed := closings.countP (·.failed.isNone)
    failures := closings.filterMap (·.failure w) ++ (endFailure (w.application a).name ended).toList }
  accounted : report.sessionsClosed + (closings.filterMap (·.failure w)).length = (w.application a).sessions.size
  emptied : (later.application a).sessions.entries = []
  shut : (later.application a).shutDown = true
  named : (later.application a).name = (w.application a).name
  others : ∀ b, b ≠ a → later.application b = w.application b
  size : later.sessions.size = w.sessions.size
  closed : ∀ s ∈ (w.application a).sessions.values, s.number < w.sessions.size → (later.session s).shutDown = true

/-- The end hooks that a shutdown calls: those of sessions, in the order they were closed, and then that of the application. -/
def World.endCalls (w : World) (a : ApplicationId) (closings : List Closing) (ended : Option (Except Error Value)) :
    List HookCall :=
  closings.filterMap (·.call w ((w.application a).listener.getD silentListener) w.contexts.next a) ++
    (ended.map fun ended => ⟨(w.application a).listener.getD silentListener, .applicationEnd, w.contexts.next,
      [.struct (w.application a).scope], ended⟩).toList

/-- What the shutdown of an application did, whether the application was started or not. -/
structure World.ClosedDown (w : World) (fuel : Nat) (a : ApplicationId) (closings : List Closing)
    (ended : Option (Except Error Value)) (report : ShutdownReport) (later : World) : Prop where
  sessions : closings.map (·.session) = (w.application a).sessions.values
  once : ∀ closing ∈ closings, closing.outcome.isSome =
    ((w.session closing.session).started && !(w.session closing.session).shutDown)
  due : ended.isSome = (w.application a).started
  calls : Calling (hostOf (execute fuel))
    (fun _ before => before.Secluded true (w.application a).name w.contexts.next a) w (w.endCalls a closings ended) later
  reported : report = {
    application := (w.application a).name.name
    sessionsClosed := closings.countP (·.failed.isNone)
    failures := closings.filterMap (·.failure w) ++ (ended.bind (endFailure (w.application a).name)).toList }
  emptied : (later.application a).sessions.entries = []
  marked : (later.application a).shutDown = true ∧ (later.application a).name = (w.application a).name
  others : ∀ b, b ≠ a → later.application b = w.application b
  ends : later.sessions = closings.foldl (fun table closing =>
    table.set closing.session { table.get closing.session with shutDown := true }) w.sessions
  registry : later.registry = w.registry
  size : later.applications.size = w.applications.size

theorem size_closings (closings : List Closing) (table : Table .session Session) : (closings.foldl (fun table closing =>
      table.set closing.session { table.get closing.session with shutDown := true }) table).size = table.size := by
  induction closings generalizing table with
  | nil => rfl
  | cons first rest ih => rw [List.foldl_cons, ih, Table.size_set]

theorem shutDown_closings (closings : List Closing) (table : Table .session Session) (s : SessionId)
    (issued : s.number < table.size)
    (ended : (table.get s).shutDown = true ∨ ∃ closing ∈ closings, closing.session = s) :
    ((closings.foldl (fun table closing =>
      table.set closing.session { table.get closing.session with shutDown := true }) table).get s).shutDown = true := by
  induction closings generalizing table with
  | nil =>
    rcases ended with already | ⟨_, member, -⟩
    · exact already
    · cases member
  | cons first rest ih =>
    rw [List.foldl_cons]
    refine ih _ (by rwa [Table.size_set]) ?_
    rw [Table.get_set]
    by_cases here : first.session = s
    · rw [if_pos ⟨here, here ▸ issued⟩]
      exact .inl rfl
    · rw [if_neg fun both => here both.1]
      refine ended.imp_right ?_
      rintro ⟨closing, member, rfl⟩
      rcases List.mem_cons.mp member with rfl | further
      · exact absurd rfl here
      · exact ⟨closing, further, rfl⟩

theorem World.ClosedDown.shutDown {closings : List Closing} {ended : Except Error Value} {report : ShutdownReport} {later : World}
    (closed : w.ClosedDown fuel a closings (some ended) report later) : w.ShutDown fuel a closings ended report later where
  sessions := closed.sessions
  once := closed.once
  calls := closed.calls
  reported := closed.reported
  accounted := by
    have count := congrArg List.length closed.sessions
    rw [List.length_map, Bindings.values, List.length_map] at count
    rw [closed.reported, Closing.accounts]
    exact count
  emptied := closed.emptied
  shut := closed.marked.1
  named := closed.marked.2
  others := closed.others
  size := (congrArg Table.size closed.ends).trans (size_closings closings w.sessions)
  closed := fun s mapped known => by
    rw [session, closed.ends]
    refine shutDown_closings closings w.sessions s known (.inr ?_)
    rw [← closed.sessions] at mapped
    obtain ⟨closing, member, is⟩ := List.mem_map.mp mapped
    exact ⟨closing, member, is⟩

theorem World.closedDown_of_closes {held mid last : World} {closings : List Closing} {ended : Option (Except Error Value)}
    (prepares : w.Prepares held) (table : held.sessions = w.sessions)
    (own : held.application a = { w.application a with shutDown := true })
    (others : ∀ b, b ≠ a → held.application b = w.application b) (registry : held.registry = w.registry)
    (size : held.applications.size = w.applications.size)
    (sessions : closings.map (·.session) = (w.application a).sessions.values)
    (closes : held.Closes fuel ((w.application a).listener.getD silentListener) (w.application a).name w.contexts.next a
      closings mid)
    (emptied : (mid.application a).sessions.entries = []) (due : ended.isSome = (mid.application a).started)
    (calls : Calling (hostOf (execute fuel))
      (fun _ before => before.Secluded true (w.application a).name w.contexts.next a) mid
      (ended.map fun ended => ⟨(w.application a).listener.getD silentListener, .applicationEnd, w.contexts.next,
        [.struct (mid.application a).scope], ended⟩).toList last)
    (aloof : Aloof w.contexts.next a mid last) (holds : List Hold) :
    w.ClosedDown fuel a closings ended {
      application := (w.application a).name.name
      sessionsClosed := closings.countP (·.failed.isNone)
      failures := closings.filterMap (·.failure w) ++ (ended.bind (endFailure (w.application a).name)).toList }
      { last with holds } := by
  have same : ∀ s, held.session s = w.session s := fun s => by rw [session, table, session]
  have kept : { last with holds }.application a = last.application a := rfl
  have scope : (held.application a).scope = (w.application a).scope := by rw [own]
  have still : (mid.application a).scope = (w.application a).scope := by rw [closes.own, own]
  have made : ∀ l d, (fun closing : Closing => closing.call held l d a) = fun closing => closing.call w l d a := by
    intro l d
    funext closing
    rw [Closing.call, Closing.call, same, scope]
  refine {
    sessions
    once := fun closing member => ?_
    due := due.trans (by rw [closes.own, own])
    calls := ?_
    reported := rfl
    emptied := (congrArg (·.sessions.entries) aloof.own).trans emptied
    marked := by rw [kept, aloof.own, closes.own, own]; exact ⟨rfl, rfl⟩
    others := fun b other => (aloof.others b other).trans ((closes.others b other).trans (others b other))
    ends := by rw [← table]; exact aloof.sessions.trans closes.sessions
    registry := (aloof.registry.trans closes.registry).trans registry
    size := (aloof.applications.trans closes.applications).trans size }
  · rw [← same]
    exact closes.once closing member
  · have both := closes.calls.trans calls
    rw [made, still] at both
    exact .prepare prepares (both.release holds)

section

variable (started : (w.application a).started = true) (distinct : (w.application a).sessions.values.Nodup)
  (sessionEnd : w.Admits False (LifecycleStep.isOfEnd (w.application a).name) fuel
    ((w.application a).listener.getD silentListener) .sessionEnd)
  (applicationEnd : w.Admits False (LifecycleStep.isOfEnd (w.application a).name) fuel
    ((w.application a).listener.getD silentListener) .applicationEnd)
include distinct sessionEnd applicationEnd

/-- The part of the shutdown that runs in the request opened for it. -/
theorem achieves_closeDown {held : World} (prepares : w.Prepares held) (table : held.sessions = w.sessions)
    (own : held.application a = { w.application a with shutDown := true })
    (others : ∀ b, b ≠ a → held.application b = w.application b) (registry : held.registry = w.registry)
    (size : held.applications.size = w.applications.size) (secluded : held.Secluded true (w.application a).name w.contexts.next a)
    (rounds : Nat) :
    (drainSessions (hostOf (execute fuel)) a w.contexts.next ((w.application a).listener.getD silentListener) (rounds + 2)
      { application := (w.application a).name.name }).Achieves held fun drained mid =>
        (endApplication (hostOf (execute fuel)) a w.contexts.next ((w.application a).listener.getD silentListener)
          drained).Achieves mid fun report last =>
            ∃ closings ended, ∀ holds, w.ClosedDown fuel a closings ended report { last with holds } := by
  have presides : held.Presides fuel ((w.application a).listener.getD silentListener) (w.application a).name
      w.contexts.next a := ⟨secluded, sessionEnd.carries prepares.carries, applicationEnd.carries prepares.carries⟩
  have mapped : (held.application a).sessions = (w.application a).sessions := by rw [own]
  have texts : (fun closing : Closing => closing.failure held) = fun closing => closing.failure w := by
    funext closing
    rw [Closing.failure, Closing.failure, session, table, session]
  refine (achieves_drainSessions presides (mapped ▸ distinct) rounds _).mono ?_
  rintro _ mid ⟨closings, sessions, rfl, closes, emptied⟩
  refine (achieves_endApplication closes.presides _).mono ?_
  rintro _ last ⟨ended, due, rfl, calls, aloof⟩
  refine ⟨closings, ended, fun holds => ?_⟩
  rw [mapped] at sessions
  have done := closedDown_of_closes prepares table own others registry size sessions closes emptied due calls aloof holds
  rwa [Closing.foldl_note, texts, Nat.zero_add, List.nil_append]

theorem achieves_shutdownApplication_closes {server : ContextId} (issued : a.number < w.applications.size)
    (refound : (w.application a).name.Refound) (open_ : (w.application a).shutDown = false) :
    (shutdownApplication (hostOf (execute fuel)) a server).Achieves w fun report later =>
      ∃ closings ended, w.ClosedDown fuel a closings ended report later := by
  let begun := (w.beginShutdown a).2
  have application : begun.application a = { w.application a with shutDown := true } :=
    (application_modify w a a _).trans (if_pos ⟨rfl, issued⟩)
  have elsewhere : ∀ b, b ≠ a → begun.application b = w.application b := fun b other =>
    (application_modify w a b _).trans (if_neg fun both => other both.1.symm)
  have listener : (begun.application a).listener.getD silentListener =
      (w.application a).listener.getD silentListener := by rw [application]
  have titled : (begun.application a).name = (w.application a).name := by rw [application]
  have secluded : (begun.newDetached server a).2.Secluded true (w.application a).name w.contexts.next a := by
    have aside : (begun.newDetached server a).2.Secluded true (begun.application a).name begun.contexts.next a :=
      secluded_newDetached (Nat.lt_of_lt_of_eq issued (Table.size_set ..).symm) (by rw [titled]; exact refound)
        (fun _ => by rw [application]) server
    rwa [titled] at aside
  obtain ⟨contexts, opened⟩ := begun.newDetached_eq server a
  have first : (w.beginShutdown a).1 = false := open_
  have patience : (hostOf (execute fuel)).patience = 999998 + 2 := rfl
  simp only [shutdownApplication, achieves_bind, achieves_get, achieves_modifyGet, first, Bool.false_eq_true, if_false,
    achieves_holding, entering, patience]
  rw [opened] at secluded ⊢
  rw [listener]
  let held : World := { begun with
    scopes := begun.framed.scopes, contexts
    holds := [.context w.contexts.next, .listener ((w.application a).listener.getD silentListener), .application a] ++
      w.holds }
  have prepares : w.Prepares held := ⟨rfl, rfl, rfl⟩
  refine (achieves_closeDown distinct sessionEnd applicationEnd prepares rfl application elsewhere rfl (Table.size_set ..)
    (secluded.of_rows rfl rfl) 999998).mono ?_
  intro drained mid ends
  refine ends.mono ?_
  rintro report last ⟨closings, ended, done⟩
  exact ⟨closings, ended, done _⟩

include started in
theorem achieves_shutdownApplication {server : ContextId} (issued : a.number < w.applications.size)
    (refound : (w.application a).name.Refound) (open_ : (w.application a).shutDown = false) :
    (shutdownApplication (hostOf (execute fuel)) a server).Achieves w fun report later =>
      ∃ closings ended, w.ShutDown fuel a closings ended report later := by
  refine (achieves_shutdownApplication_closes distinct sessionEnd applicationEnd issued refound open_).mono ?_
  rintro report later ⟨closings, ended, done⟩
  obtain ⟨ended, rfl⟩ := Option.isSome_iff_exists.mp (done.due.trans started)
  exact ⟨closings, ended, done.shutDown⟩

end

/-- Hooks that run in the request set aside for an application that is shut down: each starts at a context that is called
from there, touches of the session fail and touches of the application find it, and this stays so through every step. -/
structure World.Sequesters (fuel : Nat) (name : Key) (d : ContextId) (a : ApplicationId) : Prop where
  opens : ∀ (w : World) (f : FunctionId) (arguments : ScopeId), w.Secluded true name d a →
    (callContext f d arguments).Achieves w fun k opened => opened.Secluded true name d a ∧ opened.CalledFrom k d
  touches : ∀ (w : World) (k : ContextId), w.Secluded true name d a → w.CalledFrom k d →
    w.TurnsAway (hostOf (execute fuel)) k a
  steps : ∀ (w : World) (k : ContextId) (inBody : Bool) (command : Command), w.Secluded true name d a → w.CalledFrom k d →
    command.allows (LifecycleStep.isOfEnd name) = true → command.depth ≤ fuel →
      (execute fuel inBody k command).Ends w fun later => later.Secluded true name d a ∧ later.CalledFrom k d

theorem World.sequesters (fuel : Nat) (name : Key) (d : ContextId) (a : ApplicationId) : Sequesters fuel name d a where
  opens := by
    intro w f arguments secluded
    have known : d.number < w.contexts.size := issued_of_home secluded.home_self
    simp only [callContext, newScope, achieves_bind, achieves_get, achieves_modifyGet]
    let framed := (w.addScope (.new ScopeName.locals.key)).2
    have here : ∀ context, (framed.addContext context).2.context w.contexts.next = context := fun context =>
      context_addContext_next ..
    have framing : framed.Secluded true name d a := secluded.of_rows rfl rfl
    refine ⟨framing.addContext _, ?_, known, ?_⟩
    · exact congrArg Context.parent (here _)
    · refine (congrArg (fun context => context.call?.isSome) (here _)).trans ?_
      cases (w.function f).kind <;> rfl
  touches := fun w k secluded called => secluded.turnsAway called (Nat.succ_pos 999999)
  steps := by
    intro w k inBody command secluded called allowed shallow
    have home := called.home secluded
    have aloof : KeepsAloof False true name d a k (execute fuel inBody k command) :=
      keepsAloof_execute (fun n c step allowed => keepsAloof_step (Nat.succ_pos 999999) allowed) inBody allowed (.inl shallow)
    exact (aloof w secluded home).mono fun later done => ⟨done.2, called.aloof (issued_of_home home) done.1⟩

theorem Table.set_self {kind : Entity} {α : Type} [Inhabited α] (table : Table kind α) (id : Id kind) :
    table.set id (table.get id) = table := by
  obtain ⟨rows⟩ := table
  simp only [set, get, get?, mk.injEq]
  refine Array.ext (by simp) fun i _ inside => ?_
  rw [Array.getElem_setIfInBounds inside]
  split
  · next same => simp [← same] at inside ⊢; simp [inside]
  · rfl

theorem shutdownApplication_again (host : Host) (server : ContextId) (shut : (w.application a).shutDown = true) :
    shutdownApplication host a server w = (.ok { application := (w.application a).name.name }, w) := by
  have marked : { w.application a with shutDown := true } = w.application a := by rw [← shut]
  have still : (w.beginShutdown a).2 = w := by
    change { w with applications := w.applications.set a { w.application a with shutDown := true } } = w
    rw [marked, application, Table.set_self]
  have runs : (modifyGet (·.beginShutdown a) : Action Bool) w = (.ok true, w) := by
    change (Except.ok (w.application a).shutDown, (w.beginShutdown a).2) = _
    rw [shut, still]
  simp only [shutdownApplication, bind_apply, get_apply, runs, if_true]
  rfl

/-- Shutting an application down ends every session of its map and then the application, and accounts for each of them. -/
theorem shutdownApplication_closes_all {server : ContextId} (issued : a.number < w.applications.size)
    (refound : (w.application a).name.Refound) (open_ : (w.application a).shutDown = false)
    (started : (w.application a).started = true) (distinct : (w.application a).sessions.values.Nodup)
    (sessionEnd : w.Admits False (LifecycleStep.isOfEnd (w.application a).name) fuel
      ((w.application a).listener.getD silentListener) .sessionEnd)
    (applicationEnd : w.Admits False (LifecycleStep.isOfEnd (w.application a).name) fuel
      ((w.application a).listener.getD silentListener) .applicationEnd) :
    (shutdownApplication (hostOf (execute fuel)) a server).Achieves w fun report later =>
      (∃ closings ended, w.ShutDown fuel a closings ended report later) ∧
      Sequesters fuel (w.application a).name w.contexts.next a ∧
      ∀ again, shutdownApplication (hostOf (execute fuel)) a again later =
        (.ok { application := (w.application a).name.name }, later) := by
  refine (achieves_shutdownApplication started distinct sessionEnd applicationEnd issued refound open_).mono ?_
  rintro report later ⟨closings, ended, done⟩
  refine ⟨⟨closings, ended, done⟩, sequesters .., fun again => ?_⟩
  rw [shutdownApplication_again (hostOf (execute fuel)) again done.shut, done.named]

/-- The shop at closing time: one client was served, another one only came in. The end hook of a session asks for its
session back and then gives up. -/
def closingTime : World :=
  let hook (name : String) (body : Body) : Function := {
    name := .of name, kind := .plain, access := .exposed, params := [], body, source := none, frame := none,
    component := none }
  { signedIn with
    functions := ⟨#[
      hook "start" [],
      hook "end" [
        .mk (.lifecycle (.updateSettings { name := "shop", sessionManagement := true })) false,
        .mk (.lifecycle (.ensureSession none)) true,
        .mk (.raise (.thrown "come back")) false]]⟩
    applications := ⟨#[{
      name := .of "shop", scope := ⟨4⟩, sessions := ⟨[(.of "alice", ⟨0⟩), (.of "bob", ⟨1⟩)]⟩, started := true
      listener := some ⟨0⟩, created := default, lastAccess := 0, timeout := 0, sessionTimeout := 0 }]⟩
    sessions := ⟨#[
      { id := .of "alice", application := .of "shop", scope := ⟨0⟩, started := true, created := default, lastVisit := 0
        timeout := 0 },
      { id := .of "bob", application := .of "shop", scope := ⟨1⟩, created := default, lastVisit := 0, timeout := 0 }]⟩ }

theorem shutdownApplication_closes_all_closingTime :
    (shutdownApplication (hostOf (execute 1)) ⟨0⟩ ⟨0⟩).Achieves closingTime fun report later =>
      (∃ closings ended, closingTime.ShutDown 1 ⟨0⟩ closings ended report later) ∧
      Sequesters 1 (.of "shop") closingTime.contexts.next ⟨0⟩ ∧
      ∀ again, shutdownApplication (hostOf (execute 1)) ⟨0⟩ again later = (.ok { application := "shop" }, later) := by
  refine shutdownApplication_closes_all (w := closingTime) (a := ⟨0⟩) (by decide) (by unfold Key.Refound; decide +kernel) rfl rfl
    (by decide) ⟨?_, ?_, ?_⟩ ⟨?_, ?_, ?_⟩
  · rintro f ⟨⟩
    decide
  · rintro f ⟨⟩
    decide +kernel
  · rintro f ⟨⟩
    exact .inl (by decide)
  · rintro f ⟨⟩
  · rintro f ⟨⟩
  · rintro f ⟨⟩

end ScopeEngine
