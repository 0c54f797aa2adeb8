import ScopeEngine.Proofs.Closing.Drain
import ScopeEngine.Proofs.Registry.Switching
import ScopeEngine.Proofs.SessionsOff.Hooks

/-! Looking a session up under an id, whatever hooks do. Either the map has a live one, or a new one is made and its start hook
is called; if the map had one that is over, that one is retired in between, with its end hook called in a request of its own.
-/

namespace ScopeEngine

open ScopeEngine.Action Script World

def HookCall.ask (called : HookCall) : Hook × List Value := (called.hook, called.values)

namespace World

variable {w later : World} {a : ApplicationId} {c d : ContextId} {s : SessionId}

/-- End hooks are called in requests that are set aside for the application. -/
def Apartly (name : Key) (a : ApplicationId) (called : HookCall) (before : World) : Prop :=
  called.hook = .sessionEnd ∧ before.Secluded false name called.context a

/-- What is asked of the end hook when the session is retired: it is called if the session was started and not ended. -/
def endings (w : World) (a : ApplicationId) (s : SessionId) : List (Hook × List Value) :=
  if (w.session s).started && !(w.session s).shutDown then
    [(.sessionEnd, [.struct (w.session s).scope, .struct (w.application a).scope])]
  else []

structure EndsApart (w : World) (host : Host) (name : Key) (d : ContextId) (a : ApplicationId) (s : SessionId)
    (later : World) : Prop where
  calls : ∃ calls, calls.map HookCall.ask = w.endings a s ∧ Calling host (Apartly name a) w calls later
  aloof : Aloof d a (w.endSession s).2 later

section

variable {host : Host} {name : Key} (ends : w.EndsApart host name d a s later)
include ends

theorem EndsApart.kind (issued : c.number < w.contexts.size)
    (other : c ≠ d) : (later.context c).kind = (w.context c).kind :=
  ends.aloof.kind c issued other

theorem EndsApart.scope : (later.application a).scope = (w.application a).scope := by
  rw [ends.aloof.own]
  rfl

end

theorem aloof_newDetached (w : World) (parent : ContextId) (a : ApplicationId) :
    Aloof w.contexts.next a w (w.newDetached parent a).2 := by
  have scopes : Aloof w.contexts.next a w w.framed :=
    (beside_scopes ((Scope.retained_add w.scopes _).trans (Scope.retained_add _ _))).toBeside.aloof ..
  have opens : Aloof w.contexts.next a w.framed (w.newRequest parent true).2 := aloof_addContext ..
  have nodes : Aloof w.contexts.next a (w.newRequest parent true).2
      ((w.newRequest parent true).2.addNode (.application a)).2 := aloof_addContext ..
  exact ((scopes.trans opens).trans nodes).trans (aloof_modifyRequest ..)

end World

variable {w later : World} {name : Key} {a : ApplicationId} {c d : ContextId} {s : SessionId} {fuel : Nat} {l : ListenerId}

theorem keepsAloof_touch {host : Host} {closed : Bool} {stuck : Prop} (patient : 0 < host.patience) {step : LifecycleStep}
    (touch : step.isTouch = true) : KeepsAloof stuck closed name d a c (step.run host c) := by
  have touches : TouchRules host c (fun {_} action => KeepsAloof stuck closed name d a c action) := keepsAloof_touches patient
  cases step with
  | ensureApplication as => exact touches.applicationTouch as
  | ensureSession as => exact touches.sessionTouch as
  | _ => cases touch

/-- Retiring a session does not fail, whatever its end hook does. -/
theorem after_retireSession_sure (host : Host) (c : ContextId) (a : ApplicationId) (s : SessionId) (w : World) :
    (retireSession host c a s).After w (fun _ _ => True) (fun _ _ => False) := by
  simp only [retireSession, after_bind, after_get]
  split <;> simp only [after_bind, after_modifyGet, after_pure, after_holding, after_attempt, after_trivial]

section

variable {stuck : Prop}

theorem leaves_shutdownSession_apart (secluded : w.Secluded false name d a)
    (admits : w.Admits stuck LifecycleStep.isTouch fuel l .sessionEnd) (s : SessionId) :
    (shutdownSession (hostOf (execute fuel)) s d l (w.application a).scope).Leaves stuck w
      (w.EndsApart (hostOf (execute fuel)) name d a s) := by
  let ended := (w.endSession s).2
  have prepares : w.Prepares ended := ⟨rfl, rfl, rfl⟩
  rw [Leaves, shutdownSession_eq]
  cases due : (w.session s).started && !(w.session s).shutDown with
  | false =>
    exact ⟨⟨[], by simp only [endings, due, Bool.false_eq_true, if_false, List.map_nil],
      .prepare prepares (.done ended)⟩, .refl d a ended⟩
  | true =>
    have here : ended.Secluded false name d a := secluded.of_rows rfl rfl
    have steps : ∀ n c step, LifecycleStep.isTouch step = true →
        KeepsAloof stuck false name d a c (LifecycleStep.run (hostOf (execute n)) c step) :=
      fun n c step touch => keepsAloof_touch (Nat.succ_pos 999999) touch
    have leaves := (leaves_callHook steps here (admits.carries prepares.carries)
      [.struct (w.session s).scope, .struct (w.application a).scope]).ran
    refine (leaves.mono fun later => ?_).bind (fun _ done => done) fun _ _ done => done
    rintro ⟨⟨aloof, -⟩, outcome, ran⟩
    refine ⟨⟨[⟨l, .sessionEnd, d, _, outcome⟩], ?_, .prepare prepares (.call ⟨rfl, here⟩ ran (.done later))⟩, aloof⟩
    simp only [endings, due, if_true, List.map_cons, List.map_nil, HookCall.ask]

variable (sane : w.Sane) (grounded : w.Grounded) (issued : a.number < w.applications.size) (served : w.Served c)
include sane grounded issued served

theorem leaves_retireSession_apart (shallow : ∀ f,
      (w.listener ((w.application a).listener.getD (w.listenerAt c))).hook .sessionEnd = some f →
        depthOf (w.function f).body ≤ fuel ∨ stuck) (s : SessionId) :
    (retireSession (hostOf (execute fuel)) c a s).Leaves stuck w fun later =>
      w.EndsApart (hostOf (execute fuel)) (w.application a).name w.contexts.next a s later ∧ later.holds = w.holds := by
  obtain ⟨server, below⟩ := served.nearest
  have secluded : (w.newDetached server a).2.Secluded false (w.application a).name w.contexts.next a :=
    secluded_newDetached issued (sane.named a issued) (fun closed : false = true => nomatch closed) server
  have opens := w.aloof_newDetached server a
  obtain ⟨contexts, opened⟩ := w.newDetached_eq server a
  rw [opened] at secluded opens
  let l := (w.application a).listener.getD (w.listenerAt c)
  let held : World := { w with scopes := w.framed.scopes, contexts, holds := [.context w.contexts.next, .listener l] ++ w.holds }
  have prepares : w.Prepares held := ⟨rfl, rfl, rfl⟩
  have there : held.Secluded false (w.application a).name w.contexts.next a := secluded.of_rows rfl rfl
  have admits := sane.admits grounded (fun _ touch => touch) l .sessionEnd shallow
  have ends := leaves_shutdownSession_apart there (admits.carries prepares.carries) s
  have closes : ∀ last : World, held.EndsApart (hostOf (execute fuel)) (w.application a).name w.contexts.next a s last →
      w.EndsApart (hostOf (execute fuel)) (w.application a).name w.contexts.next a s { last with holds := w.holds } := by
    intro last ended
    obtain ⟨calls, asked, calling⟩ := ended.calls
    have begins : Aloof w.contexts.next a (w.endSession s).2 (held.endSession s).2 :=
      { opens with extends_ := { opens.extends_ with }, sessions := rfl }
    exact ⟨⟨calls, asked, .prepare prepares (calling.release w.holds)⟩,
      (begins.trans ended.aloof).trans (aloof_holds ..)⟩
  rw [retireSession, leaves_get_bind]
  simp only [below]
  rw [leaves_modifyGet_bind, opened, leaves_holding]
  refine (Leaves.attempt ?_).bind (fun _ done => done) fun _ _ done => done
  rw [entering, leaves_holding]
  exact ends.mono fun last ended => ⟨closes last ended, rfl⟩

theorem after_retireSession_apart (s : SessionId) : (retireSession (hostOf (execute fuel)) c a s).After w
      (fun _ later => w.EndsApart (hostOf (execute fuel)) (w.application a).name w.contexts.next a s later ∧
        later.holds = w.holds) (fun _ _ => False) := by
  have leaves : (retireSession (hostOf (execute fuel)) c a s).Leaves True w _ :=
    leaves_retireSession_apart sane grounded issued served (fun _ _ => .inr trivial) s
  exact ((leaves_true_iff.mp leaves).and (after_retireSession_sure ..)).mono (fun _ _ done => done.1) fun _ _ never => never.2

end

/-- How a new session was opened: which session it replaced and what was called for that, the world that its start hook
found, and what the hook came to. -/
structure Opening where
  stale : Option SessionId
  replaced : List HookCall
  ready : World
  value : Value
  started : World

namespace World

variable {r : ContextId}

/-- A new session was put into the map under the id, with a scope that only has its seeds, and its start hook was called. -/
structure Opens (w : World) (host : Host) (r : ContextId) (l : ListenerId) (a : ApplicationId) (id : Key) (opening : Opening)
    (later : World) : Prop where
  stale : ∀ t, opening.stale = some t → (w.application a).sessions.find? id = some t
  replaced : opening.replaced.map HookCall.ask = opening.stale.toList.flatMap (w.endings a)
  calls : Calling host (Apartly (w.application a).name a) (w.insertSession a id opening.stale).2 opening.replaced opening.ready
  scope : (opening.ready.session w.sessions.next).scope = w.scopes.next
  untouched : opening.stale = none →
    opening.ready.scope w.scopes.next = sessionScope id (w.application a).name w.clock
  ran : callHook host l .sessionStart r [] opening.ready = (.ok opening.value, opening.started)
  lets : proceeds opening.value = true
  settled : later = opening.started.settled w.sessions.next

structure Relieved (w : World) (host : Host) (r : ContextId) (a : ApplicationId) (stale : Option SessionId) (later : World) :
    Prop where
  calls : ∃ calls, calls.map HookCall.ask = stale.toList.flatMap (w.endings a) ∧
    Calling host (Apartly (w.application a).name a) w calls later
  kind : (later.context r).kind = (w.context r).kind
  session : ∀ t, stale ≠ some t → later.session t = w.session t
  map : (later.application a).sessions = (w.application a).sessions
  untouched : stale = none → later = w

theorem scope_insertSession (w : World) (a : ApplicationId) (id : Key) (stale : Option SessionId) :
    (w.insertSession a id stale).2.scope w.scopes.next = sessionScope id (w.application a).name w.clock :=
  Table.get_add_next ..

theorem Relieved.joining {host : Host} {id : Key} {stale : Option SessionId} {request : Request}
    (relieved : (w.insertSession a id stale).2.Relieved host r a stale later)
    (issued : ∀ t, stale = some t → t.number < w.sessions.size) (at_ : (w.context r).request? = some request) :
    later.session w.sessions.next = (w.insertSession a id stale).2.session w.sessions.next ∧
      (later.context r).request? = some request ∧ ∃ calls, calls.map HookCall.ask = stale.toList.flatMap (w.endings a) ∧
        Calling host (Apartly (w.application a).name a) (w.insertSession a id stale).2 calls
          (later.joining r w.sessions.next) := by
  have other : ∀ t, stale = some t → t ≠ w.sessions.next := by
    rintro t same rfl
    exact Nat.lt_irrefl _ (issued _ same)
  obtain ⟨calls, asked, calling⟩ := relieved.calls
  refine ⟨relieved.session _ fun same => other _ same rfl, ?_, calls, ?_, ?_⟩
  · rw [request?_eq_some, relieved.kind]
    exact request?_eq_some.mp at_
  · rw [asked]
    cases same : stale with
    | none => rfl
    | some t =>
      have scope := insertSession_keeps w a id (some t) a Application.scope fun _ _ => rfl
      simp only [Option.toList_some, List.flatMap_cons, List.flatMap_nil, endings, scope]
      rw [session_insertSession, if_neg (other t same)]
  · rw [insertSession_keeps w a id stale a Application.name fun _ _ => rfl] at calling
    have prepares : later.Prepares (later.joining r w.sessions.next) := by
      obtain ⟨contexts, is⟩ := later.joining_eq r w.sessions.next
      rw [is]
      exact ⟨rfl, rfl, rfl⟩
    have both := calling.trans (.prepare prepares (.done _))
    rwa [List.append_nil] at both

theorem Served.calm (served : w.Served c) (issued : c.number < w.contexts.size) (calm : w.Calm later) : later.Served c :=
  served.still issued calm.extends_ fun _ known => calm.view known ContextKind.type fun kind => by cases kind <;> rfl

end World

variable {r : ContextId} {request : Request} {id : Key} {host : Host}

/-- A session that was not refused is started, or its start is to be made, or the touch never answers. -/
theorem after_adoptSession_kept (at_ : (w.context r).request? = some request) (kept : (w.session s).discarded = false)
    (a : ApplicationId) (l : ListenerId) :
    (adoptSession host r a s l).After w (fun adopted _ => adopted = true) (fun _ _ => True) := by
  cases state : (w.session s).startState with
  | fresh => exact (after_adoptSession_fresh at_ state a l).partly (fun _ _ done => done.1)
  | gone =>
    simp only [Session.startState, startState, kept] at state
    split at state
    · cases state
    · split at state <;> cases state
  | ready | busy =>
    have still := (w.startState_joined r s).trans state
    have starts : (startSession host a s r l).After (w.joined r s) (fun ready _ => ready = true) (fun _ _ => True) := by
      simp [startSession, still]
    have splices : (spliceNew r (.session s)).Achieves w fun _ later => later = w.joined r s :=
      ⟨_, _, spliceSession_run at_ s, rfl⟩
    simp only [adoptSession, after_bind, after_attempt]
    refine splices.after.mono ?_ (fun _ _ (never : False) => never.elim)
    rintro _ _ rfl
    refine starts.mono ?_ (fun _ _ _ => by simp [excise])
    rintro _ _ rfl
    simp

section

variable (sane : w.Sane) (grounded : w.Grounded) (issued : a.number < w.applications.size) (served : w.Served r)
  (at_ : (w.context r).request? = some request)
include sane grounded issued served at_

theorem leaves_retireStale {stuck : Prop} (shallow : ∀ f,
      (w.listener ((w.application a).listener.getD (w.listenerAt r))).hook .sessionEnd = some f →
        depthOf (w.function f).body ≤ fuel ∨ stuck) (stale : Option SessionId) :
    (retireStale (hostOf (execute fuel)) r a stale).Leaves stuck w (w.Relieved (hostOf (execute fuel)) r a stale) := by
  cases stale with
  | none => exact ⟨⟨[], rfl, .done w⟩, rfl, fun _ _ => rfl, rfl, fun _ => rfl⟩
  | some t =>
    refine (leaves_retireSession_apart sane grounded issued served shallow t).mono ?_
    rintro later ⟨⟨⟨calls, asked, calling⟩, aloof⟩, -⟩
    refine ⟨⟨calls, by simp [asked], calling⟩, ?_, fun u other => ?_, by rw [aloof.own]; rfl, fun none => by cases none⟩
    · have inside := issued_of_request at_
      refine aloof.kind r inside fun is => ?_
      rw [is] at inside
      exact Nat.lt_irrefl _ inside
    · exact session_close (fun same => other (congrArg some same.symm)) aloof.sessions

theorem after_openSession (fuel : Nat) (l : ListenerId) (id : Key) (stale : Option SessionId)
    (found : ∀ t, stale = some t → (w.application a).sessions.find? id = some t ∧ t.number < w.sessions.size) :
    (do
      retireStale (hostOf (execute fuel)) r a stale
      adoptSession (hostOf (execute fuel)) r a w.sessions.next l).After (w.insertSession a id stale).2
      (fun adopted later => adopted = true ∧ ∃ opening, w.Opens (hostOf (execute fuel)) r l a id opening later)
      (fun _ _ => True) := by
  let made := (w.insertSession a id stale).2
  obtain ⟨own, fresh⟩ := w.session_insertSession_next a id stale
  have inserts := w.calm_insertSession a id stale
  have inside : a.number < made.applications.size := by rw [inserts.applications]; exact issued
  have clears : (retireStale (hostOf (execute fuel)) r a stale).Leaves True made _ :=
    leaves_retireStale (sane.calm inserts) (inserts.grounded grounded) inside (served.calm (issued_of_request at_) inserts) at_
      (fun _ _ => .inr trivial) stale
  rw [after_bind]
  refine (leaves_true_iff.mp clears).partly ?_
  intro _ mid relieved
  obtain ⟨session, there, calls, asked, calling⟩ := relieved.joining (fun t same => (found t same).2) at_
  refine (after_adoptSession_fresh there (by rw [session]; exact fresh) a l).partly ?_
  rintro _ later ⟨rfl, value, started, ran, lets, rfl⟩
  refine ⟨rfl, ⟨stale, calls, mid.joining r w.sessions.next, value, started⟩, ?_⟩
  exact {
    stale := fun t same => (found t same).1
    replaced := asked
    calls := calling
    scope := by
      rw [session_joining, ← own, ← session]
      exact session_modify_keeps mid w.sessions.next w.sessions.next Session.scope fun _ => rfl
    untouched := fun none => by
      obtain ⟨contexts, is⟩ := mid.joining_eq r w.sessions.next
      rw [is, relieved.untouched none]
      exact w.scope_insertSession a id stale
    ran
    lets
    settled := rfl }

theorem after_acquireSession_opens (filing : w.Filing) (rounds : Nat) :
    (acquireSession (hostOf (execute fuel)) r a id l (rounds + 1)).After w
      (fun got later => (got = .closed ∧ (w.application a).shutDown = true) ∨
        (∃ s, got = .session s ∧ (w.application a).sessions.find? id = some s) ∨
        (got = .session w.sessions.next ∧ ∃ opening, w.Opens (hostOf (execute fuel)) r l a id opening later))
      (fun _ _ => True) := by
  cases shut : (w.application a).shutDown with
  | true =>
    have closed : w.findOrCreateSession a id = (none, w) := if_pos shut
    simp only [acquireSession, after_bind, after_modifyGet, closed, after_pure, and_self, true_or]
  | false =>
    by_cases vacant : ∀ s, w.stale a id = some s → (w.session s).isDefunctAt w.clock = true
    · have opens := after_openSession sane grounded issued served at_ fuel l id (w.stale a id) fun t same =>
        ⟨same, filing.issued (Bindings.mem_values_of_find? same)⟩
      rw [After, acquireSession_of_vacant shut vacant]
      rw [after_bind] at opens
      refine (after_bind ..).mpr (opens.partly fun _ mid adopts => ?_)
      rw [after_bind]
      refine adopts.partly ?_
      rintro _ later ⟨rfl, opened⟩
      exact .inr (.inr ⟨rfl, opened⟩)
    · obtain ⟨s, bound, live⟩ : ∃ s, w.stale a id = some s ∧ (w.session s).isDefunctAt w.clock = false := by simpa using vacant
      have found := findOrCreateSession_of_bound shut bound live
      simp only [Session.isDefunctAt, Bool.or_eq_false_iff] at live
      simp only [acquireSession, after_bind, after_modifyGet, found, Placed.stale, Placed.session]
      refine (after_adoptSession_kept at_ live.1.2 a l).partly ?_
      rintro _ later rfl
      exact .inr (.inl ⟨s, rfl, bound⟩)

end

def World.looking (w : World) (a : ApplicationId) (l : ListenerId) : World :=
  { w.touchApplication a with holds := .listener l :: .application a :: w.holds }

theorem after_ensureSession_opens (work : w.AtWork c r a) (grounded : w.Grounded) (served : w.Served r)
    (at_ : (w.context r).request? = some request) (bare : request.sessionNode = none) (identified : request.sessionId = some id) :
    (ensureSession (hostOf (execute fuel)) c).After w
      (fun found later => ∀ s, found = some s → (w.application a).sessions.find? id = some s ∨
        (s = w.sessions.next ∧ ∃ opening last,
          (w.looking a request.listener).Opens (hostOf (execute fuel)) r request.listener a id opening last ∧
            later = { last with holds := w.holds }))
      (fun _ _ => True) := by
  obtain ⟨rounds, patience⟩ := Nat.exists_eq_succ_of_ne_zero
    (show (hostOf (execute fuel)).patience ≠ 0 from Nat.succ_ne_zero 999999)
  obtain ⟨now, there, usable⟩ := work.running.usable
  cases there.symm.trans at_
  obtain ⟨request', found, here⟩ := requestOf_home work.running.home
  cases here.symm.trans at_
  cases managed : request.settings.sessionManagement with
  | false =>
    simp only [ensureSession, patience, touchSessionOf, after_bind, after_get, found, managed, Bool.not_false, if_true,
      after_pure]
    exact fun _ none => by cases none
  | true =>
    let looked := w.looking a request.listener
    have touches := work.inOrder.orders_touchApplication a
    have looks : w.Orders looked :=
      touches.trans (touches.inOrder.orders_holds (.listener request.listener :: .application a :: w.holds))
    have ready := work.orders looks
    have still : looked.application a = _ := (w.respects_touchApplication a).application a work.issued
    have acquires : (acquireSession (hostOf (execute fuel)) r a id request.listener (rounds + 1)).After looked _ _ :=
      after_acquireSession_opens (w := looked) ready.sane (looks.calm.grounded grounded) ready.issued
        (served.calm (issued_of_request at_) looks.calm) at_ ready.inOrder.toFiling rounds
    rw [After, ensureSession_eq_of_bare work.running at_ managed bare identified patience]
    change (claimSession (hostOf (execute fuel)) r request a id _).After (w.touchApplication a) _ _
    rw [claimSession, after_holding, after_holding, after_bind, patience]
    refine acquires.partly ?_
    rintro _ last (⟨rfl, shut⟩ | ⟨s, rfl, bound⟩ | ⟨rfl, opening, opens⟩)
    · -- An application that is shut down is of use to detached requests only, and they get no session from it.
      have detached : request.detached = true := by
        refine usable.resolve_right fun defunct => ?_
        rw [still] at shut
        cases shut.symm.trans (Bool.or_eq_false_iff.mp defunct).2
      simp only [detached, if_true, after_fail]
    · simp only [after_pure]
      intro t same
      cases same
      rw [still] at bound
      exact .inl bound
    · simp only [after_pure]
      intro t same
      cases same
      exact .inr ⟨rfl, opening, last, opens, rfl⟩

end ScopeEngine
