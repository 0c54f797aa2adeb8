import ScopeEngine.Proofs.Touching

/-! How a session is opened: the request is pointed at its id, the session is put into the map and into the request, and its
start hook is called. If the hook does not let it proceed, the session leaves both again. A rotation visits the current session
before that. -/

namespace ScopeEngine

open ScopeEngine.Action World

namespace World

def switched (w : World) (r : ContextId) (id : Key) : World :=
  (w.modifyRequest r (·.excise .session)).modifyRequest r fun request =>
    { request with sessionId := some id }

def touched (w : World) (a : ApplicationId) (old : SessionId) : World := (w.touchApplication a).touchSession old

def nextId (w : World) : Key := .of (DrawnId.text w.drawn)

def prepared (w : World) (a : ApplicationId) (old : SessionId) : World :=
  { (w.touched a old).touchApplication a with holds := .application a :: w.holds, drawn := w.drawn + 1 }

def cleared (w : World) (r : ContextId) (a : ApplicationId) (old : SessionId) : World :=
  (w.prepared a old).switched r w.nextId

def readyToStart (w : World) (r : ContextId) (a : ApplicationId) (old : SessionId) (l : ListenerId) : World :=
  { (w.cleared r a old).touchApplication a with
    holds := .listener l :: .application a :: (w.cleared r a old).holds }.withSession r a w.nextId

def poised (w : World) (a : ApplicationId) (started : World) : World :=
  { started.settled w.sessions.next with holds := .application a :: w.holds }

/-- The session is the one that touching finds: live and of the request's id and application. -/
structure Finds (w : World) (c r : ContextId) (request : Request) (a : ApplicationId) (s : SessionId) : Prop where
  home : w.home c = some r
  at_ : (w.context r).request? = some request
  anchored : w.Anchored r a (w.standingOf request)
  usable : (w.application a).isDefunct = false
  managed : request.settings.sessionManagement = true
  spliced : (w.standingOf request).session = some s
  identified : ∃ id, request.sessionId = some id ∧ ((w.session s).id == id) = true
  belongs : ((w.session s).application == (w.application a).name) = true
  live : (w.session s).isDefunctAt w.readClock.2.clock = false
  issued : s.number < w.sessions.size

/-- The session is the one that the request works with: touching finds it, it is started, and the application that is spliced
in has it stored. -/
structure Current (w : World) (c r : ContextId) (request : Request) (a : ApplicationId) (old : SessionId) : Prop
    extends w.Finds c r request a old where
  started : (w.session old).started = true
  stored : w.Stored a old
  single : (w.application a).sessions.Single (w.session old).id

end World

variable {w later : World} {c r : ContextId} {request : Request} {a : ApplicationId} {old : SessionId} {host : Host} {id : Key}

theorem World.Finds.running (finds : w.Finds c r request a old) : w.Running c r a :=
  ⟨issued_of_home finds.home, finds.home, _, finds.anchored⟩

theorem achieves_ensureSession_finds (finds : w.Finds c r request a old) (patient : 0 < host.patience) :
    (ensureSession host c).Achieves w fun found later =>
      found = some old ∧ later = w.touched a old := by
  obtain ⟨fuel, patience⟩ := Nat.exists_eq_add_one.mpr patient
  obtain ⟨request', found, there⟩ := requestOf_home finds.home
  cases finds.at_.symm.trans there
  obtain ⟨id, identified, same⟩ := finds.identified
  have spliced : (w.touchApplication a).splicedSession r = some old :=
    (splicedSession_eq (requestOf_self (w := w.touchApplication a) there)).trans finds.spliced
  have name : ((w.touchApplication a).application a).name = (w.application a).name :=
    application_modify_keeps _ a a (·.name) fun _ => rfl
  have fits : (((w.touchApplication a).session old).id == id &&
      ((w.touchApplication a).session old).application == ((w.touchApplication a).application a).name &&
      !((w.touchApplication a).session old).isDefunctAt (w.touchApplication a).clock) = true := by
    rw [name, Bool.and_eq_true, Bool.and_eq_true, Bool.not_eq_eq_eq_not, Bool.not_true]
    exact ⟨⟨same, finds.belongs⟩, finds.live⟩
  have again : ((w.touchApplication a).context r).request? = some request := there
  simp only [ensureSession, patience, touchSessionOf, achieves_bind, achieves_get, found, finds.managed, Bool.not_true,
    Bool.false_eq_true, if_false]
  refine (achieves_ensureApplication finds.anchored.running).mono ?_
  rintro _ _ ⟨rfl, rfl⟩
  simp only [achieves_bind, achieves_get, again, Option.getD_some, chooseSessionId, identified, achieves_pure, spliced,
    fits, if_true, achieves_modify, touched, and_self]

section

variable (home : w.home c = some r) (at_ : (w.context r).request? = some request)
include home at_

theorem achieves_setSessionId (spliced : (w.standingOf request).session = some old) (other : ((w.session old).id == id) = false) :
    (setSessionId c id).Achieves w fun _ later => later = w.switched r id := by
  obtain ⟨request', found, there⟩ := requestOf_home home
  cases at_.symm.trans there
  have here := requestOf_self there
  have session : w.splicedSession r = some old := (splicedSession_eq here).trans spliced
  simp only [setSessionId, theRequest, achieves_bind, achieves_get, found, achieves_pure, session, other, Bool.not_false,
    if_true, excise, achieves_modifyGet, achieves_modify, World.excise, here]
  rfl

theorem achieves_setSessionId_bare (bare : request.sessionNode = none) (id : Key) :
    (setSessionId c id).Achieves w fun _ later =>
      later = w.modifyRequest r fun request => { request with sessionId := some id } := by
  obtain ⟨request', found, there⟩ := requestOf_home home
  cases at_.symm.trans there
  have session : w.splicedSession r = none := by
    rw [splicedSession_eq (requestOf_self there), standingOf, bare]
    rfl
  simp only [setSessionId, theRequest, achieves_bind, achieves_get, found, achieves_pure, session, achieves_modify]

end

namespace World

/-- How things stand once the request works with the new session. -/
structure Opened (w : World) (r : ContextId) (request : Request) (a : ApplicationId) (old : SessionId) (later : World) :
    Prop where
  extends_ : w.Extends later
  pointed : (later.context r).request? =
    some { request.splice (.session w.contexts.next) with sessionId := some w.nextId }
  contexts : w.contexts.size < later.contexts.size
  node : (later.context w.contexts.next).kind = .session w.sessions.next
  applications : w.applications.size ≤ later.applications.size
  application : ∃ time, later.application a = { w.application a with
    sessions := (w.application a).sessions.insert w.nextId w.sessions.next, lastAccess := time }
  sessions : w.sessions.size < later.sessions.size
  old : ∃ time, later.session old = { w.session old with lastVisit := time }
  id : (later.session w.sessions.next).id = w.nextId
  scope : (later.session w.sessions.next).scope = w.scopes.next
  scopes : w.scopes.size < later.scopes.size

theorem Opened.respects {last : World} (opened : w.Opened r request a old later)
    (known : a.number < w.applications.size) (issued : old.number < w.sessions.size) (respects : later.Respects last) :
    w.Opened r request a old last where
  extends_ := opened.extends_.trans respects.extends_
  pointed := respects.at_ opened.pointed
  contexts := Nat.lt_of_lt_of_le opened.contexts respects.contexts
  node := (respects.kind _ opened.contexts).trans opened.node
  applications := Nat.le_trans opened.applications respects.applications
  application := by
    obtain ⟨time, is⟩ := opened.application
    exact ⟨_, by rw [respects.application a (Nat.lt_of_lt_of_le known opened.applications), is]⟩
  sessions := Nat.lt_of_lt_of_le opened.sessions respects.sessions
  old := by
    obtain ⟨time, is⟩ := opened.old
    exact ⟨_, by rw [respects.session old (Nat.lt_trans issued opened.sessions), is]⟩
  id := by rw [respects.session w.sessions.next opened.sessions]; exact opened.id
  scope := by rw [respects.session w.sessions.next opened.sessions]; exact opened.scope
  scopes := Nat.lt_of_lt_of_le opened.scopes respects.scopes

structure Visits (w later : World) : Prop extends w.Respects later where
  same : later = { w with
    scopes := later.scopes, applications := later.applications, sessions := later.sessions, clock := later.clock,
    drawn := later.drawn, holds := later.holds }
  scopes_size : later.scopes.size = w.scopes.size
  applications_size : later.applications.size = w.applications.size
  sessions_size : later.sessions.size = w.sessions.size

theorem Visits.trans {last : World} (first : w.Visits later) (second : later.Visits last) : w.Visits last where
  toRespects := first.toRespects.trans second.toRespects
  same := by rw [second.same, first.same]
  scopes_size := second.scopes_size.trans first.scopes_size
  applications_size := second.applications_size.trans first.applications_size
  sessions_size := second.sessions_size.trans first.sessions_size

theorem Visits.contexts_eq (visits : w.Visits later) : later.contexts = w.contexts := by
  rw [visits.same]

theorem visits_touchApplication (w : World) (a : ApplicationId) : w.Visits (w.touchApplication a) where
  toRespects := w.respects_touchApplication a
  same := rfl
  scopes_size := rfl
  applications_size := Table.size_set ..
  sessions_size := rfl

theorem visits_touchSession (w : World) (s : SessionId) : w.Visits (w.touchSession s) where
  toRespects := w.respects_touchSession s
  same := by
    simp only [touchSession]
    split <;> rfl
  scopes_size := by
    simp only [touchSession]
    split
    · exact Table.size_set ..
    · rfl
  applications_size := by
    simp only [touchSession]
    split <;> rfl
  sessions_size := by
    simp only [touchSession]
    split <;> exact Table.size_set ..

theorem visits_touched (w : World) (a : ApplicationId) (s : SessionId) : w.Visits (w.touched a s) :=
  (w.visits_touchApplication a).trans (visits_touchSession _ s)

theorem visits_prepared (w : World) (a : ApplicationId) (old : SessionId) : w.Visits (w.prepared a old) := by
  have draws : ((w.touched a old).touchApplication a).Visits (w.prepared a old) :=
    ⟨respects_of_same rfl rfl rfl (Nat.le_refl _), rfl, rfl, rfl, rfl⟩
  exact ((w.visits_touched a old).trans (visits_touchApplication _ a)).trans draws

theorem request?_switched (at_ : (w.context r).request? = some request) (id : Key) :
    ((w.switched r id).context r).request? = some { request.excise .session with sessionId := some id } := by
  rw [switched, request?_modifyRequest, if_pos rfl, request?_modifyRequest, if_pos rfl, at_]
  rfl

section

variable (w : World) (r : ContextId) (id : Key)

theorem extends_switched : w.Extends (w.switched r id) :=
  (w.extends_modifyRequest r _).trans (extends_modifyRequest ..)

theorem standingOf_switched (request : Request) : (w.switched r id).standingOf request = w.standingOf request := by
  rw [switched, standingOf_modifyRequest, standingOf_modifyRequest]

theorem switched_eq : ∃ contexts, w.switched r id = { w with contexts } := by
  obtain ⟨contexts, first⟩ := w.modifyRequest_eq r (·.excise .session)
  obtain ⟨contexts', second⟩ := modifyRequest_eq { w with contexts } r fun request => { request with sessionId := some id }
  exact ⟨contexts', by rw [switched, first, second]⟩

end

structure Cleared (w : World) (r : ContextId) (request : Request) (a : ApplicationId) (old : SessionId) (later : World) :
    Prop where
  extends_ : w.Extends later
  contexts : later.contexts.size = w.contexts.size
  pointed : (later.context r).request? = some { request.excise .session with sessionId := some w.nextId }
  applications : later.applications.size = w.applications.size
  application : ∃ time, later.application a = { w.application a with lastAccess := time }
  sessions : later.sessions.size = w.sessions.size
  old : ∃ time, later.session old = { w.session old with lastVisit := time }
  scopes : later.scopes.size = w.scopes.size

theorem Cleared.visits {last : World} (cleared : w.Cleared r request a old later) (visits : later.Visits last)
    (known : a.number < w.applications.size) (issued : old.number < w.sessions.size) : w.Cleared r request a old last where
  extends_ := cleared.extends_.trans visits.extends_
  contexts := by rw [visits.contexts_eq, cleared.contexts]
  pointed := visits.at_ cleared.pointed
  applications := by rw [visits.applications_size, cleared.applications]
  application := by
    obtain ⟨time, is⟩ := cleared.application
    exact ⟨_, by rw [visits.application a (by rwa [cleared.applications]), is]⟩
  sessions := by rw [visits.sessions_size, cleared.sessions]
  old := by
    obtain ⟨time, is⟩ := cleared.old
    exact ⟨_, by rw [visits.session old (by rwa [cleared.sessions]), is]⟩
  scopes := by rw [visits.scopes_size, cleared.scopes]

section

variable (w : World) (r : ContextId)

theorem size_joined (s : SessionId) : (w.joined r s).contexts.size = w.contexts.size + 1 := by
  rw [joined, modifyRequest_size]
  exact Table.size_add ..

theorem extends_joined (s : SessionId) : w.Extends (w.joined r s) :=
  (w.respects_addContext _).extends_.trans (extends_modifyRequest ..)

theorem session_withSession (a : ApplicationId) (id : Key) (t : SessionId) :
    (w.withSession r a id).session t =
      if t = w.sessions.next then { w.arrival a id with starting := true } else w.session t := by
  let made := (w.insertSession a id none).2
  obtain ⟨contexts, joins⟩ := made.joined_eq r w.sessions.next
  have marks : (w.withSession r a id).session t =
      (made.modifySession w.sessions.next fun session => { session with starting := true }).session t := by
    rw [World.withSession, joins]
    rfl
  have known : w.sessions.next.number < made.sessions.size :=
    Nat.lt_of_lt_of_eq (Nat.lt_succ_self _) (size_insertSession ..).symm
  have inserted := w.session_insertSession a id none
  rw [marks, session_modify]
  by_cases here : t = w.sessions.next
  · rw [if_pos ⟨here.symm, known⟩, if_pos here, inserted, if_pos rfl]
  · rw [if_neg fun both => here both.1.symm, if_neg here, inserted, if_neg here]

end

theorem Cleared.withSession (cleared : w.Cleared r request a old later) (known : a.number < w.applications.size)
    (issued : old.number < w.sessions.size) : w.Opened r request a old (later.withSession r a w.nextId) := by
  let made := (later.insertSession a w.nextId none).2
  have fresh : later.sessions.next = w.sessions.next := congrArg Id.mk cleared.sessions
  have node : made.contexts.next = w.contexts.next := congrArg Id.mk cleared.contexts
  have target : later.scopes.next = w.scopes.next := congrArg Id.mk cleared.scopes
  obtain ⟨contexts, joins⟩ := made.joined_eq r w.sessions.next
  have is : later.withSession r a w.nextId = (made.joined r w.sessions.next).beginSessionStart w.sessions.next := by
    rw [World.withSession, fresh]
  have other : w.sessions.next ≠ old := by
    rintro rfl
    exact Nat.lt_irrefl _ issued
  have applications : (later.withSession r a w.nextId).applications = made.applications := by rw [is, joins]; rfl
  have size : made.sessions.size = w.sessions.size + 1 := by rw [size_insertSession, cleared.sessions]
  have made_fresh := (later.session_withSession r a w.nextId w.sessions.next).trans (if_pos fresh.symm)
  have at_ : (made.context r).request? = _ := cleared.pointed
  have grown : w.Extends made := cleared.extends_.trans (extends_of_contexts rfl)
  exact {
    extends_ := by
      rw [is]
      exact (grown.trans (made.extends_joined r w.sessions.next)).trans (extends_of_contexts rfl)
    pointed := by
      rw [is, ← node]
      refine (request?_joined at_ w.sessions.next).trans ?_
      exact congrArg (fun request : Request => some { request with sessionId := some w.nextId })
        (request.splice_excise (.session made.contexts.next))
    contexts := by
      rw [is]
      exact Nat.lt_of_lt_of_eq (Nat.lt_succ_of_le (Nat.le_of_eq cleared.contexts.symm)) (made.size_joined r _).symm
    node := by
      rw [is, ← node]
      exact made.kind_joined r w.sessions.next
    applications := by
      rw [applications, ← cleared.applications]
      exact Nat.le_of_eq (Table.size_set ..).symm
    application := by
      obtain ⟨time, there⟩ := cleared.application
      refine ⟨time, ?_⟩
      rw [World.application, applications, ← fresh]
      exact (application_insertSession ..).trans ((if_pos ⟨rfl, by rwa [cleared.applications]⟩).trans (by rw [there]))
    sessions := by
      rw [is, joins]
      exact Nat.lt_of_lt_of_eq (Nat.lt_of_lt_of_eq (Nat.lt_succ_self _) size.symm) (Table.size_set ..).symm
    old := by
      obtain ⟨time, there⟩ := cleared.old
      refine ⟨time, ?_⟩
      rw [session_withSession, if_neg fun same => other (fresh.symm.trans same.symm), there]
    id := by rw [made_fresh]
    scope := by
      rw [made_fresh]
      exact target
    scopes := by
      have grows : made.scopes.size = later.scopes.size + 1 := Table.size_add ..
      rw [is, joins]
      exact Nat.lt_of_lt_of_eq (Nat.lt_succ_self _) (by rw [← cleared.scopes]; exact grows.symm) }

namespace Current

variable (current : w.Current c r request a old)
include current

theorem cleared : w.Cleared r request a old (w.cleared r a old) := by
  have visits := w.visits_prepared a old
  have contexts : (w.prepared a old).contexts = w.contexts := visits.contexts_eq
  obtain ⟨switched, is⟩ := (w.prepared a old).switched_eq r w.nextId
  have applications : (w.cleared r a old).applications = (w.prepared a old).applications := by
    rw [World.cleared, is]
  have sessions : (w.cleared r a old).sessions = (w.prepared a old).sessions := by
    rw [World.cleared, is]
  have scopes : (w.cleared r a old).scopes = (w.prepared a old).scopes := by
    rw [World.cleared, is]
  exact {
    extends_ := visits.extends_.trans (extends_switched ..)
    contexts := by rw [World.cleared, World.switched, modifyRequest_size, modifyRequest_size, contexts]
    pointed := request?_switched (visits.at_ current.at_) w.nextId
    applications := by rw [applications, visits.applications_size]
    application := ⟨_, by rw [World.application, applications]; exact visits.application a current.anchored.issued⟩
    sessions := by rw [sessions, visits.sessions_size]
    old := ⟨_, by rw [session, sessions]; exact visits.session old current.issued⟩
    scopes := by rw [scopes, visits.scopes_size] }

theorem anchored_cleared : (w.cleared r a old).Anchored r a
    { w.standingOf request with session := none, sessionId := some w.nextId } := by
  have cleared := current.cleared
  obtain ⟨time, application⟩ := cleared.application
  refine ⟨?_, current.anchored.holds, ?_, current.anchored.wanted, ?_, ?_⟩
  · rw [standing, cleared.pointed, Option.map_some, World.cleared, standingOf_switched,
      standingOf_congr (w.visits_prepared a old).contexts_eq]
    exact congrArg (fun standing : Standing => some { standing with sessionId := some w.nextId })
      (w.standingOf_excise_session request)
  · rw [cleared.applications]
    exact current.anchored.issued
  · rw [application]
    exact current.anchored.named
  · rw [application]
    exact .inr current.usable

theorem cleared_held (holds : List Hold) :
    w.Cleared r request a old { (w.cleared r a old).touchApplication a with holds } := by
  have known := current.anchored.issued
  have touched := current.cleared.visits (visits_touchApplication _ a) known current.issued
  have held : ((w.cleared r a old).touchApplication a).Visits { (w.cleared r a old).touchApplication a with holds } :=
    ⟨respects_of_same rfl rfl rfl (Nat.le_refl _), rfl, rfl, rfl, rfl⟩
  exact touched.visits held known current.issued

theorem opened : w.Opened r request a old (w.readyToStart r a old request.listener) :=
  (current.cleared_held _).withSession current.anchored.issued current.issued

theorem running_cleared : (w.cleared r a old).Running c r a := by
  have extends_ := current.cleared.extends_
  refine ⟨?_, ?_, _, current.anchored_cleared⟩
  · exact Nat.lt_of_lt_of_le (issued_of_home current.home) extends_.size
  · rw [extends_.home (issued_of_home current.home), current.home]

omit current in
theorem holds_cleared (w : World) (r : ContextId) (a : ApplicationId) (old : SessionId) :
    (w.cleared r a old).holds = .application a :: w.holds := by
  obtain ⟨contexts, is⟩ := (w.prepared a old).switched_eq r w.nextId
  rw [World.cleared, is]
  rfl

theorem other (unbound : (w.application a).sessions.find? w.nextId = none) : ((w.session old).id == w.nextId) = false := by
  refine Bool.eq_false_iff.mpr fun same => ?_
  have stored := current.stored
  rw [Stored, Bindings.find?_congr _ same, unbound] at stored
  cases stored

end Current

end World

section

variable (current : w.Current c r request a old) (unbound : (w.application a).sessions.find? w.nextId = none)
include current unbound

theorem initializeSession_prepared : initializeSession host c w.nextId (w.prepared a old) =
    (do orSessionsDisabled (← ensureSession host c) : Action SessionId) (w.cleared r a old) := by
  have visits := w.visits_prepared a old
  have home : (w.prepared a old).home c = some r := by
    rw [visits.extends_.home (issued_of_home current.home), current.home]
  have spliced : ((w.prepared a old).standingOf request).session = some old := by
    rw [standingOf_congr visits.contexts_eq]
    exact current.spliced
  have other : (((w.prepared a old).session old).id == w.nextId) = false := by
    rw [visits.session old current.issued]
    exact current.other unbound
  obtain ⟨_, _, points, rfl⟩ := achieves_setSessionId home (visits.at_ current.at_) spliced other
  rw [initializeSession, bind_apply, points]
  rfl

theorem initializeSession_run {result : Except Interruption SessionId} {later : World} (patient : 0 < host.patience)
    (opened : openSession host r a w.sessions.next request.listener (w.readyToStart r a old request.listener) = (result, later)) :
    initializeSession host c w.nextId (w.prepared a old) = (result, { later with holds := .application a :: w.holds }) := by
  have cleared := current.cleared
  obtain ⟨time, application⟩ := cleared.application
  have fresh : (w.cleared r a old).sessions.next = w.sessions.next := congrArg Id.mk cleared.sessions
  rw [← fresh] at opened
  have ensures := ensureSession_unbound current.running_cleared cleared.pointed current.managed request.sessionNode_excise_session rfl
    (by rw [application]; exact current.usable) patient (by rw [application]; exact unbound) opened
  rw [Current.holds_cleared] at ensures
  rw [initializeSession_prepared current unbound, bind_apply, ensures]
  cases result <;> rfl

/-- A rotation gives the request a new session, whose start hook it has called. -/
theorem achieves_initializeSession {value : Value} {started : World}
    (hook : callHook host request.listener .sessionStart r [] (w.readyToStart r a old request.listener) =
      (.ok value, started)) (lets : proceeds value = true) (patient : 0 < host.patience) :
    (initializeSession host c w.nextId).Achieves (w.prepared a old) fun fresh later =>
      fresh = w.sessions.next ∧ later = w.poised a started := by
  have called : attempt (callHook host request.listener .sessionStart r []) (w.readyToStart r a old request.listener) =
      (.ok (.ok value), started) := by
    simp only [attempt, hook]
  have opened := openSession_lets called (by simp [refusal, lets]) a w.sessions.next
  exact ⟨_, _, initializeSession_run current unbound patient opened, rfl, rfl⟩

end

namespace Bindings

variable {α : Type} {b : Bindings α} {key : Key}

theorem erase_insert (unbound : b.find? key = none) (value : α) : (b.insert key value).erase key = b := by
  have kept : (b.entries.eraseP fun entry => entry.1 == key) = b.entries :=
    List.eraseP_of_forall_not fun entry held => by simp [find?_eq_none.mp unbound entry held]
  have none : (b.entries.any fun entry => entry.1 == key) = false := by simpa using find?_eq_none.mp unbound
  simp [erase, entries_insert_of_unbound unbound, List.eraseP_append, none]

end Bindings

namespace World

theorem excise_contexts (w : World) (c : ContextId) (type : ContextType) :
    ∃ contexts, (w.excise c type).2 = { w with contexts } := by
  simp only [excise]
  split
  · exact w.modifyRequest_eq ..
  · exact ⟨w.contexts, rfl⟩

theorem scopes_excise (w : World) (c : ContextId) (type : ContextType) : (w.excise c type).2.scopes = w.scopes := by
  obtain ⟨contexts, is⟩ := w.excise_contexts c type
  rw [is]

variable {b : ApplicationId} {s t : SessionId}

theorem withdrawn_eq (named : (w.session s).id = id) (bound : (w.application a).sessions.find? id = some s) :
    w.withdrawn a s = ((w.sessionRefused s).takeSession a id).2.leaveSessionStart s := by
  have keeps : ((w.sessionRefused s).session s).id = (w.session s).id := session_modify_keeps w s s Session.id fun _ => rfl
  have same : ((w.sessionRefused s).session s).id = id := keeps.trans named
  have there : ((w.sessionRefused s).application a).sessions.find? id = some s := bound
  simp only [withdrawn, dropSession, same, there, BEq.rfl, if_true]

section

variable (w : World) (a : ApplicationId) (s : SessionId)

theorem withdrawn_elsewhere : w.withdrawn a s = { w with
      applications := (w.withdrawn a s).applications, sessions := (w.withdrawn a s).sessions } := by
  simp only [withdrawn, dropSession]
  split <;> rfl

theorem contexts_withdrawn : (w.withdrawn a s).contexts = w.contexts := by
  rw [withdrawn_elsewhere]

theorem scopes_withdrawn : (w.withdrawn a s).scopes = w.scopes := by
  rw [withdrawn_elsewhere]

theorem size_withdrawn :
    (w.withdrawn a s).applications.size = w.applications.size ∧ (w.withdrawn a s).sessions.size = w.sessions.size := by
  rcases (w.sessionRefused s).dropSession_cases a s with same | ⟨-, same⟩ <;>
    rw [withdrawn, same] <;>
    simp [takeSession, leaveSessionStart, sessionRefused, modifySession, setSession, modifyApplication, setApplication]

end

theorem application_withdrawn (named : (w.session s).id = id) (bound : (w.application a).sessions.find? id = some s)
    (known : a.number < w.applications.size) : (w.withdrawn a s).application a =
      { w.application a with sessions := (w.application a).sessions.erase id } := by
  have takes := application_modify (w.sessionRefused s) a a fun application =>
    { application with sessions := application.sessions.erase id }
  rw [withdrawn_eq named bound]
  exact takes.trans (if_pos ⟨rfl, known⟩)

theorem application_withdrawn_other (w : World) (s : SessionId) (other : a ≠ b) :
    (w.withdrawn a s).application b = w.application b := by
  rcases (w.sessionRefused s).dropSession_cases a s with same | ⟨-, same⟩
  · rw [withdrawn, same]
    rfl
  · have takes := application_modify (w.sessionRefused s) a b fun application =>
      { application with sessions := application.sessions.erase ((w.sessionRefused s).session s).id }
    rw [withdrawn, same]
    exact takes.trans (if_neg fun both => other both.1)

theorem session_withdrawn (w : World) (a : ApplicationId) (s t : SessionId) :
    (w.withdrawn a s).session t = if s = t ∧ s.number < w.sessions.size then
      { w.session s with discarded := true, starting := false } else w.session t := by
  have sessions : ((w.sessionRefused s).dropSession a s).2.sessions = (w.sessionRefused s).sessions := by
    rcases (w.sessionRefused s).dropSession_cases a s with same | ⟨-, same⟩ <;> rw [same]
    rfl
  have size : (w.sessionRefused s).sessions.size = w.sessions.size := Table.size_set ..
  have refused : ∀ t, ((w.sessionRefused s).dropSession a s).2.session t = (w.sessionRefused s).session t := by
    intro t
    rw [World.session, sessions, World.session]
  rw [withdrawn, leaveSessionStart, session_modify, sessions, size, refused, refused, sessionRefused, session_modify,
    session_modify]
  by_cases here : s = t ∧ s.number < w.sessions.size
  · rw [if_pos here, if_pos here, if_pos ⟨rfl, here.2⟩]
  · rw [if_neg here, if_neg here, if_neg here]

end World

end ScopeEngine
