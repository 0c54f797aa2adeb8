import ScopeEngine.Proofs.Rotation.Rotate

/-! Rotations that fail because the start hook refuses the new session. The old session and its data are as before, but the
request was pointed at the new id before the hook was called, and nothing points it back. -/

namespace ScopeEngine

open ScopeEngine.Action Script World

variable {w later refused : World} {c r : ContextId} {request : Request} {a : ApplicationId} {old s : SessionId} {host : Host}
  {id : Key} {cause : Error}

theorem World.sessionIdAt_joined (home : w.home c = some r) (at_ : (w.context r).request? = some request)
    (s : SessionId) (holds : List Hold) :
    { (w.joined r s).touchSession s with holds }.sessionIdAt c = request.sessionId := by
  have visits := (w.joined r s).visits_touchSession s
  have extends_ : w.Extends { (w.joined r s).touchSession s with holds } :=
    ((w.extends_joined r s).trans visits.extends_).trans (extends_of_contexts rfl)
  have here : { (w.joined r s).touchSession s with holds }.home c = some r := by
    rw [extends_.home (issued_of_home home), home]
  obtain ⟨found, asks, there⟩ := requestOf_home here
  cases there.symm.trans (visits.at_ (request?_joined at_ s))
  simp only [sessionIdAt, asks]
  rfl

section

variable (running : w.Running c r a) (at_ : (w.context r).request? = some request)
  (managed : request.settings.sessionManagement = true) (bare : request.sessionNode = none)
  (identified : request.sessionId = some id) (usable : (w.application a).isDefunct = false)
  (patient : 0 < host.patience)
include running at_ managed bare identified usable patient

theorem achieves_ensureSession_returning (bound : (w.application a).sessions.find? id = some s)
    (started : (w.session s).started = true) (live : (w.session s).isDefunctAt w.readClock.2.clock = false) :
    (ensureSession host c).Achieves w fun found later => found = some s ∧ later.sessionIdAt c = some id := by
  let held := { w.touchApplication a with holds := .listener request.listener :: .application a :: w.holds }
  have extends_ : w.Extends held := extends_of_contexts rfl
  have home : held.home c = some r := by rw [extends_.home (issued_of_home running.home), running.home]
  rw [Achieves, ensureSession_bound running at_ managed bare identified usable patient bound started live]
  exact ⟨_, _, rfl, rfl, (sessionIdAt_joined home at_ s _).trans identified⟩

/-- Touching the session of a request that has none, under an id that the map does not have, never answers with a session
that was there before, whatever its hook does. -/
theorem after_ensureSession_unbound (unbound : (w.application a).sessions.find? id = none) :
    (ensureSession host c).After w (fun found _ => found = some w.sessions.next) (fun _ _ => True) := by
  have settles := after_openSession_settled (w := { w.touchApplication a with
    holds := .listener request.listener :: .application a :: w.holds }.withSession r a id) host r a w.sessions.next request.listener
  rw [After] at settles ⊢
  split at settles
  next found later opened =>
    rw [ensureSession_unbound running at_ managed bare identified usable patient unbound opened, settles.1]
    rfl
  next opened =>
    rw [ensureSession_unbound running at_ managed bare identified usable patient unbound opened]
    trivial
  next opened =>
    rw [ensureSession_unbound running at_ managed bare identified usable patient unbound opened]
    trivial

end

namespace World

/-- What a rotation leaves when the new session was refused: the map of the application and the old session are as before, but
the request has the new id and no session. -/
structure Reverted (w : World) (r : ContextId) (request : Request) (a : ApplicationId) (old : SessionId) (later : World) :
    Prop where
  extends_ : w.Extends later
  anchored : later.Anchored r a { w.standingOf request with session := none, sessionId := some w.nextId }
  pointed : (later.context r).request? = some { request.excise .session with sessionId := some w.nextId }
  application : ∃ time, later.application a = { w.application a with lastAccess := time }
  old : ∃ time, later.session old = { w.session old with lastVisit := time }
  sessions : w.sessions.size ≤ later.sessions.size

theorem Reverted.release (reverted : w.Reverted r request a old later) (holds : List Hold) :
    w.Reverted r request a old { later with holds } where
  extends_ := reverted.extends_.trans (extends_of_contexts rfl)
  anchored := { reverted.anchored with at_ := reverted.anchored.at_ }
  pointed := reverted.pointed
  application := reverted.application
  old := reverted.old
  sessions := reverted.sessions

theorem reverted_of_opened (current : w.Current c r request a old)
    (unbound : (w.application a).sessions.find? w.nextId = none) (opened : w.Opened r request a old refused)
    (nodes : ∀ node : ContextId, node.number < w.contexts.size → refused.nodeApplication node = w.nodeApplication node) :
    w.Reverted r request a old ((refused.withdrawn a w.sessions.next).excise r .session).2 := by
  obtain ⟨time, application⟩ := opened.application
  obtain ⟨visit, session⟩ := opened.old
  have known : a.number < refused.applications.size := Nat.lt_of_lt_of_le current.anchored.issued opened.applications
  have other : w.sessions.next ≠ old := by
    intro same
    have issued := current.issued
    rw [← same] at issued
    exact Nat.lt_irrefl _ issued
  -- The map had the new id only while the hook ran.
  have bound : (refused.application a).sessions.find? w.nextId = some w.sessions.next := by
    rw [application, Bindings.find?_insert_self]
  have restored : (refused.withdrawn a w.sessions.next).application a = { w.application a with lastAccess := time } := by
    rw [application_withdrawn opened.id bound known, application, Bindings.erase_insert unbound]
  have kept : (refused.withdrawn a w.sessions.next).session old = { w.session old with lastVisit := visit } := by
    rw [session_withdrawn, if_neg fun both => other both.1, session]
  have contexts := refused.contexts_withdrawn a w.sessions.next
  have sizes := refused.size_withdrawn a w.sessions.next
  generalize refused.withdrawn a w.sessions.next = out at *
  have there : (out.context r).request? =
      some { request.splice (.session w.contexts.next) with sessionId := some w.nextId } := by
    rw [context, contexts]
    exact opened.pointed
  rw [excise_session (requestOf_self there)]
  have pointed : ((out.modifyRequest r (·.excise .session)).context r).request? =
      some { request.excise .session with sessionId := some w.nextId } := by
    rw [request?_modifyRequest, if_pos rfl, there]
    exact congrArg (fun request : Request => some { request with sessionId := some w.nextId }) (request.excise_splice (.session _))
  have node : request.applicationNode.bind out.nodeApplication = request.applicationNode.bind w.nodeApplication := by
    refine Option.bind_congr fun node there => ?_
    rw [nodeApplication_congr contexts]
    exact nodes node (current.node_issued there).2
  refine {
    extends_ := (opened.extends_.trans (extends_of_contexts contexts)).trans (extends_modifyRequest ..)
    anchored := { current.anchored with at_ := ?_, issued := ?_, named := ?_, usable := ?_ }
    pointed
    application := ⟨time, by rw [modifyRequest_application, restored]⟩
    old := ⟨visit, by rw [modifyRequest_session, kept]⟩
    sessions := by rw [modifyRequest_sessions, sizes.2]; exact Nat.le_of_lt opened.sessions }
  · rw [standing, pointed, Option.map_some, standingOf_modifyRequest]
    refine (congrArg (fun standing : Standing => some { standing with sessionId := some w.nextId })
      (out.standingOf_excise_session request)).trans ?_
    simp only [standingOf, node]
  · rwa [modifyRequest_applications, sizes.1]
  · rw [modifyRequest_application, restored]
    exact current.anchored.named
  · rw [modifyRequest_application, restored]
    exact .inr current.usable

theorem Anchored.point {standing : Standing} (anchored : w.Anchored r a standing) (id : Key) :
    (w.modifyRequest r fun request => { request with sessionId := some id }).Anchored r a
      { standing with sessionId := some id } := by
  have issued := anchored.issued
  have named := anchored.named
  have usable := anchored.usable
  obtain ⟨request, at_, rfl⟩ := Option.map_eq_some_iff.mp anchored.at_
  refine { anchored with at_ := ?_, issued := ?_, named := ?_, usable := ?_ }
  · rw [standing, request?_modifyRequest, if_pos rfl, at_, Option.map_some, Option.map_some, standingOf_modifyRequest]
    rfl
  · rwa [modifyRequest_applications]
  · rwa [modifyRequest_application]
  · rwa [modifyRequest_application]

end World

/-- A start hook that refuses the new session of a rotation. It leaves alone what code that only fills scopes leaves alone,
and the scope of the old session. -/
structure Host.Declines (host : Host) (w : World) (r : ContextId) (request : Request) (a : ApplicationId) (old : SessionId)
    (cause : Error) (refused : World) : Prop where
  refuses : host.Refuses .sessionStart request.listener r (w.readyToStart r a old request.listener) cause refused
  respects : (w.readyToStart r a old request.listener).Respects refused
  left : refused.scope (w.session old).scope = (w.readyToStart r a old request.listener).scope (w.session old).scope

namespace World

/-- What a refused rotation leaves. The application still has the old session, with its data, and no other one. But the
request has the id that was drawn for the new session: the next touch answers with a session of that id, which is never the
old one. Only pointing the request back at the old id finds the old session again. -/
structure Stranded (w : World) (host : Host) (c : ContextId) (a : ApplicationId) (old : SessionId) (later : World) :
    Prop where
  new : ((w.session old).id == w.nextId) = false
  pointed : later.sessionIdAt c = some w.nextId
  spliced : later.splicedSession c = none
  stored : (later.application a).sessions = (w.application a).sessions ∧ later.Stored a old
  absent : (later.application a).sessions.find? w.nextId = none
  kept : ∃ time, later.session old = { w.session old with lastVisit := time }
  open_ : (later.session old).shutDown = false
  data : ((later.scope (w.session old).scope).bindings.entries.filter fun entry => !(entry.1 == .lastVisit)) =
    (w.scope (w.session old).scope).bindings.entries.filter fun entry => !(entry.1 == .lastVisit)
  touch : (ensureSession host c).After later (fun found _ => found ≠ some old) (fun _ _ => True)
  back : (later.session old).isExpiredAt later.readClock.2.clock = false →
    Achieves (do setSessionId c (w.session old).id; ensureSession host c) later fun found last =>
      found = some old ∧ last.sessionIdAt c = some (w.session old).id

section

variable (reverted : w.Reverted r request a old later) (current : w.Current c r request a old)
include reverted current

theorem Reverted.running : later.Running c r a := by
  refine ⟨?_, ?_, _, reverted.anchored⟩
  · exact Nat.lt_of_lt_of_le (issued_of_home current.home) reverted.extends_.size
  · rw [reverted.extends_.home (issued_of_home current.home), current.home]

theorem Reverted.usable : (later.application a).isDefunct = false := by
  obtain ⟨time, application⟩ := reverted.application
  rw [application]
  exact current.usable

theorem Reverted.touch (unbound : (w.application a).sessions.find? w.nextId = none) (patient : 0 < host.patience) :
    (ensureSession host c).After later (fun found _ => found ≠ some old) (fun _ _ => True) := by
  obtain ⟨time, application⟩ := reverted.application
  have new : later.sessions.next ≠ old := by
    intro same
    have issued := Nat.lt_of_lt_of_le current.issued reverted.sessions
    rw [← same] at issued
    exact Nat.lt_irrefl _ issued
  refine (after_ensureSession_unbound (reverted.running current) reverted.pointed current.managed request.sessionNode_excise_session rfl
    (reverted.usable current) patient (by rw [application]; exact unbound)).partly ?_
  rintro _ _ rfl same
  exact new (Option.some.inj same)

theorem Reverted.back (patient : 0 < host.patience) (live : (later.session old).isExpiredAt later.readClock.2.clock = false) :
    Achieves (do setSessionId c (w.session old).id; ensureSession host c) later fun found last =>
      found = some old ∧ last.sessionIdAt c = some (w.session old).id := by
  have running := reverted.running current
  have usable := reverted.usable current
  obtain ⟨time, application⟩ := reverted.application
  obtain ⟨visit, session⟩ := reverted.old
  have kept := current.live
  simp only [Session.isDefunctAt, Bool.or_eq_false_iff] at kept
  let aimed := later.modifyRequest r fun request => { request with sessionId := some (w.session old).id }
  have extends_ : later.Extends aimed := extends_modifyRequest ..
  rw [achieves_bind]
  refine (achieves_setSessionId_bare running.home reverted.pointed request.sessionNode_excise_session _).mono ?_
  rintro _ _ rfl
  have pointed : (aimed.context r).request? =
      some { request.excise .session with sessionId := some (w.session old).id } := by
    rw [request?_modifyRequest, if_pos rfl, reverted.pointed]
    rfl
  refine achieves_ensureSession_returning ⟨?_, ?_, _, reverted.anchored.point _⟩ pointed current.managed
    request.sessionNode_excise_session rfl ?_ patient ?_ ?_ ?_
  · exact Nat.lt_of_lt_of_le running.issued extends_.size
  · rw [extends_.home running.issued, running.home]
  · rw [modifyRequest_application]
    exact usable
  · rw [modifyRequest_application, application]
    exact current.stored
  · rw [modifyRequest_session, session]
    exact current.started
  · have clock : aimed.readClock.2.clock = later.readClock.2.clock := by
      obtain ⟨contexts, is⟩ := later.modifyRequest_eq r fun request => { request with sessionId := some (w.session old).id }
      simp only [aimed, is]
      rfl
    rw [clock, modifyRequest_session, Session.isDefunctAt, live, session]
    simp [kept.1]

theorem Reverted.stranded (unbound : (w.application a).sessions.find? w.nextId = none)
    (data : ((later.scope (w.session old).scope).bindings.entries.filter fun entry => !(entry.1 == .lastVisit)) =
      (w.scope (w.session old).scope).bindings.entries.filter fun entry => !(entry.1 == .lastVisit))
    (patient : 0 < host.patience) : w.Stranded host c a old later := by
  obtain ⟨time, application⟩ := reverted.application
  obtain ⟨visit, session⟩ := reverted.old
  have kept := current.live
  simp only [Session.isDefunctAt, Bool.or_eq_false_iff] at kept
  obtain ⟨found, asks, there⟩ := requestOf_home (reverted.running current).home
  cases there.symm.trans reverted.pointed
  refine {
    new := current.other unbound
    pointed := by simp [sessionIdAt, asks]
    spliced := ?_
    stored := ⟨by rw [application], ?_⟩
    absent := by rw [application]; exact unbound
    kept := ⟨visit, session⟩
    open_ := by rw [session]; exact kept.1.1
    data
    touch := reverted.touch current unbound patient
    back := reverted.back current patient }
  · rw [splicedSession_eq asks]
    exact congrArg Standing.session (later.standingOf_excise_session request)
  · rw [Stored, session, application]
    exact current.stored

end

end World

section

variable (current : w.Current c r request a old) (unbound : (w.application a).sessions.find? w.nextId = none)
  (refuses : host.Refuses .sessionStart request.listener r (w.readyToStart r a old request.listener) cause refused)
  (patient : 0 < host.patience)
include current unbound refuses patient

theorem fails_initializeSession : (initializeSession host c w.nextId).Fails (w.prepared a old) fun error later =>
      later = { ((refused.withdrawn a w.sessions.next).excise r .session).2 with holds := .application a :: w.holds } ∧
      error = .startFailed .sessionStart ((refused.withdrawn a w.sessions.next).session w.sessions.next).id.name cause := by
  exact ⟨_, _, initializeSession_run current unbound patient (openSession_refused refuses a w.sessions.next), rfl, rfl⟩

theorem fails_rotateSession : (rotateSession host c).Fails w fun error later =>
      later = { ((refused.withdrawn a w.sessions.next).excise r .session).2 with holds := w.holds } ∧
      error = .startFailed .sessionStart ((refused.withdrawn a w.sessions.next).session w.sessions.next).id.name cause := by
  have running := (w.visits_touched a old).running current.running
  refine ((achieves_ensureSession_finds current.toFinds patient).mono ?_).bind_fails
  rintro _ _ ⟨rfl, rfl⟩
  simp only [orSessionsDisabled, fails_pure_bind]
  refine ((achieves_ensureApplication running).mono ?_).bind_fails
  rintro _ _ ⟨rfl, rfl⟩
  simp only [fails_pure_bind, fails_holding, fails_modifyGet_bind, drawSessionId_touched]
  refine ((fails_initializeSession current unbound refuses patient).mono ?_).bind _
  rintro _ _ ⟨rfl, rfl⟩
  have holds : (w.touched a old).holds = w.holds := by
    simp only [touched, touchSession]
    split <;> rfl
  exact ⟨congrArg (mk _ _ _ _ _ _ _ _ _ _ _ · _ _ _) holds, rfl⟩

end

/-- A rotation whose new session is refused fails, and leaves the request at the new id. -/
theorem rotateSession_refused_strands (current : w.Current c r request a old)
    (unbound : (w.application a).sessions.find? w.nextId = none) (housed : (w.session old).scope.number < w.scopes.size)
    (declines : host.Declines w r request a old cause refused) (patient : 0 < host.patience) :
    (rotateSession host c).Fails w fun error later =>
      error = .startFailed .sessionStart w.nextId.name cause ∧ w.Stranded host c a old later := by
  have opened := current.opened.respects current.anchored.issued current.issued declines.respects
  have nodes : ∀ node : ContextId, node.number < w.contexts.size →
      refused.nodeApplication node = w.nodeApplication node := by
    intro node issued
    have kind := declines.respects.kind node (Nat.lt_trans issued current.opened.contexts)
    rw [← current.nodeApplication_readyToStart issued]
    simp only [nodeApplication, kind]
  refine (fails_rotateSession current unbound declines.refuses patient).mono ?_
  rintro _ _ ⟨rfl, rfl⟩
  have reverted := (reverted_of_opened current unbound opened nodes).release w.holds
  refine ⟨?_, reverted.stranded current unbound ?_ patient⟩
  · rw [session_withdrawn, if_pos ⟨rfl, opened.sessions⟩, opened.id]
  · obtain ⟨created, scopes⟩ := current.scopes_readyToStart
    have scope : ((refused.withdrawn a w.sessions.next).excise r .session).2.scope (w.session old).scope =
        (w.touched a old).scope (w.session old).scope := by
      rw [scope, scopes_excise, scopes_withdrawn]
      exact declines.left.trans (scope_readyToStart scopes housed)
    have untouched : (((w.touched a old).scope (w.session old).scope).bindings.entries.filter fun entry =>
        !(entry.1 == .lastVisit)) = _ :=
      filter_touched (fun key => !(key == .lastVisit)) fun other same => by simp [same]
    exact (congrArg (fun scope : Scope => scope.bindings.entries.filter fun entry => !(entry.1 == .lastVisit)) scope).trans
      untouched

def turnedAway : World :=
  { signedIn with functions := ⟨#[{
      name := .of "start", kind := .plain, access := .exposed, params := []
      body := [.mk (.return_ (.boolean false)) false], source := none, frame := none, component := none }]⟩ }

theorem current_turnedAway : turnedAway.Current ⟨1⟩ ⟨1⟩ client ⟨0⟩ ⟨0⟩ :=
  { current_signedIn with
    home := home_self (show turnedAway.standing ⟨1⟩ = some (turnedAway.standingOf client) from rfl)
    anchored := { current_signedIn.anchored with } }

theorem rotateSession_refused_strands_turnedAway : ∃ refused,
    (hostOf (execute 1)).Declines turnedAway ⟨1⟩ client ⟨0⟩ ⟨0⟩ (.startAborted .sessionStart) refused ∧
      (rotateSession (hostOf (execute 1)) ⟨1⟩).Fails turnedAway fun error later =>
        error = .startFailed .sessionStart turnedAway.nextId.name (.startAborted .sessionStart) ∧
          turnedAway.Stranded (hostOf (execute 1)) ⟨1⟩ ⟨0⟩ ⟨0⟩ later := by
  let refused := (attempt (callHook (hostOf (execute 1)) ⟨0⟩ .sessionStart ⟨1⟩ [])
    (turnedAway.readyToStart ⟨1⟩ ⟨0⟩ ⟨0⟩ ⟨0⟩)).2
  have declines : (hostOf (execute 1)).Declines turnedAway ⟨1⟩ client ⟨0⟩ ⟨0⟩ (.startAborted .sessionStart) refused :=
    ⟨Host.refuses_of_check (by decide +kernel), by decide +kernel, by decide +kernel⟩
  exact ⟨refused, declines, rotateSession_refused_strands current_turnedAway (by decide +kernel) (by decide) declines
    (Nat.succ_pos 999999)⟩

/-- After a refused rotation the client's request has lost its id, and touching its session does not find it. -/
theorem rotateSession_refused_loses_session :
    let later := (rotateSession (hostOf (execute 1)) ⟨1⟩ turnedAway).2
    (rotateSession (hostOf (execute 1)) ⟨1⟩ turnedAway).1.toOption = none ∧
      (turnedAway.sessionIdAt ⟨1⟩).any (· == .of "alice") = true ∧
      (later.sessionIdAt ⟨1⟩).any (· == .of "alice") = false ∧
      (ensureSession (hostOf (execute 1)) ⟨1⟩ turnedAway).1.toOption = some (some ⟨0⟩) ∧
      (ensureSession (hostOf (execute 1)) ⟨1⟩ later).1.toOption ≠ some (some ⟨0⟩) := by
  decide +kernel

end ScopeEngine
