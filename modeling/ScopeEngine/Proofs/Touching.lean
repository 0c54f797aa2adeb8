import ScopeEngine.Proofs.Marks
import ScopeEngine.Proofs.Rotation.Respect

/-! Touching the session of a request, as equations. A session that waits for its start is put into the request, and then its
hook is called: what the touch comes to is what `openSession` makes of that call. -/

namespace ScopeEngine

open ScopeEngine.Action World

def Phase.hook : Phase → Hook
  | .applicationStart => .applicationStart
  | .sessionStart => .sessionStart

/-- The start hook, called in a world, does not let the start proceed: it failed with the cause or answered with a refusal. -/
def Host.Refuses (host : Host) (phase : Phase) (l : ListenerId) (r : ContextId) (ready : World) (cause : Error)
    (refused : World) : Prop :=
  ∃ outcome, attempt (callHook host l phase.hook r []) ready = (.ok outcome, refused) ∧ refusal phase outcome = some cause

theorem Host.refuses_of_check {host : Host} {phase : Phase} {l : ListenerId} {r : ContextId} {ready : World} {cause : Error}
    (checks : ((attempt (callHook host l phase.hook r []) ready).1.toOption.bind (refusal phase)) = some cause) :
    host.Refuses phase l r ready cause (attempt (callHook host l phase.hook r []) ready).2 := by
  obtain ⟨outcome, ended, declined⟩ := Option.bind_eq_some_iff.mp checks
  exact ⟨outcome, eq_of_toOption ended, declined⟩

/-- Ends the session that a new one replaced, if there was one. -/
def retireStale (host : Host) (r : ContextId) (a : ApplicationId) : Option SessionId → Action Unit
  | some stale => retireSession host r a stale
  | none => pure ()

namespace World

def joined (w : World) (r : ContextId) (s : SessionId) : World :=
  (w.addNode (.session s)).2.modifyRequest r (·.splice (.session w.contexts.next))

def joining (w : World) (r : ContextId) (s : SessionId) : World := (w.joined r s).beginSessionStart s

/-- A new session is in the map and in the request, and its start has begun. -/
def withSession (w : World) (r : ContextId) (a : ApplicationId) (id : Key) : World :=
  ((w.insertSession a id none).2.joined r w.sessions.next).beginSessionStart w.sessions.next

def settled (w : World) (s : SessionId) : World :=
  ((w.sessionStarted s).leaveSessionStart s).touchSession s

/-- The start of a session was refused: the session is marked, it left the map, and nobody is starting it any more. -/
def withdrawn (w : World) (a : ApplicationId) (s : SessionId) : World :=
  ((w.sessionRefused s).dropSession a s).2.leaveSessionStart s

def stale (w : World) (a : ApplicationId) (id : Key) : Option SessionId := (w.application a).sessions.find? id

def placing (w : World) (request : Request) (a : ApplicationId) (id : Key) : World :=
  ({ w with holds := .listener request.listener :: .application a :: w.holds }.insertSession a id (w.stale a id)).2

def unseated (w : World) (r : ContextId) : World :=
  match w.splicedSession r with
  | some _ => (w.excise r .session).2
  | none => w

def fitting (w : World) (a : ApplicationId) (id : Key) (s : SessionId) : Bool :=
  (w.session s).id == id && (w.session s).application == (w.application a).name && !(w.session s).isDefunctAt w.clock

section Nodes

variable {w : World} {r : ContextId} {request : Request}

theorem noded_eq (w : World) (kind : ContextKind) (r : ContextId) (change : Request → Request) :
    ∃ contexts, (w.addNode kind).2.modifyRequest r change = { w with contexts } :=
  (w.addNode kind).2.modifyRequest_eq r change

section

variable (at_ : (w.context r).request? = some request) (kind : ContextKind)
include at_

theorem request?_addNode : ((w.addNode kind).2.context r).request? = some request := by
  rw [addNode, context_addContext_of_lt _ _ (issued_of_request at_), at_]

theorem request?_noded (change : Request → Request) :
    (((w.addNode kind).2.modifyRequest r change).context r).request? = some (change request) := by
  rw [request?_modifyRequest, if_pos rfl, request?_addNode at_]
  rfl

end

theorem kind_noded (w : World) (r : ContextId) {kind : ContextKind} (change : Request → Request)
    (plain : ∀ request, kind ≠ .request request) :
    (((w.addNode kind).2.modifyRequest r change).context w.contexts.next).kind = kind := by
  have here : ((w.addNode kind).2.context w.contexts.next).kind = kind := w.kind_addNode kind
  rcases kind_modifyRequest (w.addNode kind).2 r w.contexts.next change with same | ⟨_, _, before, -⟩
  · exact same.trans here
  · exact absurd (here.symm.trans before) (plain _)

theorem joined_eq (w : World) (r : ContextId) (s : SessionId) : ∃ contexts, w.joined r s = { w with contexts } :=
  noded_eq ..

theorem joining_eq (w : World) (r : ContextId) (s : SessionId) : ∃ contexts, w.joining r s =
    { w with contexts, sessions := (w.beginSessionStart s).sessions } := by
  obtain ⟨contexts, joins⟩ := w.joined_eq r s
  exact ⟨contexts, congrArg (·.beginSessionStart s) joins⟩

theorem session_joining (w : World) (r : ContextId) (s t : SessionId) :
    (w.joining r s).session t = (w.beginSessionStart s).session t := by
  obtain ⟨contexts, is⟩ := w.joining_eq r s
  rw [is]
  rfl

theorem request?_joined (at_ : (w.context r).request? = some request) (s : SessionId) :
    ((w.joined r s).context r).request? = some (request.splice (.session w.contexts.next)) :=
  request?_noded at_ ..

theorem kind_joined (w : World) (r : ContextId) (s : SessionId) :
    ((w.joined r s).context w.contexts.next).kind = .session s :=
  kind_noded _ _ _ fun _ same => by cases same

end Nodes

variable {w : World} {a : ApplicationId} {id : Key} {s : SessionId}

theorem findOrCreateSession_of_bound (usable : (w.application a).shutDown = false) (bound : w.stale a id = some s)
    (live : (w.session s).isDefunctAt w.clock = false) : w.findOrCreateSession a id = (some (.found s), w) := by
  have there : (w.application a).sessions.find? id = some s := bound
  simp only [findOrCreateSession, usable, Bool.false_eq_true, if_false, placeSession, there, live]

theorem findOrCreateSession_of_vacant (usable : (w.application a).shutDown = false)
    (vacant : ∀ s, w.stale a id = some s → (w.session s).isDefunctAt w.clock = true) : w.findOrCreateSession a id =
      (some (.created w.sessions.next (w.stale a id)), (w.insertSession a id (w.stale a id)).2) := by
  simp only [findOrCreateSession, usable, Bool.false_eq_true, if_false, placeSession]
  cases bound : (w.application a).sessions.find? id with
  | none =>
    rw [stale, bound]
    rfl
  | some s =>
    rw [stale, bound]
    simp only [vacant s bound, if_true]
    rfl

theorem session_insertSession_next (w : World) (a : ApplicationId) (id : Key) (stale : Option SessionId) :
    ((w.insertSession a id stale).2.session w.sessions.next).scope = w.scopes.next ∧
      ((w.insertSession a id stale).2.session w.sessions.next).startState = .fresh := by
  rw [session_insertSession, if_pos rfl]
  exact ⟨rfl, rfl⟩

end World

/-- Has the start hook of a session called that is in its place, and ends the start by what that came to. -/
def openSession (host : Host) (r : ContextId) (a : ApplicationId) (s : SessionId) (l : ListenerId) : Action SessionId := do
  match refusal .sessionStart (← attempt (callHook host l .sessionStart r [])) with
  | none =>
    modify (·.settled s)
    pure s
  | some cause =>
    modify (·.withdrawn a s)
    let id := ((← get).session s).id
    let _ ← excise r .session
    fail (.startFailed .sessionStart id.name cause)

variable {w cleared hooked refused mid chosen later : World} {c r : ContextId} {request now before : Request} {a : ApplicationId}
  {s : SessionId} {host : Host} {id : Key} {l : ListenerId} {outcome : Except Error Value} {cause : Error} {fuel : Nat}
  {result : Except Interruption SessionId}

theorem openSession_lets (called : attempt (callHook host l .sessionStart r []) w = (.ok outcome, hooked))
    (lets : refusal .sessionStart outcome = none) (a : ApplicationId) (s : SessionId) :
    openSession host r a s l w = (.ok s, hooked.settled s) := by
  rw [openSession, bind_apply, called]
  simp only [lets]
  rfl

theorem openSession_refused (refuses : host.Refuses .sessionStart l r w cause refused) (a : ApplicationId) (s : SessionId) :
    openSession host r a s l w =
      (.error (.failed (.startFailed .sessionStart ((refused.withdrawn a s).session s).id.name cause)),
        ((refused.withdrawn a s).excise r .session).2) := by
  obtain ⟨outcome, called, declined⟩ := refuses
  rw [openSession, bind_apply, show attempt (callHook host l .sessionStart r []) w = _ from called]
  simp only [declined]
  rfl

/-- Whatever the start hook does, the start of a session proceeds or fails. -/
theorem after_openSession_settled (host : Host) (r : ContextId) (a : ApplicationId) (s : SessionId) (l : ListenerId) :
    (openSession host r a s l).After w (fun found later => found = s ∧ ∃ value started,
      callHook host l .sessionStart r [] w = (.ok value, started) ∧ proceeds value = true ∧ later = started.settled s)
      (fun _ _ => True) := by
  simp only [openSession, after_bind, after_attempt]
  refine (after_ran _ _).mono ?_ fun error started ran => by simp [refusal, excise]
  intro value started ran
  cases lets : proceeds value with
  | true =>
    simp only [refusal, lets, if_true, after_bind, after_modify, after_pure, true_and]
    exact ⟨value, started, ran, lets, rfl⟩
  | false => simp [refusal, lets, excise]

theorem spliceSession_run (at_ : (w.context r).request? = some request) (s : SessionId) :
    spliceNew r (.session s) w = (.ok (), w.joined r s) := by
  rw [spliceNew_eq r _ rfl, requestOf_self (request?_addNode at_ (.session s))]
  rfl

theorem World.startState_joined (w : World) (r : ContextId) (s : SessionId) :
    ((w.joined r s).session s).startState = (w.session s).startState := by
  rw [joined, modifyRequest_session]
  rfl

section

variable (at_ : (w.context r).request? = some request) (fresh : (w.session s).startState = .fresh)
include at_ fresh

theorem adoptSession_run (a : ApplicationId) (l : ListenerId) :
    adoptSession host r a s l w = (do let _ ← openSession host r a s l; pure true : Action Bool) (w.joining r s) := by
  have still := (w.startState_joined r s).trans fresh
  have begins : (modify (·.beginSessionStart s) : Action Unit) (w.joined r s) = (.ok (), w.joining r s) := rfl
  simp only [adoptSession, startSession, openSession, bind_apply, spliceSession_run at_, attempt, get_apply, still, begins]
  rcases callHook host l .sessionStart r [] (w.joining r s) with ⟨⟨error | _⟩ | value, hooked⟩
  · rfl
  · rfl
  · cases lets : proceeds value <;> simp only [refusal, lets] <;> rfl

theorem after_adoptSession_fresh (a : ApplicationId) (l : ListenerId) :
    (adoptSession host r a s l).After w (fun adopted later => adopted = true ∧ ∃ value started,
      callHook host l .sessionStart r [] (w.joining r s) = (.ok value, started) ∧ proceeds value = true ∧
        later = started.settled s) (fun _ _ => True) := by
  have opens := after_openSession_settled (w := w.joining r s) host r a s l
  rw [After, adoptSession_run at_ fresh]
  exact (after_bind ..).mpr (opens.mono (fun _ _ done => ⟨rfl, done.2⟩) fun _ _ _ => trivial)

end

theorem adoptSession_ready (at_ : (w.context r).request? = some request) (started : (w.session s).started = true)
    (a : ApplicationId) (l : ListenerId) : adoptSession host r a s l w = (.ok true, (w.joined r s).touchSession s) := by
  have ready : ((w.joined r s).session s).startState = .ready :=
    (w.startState_joined r s).trans (by simp [Session.startState, startState, started])
  simp only [adoptSession, startSession, bind_apply, spliceSession_run at_, attempt, get_apply, ready]
  rfl

section

variable (usable : (w.application a).shutDown = false)
include usable

section

variable (vacant : ∀ s, w.stale a id = some s → (w.session s).isDefunctAt w.clock = true)
include vacant

theorem acquireSession_of_vacant (host : Host) (r : ContextId) (l : ListenerId) (fuel : Nat) :
    acquireSession host r a id l (fuel + 1) w = (do
      retireStale host r a (w.stale a id)
      if ← adoptSession host r a w.sessions.next l then pure (Acquired.session w.sessions.next)
      else acquireSession host r a id l fuel) (w.insertSession a id (w.stale a id)).2 := by
  rw [acquireSession, bind_apply, modifyGet_apply, findOrCreateSession_of_vacant usable vacant]
  simp only [Placed.stale, Placed.session]
  cases w.stale a id <;> rfl

theorem claimSession_run (retires : retireStale host r a (w.stale a id) (w.placing request a id) = (.ok (), cleared))
    (at_ : (cleared.context r).request? = some now) (fresh : (cleared.session w.sessions.next).startState = .fresh)
    (patient : 0 < host.patience)
    (opened : openSession host r a w.sessions.next request.listener (cleared.joining r w.sessions.next) = (result, later))
    (again : Action (Option SessionId)) :
    claimSession host r request a id again w = (result.map some, { later with holds := w.holds }) := by
  obtain ⟨fuel, patience⟩ := Nat.exists_eq_add_one.mpr patient
  let held : World := { w with holds := .listener request.listener :: .application a :: w.holds }
  have acquires := acquireSession_of_vacant (w := held) usable vacant host r request.listener fuel
  rw [bind_apply, show retireStale host r a (held.stale a id) (held.insertSession a id (held.stale a id)).2 = _ from retires]
    at acquires
  simp only [bind_apply, show held.sessions.next = w.sessions.next from rfl, adoptSession_run at_ fresh] at acquires
  simp only [claimSession, holding, patience, bind_apply]
  rw [show ({ w with holds := .listener request.listener :: .application a :: w.holds } : World) = held from rfl, acquires,
    opened]
  have settles := after_openSession_settled (w := cleared.joining r w.sessions.next) host r a w.sessions.next request.listener
  rw [After, opened] at settles
  cases result with
  | error stop => rfl
  | ok found =>
    obtain ⟨rfl, -⟩ := settles
    rfl

end

theorem claimSession_bound (bound : w.stale a id = some s)
    (live : (w.session s).isDefunctAt w.clock = false) (started : (w.session s).started = true)
    (at_ : (w.context r).request? = some now) (patient : 0 < host.patience) (again : Action (Option SessionId)) :
    claimSession host r request a id again w = (.ok (some s), { { w with
      holds := .listener request.listener :: .application a :: w.holds }.joined r s |>.touchSession s with holds := w.holds }) := by
  obtain ⟨fuel, patience⟩ := Nat.exists_eq_add_one.mpr patient
  let held : World := { w with holds := .listener request.listener :: .application a :: w.holds }
  have looks : held.findOrCreateSession a id = (some (.found s), held) :=
    findOrCreateSession_of_bound (w := held) usable bound live
  have adopts : adoptSession host r a s request.listener held = _ := adoptSession_ready (w := held) at_ started a request.listener
  simp only [claimSession, holding, patience, acquireSession, bind_apply, modifyGet_apply]
  rw [show ({ w with holds := .listener request.listener :: .application a :: w.holds } : World) = held from rfl, looks]
  simp only [Placed.stale, Placed.session, bind_apply, adopts]
  rfl

end

/-- Touching the session of a request that has none that fits comes down to looking one up in the application that was
touched first. -/
theorem ensureSession_eq_claimSession (patience : host.patience = fuel + 1) (found : w.requestOf c = some (r, before))
    (managed : before.settings.sessionManagement = true) (ensured : ensureApplication host r w = (.ok (some a), mid))
    (at_ : (mid.context r).request? = some request) (chooses : chooseSessionId r request mid = (.ok id, chosen))
    (unfit : ∀ s, chosen.splicedSession r = some s → chosen.fitting a id s = false) :
    ensureSession host c w = claimSession host r request a id (touchSessionOf host r fuel) (chosen.unseated r) := by
  simp only [ensureSession, patience, touchSessionOf, bind_apply, get_apply, found, managed, Bool.not_true,
    Bool.false_eq_true, if_false, ensured, at_, Option.getD_some, chooses, unseated]
  cases spliced : chosen.splicedSession r with
  | none => rfl
  | some s =>
    have other := unfit s spliced
    simp only [fitting] at other
    simp only [other, Bool.false_eq_true, if_false, bind_apply]
    rfl

section

variable (running : w.Running c r a) (at_ : (w.context r).request? = some request)
  (managed : request.settings.sessionManagement = true) (bare : request.sessionNode = none)
  (identified : request.sessionId = some id)
include running at_ managed bare identified

theorem ensureSession_eq_of_bare (patience : host.patience = fuel + 1) : ensureSession host c w =
      claimSession host r request a id (touchSessionOf host r fuel) (w.touchApplication a) := by
  obtain ⟨request', found, there⟩ := requestOf_home running.home
  cases at_.symm.trans there
  obtain ⟨standing, anchored⟩ := running.anchored
  have ensures : (ensureApplication host r).Achieves w _ := achieves_ensureApplication anchored.running
  obtain ⟨_, _, ensured, rfl, rfl⟩ := ensures
  have again : ((w.touchApplication a).context r).request? = some request := there
  have chooses : chooseSessionId r request (w.touchApplication a) = (.ok id, w.touchApplication a) := by
    simp only [chooseSessionId, identified]
    rfl
  have spliced : (w.touchApplication a).splicedSession r = none := by
    rw [splicedSession_eq (requestOf_self again), standingOf, bare]
    rfl
  have looks := ensureSession_eq_claimSession patience found managed ensured again chooses (by simp [spliced])
  rwa [unseated, spliced] at looks

variable (usable : (w.application a).isDefunct = false) (patient : 0 < host.patience)
include usable patient

theorem ensureSession_unbound (unbound : (w.application a).sessions.find? id = none)
    (opened : openSession host r a w.sessions.next request.listener
      ({ w.touchApplication a with holds := .listener request.listener :: .application a :: w.holds }.withSession r a id) =
        (result, later)) : ensureSession host c w = (result.map some, { later with holds := w.holds }) := by
  obtain ⟨fuel, patience⟩ := Nat.exists_eq_add_one.mpr patient
  obtain ⟨standing, anchored⟩ := running.anchored
  have still := (w.respects_touchApplication a).application a anchored.issued
  let touched := w.touchApplication a
  have free : touched.stale a id = none := by rw [stale, still]; exact unbound
  have placed : touched.placing request a id =
      ({ touched with holds := .listener request.listener :: .application a :: w.holds }.insertSession a id none).2 := by
    rw [placing, free]
    rfl
  have retires : retireStale host r a (touched.stale a id) (touched.placing request a id) =
      (.ok (), touched.placing request a id) := by
    rw [free]
    rfl
  have fresh : ((touched.placing request a id).session w.sessions.next).startState = .fresh := by
    rw [placed]
    exact (session_insertSession_next ..).2
  rw [ensureSession_eq_of_bare running at_ managed bare identified patience,
    claimSession_run (w := touched) (by rw [still]; exact (Bool.or_eq_false_iff.mp usable).2) (by simp [free]) retires at_ fresh
      patient (by rw [placed]; exact opened)]
  rfl

theorem ensureSession_bound (bound : (w.application a).sessions.find? id = some s)
    (started : (w.session s).started = true) (live : (w.session s).isDefunctAt w.readClock.2.clock = false) :
    ensureSession host c w = (.ok (some s), { { w.touchApplication a with
      holds := .listener request.listener :: .application a :: w.holds }.joined r s |>.touchSession s with holds := w.holds }) := by
  obtain ⟨fuel, patience⟩ := Nat.exists_eq_add_one.mpr patient
  obtain ⟨standing, anchored⟩ := running.anchored
  have still := (w.respects_touchApplication a).application a anchored.issued
  rw [ensureSession_eq_of_bare running at_ managed bare identified patience,
    claimSession_bound (w := w.touchApplication a) (by rw [still]; exact (Bool.or_eq_false_iff.mp usable).2)
      (by rw [stale, still]; exact bound) live started at_ patient]
  rfl

end

end ScopeEngine
