import ScopeEngine.Lifecycle.Ending

/-!
Touching the application or the session of a request. Nothing runs eagerly: the first touch finds or creates the
instance, splices a node for it and runs its start hook. A hook that touches the same instance again finds the spliced
node and does not wait for its own start.
-/

namespace ScopeEngine

open ScopeEngine.Action

/-- The error of a start hook's answer, if the start must not proceed. -/
def refusal (phase : Phase) : Except Error Value → Option Error
  | .ok value => if proceeds value then none else some (.startAborted phase)
  | .error error => some error

/-- Ends the start of an application: it is started, or gone if there is a cause against it. -/
def settleApplication (a : ApplicationId) (l : ListenerId) : Option Error → Action Bool
  | none => do
    modify (·.keepListener a l)
    modify (·.applicationStarted a)
    modify (·.leaveApplicationStart a)
    pure true
  | some cause => do
    modify (·.applicationRefused a)
    let _ ← modifyGet (·.unregister a)
    modify (·.leaveApplicationStart a)
    fail (.startFailed .applicationStart ((← get).application a).name.name cause)

/-- Runs the start hook of an application once. The answer is false if the instance is gone. -/
def startApplication (host : Host) (a : ApplicationId) (r : ContextId) (l : ListenerId) : Action Bool := do
  match ((← get).application a).startState with
  | .ready => pure true
  | .gone => pure false
  | .busy => exhausted
  | .fresh =>
    modify (·.beginApplicationStart a)
    settleApplication a l (refusal .applicationStart (← attempt (callHook host l .applicationStart r [])))

/-- Makes an instance that was looked up the application of the request and starts it. The answer is false if the
instance is expired, in which case it is shut down, or gone. -/
def adoptApplication (host : Host) (r : ContextId) (a : ApplicationId) (l : ListenerId) : Action Bool := do
  let w ← get
  if (w.application a).isExpiredAt w.clock then
    if ← modifyGet (·.unregister a) then
      if let some server := w.nearest r .server then
        let _ ← shutdownApplication host a server
    pure false
  else
    modify (·.touchApplication a)
    spliceNew r (.application a)
    match ← attempt (startApplication host a r l) with
    | .ok true => pure true
    | .ok false =>
      let _ ← excise r .application
      pure false
    | .error error =>
      let _ ← excise r .application
      fail error

/-- Looks the application up until one is found that is started and not expired. -/
def acquireApplication (host : Host) (r : ContextId) (name : Key) (settings : Settings) (l : ListenerId) :
    (fuel : Nat) → Action ApplicationId
  | 0 => exhausted
  | fuel + 1 => do
    let a ← modifyGet (·.findOrCreateApplication name settings)
    if ← holding (.application a) (adoptApplication host r a l) then pure a
    else acquireApplication host r name settings l fuel

/-- The application of the request, found or created and started. None if the request has no application. -/
def ensureApplication (host : Host) (c : ContextId) : Action (Option ApplicationId) := do
  match (← get).requestOf c with
  | none => pure none
  | some (r, request) =>
    if !request.settings.hasApplication then pure none
    else
      let name := request.settings.applicationKey
      let w ← get
      match w.splicedApplication r with
      | some a =>
        if (w.application a).name == name && (request.detached || !(w.application a).isDefunct) then
          modify (·.touchApplication a)
          pure (some a)
        else
          let _ ← excise r .session
          let _ ← excise r .application
          acquire r request name
      | none => acquire r request name
where
  acquire (r : ContextId) (request : Request) (name : Key) : Action (Option ApplicationId) := do
    if ((← get).serverOf r).isNone then fail .noServer
    holding (.listener request.listener) do
      some <$> acquireApplication host r name request.settings request.listener host.patience

/-- Ends the start of a session: it is started, or gone if there is a cause against it. -/
def settleSession (a : ApplicationId) (s : SessionId) : Option Error → Action Bool
  | none => do
    modify (·.sessionStarted s)
    modify (·.leaveSessionStart s)
    pure true
  | some cause => do
    modify (·.sessionRefused s)
    let _ ← modifyGet (·.dropSession a s)
    modify (·.leaveSessionStart s)
    fail (.startFailed .sessionStart ((← get).session s).id.name cause)

/-- Runs the start hook of a session once. The answer is false if the instance is gone. -/
def startSession (host : Host) (a : ApplicationId) (s : SessionId) (r : ContextId) (l : ListenerId) :
    Action Bool := do
  match ((← get).session s).startState with
  | .ready => pure true
  | .gone => pure false
  | .busy => exhausted
  | .fresh =>
    modify (·.beginSessionStart s)
    settleSession a s (refusal .sessionStart (← attempt (callHook host l .sessionStart r [])))

/-- The session id of the request, drawn at random if it has none. -/
def chooseSessionId (r : ContextId) (request : Request) : Action Key := do
  match request.sessionId with
  | some id => pure id
  | none =>
    let id ← modifyGet (·.drawSessionId)
    modify (·.modifyRequest r fun request => { request with sessionId := some id })
    pure id

inductive Acquired where
  | session (s : SessionId)
  | closed

/-- Makes a session that was looked up the session of the request and starts it. The answer is false if it is gone. -/
def adoptSession (host : Host) (r : ContextId) (a : ApplicationId) (s : SessionId) (l : ListenerId) : Action Bool := do
  spliceNew r (.session s)
  match ← attempt (startSession host a s r l) with
  | .ok true =>
    modify (·.touchSession s)
    pure true
  | .ok false =>
    let _ ← excise r .session
    pure false
  | .error error =>
    let _ ← excise r .session
    fail error

/-- Looks the session up until one is found that is started. -/
def acquireSession (host : Host) (r : ContextId) (a : ApplicationId) (id : Key) (l : ListenerId) :
    (fuel : Nat) → Action Acquired
  | 0 => exhausted
  | fuel + 1 => do
    match ← modifyGet (·.findOrCreateSession a id) with
    | none => pure .closed
    | some placed =>
      if let some stale := placed.stale then retireSession host r a stale
      if ← adoptSession host r a placed.session l then pure (.session placed.session)
      else acquireSession host r a id l fuel

/-- Looks the session up in the application of the request. If the application was shut down meanwhile, a detached request
gives up and any other one gets rid of its nodes and tries again. -/
def claimSession (host : Host) (r : ContextId) (request : Request) (a : ApplicationId) (id : Key)
    (again : Action (Option SessionId)) : Action (Option SessionId) :=
  holding (.application a) <| holding (.listener request.listener) do
    match ← acquireSession host r a id request.listener host.patience with
    | .session s => pure (some s)
    | .closed =>
      if request.detached then fail (.scopeNotFound ScopeName.session.text)
      else
        let _ ← excise r .session
        let _ ← excise r .application
        again

/-- Touches the session of a request, again from the start whenever the application was shut down on the way. -/
def touchSessionOf (host : Host) (r : ContextId) : (fuel : Nat) → Action (Option SessionId)
  | 0 => exhausted
  | fuel + 1 => do
    match (← get).requestOf r with
    | none => pure none
    | some (r, request) =>
      if !request.settings.sessionManagement then pure none
      else
        match ← ensureApplication host r with
        | none => pure none
        | some a =>
          -- hooks may have changed the request
          let request := (((← get).context r).request?).getD request
          let id ← chooseSessionId r request
          let w ← get
          match w.splicedSession r with
          | some s =>
            let session := w.session s
            if session.id == id && session.application == (w.application a).name && !session.isDefunctAt w.clock then
              modify (·.touchSession s)
              pure (some s)
            else
              let _ ← excise r .session
              claimSession host r request a id (touchSessionOf host r fuel)
          | none => claimSession host r request a id (touchSessionOf host r fuel)

/-- The session of the request, found or created and started. None if session management is off or the request has no
application. -/
def ensureSession (host : Host) (c : ContextId) : Action (Option SessionId) :=
  touchSessionOf host c host.patience

end ScopeEngine
