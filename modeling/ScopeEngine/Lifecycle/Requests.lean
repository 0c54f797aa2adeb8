import ScopeEngine.DrawnId
import ScopeEngine.Lifecycle.Instances
import ScopeEngine.Splicing

/-!
Requests: how they begin, and the settings, listener and session id they run with.
-/

namespace ScopeEngine

open ScopeEngine.Action

/-- A new request has no nodes yet, so the application's can be put at the end. -/
def Request.detach (request : Request) (application : Application) (node : ContextId) : Request :=
  { request with
    settings := .named application.name.name
    listener := application.listener.getD request.listener
    ancestors := Ancestors.push .empty (.application node) nofun }

namespace World

/-- Settings and listener come from the nearest server. -/
def newRequest (w : World) (parent : ContextId) (detached : Bool) : ContextId × World :=
  let (settings, listener) := match w.serverOf parent with
    | some server => (server.defaults, server.listener)
    | none => ({}, silentListener)
  let (vars, w) := w.addScope (.new ScopeName.vars.key)
  let (scope, w) := w.addScope (.new ScopeName.request.key)
  w.addContext { parent := some parent, kind := .request { vars, scope, settings, listener, detached } }

/-- A request in which end hooks of an application run: the application is spliced in and session management is
off. -/
def newDetached (w : World) (parent : ContextId) (a : ApplicationId) : ContextId × World :=
  let (c, w) := w.newRequest parent true
  let (node, w) := w.addNode (.application a)
  (c, w.modifyRequest c (·.detach (w.application a) node))

def settingsAt (w : World) (c : ContextId) : Settings :=
  match w.requestOf c with
  | some (_, request) => request.settings
  | none => ((w.serverOf c).map (·.defaults)).getD {}

def listenerAt (w : World) (c : ContextId) : ListenerId :=
  match w.requestOf c with
  | some (_, request) => request.listener
  | none => ((w.serverOf c).map (·.listener)).getD silentListener

def sessionIdAt (w : World) (c : ContextId) : Option Key := do
  let (_, request) ← w.requestOf c
  request.sessionId

def drawSessionId (w : World) : Key × World :=
  (.of (DrawnId.text w.drawn), { w with drawn := w.drawn + 1 })

end World

def theRequest (c : ContextId) : Action (ContextId × Request) := do
  match (← get).requestOf c with
  | some found => pure found
  | none => fail .noRequest

def setListener (c : ContextId) (l : ListenerId) : Action Unit := do
  let (r, _) ← theRequest c
  modify (·.modifyRequest r fun request => { request with listener := l })

/-- Replaces the settings of the request and takes out the nodes they no longer allow. New ones come with the next
touch. -/
def updateSettings (c : ContextId) (settings : Settings) : Action Unit := do
  let (r, _) ← theRequest c
  modify (·.modifyRequest r fun request => { request with settings })
  let w ← get
  if let some a := w.splicedApplication r then
    if settings.hasApplication && (w.application a).name == settings.applicationKey then
      modify (·.modifyApplication a (·.applySettings settings))
    else
      let _ ← excise r .session
      let _ ← excise r .application
  if !settings.sessionManagement then
    let _ ← excise r .session

/-- Points the request at a session id and takes out a session with another one. -/
def setSessionId (c : ContextId) (id : Key) : Action Unit := do
  let (r, _) ← theRequest c
  let w ← get
  if let some s := w.splicedSession r then
    if !((w.session s).id == id) then
      let _ ← excise r .session
  modify (·.modifyRequest r fun request => { request with sessionId := some id })

end ScopeEngine
