import ScopeEngine.Engine
import ScopeEngine.Script.ScopeSteps

/-!
Steps on contexts, requests, applications, sessions and the registry.
-/

namespace ScopeEngine.Script

open ScopeEngine.Action

def ContextStep.run (c : ContextId) : ContextStep → Action Reply
  | .inspect => do pure (.context ((← get).contextReport c))
  | .pushTemplate path => do
    modify fun w => w.setContext c { w.context c with templates := (w.context c).templates ++ [path] }
    pure .nothing
  | .popTemplate => do
    let templates := ((← get).context c).templates
    modify fun w => w.setContext c { w.context c with templates := templates.dropLast }
    pure (.textOrNothing templates.getLast?)
  | .hasType kind => do pure (.flag ((← get).nearest c kind).isSome)
  | .removeNode kind as => do
    let node ← excise c kind
    if let some node := node then keepNode as node
    let w ← get
    pure (.contextType (node.map fun node => (w.context node).type))
  | .injectNode node => do
    splice c (← named (·.nodes) node)
    pure .nothing
  | .newServerNode as => do
    keepNode as (← Engine.serverContext (← get).engine)
    pure .nothing

def reportSession (as : Option String) (s : SessionId) : Action Reply := do
  keepSession as s
  pure (.session ((← get).sessionReport s))

def listenerOf (w : World) (k : ComponentId) : Listener :=
  let component := w.component k
  let hook (key : Key) : Option FunctionId :=
    match (w.scope component.self).get key with
    | some (.function f) => some f
    | _ => none
  { name := component.name.name
    component := some k
    hook := fun
      | .applicationStart => hook .onApplicationStart
      | .sessionStart => hook .onSessionStart
      | .sessionEnd => hook .onSessionEnd
      | .applicationEnd => hook .onApplicationEnd }

def LifecycleStep.run (host : Host) (c : ContextId) : LifecycleStep → Action Reply
  | .settings => do pure (.settings ((← get).settingsAt c))
  | .updateSettings wanted => do
    ScopeEngine.updateSettings c wanted
    pure .nothing
  | .listener => do
    let w ← get
    pure (.text (w.listener (w.listenerAt c)).name)
  | .setListener handle => do
    let l ← match handle with
      | some handle => named (·.listeners) handle
      | none => pure World.silentListener
    ScopeEngine.setListener c l
    pure .nothing
  | .newListener spec as => do
    keepListener as (← Script.newListener host c spec)
    pure .nothing
  | .componentListener component as => do
    let k ← named (·.components) component
    let w ← get
    keepListener as (← modifyGet (·.addListener (listenerOf w k)))
    pure (.text (w.component k).name.name)
  | .sessionId => do pure (.textOrNothing (((← get).sessionIdAt c).map Key.name))
  | .setSessionId id => do
    ScopeEngine.setSessionId c id
    pure .nothing
  | .ensureApplication as => do
    let found ← ScopeEngine.ensureApplication host c
    if let some a := found then keepApplication as a
    let w ← get
    pure (.textOrNothing (found.map fun a => (w.application a).name.name))
  | .ensureSession as => do
    let found ← ScopeEngine.ensureSession host c
    if let some s := found then keepSession as s
    let w ← get
    pure (.textOrNothing (found.map fun s => (w.session s).id.name))
  | .initializeSession id as => do reportSession as (← ScopeEngine.initializeSession host c id)
  | .rotateSession as => do reportSession as (← ScopeEngine.rotateSession host c)
  | .invalidateSession id as => do reportSession as (← ScopeEngine.invalidateSession host c id)
  | .spliced => do
    let w ← get
    pure (.spliced ((w.splicedApplication c).map fun a => (w.application a).name.name)
      ((w.splicedSession c).map fun s => (w.session s).id.name))
  | .keepSpliced application session => do
    let w ← get
    let a := w.splicedApplication c
    let s := w.splicedSession c
    if let some a := a then keepApplication application a
    if let some s := s then keepSession session s
    pure (.kept a.isSome s.isSome)

/-- Long enough to tell a later time from the same one. -/
def movedMillis : Int := 50

def hasMoved (created later : Instant) : Bool :=
  (created.addMillis movedMillis).nanos ≤ later.nanos

/-- Failures of sessions come first and are listed in order, those of drawn ids last. -/
def tidyReport (report : ShutdownReport) : ShutdownReport :=
  let ofSession (failure : String) : Bool := failure.startsWith "session ["
  { report with
    failures := DrawnId.sortBy id (report.failures.takeWhile ofSession) ++ report.failures.dropWhile ofSession }

def tidyReports (reports : List ShutdownReport) : List ShutdownReport :=
  (reports.map tidyReport).mergeSort fun a b => (compare a.application b.application).isLE

def ApplicationStep.run (host : Host) (c : ContextId) : ApplicationStep → Action Reply
  | .inspect application => do
    let a ← named (·.applications) application
    pure (.application ((← get).applicationReport a))
  | .same a b => do
    let a ← named (·.applications) a
    let b ← named (·.applications) b
    pure (.flag (a == b))
  | .setTimeout application limit => do
    let a ← named (·.applications) application
    modify (·.modifyApplication a fun application => { application with timeout := limit })
    pure .nothing
  | .setSessionTimeout application limit => do
    let a ← named (·.applications) application
    modify (·.modifyApplication a fun application => { application with sessionTimeout := limit })
    pure .nothing
  | .touch application => do
    let a ← named (·.applications) application
    modify (·.touchApplication a)
    pure .nothing
  | .expiredAfter application ms => do
    let a ← named (·.applications) application
    let application := (← get).application a
    pure (.flag (application.isExpiredAt (.ofMillis (application.lastAccess.toInt + ms))))
  | .expired application => do
    let a ← named (·.applications) application
    let w ← get
    pure (.flag ((w.application a).isExpiredAt w.clock))
  | .moved application => do
    let a ← named (·.applications) application
    let application := (← get).application a
    pure (.flag (hasMoved application.created (.ofMillis application.lastAccess.toInt)))
  | .findSession application id as => do
    let a ← named (·.applications) application
    let w ← get
    let found := (w.application a).sessions.find? id
    if let some s := found then keepSession as s
    pure (.sessionLookup ((w.application a).sessions.contains id) (found.map fun s => (w.session s).id.name))
  | .removeSession application id as => do
    let a ← named (·.applications) application
    let found ← modifyGet (·.takeSession a id)
    if let some s := found then keepSession as s
    let w ← get
    pure (.textOrNothing (found.map fun s => (w.session s).id.name))
  | .shutdown application => do
    let a ← named (·.applications) application
    pure (.shutdown (some (tidyReport (← shutdownApplication host a c))))
  | .restart application => do
    let a ← named (·.applications) application
    pure (.shutdown (some (tidyReport (← restartApplication host a c))))

def SessionStep.run : SessionStep → Action Reply
  | .inspect session => do
    let s ← named (·.sessions) session
    pure (.session ((← get).sessionReport s))
  | .same a b => do
    let a ← named (·.sessions) a
    let b ← named (·.sessions) b
    pure (.flag (a == b))
  | .setTimeout session limit => do
    let s ← named (·.sessions) session
    modify (·.modifySession s fun session => { session with timeout := limit })
    pure .nothing
  | .touch session => do
    let s ← named (·.sessions) session
    modify (·.touchSession s)
    pure .nothing
  | .expiredAfter session ms => do
    let s ← named (·.sessions) session
    let session := (← get).session s
    pure (.flag (session.isExpiredAt (.ofMillis (session.lastVisit.toInt + ms))))
  | .state session => do
    let s ← named (·.sessions) session
    let w ← get
    pure (.sessionState ((w.session s).isExpiredAt w.clock) ((w.session s).isDefunctAt w.clock))
  | .moved session => do
    let s ← named (·.sessions) session
    let w ← get
    let session := w.session s
    let scope := w.scope session.scope
    let inScope := match scope.get .timeCreated, scope.get .lastVisit with
      | some (.dateTime created), some (.dateTime later) => some (hasMoved created later)
      | _, _ => none
    pure (.sessionMoved (hasMoved session.created (.ofMillis session.lastVisit.toInt)) inScope)

def RegistryStep.run (host : Host) (c : ContextId) : RegistryStep → Action Reply
  | .inspect => do pure (.registry ((Key.sort (← get).registry.keys).map Key.name))
  | .has name => do
    let w ← get
    pure (.flag (((w.registry.find? name).map fun a => !(w.application a).isDefunct).getD false))
  | .find name as => do
    let w ← get
    let found := w.registry.find? name
    if let some a := found then keepApplication as a
    pure (.textOrNothing (found.map fun a => (w.application a).name.name))
  | .remove name as => do
    let w ← get
    let found := w.registry.find? name
    if let some a := found then keepApplication as a
    modify fun w => { w with registry := w.registry.erase name }
    pure (.textOrNothing (found.map fun a => (w.application a).name.name))
  | .create name settings as => do
    let a ← modifyGet (·.findOrCreateApplication name settings)
    keepApplication as a
    pure (.text ((← get).application a).name.name)
  | .discard application => do
    let a ← named (·.applications) application
    pure (.flag (← modifyGet (·.unregister a)))
  | .shutdown name => do
    pure (.shutdown ((← shutdownNamed host name c).map tidyReport))
  | .shutdownAll => do
    pure (.shutdowns (tidyReports (← ScopeEngine.shutdownAll host c)))
  | .shutdownEngine => do
    pure (.shutdowns (tidyReports (← Engine.shutdown host (← get).engine)))

end ScopeEngine.Script
