import ScopeEngine.World

/-!
Instances of applications and sessions as the registry and the session maps hold them. Every operation here is one
indivisible step: requests that run at the same time take such steps one after another, in some order.
-/

namespace ScopeEngine

inductive StartState where
  | ready
  | busy
  | gone
  | fresh
deriving DecidableEq, Repr

def startState (started starting discarded : Bool) : StartState :=
  if started then .ready else if starting then .busy else if discarded then .gone else .fresh

def Application.startState (application : Application) : StartState :=
  ScopeEngine.startState application.started application.starting application.discarded

def Session.startState (session : Session) : StartState :=
  ScopeEngine.startState session.started session.starting session.discarded

namespace World

def seedApplication (name : Key) (scope : Scope) : Scope :=
  { scope with bindings := scope.bindings.insert .applicationName (.string name.name) }

def newApplication (w : World) (name : Key) (settings : Settings) : ApplicationId × World :=
  let (scope, w) := w.addScope (seedApplication name (.new ScopeName.application.key))
  let (created, w) := w.readClock
  w.addApplication {
    name, scope, created, lastAccess := created.millis
    timeout := .ofDuration settings.applicationLimit, sessionTimeout := .ofDuration settings.sessionLimit }

/-- The live application of a name. A missing one is created, one that is defunct is replaced. -/
def findOrCreateApplication (w : World) (name : Key) (settings : Settings) : ApplicationId × World :=
  match w.registry.find? name with
  | some a =>
    if (w.application a).isDefunct then
      let (a, w) := w.newApplication name settings
      (a, { w with registry := w.registry.insert name a })
    else
      (a, w)
  | none =>
    let (a, w) := w.newApplication name settings
    (a, { w with registry := w.registry.insert name a })

def unregister (w : World) (a : ApplicationId) : Bool × World :=
  let name := (w.application a).name
  if w.registry.find? name == some a then (true, { w with registry := w.registry.erase name }) else (false, w)

def touchApplication (w : World) (a : ApplicationId) : World :=
  let (now, w) := w.readClock
  w.modifyApplication a fun application => { application with lastAccess := now.millis }

def beginApplicationStart (w : World) (a : ApplicationId) : World :=
  w.modifyApplication a fun application => { application with starting := true }

def keepListener (w : World) (a : ApplicationId) (l : ListenerId) : World :=
  w.modifyApplication a fun application => { application with listener := some l }

def applicationStarted (w : World) (a : ApplicationId) : World :=
  w.modifyApplication a fun application => { application with started := true }

def applicationRefused (w : World) (a : ApplicationId) : World :=
  w.modifyApplication a fun application => { application with discarded := true }

def leaveApplicationStart (w : World) (a : ApplicationId) : World :=
  w.modifyApplication a fun application => { application with starting := false }

/-- Marks an application as shut down; the answer tells whether it already was. -/
def beginShutdown (w : World) (a : ApplicationId) : Bool × World :=
  ((w.application a).shutDown, w.modifyApplication a fun application => { application with shutDown := true })

/-- Makes an application that was shut down startable again, with a fresh scope. -/
def reopenApplication (w : World) (a : ApplicationId) : World :=
  let application := w.application a
  let w := w.setScope application.scope (seedApplication application.name (w.scope application.scope).clear)
  let w := w.modifyApplication a fun application =>
    { application with listener := none, started := false, shutDown := false }
  w.touchApplication a

def sessionScope (id application : Key) (created : Instant) : Scope :=
  { Scope.new ScopeName.session.key with
    bindings := .ofList [
      (.jsessionid, .string id.name), (.sessionid, .string (application.name ++ ":" ++ id.name)),
      (.timeCreated, .dateTime created), (.lastVisit, .dateTime created)] }

def newSession (w : World) (id application : Key) (timeout : Option Duration) : SessionId × World :=
  let (created, w) := w.readClock
  let (scope, w) := w.addScope (sessionScope id application created)
  w.addSession { id, application, scope, created, lastVisit := created.millis, timeout := .ofDuration timeout }

inductive Placed where
  | found (s : SessionId)
  | created (s : SessionId) (stale : Option SessionId)
deriving DecidableEq, Repr

def Placed.session : Placed → SessionId
  | .found s => s
  | .created s _ => s

def Placed.stale : Placed → Option SessionId
  | .found _ => none
  | .created _ stale => stale

def insertSession (w : World) (a : ApplicationId) (id : Key) (stale : Option SessionId) : Placed × World :=
  let application := w.application a
  let (s, w) := w.newSession id application.name application.sessionTimeout.duration
  (.created s stale, w.modifyApplication a fun application =>
    { application with sessions := application.sessions.insert id s })

/-- The live session of an id. A missing one is created, one that is defunct is replaced. -/
def placeSession (w : World) (a : ApplicationId) (id : Key) : Placed × World :=
  match (w.application a).sessions.find? id with
  | some s => if (w.session s).isDefunctAt w.clock then w.insertSession a id (some s) else (.found s, w)
  | none => w.insertSession a id none

/-- The live session of an id, unless the application is shut down. -/
def findOrCreateSession (w : World) (a : ApplicationId) (id : Key) : Option Placed × World :=
  if (w.application a).shutDown then (none, w)
  else
    let (placed, w) := w.placeSession a id
    (some placed, w)

def takeSession (w : World) (a : ApplicationId) (id : Key) : Option SessionId × World :=
  ((w.application a).sessions.find? id,
    w.modifyApplication a fun application => { application with sessions := application.sessions.erase id })

def dropSession (w : World) (a : ApplicationId) (s : SessionId) : Bool × World :=
  let id := (w.session s).id
  if (w.application a).sessions.find? id == some s then (true, (w.takeSession a id).2) else (false, w)

/-- Records a visit, in the session's scope too. -/
def touchSession (w : World) (s : SessionId) : World :=
  let (now, w) := w.readClock
  let w := w.modifySession s fun session => { session with lastVisit := now.millis }
  let scope := (w.session s).scope
  match (w.scope scope).put .lastVisit (.dateTime now) with
  | .ok (_, written) => w.setScope scope written
  | .error _ => w

def beginSessionStart (w : World) (s : SessionId) : World :=
  w.modifySession s fun session => { session with starting := true }

def sessionStarted (w : World) (s : SessionId) : World :=
  w.modifySession s fun session => { session with started := true }

def sessionRefused (w : World) (s : SessionId) : World :=
  w.modifySession s fun session => { session with discarded := true }

def leaveSessionStart (w : World) (s : SessionId) : World :=
  w.modifySession s fun session => { session with starting := false }

/-- Marks a session as shut down; the answer tells whether it already was. -/
def endSession (w : World) (s : SessionId) : Bool × World :=
  ((w.session s).shutDown, w.modifySession s fun session => { session with shutDown := true })

end World

end ScopeEngine
