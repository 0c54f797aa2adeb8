import ScopeEngine.Calls
import ScopeEngine.Lifecycle.Requests

/-!
Ending sessions and applications. End hooks run in a detached request. What they raise is reported and never stops
the rest.
-/

namespace ScopeEngine

open ScopeEngine.Action

/-- Ends a session: its end hook runs if it had been started. Only the first call does anything. -/
def shutdownSession (host : Host) (s : SessionId) (c : ContextId) (l : ListenerId) (applicationScope : ScopeId) :
    Action Unit := do
  let before ← modifyGet (·.endSession s)
  let session := (← get).session s
  if !before && session.started then
    let _ ← callHook host l .sessionEnd c [.struct session.scope, .struct applicationScope]

/-- Ends a session that left the map of its application, in a detached request below the server. -/
def retireSession (host : Host) (c : ContextId) (a : ApplicationId) (s : SessionId) : Action Unit := do
  let w ← get
  let application := w.application a
  let l := application.listener.getD (w.listenerAt c)
  let place ← match w.nearest c .server with
    | some server => modifyGet (·.newDetached server a)
    | none => pure c
  holding (.listener l) do
    let _ ← attempt (entering place (shutdownSession host s place l application.scope))

def closeSession (host : Host) (a : ApplicationId) (c : ContextId) (l : ListenerId) (report : ShutdownReport)
    (id : Key) : Action ShutdownReport := do
  match ← modifyGet (·.takeSession a id) with
  | none => pure report
  | some s =>
    match ← attempt (shutdownSession host s c l ((← get).application a).scope) with
    | .ok () => pure { report with sessionsClosed := report.sessionsClosed + 1 }
    | .error error =>
      let failure := "session [" ++ ((← get).session s).id.name ++ "]: " ++ error.message
      pure { report with failures := report.failures ++ [failure] }

def drainSessions (host : Host) (a : ApplicationId) (c : ContextId) (l : ListenerId) :
    (fuel : Nat) → ShutdownReport → Action ShutdownReport
  | 0, _ => exhausted
  | fuel + 1, report => do
    let ids := ((← get).application a).sessions.keys
    if ids.isEmpty then pure report
    else drainSessions host a c l fuel (← ids.foldlM (closeSession host a c l) report)

def endApplication (host : Host) (a : ApplicationId) (c : ContextId) (l : ListenerId) (report : ShutdownReport) :
    Action ShutdownReport := do
  let application := (← get).application a
  if application.started then
    match ← attempt (callHook host l .applicationEnd c [.struct application.scope]) with
    | .ok _ => pure report
    | .error error =>
      let failure := "application [" ++ application.name.name ++ "]: " ++ error.message
      pure { report with failures := report.failures ++ [failure] }
  else
    pure report

/-- Ends every session and then the application. A second shutdown does and reports nothing. -/
def shutdownApplication (host : Host) (a : ApplicationId) (server : ContextId) : Action ShutdownReport := do
  let report : ShutdownReport := { application := ((← get).application a).name.name }
  if ← modifyGet (·.beginShutdown a) then pure report
  else
    let l := ((← get).application a).listener.getD World.silentListener
    let c ← modifyGet (·.newDetached server a)
    holding (.application a) <| holding (.listener l) <| entering c do
      endApplication host a c l (← drainSessions host a c l host.patience report)

def restartApplication (host : Host) (a : ApplicationId) (server : ContextId) : Action ShutdownReport := do
  let report ← shutdownApplication host a server
  if ((← get).application a).starting then exhausted
  modify (·.reopenApplication a)
  pure report

def shutdownNamed (host : Host) (name : Key) (server : ContextId) : Action (Option ShutdownReport) := do
  match (← get).registry.find? name with
  | none => pure none
  | some a =>
    modify fun w => { w with registry := w.registry.erase name }
    some <$> shutdownApplication host a server

def shutdownAll (host : Host) (server : ContextId) : Action (List ShutdownReport) := do
  let names := (← get).registry.keys
  let reports ← names.mapM fun name => shutdownNamed host name server
  pure (reports.filterMap id)

end ScopeEngine
