import ScopeEngine.Lifecycle.Starting

/-!
Switching a request to another session: to a given id, to a fresh id that takes the data along, or to a fresh session
that leaves the data behind.
-/

namespace ScopeEngine

open ScopeEngine.Action

def orSessionsDisabled {α : Type} (found : Option α) : Action α :=
  match found with
  | some a => pure a
  | none => fail .sessionsDisabled

def initializeSession (host : Host) (c : ContextId) (id : Key) : Action SessionId := do
  setSessionId c id
  orSessionsDisabled (← ensureSession host c)

/-- Copies bindings into a scope, except those it already has. -/
def inherit (s : ScopeId) : List (Key × Value) → Copies → Action Unit
  | [], _ => pure ()
  | (key, value) :: rest, copies => do
    let (value, copies) ← modifyGet fun w =>
      let (value, copies, w) := w.duplicateWith copies value
      ((value, copies), w)
    let _ ← writeScope s (·.putIfAbsent key value)
    inherit s rest copies

/-- Moves the data of the current session to a fresh id. What the new session already holds is kept, everything else
is copied; references to the old scope become references to the new one. The old session is ended. -/
def rotateSession (host : Host) (c : ContextId) : Action SessionId := do
  let old ← orSessionsDisabled (← ensureSession host c)
  let a ← orSessionsDisabled (← ensureApplication host c)
  holding (.application a) do
    let fresh ← initializeSession host c (← modifyGet (·.drawSessionId))
    let w ← get
    let source := (w.session old).scope
    let target := (w.session fresh).scope
    inherit target (w.scope source).bindings.entries [(source, target)]
    let _ ← modifyGet (·.dropSession a old)
    retireSession host c a old
    pure fresh

def orDrawnId : Option Key → Action Key
  | some id => pure id
  | none => modifyGet (·.drawSessionId)

/-- Ends the current session and starts a new one, under a random id if none is given. -/
def invalidateSession (host : Host) (c : ContextId) (id : Option Key) : Action SessionId := do
  if !((← get).settingsAt c).sessionManagement then fail .sessionsDisabled
  let a ← orSessionsDisabled (← ensureApplication host c)
  let w ← get
  let old := (w.splicedSession c).or do
    let id ← w.sessionIdAt c
    (w.application a).sessions.find? id
  let _ ← excise c .session
  holding (.application a) do
    if let some old := old then
      let _ ← modifyGet (·.dropSession a old)
      retireSession host c a old
    initializeSession host c (← orDrawnId id)

end ScopeEngine
