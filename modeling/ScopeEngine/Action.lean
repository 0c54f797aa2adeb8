import ScopeEngine.World

/-!
Actions: computations that change the world and may fail. A failed action keeps the changes it made. An action that
recurses into scripts may also run out of steps, which no script can observe.
-/

namespace ScopeEngine

inductive Interruption where
  | failed (error : Error)
  | exhausted
deriving DecidableEq, Repr

abbrev Action := ExceptT Interruption (StateM World)

namespace Action

def fail {α : Type} (error : Error) : Action α := throw (.failed error)

def exhausted {α : Type} : Action α := throw .exhausted

def ofExcept {α : Type} : Except Error α → Action α
  | .ok a => pure a
  | .error error => fail error

def attempt {α : Type} (action : Action α) : Action (Except Error α) := fun w =>
  match action w with
  | (.ok a, w) => (.ok (.ok a), w)
  | (.error (.failed error), w) => (.ok (.error error), w)
  | (.error .exhausted, w) => (.error .exhausted, w)

def holding {α : Type} (thing : Hold) (action : Action α) : Action α := fun w =>
  let (result, after) := action { w with holds := thing :: w.holds }
  (result, { after with holds := w.holds })

def entering {α : Type} (c : ContextId) (action : Action α) : Action α :=
  holding (.context c) action

end Action

open ScopeEngine.Action

def writeScope {α : Type} (s : ScopeId) (operation : Scope → Except Error (α × Scope)) : Action α := do
  let (result, scope) ← ofExcept (operation ((← get).scope s))
  modify (·.setScope s scope)
  return result

def putIn (s : ScopeId) (key : Key) (value : Value) : Action (Option Value) :=
  writeScope s (·.put key value)

def newScope (scope : Scope) : Action ScopeId :=
  modifyGet (·.addScope scope)

end ScopeEngine
