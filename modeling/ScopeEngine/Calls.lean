import ScopeEngine.Action
import ScopeEngine.Copying
import ScopeEngine.Liveness

/-!
Calling functions: the arguments scope of a call, and the context that its body runs at. What running a body means is
left to a host.
-/

namespace ScopeEngine

open ScopeEngine.Action

structure Host where
  run : Script.Body → ContextId → Action Value
  /-- How often an interrupted lookup is tried again before it counts as never answering. -/
  patience : Nat

def absentArgument (function : Function) (param : Param) : Action Value :=
  match param.default with
  | some value => modifyGet (·.duplicate value)
  | none => if param.required then fail (.missingArgument function.name.name param.name.name) else pure .null

def bindLeading (function : Function) : List Param → List Value → Scope → Action Scope
  | [], _, scope => pure scope
  | param :: params, value :: values, scope => do
    let (_, scope) ← ofExcept (scope.put param.name value)
    bindLeading function params values scope
  | param :: params, [], scope => do
    let value ← absentArgument function param
    let (_, scope) ← ofExcept (scope.put param.name value)
    bindLeading function params [] scope

def bindExtras : (place : Nat) → List Value → Scope → Action Scope
  | _, [], scope => pure scope
  | place, value :: values, scope => do
    let (_, scope) ← ofExcept (scope.put (.ofInt (Int64.ofNat place)) value)
    bindExtras (place + 1) values scope

/-- Binds parameters to the values of their names; the result also holds the values left over. -/
def bindNamed (function : Function) : List Param → Bindings Value → Scope → Action (Bindings Value × Scope)
  | [], values, scope => pure (values, scope)
  | param :: params, values, scope => do
    let value ← match values.find? param.name with
      | some value => pure value
      | none => absentArgument function param
    let (_, scope) ← ofExcept (scope.put param.name value)
    bindNamed function params (values.erase param.name) scope

def bindEntries : List (Key × Value) → Scope → Action Scope
  | [], scope => pure scope
  | (key, value) :: rest, scope => do
    let (_, scope) ← ofExcept (scope.put key value)
    bindEntries rest scope

/-- The arguments scope of one call: parameters in order of declaration, then everything else in order of the call. -/
def bindArguments (f : FunctionId) (arguments : Arguments) : Action ScopeId := do
  let function := (← get).function f
  match arguments with
  | .positional values =>
    let scope ← bindLeading function function.params values .newArguments
    let count := function.params.length
    newScope (← bindExtras (count + 1) (values.drop count) scope)
  | .named values =>
    let (rest, scope) ← bindNamed function function.params values .newArguments
    newScope (← bindEntries rest.entries scope)

def callContext (f : FunctionId) (caller : ContextId) (arguments : ScopeId) : Action ContextId := do
  let function := (← get).function f
  let locals ← newScope (.new ScopeName.locals.key)
  let w ← get
  let kind : ContextKind := match function.kind with
    | .plain => .function { locals, arguments, function := f, component := w.followLink function.component }
    | .closure =>
      .closure { locals, arguments, function := f, component := w.followLink (function.frame.bind (·.component)) }
    | .lambda => .lambda { locals, arguments, function := f, component := none }
  modifyGet (·.addContext { parent := some caller, kind, templates := function.source.toList })

def invoke (host : Host) (f : FunctionId) (caller : ContextId) (arguments : Arguments) : Action Value := do
  let scope ← bindArguments f arguments
  let c ← callContext f caller scope
  entering c (host.run ((← get).function f).body c)

/-- Runs a hook of a listener at a context. A missing hook answers null. -/
def callHook (host : Host) (l : ListenerId) (hook : Hook) (c : ContextId) (values : List Value) : Action Value := do
  match ((← get).listener l).hook hook with
  | some f => invoke host f c (.positional values)
  | none => pure .null

/-- Anything but an explicit `false` lets a start proceed. -/
def proceeds : Value → Bool
  | .boolean b => b
  | _ => true

end ScopeEngine
