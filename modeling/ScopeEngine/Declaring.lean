import ScopeEngine.Resolution.Names

/-!
Declaring functions: what a function remembers of the place it is declared at, and where a named function is stored.
-/

namespace ScopeEngine

open ScopeEngine.Action

/-- A closure captures the frame of the place; a plain function remembers the component around it. -/
def World.bound (w : World) (c : ContextId) (function : Function) : Function :=
  match function.kind with
  | .closure => { function with frame := some (w.captureFrame c) }
  | .plain => { function with component := function.component.or (w.enclosingComponent c) }
  | .lambda => function

def bindFunction (c : ContextId) (function : Function) : Action FunctionId :=
  modifyGet fun w => w.addFunction (w.bound c function)

/-- Attaches a function to a component. Every method goes into its variables, exposed ones also among its public
members. Closures and lambdas keep their own binding. -/
def defineMethod (k : ComponentId) (function : Function) : Action FunctionId := do
  let function := if function.kind = .plain then { function with component := some k } else function
  let f ← modifyGet (·.addFunction function)
  let component := (← get).component k
  let _ ← putIn component.vars function.name (.function f)
  if function.access = .exposed then
    let _ ← putIn component.self function.name (.function f)
  pure f

def World.declaringComponent (w : World) (c : ContextId) : Option ComponentId :=
  match (w.context c).kind with
  | .component k => some k
  | .function call => call.component
  | _ => none

/-- Functions declared in plain functions go where the caller's would. -/
def World.declarationScope (w : World) : List ContextId → ScopeId
  | [] => default
  | [c] => w.defaultScope c
  | c :: above =>
    match (w.context c).kind with
    | .function _ => w.declarationScope above
    | _ => w.defaultScope c

def registerFunction (c : ContextId) (function : Function) : Action FunctionId := do
  let w ← get
  let function := w.bound c function
  match w.declaringComponent c with
  | some k => defineMethod k function
  | none =>
    let f ← modifyGet (·.addFunction function)
    let _ ← putIn ((← get).declarationScope (w.ancestry c)) function.name (.function f)
    pure f

def invokeNamed (host : Host) (c : ContextId) (name : String) (arguments : Arguments) : Action Value := do
  match (← resolvePath host c name).value with
  | .function f => invoke host f c arguments
  | _ => fail (.notAFunction name)

end ScopeEngine
