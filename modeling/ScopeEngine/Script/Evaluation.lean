import ScopeEngine.Declaring

/-!
What the expressions, scope references and declarations of a script denote at a context.
-/

namespace ScopeEngine.Script

open ScopeEngine.Action

def named {α : Type} (names : Handles → List (String × α)) (handle : String) : Action α := do
  match (names (← get).handles).lookup handle with
  | some thing => pure thing
  | none => fail (.unknownHandle handle)

def keepAs {α : Type} (assign : Handles → String → α → Handles) (handle : Option String) (thing : α) :
    Action Unit := do
  if let some handle := handle then
    modify fun w => { w with handles := assign w.handles handle thing }

def keepScope : Option String → ScopeId → Action Unit :=
  keepAs fun handles name s => { handles with scopes := Handles.assign handles.scopes name s }

def keepFunction : Option String → FunctionId → Action Unit :=
  keepAs fun handles name f => { handles with functions := Handles.assign handles.functions name f }

def keepComponent : Option String → ComponentId → Action Unit :=
  keepAs fun handles name k => { handles with components := Handles.assign handles.components name k }

def keepListener : Option String → ListenerId → Action Unit :=
  keepAs fun handles name l => { handles with listeners := Handles.assign handles.listeners name l }

def keepApplication : Option String → ApplicationId → Action Unit :=
  keepAs fun handles name a => { handles with applications := Handles.assign handles.applications name a }

def keepSession : Option String → SessionId → Action Unit :=
  keepAs fun handles name s => { handles with sessions := Handles.assign handles.sessions name s }

def keepNode : Option String → ContextId → Action Unit :=
  keepAs fun handles name c => { handles with nodes := Handles.assign handles.nodes name c }

def ComponentPart.of (component : Component) : ComponentPart → ScopeId
  | .vars => component.vars
  | .self => component.self
  | .shared => component.shared

def scopeAt (host : Host) (c : ContextId) : ScopeRef → Action ScopeId
  | .server => do pure (← get).engine.scope
  | .application handle => do
    let a ← named (·.applications) handle
    pure ((← get).application a).scope
  | .session handle => do
    let s ← named (·.sessions) handle
    pure ((← get).session s).scope
  | .component handle part => do
    let k ← named (·.components) handle
    pure (part.of ((← get).component k))
  | .nearby name => scopeNearby host c name
  | .handle handle => named (·.scopes) handle

def putEntries (s : ScopeId) : List (Key × Value) → Action Unit
  | [] => pure ()
  | (key, value) :: rest => do
    let _ ← putIn s key value
    putEntries s rest

mutual

def evaluate (host : Host) (c : ContextId) : Expr → Action Value
  | .null => pure .null
  | .boolean b => pure (.boolean b)
  | .integer n => pure (.integer n)
  | .float x => pure (.float x)
  | .string s => pure (.string s)
  | .dateTime t => pure (.dateTime t)
  | .struct name entries => do
    let values ← evaluateEntries host c entries
    let s ← newScope (.new name)
    putEntries s values
    pure (.struct s)
  | .scope ref => do pure (.struct (← scopeAt host c ref))
  | .function handle => do pure (.function (← named (·.functions) handle))
  | .path path => resolveValue host c path
  | .declare declaration => do
    pure (.function (← bindFunction c (← declared host c declaration)))

def evaluateEntries (host : Host) (c : ContextId) : List (Key × Expr) → Action (List (Key × Value))
  | [] => pure []
  | (key, value) :: rest => do
    let value ← evaluate host c value
    pure ((key, value) :: (← evaluateEntries host c rest))

def evaluateAll (host : Host) (c : ContextId) : List Expr → Action (List Value)
  | [] => pure []
  | value :: rest => do
    let value ← evaluate host c value
    pure (value :: (← evaluateAll host c rest))

def declared (host : Host) (c : ContextId) : Declaration → Action Function
  | .mk kind name params access source body => do
    let params ← evaluateParameters host c params
    pure { name := .of name, kind, access, params, body, source, frame := none, component := none }

def evaluateParameters (host : Host) (c : ContextId) : List Parameter → Action (List Param)
  | [] => pure []
  | .mk name required default :: rest => do
    let default ← evaluateDefault host c default
    pure ({ name := .of name, required, default } :: (← evaluateParameters host c rest))

def evaluateDefault (host : Host) (c : ContextId) : Option Expr → Action (Option Value)
  | none => pure none
  | some value => do pure (some (← evaluate host c value))

end

def evaluateArguments (host : Host) (c : ContextId) : ArgumentList → Action Arguments
  | .positional values => do pure (.positional (← evaluateAll host c values))
  | .named values => do pure (.named (.ofList (← evaluateEntries host c values)))

def newListener (host : Host) (c : ContextId) : ListenerSpec → Action ListenerId
  | .mk name hooks => do
    let functions ← hooks.mapM fun (hook, declaration) => do
      let function ← declared host c declaration
      pure (hook, ← modifyGet (·.addFunction function))
    modifyGet (·.addListener { name, component := none, hook := fun hook => functions.lookup hook })

end ScopeEngine.Script
