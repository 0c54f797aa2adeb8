import ScopeEngine.Script.ScopeSteps

/-!
Steps that search for names, assign to paths and call functions.
-/

namespace ScopeEngine.Script

open ScopeEngine.Action

def reportPlace (c : ContextId) (as : Option String) (s : ScopeId) : Action Reply := do
  keepScope as s
  pure (.place ((← get).placeReport c s))

def reportFinding (c : ContextId) (as : Option String) (found : Finding) : Action Reply := do
  keepScope as found.scope
  pure (.found ((← get).findingReport c found))

def NameStep.run (host : Host) (c : ContextId) : NameStep → Action Reply
  | .resolve key default as => do
    let default ← default.mapM (scopeAt host c)
    reportFinding c as (← ScopeEngine.resolve host c key default)
  | .resolvePath path as => do
    reportFinding c as (← ScopeEngine.resolvePath host c path)
  | .resolveValue path => do
    let value ← ScopeEngine.resolveValue host c path
    pure (.value ((← get).snapshot value))
  | .assign scope key value => do
    let value ← evaluate host c value
    let s ← scopeAt host c scope
    let _ ← putIn s key value
    pure .nothing
  | .assignPath path value => do
    let value ← evaluate host c value
    setPath host c path value
    pure .nothing
  | .defaultScope as => do reportPlace c as ((← get).defaultScope c)
  | .scopeNearby name as => do reportPlace c as (← ScopeEngine.scopeNearby host c name)
  | .getScope name as => do reportPlace c as (← ScopeEngine.getScope host c name)
  | .visible => do
    let w ← get
    pure (.visible (w.namedKeys (w.visibleScopes c)))
  | .frame => do
    let w ← get
    pure (.frame (w.frameReport (w.captureFrame c)))

def reportFunction (as : Option String) (f : FunctionId) : Action Reply := do
  keepFunction as f
  pure (.function ((← get).functionReport f))

def newComponent (name : String) (shared : Option ScopeId) : Action ComponentId := do
  let shared ← match shared with
    | some s => pure s
    | none => newScope (.new ScopeName.shared.key)
  let vars ← newScope (.new ScopeName.vars.key)
  let self ← newScope (.new ScopeName.self.key)
  modifyGet (·.addComponent { name := .of name, vars, self, shared })

def FunctionStep.run (host : Host) (c : ContextId) : FunctionStep → Action Reply
  | .new function as => do
    let function ← declared host c function
    reportFunction as (← modifyGet (·.addFunction function))
  | .bindHere function as => do
    let function ← declared host c function
    reportFunction as (← bindFunction c function)
  | .register function as => do
    let function ← declared host c function
    reportFunction as (← registerFunction c function)
  | .defineMethod component function as => do
    let k ← named (·.components) component
    let function ← declared host c function
    reportFunction as (← ScopeEngine.defineMethod k function)
  | .inspect function => do
    let f ← named (·.functions) function
    pure (.function ((← get).functionReport f))
  | .alias value as => do
    match ← evaluate host c value with
    | .function f =>
      keepFunction as f
      pure (.text ((← get).function f).name.name)
    | _ => pure .nothing
  | .bindArguments function arguments as => do
    let f ← named (·.functions) function
    let s ← ScopeEngine.bindArguments f (← evaluateArguments host c arguments)
    keepScope as s
    pure (.value ((← get).snapshotScope s))
  | .invoke name arguments => do
    let value ← invokeNamed host c name (← evaluateArguments host c arguments)
    pure (.value ((← get).snapshot value))
  | .call function arguments as => do
    let f ← named (·.functions) function
    let value ← ScopeEngine.invoke host f c (← evaluateArguments host c arguments)
    if let .function g := value then keepFunction as g
    pure (.value ((← get).snapshot value))
  | .newComponent name shared as => do
    let shared ← shared.mapM (scopeAt host c)
    keepComponent as (← Script.newComponent name shared)
    pure .nothing
  | .inspectComponent component => do
    let k ← named (·.components) component
    pure (.component ((← get).componentReport k))
  | .dropComponent component => do
    let known := ((← get).handles.components.lookup component).isSome
    modify fun w => { w with handles := { w.handles with
      components := w.handles.components.filter (·.1 != component) } }
    pure (.flag known)

end ScopeEngine.Script
