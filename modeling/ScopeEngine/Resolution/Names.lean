import ScopeEngine.Lifecycle.Switching
import ScopeEngine.Resolution.Frame
import ScopeEngine.Resolution.Search

/-!
Names and paths. A scope name denotes that scope and is never searched for; any other name is searched from its
context. The segments of a dotted path after the first walk nested structs. Reaching the application or session scope
touches it, which may create and start it.
-/

namespace ScopeEngine

open ScopeEngine.Action

def Component.scope? (component : Component) : ScopeName → Option ScopeId
  | .vars => some component.vars
  | .self => some component.self
  | .shared => some component.shared
  | _ => none

/-- A scope known on the spot, or the context from which the global scopes are asked. -/
inductive Reach where
  | here (s : ScopeId)
  | global (contexts : List ContextId)
  | nowhere

/-- How far a scope name gets among the scopes that a context declares. -/
def World.reach (w : World) (key : Key) (name : Option ScopeName) : List ContextId → Reach
  | [] => .nowhere
  | c :: above =>
    let ofComponent (k : Option ComponentId) : Reach :=
      match k.bind fun k => name.bind (w.component k).scope? with
      | some s => .here s
      | none => .global (c :: above)
    match (w.context c).kind, name with
    | .request request, some .vars => .here request.vars
    | .template vars, some .vars => .here vars
    | .function call, some .locals | .closure call, some .locals | .lambda call, some .locals => .here call.locals
    | .function call, some .arguments | .closure call, some .arguments | .lambda call, some .arguments =>
      .here call.arguments
    | .function call, _ =>
      match call.component with
      | some k => ofComponent (some k)
      | none => w.reach key name above
    | .closure call, _ =>
      let captured := ((w.function call.function).frame.map (·.scopes)).getD []
      match captured.find? fun s => (w.scope s).name == key with
      | some s => .here s
      | none => ofComponent call.component
    | .component k, _ => ofComponent (some k)
    | _, _ => .global (c :: above)

def orScopeNotFound (key : Key) (found : Option ScopeId) : Action ScopeId :=
  match found with
  | some s => pure s
  | none => fail (.scopeNotFound key.name)

/-- A global scope, asked from a context and then from those above it. -/
def globalScope (host : Host) (key : Key) (name : Option ScopeName) : List ContextId → Action ScopeId
  | [] => fail (.scopeNotFound key.name)
  | c :: above => do
    let w ← get
    match (w.context c).kind, name with
    | .server server, some .server => pure server.scope
    | .application a, some .application => pure (w.application a).scope
    | .session s, some .session => pure (w.session s).scope
    | .request request, some .request => pure request.scope
    | .request _, some .application =>
      let found ← ensureApplication host c
      let w ← get
      orScopeNotFound key (found.map fun a => (w.application a).scope)
    | .request _, some .session =>
      let found ← ensureSession host c
      let w ← get
      orScopeNotFound key (found.map fun s => (w.session s).scope)
    | _, _ => globalScope host key name above

def getScope (host : Host) (c : ContextId) (key : Key) : Action ScopeId := do
  globalScope host key key.scopeName? ((← get).ancestry c)

/-- Any scope by name: those that the context declares first, then the global ones. -/
def scopeNearby (host : Host) (c : ContextId) (key : Key) : Action ScopeId := do
  let w ← get
  match w.reach key key.scopeName? (w.ancestry c) with
  | .here s => pure s
  | .global contexts => globalScope host key key.scopeName? contexts
  | .nowhere => fail (.scopeNotFound key.name)

/-- Where a name lives. If nothing binds it, the default scope is reported as its owner with a null value; nothing is
written. -/
def resolve (host : Host) (c : ContextId) (key : Key) (default : Option ScopeId) : Action Finding := do
  if key.isScopeName then
    let s ← scopeNearby host c key
    pure { scope := s, key, value := .struct s, isScope := true }
  else
    let w ← get
    match w.findNearby key false (w.ancestry c), default with
    | some found, _ => pure found
    | none, some s => pure { scope := s, key, value := .null }
    | none, none => fail (.keyNotFound key.name)

def cutAtDots : List Char → List Char × List (List Char)
  | [] => ([], [])
  | c :: rest =>
    let (first, others) := cutAtDots rest
    if c = '.' then ([], first :: others) else (c :: first, others)

def pathSegments (path : String) : List String :=
  let (first, others) := cutAtDots path.toList
  (first :: others).map fun part => Text.trim (String.ofList part)

@[irreducible] def splitPath (path : String) : Except Error (List String) :=
  let segments := pathSegments path
  if segments.any String.isEmpty then .error (.invalidIdentifier path) else .ok segments

/-- Follows the rest of a path from a finding. `walked` are the segments behind it. -/
def followPath (found : Finding) (walked : List String) : List String → Action Finding
  | [] => pure found
  | segment :: rest => do
    let walked := walked ++ [segment]
    let w ← get
    let next := match found.value with
      | .struct s => w.lookup s (.of segment)
      | _ => none
    match next with
    | some found => followPath found walked rest
    | none => fail (.keyNotFound (".".intercalate walked))

def resolvePath (host : Host) (c : ContextId) (path : String) : Action Finding := do
  match ← ofExcept (splitPath path) with
  | [] => fail (.invalidIdentifier path)
  | first :: rest =>
    let found ← resolve host c (.of first) none
    followPath found [first] rest

def resolveValue (host : Host) (c : ContextId) (path : String) : Action Value := do
  pure (← resolvePath host c path).value

def World.defaultScope (w : World) (c : ContextId) : ScopeId :=
  match (w.context c).kind with
  | .server server => server.scope
  | .application a => (w.application a).scope
  | .session s => (w.session s).scope
  | .request request => request.vars
  | .template vars => vars
  | .function call | .closure call | .lambda call => call.locals
  | .component k => (w.component k).vars

def createStruct (s : ScopeId) (key : Key) : Action ScopeId := do
  let created ← newScope (.new key)
  let _ ← putIn s key (.struct created)
  pure created

/-- Walks from `container` along the rest of a path, creating structs that are missing, and binds its last segment. -/
def assignBelow (container : ScopeId) (walked : List String) (value : Value) : List String → Action Unit
  | [] => pure ()
  | [last] => do
    let _ ← putIn container (.of last) value
  | segment :: rest => do
    let walked := walked ++ [segment]
    let next ← match ((← get).scope container).get (.of segment) with
      | some (.struct s) => pure s
      | none | some .null => createStruct container (.of segment)
      | some _ => fail (.notAStruct (".".intercalate walked))
    assignBelow next walked value rest

/-- Assigns to a path. A name that nothing binds is created in the default scope, and so are missing structs on the
way. -/
def setPath (host : Host) (c : ContextId) (path : String) (value : Value) : Action Unit := do
  match ← ofExcept (splitPath path) with
  | [] => fail (.invalidIdentifier path)
  | first :: rest =>
    let found ← resolve host c (.of first) (some ((← get).defaultScope c))
    match rest with
    | [] =>
      let _ ← putIn found.scope (.of first) value
    | _ =>
      let container ← match found.value with
        | .struct s => pure s
        | .null => createStruct found.scope (.of first)
        | _ => fail (.notAStruct first)
      assignBelow container [first] value rest

end ScopeEngine
