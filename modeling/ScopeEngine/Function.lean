import ScopeEngine.Script.Syntax
import ScopeEngine.Bindings
import ScopeEngine.Value

/-!
Functions, the components they may belong to, and listeners. A closure carries the frame of scopes that were visible
where it was declared. The link from a function or frame to a component does not keep the component alive.
-/

namespace ScopeEngine

structure Param where
  name : Key
  required : Bool
  default : Option Value

/-- Scopes visible at a declaration, nearest first, and the component around it. -/
structure Frame where
  scopes : List ScopeId := []
  component : Option ComponentId := none
deriving Inhabited, DecidableEq

structure Function where
  name : Key
  kind : FunctionKind
  access : Access
  params : List Param
  body : Script.Body
  source : Option String
  frame : Option Frame
  component : Option ComponentId
deriving Inhabited

inductive Arguments where
  | positional (values : List Value)
  | named (values : Bindings Value)

def Arguments.none : Arguments := .positional []

/-- An instance of a class: private variables, public members and a scope shared with its siblings. -/
structure Component where
  name : Key
  vars : ScopeId
  self : ScopeId
  shared : ScopeId
deriving Inhabited

/-- Whom applications and sessions tell when they start and end. A missing hook does nothing. -/
structure Listener where
  name : String
  /-- The component that the hooks were taken from; the listener keeps it alive. -/
  component : Option ComponentId
  hook : Hook → Option FunctionId

namespace Listener

def silent : Listener := ⟨"default", none, fun _ => none⟩

instance : Inhabited Listener := ⟨silent⟩

end Listener

end ScopeEngine
