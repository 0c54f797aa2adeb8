import ScopeEngine.Application
import ScopeEngine.Script.Syntax

/-!
What running a script reports. Values are reported as snapshots: trees in which the structs are numbered in the order
they are met, and a struct that is met again is shown by its number.
-/

namespace ScopeEngine.Script

inductive Snapshot where
  | null
  | boolean (b : Bool)
  | integer (n : Int64)
  | float (text : String)
  | string (s : String)
  | dateTime (t : Instant)
  | struct (name : String) (number : Nat) (entries : List (String × Snapshot))
  | again (number : Nat)
  | function (name : String) (kind : FunctionKind)
deriving Inhabited

structure ValueReport where
  value : Snapshot
  display : String
  debug : String
  isNull : Bool
  asInteger : Option Int64
  asString : Option String
  asBoolean : Option Bool
  asStruct : Option String
  asFunction : Option String
  equalsSelf : Bool
  equalsDuplicate : Bool

structure ScopeReport where
  scope : Snapshot
  keys : List String
  positional : Bool

/-- A scope by name and by its place among the visible scopes. -/
structure PlaceReport where
  name : String
  visible : Option Nat

structure FindingReport where
  place : PlaceReport
  key : String
  value : Option Snapshot

structure FrameReport where
  scopes : List (String × List String)
  component : Option String

structure ContextReport where
  type : ContextType
  parent : Option ContextType
  lineage : List ContextType
  templates : List String
  closest : Option String
  base : Option String
  hasTemplates : Bool
  function : Option String
  hasRegistry : Bool
  debug : String

structure ParamReport where
  name : String
  required : Bool
  default : Option Snapshot

structure FunctionReport where
  name : String
  kind : FunctionKind
  access : Access
  params : List ParamReport
  source : Option String
  frame : Option (List String × Option String)
  component : Option String
  debug : String

structure ComponentReport where
  name : String
  vars : List String
  self : List String
  shared : List String
  debug : String

structure ApplicationReport where
  application : Application
  listener : Option String
  sessionIds : List String
  scope : Snapshot
  debug : String

structure SessionReport where
  session : Session
  scope : Snapshot
  debug : String

inductive Reply where
  | nothing
  | flag (b : Bool)
  | text (s : String)
  | textOrNothing (s : Option String)
  | value (value : Snapshot)
  | option (value : Option Snapshot)
  | inspected (report : ValueReport)
  | scope (report : ScopeReport)
  | place (report : PlaceReport)
  | found (report : FindingReport)
  | visible (scopes : List (String × List String))
  | frame (report : FrameReport)
  | context (report : ContextReport)
  | contextType (type : Option ContextType)
  | function (report : FunctionReport)
  | component (report : ComponentReport)
  | settings (settings : Settings)
  | spliced (application session : Option String)
  | kept (application session : Bool)
  | application (report : ApplicationReport)
  | session (report : SessionReport)
  | sessionState (expired defunct : Bool)
  | sessionMoved (visit : Bool) (scope : Option Bool)
  | sessionLookup (known : Bool) (id : Option String)
  | shutdown (report : Option ShutdownReport)
  | shutdowns (reports : List ShutdownReport)
  | registry (names : List String)

mutual

inductive Outcome where
  | mk (result : Result) (events : List Event)

inductive Result where
  | reply (reply : Reply)
  | failed (error : Error)
  | block (steps : List Outcome)
  | absent
  | returned (value : Snapshot)
  | skipped

/-- One run of a body: the function's name, the application and session it ran for, and its steps. -/
inductive Event where
  | mk (function : Option String) (application : Option String) (session : Option String) (steps : List Outcome)

end

def Event.function : Event → Option String
  | .mk function _ _ _ => function

def Event.application : Event → Option String
  | .mk _ application _ _ => application

def Event.session : Event → Option String
  | .mk _ _ session _ => session

end ScopeEngine.Script
