import ScopeEngine.Instant
import ScopeEngine.Error
import ScopeEngine.Settings

/-!
The script language that bodies of functions and lifecycle hooks are written in. A script is a list of steps; what
a step refers to is named by handles, which are texts that earlier steps attached to scopes, functions, components,
listeners, applications, sessions and spliced nodes.
-/

namespace ScopeEngine

inductive FunctionKind where
  | plain
  | closure
  | lambda
deriving DecidableEq, Repr, Inhabited

inductive Access where
  | exposed
  | hidden
deriving DecidableEq, Repr, Inhabited

inductive ContextType where
  | server
  | application
  | session
  | request
  | template
  | function
  | closure
  | lambda
  | component
deriving DecidableEq, Repr, Inhabited

inductive Hook where
  | applicationStart
  | sessionStart
  | sessionEnd
  | applicationEnd
deriving DecidableEq, Repr, Inhabited

namespace Script

inductive ComponentPart where
  | vars
  | self
  | shared

inductive ScopeRef where
  | server
  | application (handle : String)
  | session (handle : String)
  | component (handle : String) (part : ComponentPart)
  | nearby (name : Key)
  | handle (name : String)

inductive UpdateMode where
  | add
  | concat
  | keep
  | replace

inductive ContextStep where
  | inspect
  | pushTemplate (path : String)
  | popTemplate
  | hasType (kind : ContextType)
  | removeNode (kind : ContextType) (as : Option String)
  | injectNode (node : String)
  | newServerNode (as : Option String)

inductive ApplicationStep where
  | inspect (application : String)
  | same (a b : String)
  | setTimeout (application : String) (limit : IdleLimit)
  | setSessionTimeout (application : String) (limit : IdleLimit)
  | touch (application : String)
  | expiredAfter (application : String) (ms : Int)
  | expired (application : String)
  | moved (application : String)
  | findSession (application : String) (id : Key) (as : Option String)
  | removeSession (application : String) (id : Key) (as : Option String)
  | shutdown (application : String)
  | restart (application : String)

inductive SessionStep where
  | inspect (session : String)
  | same (a b : String)
  | setTimeout (session : String) (limit : IdleLimit)
  | touch (session : String)
  | expiredAfter (session : String) (ms : Int)
  | state (session : String)
  | moved (session : String)

inductive RegistryStep where
  | inspect
  | has (name : Key)
  | find (name : Key) (as : Option String)
  | remove (name : Key) (as : Option String)
  | create (name : Key) (settings : Settings) (as : Option String)
  | discard (application : String)
  | shutdown (name : Key)
  | shutdownAll
  | shutdownEngine

mutual

inductive Expr where
  | null
  | boolean (b : Bool)
  | integer (n : Int64)
  | float (x : Float)
  | string (s : String)
  | dateTime (t : Instant)
  | struct (name : Key) (entries : List (Key × Expr))
  | scope (ref : ScopeRef)
  | function (handle : String)
  | path (path : String)
  | declare (declaration : Declaration)

inductive Declaration where
  | mk (kind : FunctionKind) (name : String) (params : List Parameter) (access : Access) (source : Option String)
      (body : List Step)

inductive Parameter where
  | mk (name : String) (required : Bool) (default : Option Expr)

inductive ListenerSpec where
  | mk (name : String) (hooks : List (Hook × Declaration))

inductive ArgumentList where
  | positional (values : List Expr)
  | named (values : List (Key × Expr))

inductive ScopeStep where
  | new (name : Key) (as : Option String)
  | newArguments (as : Option String)
  | newLocked (name : Key) (entries : List (Key × Expr)) (as : Option String)
  | alias (scope : ScopeRef) (as : Option String)
  | read (scope : ScopeRef) (key : Key)
  | readOr (scope : ScopeRef) (key : Key) (value : Expr)
  | put (scope : ScopeRef) (key : Key) (value : Expr)
  | putIfAbsent (scope : ScopeRef) (key : Key) (value : Expr)
  | remove (scope : ScopeRef) (key : Key)
  | contains (scope : ScopeRef) (key : Key)
  | isLocked (scope : ScopeRef) (key : Key)
  | clear (scope : ScopeRef)
  | duplicate (scope : ScopeRef) (as : Option String)
  | same (a b : ScopeRef)
  | debug (scope : ScopeRef)
  | update (scope : ScopeRef) (key : Key) (mode : UpdateMode) (value : Expr)
  | dump (scope : ScopeRef)

inductive ValueStep where
  | inspect (value : Expr)
  | equal (a b : Expr)
  | duplicate (value : Expr) (as : Option String)

inductive NameStep where
  | resolve (key : Key) (default : Option ScopeRef) (as : Option String)
  | resolvePath (path : String) (as : Option String)
  | resolveValue (path : String)
  | assign (scope : ScopeRef) (key : Key) (value : Expr)
  | assignPath (path : String) (value : Expr)
  | defaultScope (as : Option String)
  | scopeNearby (name : Key) (as : Option String)
  | getScope (name : Key) (as : Option String)
  | visible
  | frame

inductive FunctionStep where
  | new (function : Declaration) (as : Option String)
  | bindHere (function : Declaration) (as : Option String)
  | register (function : Declaration) (as : Option String)
  | defineMethod (component : String) (function : Declaration) (as : Option String)
  | inspect (function : String)
  | alias (value : Expr) (as : Option String)
  | bindArguments (function : String) (arguments : ArgumentList) (as : Option String)
  | invoke (name : String) (arguments : ArgumentList)
  | call (function : String) (arguments : ArgumentList) (as : Option String)
  | newComponent (name : String) (shared : Option ScopeRef) (as : Option String)
  | inspectComponent (component : String)
  | dropComponent (component : String)

inductive LifecycleStep where
  | settings
  | updateSettings (settings : Settings)
  | listener
  | setListener (listener : Option String)
  | newListener (listener : ListenerSpec) (as : Option String)
  | componentListener (component : String) (as : Option String)
  | sessionId
  | setSessionId (id : Key)
  | ensureApplication (as : Option String)
  | ensureSession (as : Option String)
  | initializeSession (id : Key) (as : Option String)
  | rotateSession (as : Option String)
  | invalidateSession (id : Option Key) (as : Option String)
  | spliced
  | keepSpliced (application session : Option String)

inductive Place where
  | request
  | template (path : String)
  | component (component : String)
  | detached (application : String)
  | parent
  | nearestRequest
  | nearest (kind : ContextType)
  | node (node : String)
  /-- The server context of another engine over the same registry; no settings if its configuration was malformed. -/
  | engine (settings : Option Settings) (listener : Option ListenerSpec)

inductive Command where
  | return_ (value : Expr)
  | raise (error : Error)
  | sleep (ms : Nat)
  | ifCount (counter : String) (limit : Int) (body : List Step)
  | ifEqual (a b : Expr) (body : List Step)
  | within (place : Place) (body : List Step)
  | value (step : ValueStep)
  | scope (step : ScopeStep)
  | name (step : NameStep)
  | function (step : FunctionStep)
  | context (step : ContextStep)
  | lifecycle (step : LifecycleStep)
  | application (step : ApplicationStep)
  | session (step : SessionStep)
  | registry (step : RegistryStep)

/-- In the body of a function an error ends the body, unless the step is tolerant. -/
inductive Step where
  | mk (command : Command) (tolerant : Bool)

end

instance : Inhabited Expr := ⟨.null⟩
instance : Inhabited Command := ⟨.return_ .null⟩
instance : Inhabited Step := ⟨.mk default false⟩

def Step.command : Step → Command
  | .mk command _ => command

def Step.tolerant : Step → Bool
  | .mk _ tolerant => tolerant

end Script

abbrev Script.Body := List Script.Step

end ScopeEngine
