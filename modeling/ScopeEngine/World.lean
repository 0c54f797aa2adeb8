import ScopeEngine.Context
import ScopeEngine.Function
import ScopeEngine.Scope
import ScopeEngine.Script.Reply

/-!
The world: everything that has an identity, the registry of applications, the clock, and what scripts have noted. All
operations are functions of the world they start from.
-/

namespace ScopeEngine

structure Handles where
  scopes : List (String × ScopeId) := []
  functions : List (String × FunctionId) := []
  components : List (String × ComponentId) := []
  listeners : List (String × ListenerId) := []
  applications : List (String × ApplicationId) := []
  sessions : List (String × SessionId) := []
  nodes : List (String × ContextId) := []

/-- The list with `name` standing for `thing` and for nothing else. -/
def Handles.assign {α : Type} (names : List (String × α)) (name : String) (thing : α) : List (String × α) :=
  (name, thing) :: names.filter (·.1 != name)

/-- Something that running code holds on to, which keeps it from being forgotten. -/
inductive Hold where
  | context (c : ContextId)
  | listener (l : ListenerId)
  | application (a : ApplicationId)
deriving DecidableEq, Repr

structure World where
  scopes : Table .scope Scope := .empty
  functions : Table .function Function := .empty
  components : Table .component Component := .empty
  contexts : Table .context Context := .empty
  listeners : Table .listener Listener := .empty
  applications : Table .application Application := .empty
  sessions : Table .session Session := .empty
  registry : Bindings ApplicationId := .empty
  clock : Instant := default
  drawn : Nat := 0
  engine : Server := default
  /-- What running code holds, the innermost first. -/
  holds : List Hold := []
  handles : Handles := {}
  counters : List (String × Int) := []
  journal : List Script.Event := []
deriving Inhabited

namespace World

def scope (w : World) (s : ScopeId) : Scope := w.scopes.get s

def function (w : World) (f : FunctionId) : Function := w.functions.get f

def component (w : World) (c : ComponentId) : Component := w.components.get c

def context (w : World) (c : ContextId) : Context := w.contexts.get c

def listener (w : World) (l : ListenerId) : Listener := w.listeners.get l

def application (w : World) (a : ApplicationId) : Application := w.applications.get a

def session (w : World) (s : SessionId) : Session := w.sessions.get s

def setScope (w : World) (s : ScopeId) (scope : Scope) : World :=
  { w with scopes := w.scopes.set s scope }

def setContext (w : World) (c : ContextId) (context : Context) : World :=
  { w with contexts := w.contexts.set c context }

def setApplication (w : World) (a : ApplicationId) (application : Application) : World :=
  { w with applications := w.applications.set a application }

def setSession (w : World) (s : SessionId) (session : Session) : World :=
  { w with sessions := w.sessions.set s session }

def addScope (w : World) (scope : Scope) : ScopeId × World :=
  (w.scopes.next, { w with scopes := w.scopes.add scope })

def addFunction (w : World) (function : Function) : FunctionId × World :=
  (w.functions.next, { w with functions := w.functions.add function })

def addComponent (w : World) (component : Component) : ComponentId × World :=
  (w.components.next, { w with components := w.components.add component })

def addContext (w : World) (context : Context) : ContextId × World :=
  (w.contexts.next, { w with contexts := w.contexts.add context })

def addListener (w : World) (listener : Listener) : ListenerId × World :=
  (w.listeners.next, { w with listeners := w.listeners.add listener })

def addApplication (w : World) (application : Application) : ApplicationId × World :=
  (w.applications.next, { w with applications := w.applications.add application })

def addSession (w : World) (session : Session) : SessionId × World :=
  (w.sessions.next, { w with sessions := w.sessions.add session })

def modifyRequest (w : World) (c : ContextId) (change : Request → Request) : World :=
  match (w.context c).kind with
  | .request request => w.setContext c { w.context c with kind := .request (change request) }
  | _ => w

def modifyApplication (w : World) (a : ApplicationId) (change : Application → Application) : World :=
  w.setApplication a (change (w.application a))

def modifySession (w : World) (s : SessionId) (change : Session → Session) : World :=
  w.setSession s (change (w.session s))

/-- Reads the clock. No two readings are the same. -/
def readClock (w : World) : Instant × World :=
  (w.clock, { w with clock := ⟨w.clock.nanos + 1⟩ })

def silentListener : ListenerId := ⟨0⟩

end World

end ScopeEngine
