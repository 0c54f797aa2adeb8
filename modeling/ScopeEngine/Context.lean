import ScopeEngine.Context.Ancestors

/-!
Execution contexts: the places code runs at. Every context but a root has a parent that was there before it. A request
owns the application and the session node that were spliced in above it.
-/

namespace ScopeEngine

structure Server where
  scope : ScopeId
  defaults : Settings
  listener : ListenerId
deriving Inhabited

structure Request where
  vars : ScopeId
  scope : ScopeId
  settings : Settings
  listener : ListenerId
  ancestors : Ancestors := .empty
  sessionId : Option Key := none
  /-- Runs end hooks for an application that may already be shutting down. -/
  detached : Bool := false

namespace Request

def sessionNode (request : Request) : Option ContextId := request.ancestors.find .session

def applicationNode (request : Request) : Option ContextId := request.ancestors.find .application

def splice (request : Request) (new : Ancestor) : Request := { request with ancestors := request.ancestors.inject new }

def excise (request : Request) (type : ContextType) : Request := { request with ancestors := request.ancestors.remove type }

variable (request : Request) (node : ContextId)

@[simp] theorem sessionNode_splice_session : (request.splice (.session node)).sessionNode = some node :=
  request.ancestors.find_inject ..

@[simp] theorem sessionNode_splice_application : (request.splice (.application node)).sessionNode = request.sessionNode :=
  request.ancestors.find_inject ..

@[simp] theorem applicationNode_splice_session : (request.splice (.session node)).applicationNode = request.applicationNode :=
  request.ancestors.find_inject ..

@[simp] theorem applicationNode_splice_application : (request.splice (.application node)).applicationNode = some node :=
  request.ancestors.find_inject ..

@[simp] theorem sessionNode_excise_session : (request.excise .session).sessionNode = none :=
  request.ancestors.find_remove ..

@[simp] theorem sessionNode_excise_application : (request.excise .application).sessionNode = request.sessionNode :=
  request.ancestors.find_remove ..

@[simp] theorem applicationNode_excise_session : (request.excise .session).applicationNode = request.applicationNode :=
  request.ancestors.find_remove ..

@[simp] theorem applicationNode_excise_application : (request.excise .application).applicationNode = none :=
  request.ancestors.find_remove ..

theorem sessionNode_excise_cases (type : ContextType) :
    (request.excise type).sessionNode = request.sessionNode ∨ (request.excise type).sessionNode = none := by
  simp only [sessionNode, excise, Ancestors.find_remove]
  split <;> simp

theorem applicationNode_excise_cases (type : ContextType) :
    (request.excise type).applicationNode = request.applicationNode ∨ (request.excise type).applicationNode = none := by
  simp only [applicationNode, excise, Ancestors.find_remove]
  split <;> simp

theorem excise_excise (type : ContextType) : (request.excise type).excise type = request.excise type :=
  congrArg (fun ancestors => { request with ancestors }) (request.ancestors.remove_remove type)

theorem splice_excise (new : Ancestor) : (request.excise new.type).splice new = request.splice new :=
  congrArg (fun ancestors => { request with ancestors }) (request.ancestors.inject_remove new)

theorem excise_splice (new : Ancestor) : (request.splice new).excise new.type = request.excise new.type :=
  congrArg (fun ancestors => { request with ancestors }) (request.ancestors.remove_inject new)

end Request

structure Call where
  locals : ScopeId
  arguments : ScopeId
  function : FunctionId
  component : Option ComponentId

inductive ContextKind where
  | server (server : Server)
  | application (application : ApplicationId)
  | session (session : SessionId)
  | request (request : Request)
  | template (vars : ScopeId)
  | function (call : Call)
  | closure (call : Call)
  | lambda (call : Call)
  | component (component : ComponentId)

instance : Inhabited ContextKind := ⟨.server default⟩

def ContextKind.type : ContextKind → ContextType
  | .server _ => .server
  | .application _ => .application
  | .session _ => .session
  | .request _ => .request
  | .template _ => .template
  | .function _ => .function
  | .closure _ => .closure
  | .lambda _ => .lambda
  | .component _ => .component

structure Context where
  parent : Option ContextId
  kind : ContextKind
  templates : List String := []
deriving Inhabited

namespace Context

def type (context : Context) : ContextType := context.kind.type

def call? (context : Context) : Option Call :=
  match context.kind with
  | .function call | .closure call | .lambda call => some call
  | _ => none

def request? (context : Context) : Option Request :=
  match context.kind with
  | .request request => some request
  | _ => none

def server? (context : Context) : Option Server :=
  match context.kind with
  | .server server => some server
  | _ => none

def spliced (context : Context) : List ContextId :=
  match context.kind with
  | .request request => request.ancestors.nodes.map (·.node)
  | _ => []

end Context

def ContextType.text : ContextType → String
  | .server => "Server"
  | .application => "Application"
  | .session => "Session"
  | .request => "Request"
  | .template => "Template"
  | .function => "Function"
  | .closure => "Closure"
  | .lambda => "Lambda"
  | .component => "Class"

end ScopeEngine
