import ScopeEngine.World

/-!
The way from a context to its root. Parents are older than their children, so the way is finite; a request's spliced
nodes count as lying directly above it.
-/

namespace ScopeEngine.World

def ancestry (w : World) (c : ContextId) : List ContextId :=
  match (w.context c).parent with
  | none => [c]
  | some p => if p.number < c.number then c :: w.ancestry p else [c]
termination_by c.number

/-- Like `ancestry`, with the spliced nodes of requests. -/
def lineage (w : World) (c : ContextId) : List ContextId :=
  (w.ancestry c).flatMap fun c => c :: (w.context c).spliced

def requestOf (w : World) (c : ContextId) : Option (ContextId × Request) :=
  (w.ancestry c).findSome? fun c => (w.context c).request?.map (c, ·)

def serverOf (w : World) (c : ContextId) : Option Server :=
  (w.ancestry c).findSome? fun c => (w.context c).server?

def nearest (w : World) (c : ContextId) (type : ContextType) : Option ContextId :=
  (w.lineage c).find? fun c => (w.context c).type == type

def splicedApplication (w : World) (c : ContextId) : Option ApplicationId := do
  let (_, request) ← w.requestOf c
  let node ← request.applicationNode
  match (w.context node).kind with
  | .application a => some a
  | _ => none

def splicedSession (w : World) (c : ContextId) : Option SessionId := do
  let (_, request) ← w.requestOf c
  let node ← request.sessionNode
  match (w.context node).kind with
  | .session s => some s
  | _ => none

def functionName (w : World) (c : ContextId) : Option Key :=
  (w.lineage c).findSome? fun c => (w.context c).call?.map fun call => (w.function call.function).name

def templates (w : World) (c : ContextId) : List String :=
  (w.lineage c).flatMap fun c => (w.context c).templates.reverse

def closestTemplate (w : World) (c : ContextId) : Option String :=
  (w.lineage c).findSome? fun c => (w.context c).templates.getLast?

def baseTemplate (w : World) (c : ContextId) : Option String :=
  (w.lineage c).reverse.findSome? fun c => (w.context c).templates.head?

end ScopeEngine.World
