import ScopeEngine.Action
import ScopeEngine.Resolution.Ancestry

/-!
Splicing application and session nodes into a request. A request has at most one node of either kind, the session
before the application; splicing a second one replaces the first.
-/

namespace ScopeEngine

open ScopeEngine.Action

namespace World

/-- Takes the node of a type out of the nearest request, if there is one. -/
def excise (w : World) (c : ContextId) (type : ContextType) : Option ContextId × World :=
  match w.requestOf c with
  | some (r, request) => (request.ancestors.find type, w.modifyRequest r (·.excise type))
  | none => (none, w)

def addNode (w : World) (kind : ContextKind) : ContextId × World :=
  w.addContext { parent := none, kind }

end World

def excise (c : ContextId) (type : ContextType) : Action (Option ContextId) :=
  modifyGet (·.excise c type)

/-- Splices a node into the nearest request. Only application and session nodes can be spliced. -/
def splice (c node : ContextId) : Action Unit := do
  let w ← get
  let type := (w.context node).type
  if spliceable : type.isSpliceable = true then
    match w.requestOf c with
    | some (r, _) => set (w.modifyRequest r (·.splice ⟨type, node, spliceable⟩))
    | none => fail .nothingToSpliceInto
  else fail (.cannotSplice type.text)

def spliceNew (c : ContextId) (kind : ContextKind) : Action Unit := do
  splice c (← modifyGet (·.addNode kind))

end ScopeEngine
