import ScopeEngine.Resolution.Ancestry

/-!
What is visible at a context: the frame that a closure declared there captures, and the list of all scopes that can be
reached without creating anything.
-/

namespace ScopeEngine.World

/-- The frame at the first of a context and its ancestors, nearest scope first. -/
def frameOf (w : World) : List ContextId → Frame
  | [] => {}
  | c :: above =>
    match (w.context c).kind with
    | .request request => { scopes := [request.vars] }
    | .template vars => { scopes := [vars] }
    | .component k => { scopes := [(w.component k).vars], component := some k }
    | .function call =>
      match call.component with
      | some k => { scopes := [call.locals, call.arguments, (w.component k).vars], component := some k }
      | none =>
        let outer := w.frameOf above
        { outer with scopes := call.locals :: call.arguments :: outer.scopes }
    | .closure call =>
      let captured := ((w.function call.function).frame).getD {}
      { captured with scopes := call.locals :: call.arguments :: captured.scopes }
    | .lambda call => { scopes := [call.locals, call.arguments] }
    | .server _ | .application _ | .session _ => {}

def captureFrame (w : World) (c : ContextId) : Frame :=
  w.frameOf (w.ancestry c)

def enclosingComponent (w : World) (c : ContextId) : Option ComponentId :=
  match (w.context c).kind with
  | .component k => some k
  | .function call | .closure call => call.component
  | _ => none

/-- Every scope that can be seen from `c`, nearest first and none twice. Session and application appear only once
they are spliced in. -/
def visibleScopes (w : World) (c : ContextId) : List ScopeId :=
  let ofComponent := match w.enclosingComponent c with
    | some k => [(w.component k).self, (w.component k).shared]
    | none => []
  let ofRequest := (w.requestOf c).toList.map fun (_, request) => request.scope
  let ofSession := (w.splicedSession c).toList.map fun s => (w.session s).scope
  let ofApplication := (w.splicedApplication c).toList.map fun a => (w.application a).scope
  let ofServer := (w.serverOf c).toList.map fun server => server.scope
  ((w.captureFrame c).scopes ++ ofComponent ++ ofRequest ++ ofSession ++ ofApplication ++ ofServer).eraseDups

end ScopeEngine.World
