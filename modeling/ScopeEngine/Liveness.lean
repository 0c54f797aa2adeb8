import ScopeEngine.World

/-!
Which components are still alive. A component lives as long as something holds it: a handle, a context that runs in
it, or a listener that was made from it and is itself held. Functions and frames only refer to their component. Code
that is looking an instance up or ending it holds on to the listener whose hooks it runs and to the application.
-/

namespace ScopeEngine.World

/-- Contexts in use or kept by a handle, with the nodes spliced into them. -/
def heldContexts (w : World) : List Context :=
  let active := w.holds.filterMap fun
    | .context c => some c
    | _ => none
  let roots := active ++ w.handles.nodes.map (·.2)
  (roots.flatMap fun c => c :: (w.context c).spliced).map w.context

def applicationHeld (w : World) (a : ApplicationId) : Bool :=
  w.holds.contains (.application a) || w.registry.values.any (· == a) || w.handles.applications.any (·.2 == a) ||
    w.heldContexts.any fun context => match context.kind with
      | .application b => b == a
      | _ => false

def listenerHeld (w : World) (l : ListenerId) : Bool :=
  w.holds.contains (.listener l) || w.engine.listener == l || w.handles.listeners.any (·.2 == l) ||
    (w.heldContexts.any fun context => match context.kind with
      | .request request => request.listener == l
      | .server server => server.listener == l
      | _ => false) ||
    (List.range w.applications.size).any fun n =>
      (w.application ⟨n⟩).listener == some l && w.applicationHeld ⟨n⟩

def componentHeld (w : World) (k : ComponentId) : Bool :=
  w.handles.components.any (·.2 == k) ||
    (w.heldContexts.any fun context => match context.kind with
      | .component j => j == k
      | .function call | .closure call | .lambda call => call.component == some k
      | _ => false) ||
    (List.range w.listeners.size).any fun n =>
      (w.listener ⟨n⟩).component == some k && w.listenerHeld ⟨n⟩

/-- The component a link leads to, if it is still alive. -/
def followLink (w : World) (link : Option ComponentId) : Option ComponentId :=
  link.filter w.componentHeld

end ScopeEngine.World
