import ScopeEngine.Interleaving.Shared

/-!
Asking an application for the session of an id, step by step. The part of the session map that the id belongs to is held
from before the application is seen not to be shut down until the session is in the map.
-/

namespace ScopeEngine.Interleaving

inductive OpenPhase where
  /-- About to lock the part of the session map that the id belongs to. -/
  | reserving
  | checking
  | placing
deriving DecidableEq, Repr

/-- One step of asking for a session. None if it has to wait. The result is no session if the application is shut
down. -/
def OpenPhase.step (scenario : Scenario) (worker : Nat) (a : ApplicationId) (id : Key) (shared : Shared) :
    OpenPhase → Option (Progress OpenPhase (Option World.Placed) × Shared)
  | .reserving =>
    if shared.isHeld a (scenario.shard id) then none
    else some (.more .checking, shared.hold a (scenario.shard id))
  | .checking =>
    if (shared.world.application a).shutDown then
      some (.done none, (shared.release a (scenario.shard id)).note (.declined worker a))
    else
      some (.more .placing, shared)
  | .placing =>
    let (placed, world) := shared.world.placeSession a id
    let shared := ({ shared with world }).release a (scenario.shard id)
    match placed with
    | .found _ => some (.done (some placed), shared)
    | .created s _ => some (.done (some placed), shared.note (.placed worker a s))

end ScopeEngine.Interleaving
