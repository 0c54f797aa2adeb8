import ScopeEngine.Lifecycle.Instances

/-!
What workers share that run at the same time: the world, the locks on parts of the session maps, and a log of what
happened. A hook is known by how its calls end; the plan of a scenario says so for every call.
-/

namespace ScopeEngine.Interleaving

inductive Instance where
  | application (a : ApplicationId)
  | session (a : ApplicationId) (s : SessionId)
deriving DecidableEq, Repr

inductive Answer where
  | proceed
  | refuse
  | raise (error : Error)
deriving DecidableEq, Repr

inductive StartResult where
  | started
  /-- Somebody else's attempt failed; the instance has to be looked up again. -/
  | gone
  | failed (error : Error)
deriving DecidableEq, Repr

inductive VisitResult where
  | served (application : Option ApplicationId) (session : Option SessionId)
  | failed (error : Error)
deriving DecidableEq, Repr

inductive Event where
  | called (worker : Nat) (hook : Hook) (subject : Instance) (answer : Answer)
  | attempted (worker : Nat) (subject : Instance) (result : StartResult)
  | placed (worker : Nat) (a : ApplicationId) (s : SessionId)
  | declined (worker : Nat) (a : ApplicationId)
  | visited (worker turn : Nat) (result : VisitResult)
  | closed (worker : Nat) (a : ApplicationId) (report : ShutdownReport) (requested : Bool)
deriving DecidableEq, Repr

structure Scenario where
  /-- How the calls of each hook end, counted from zero over all instances. -/
  plan : Hook → Nat → Answer
  /-- The listener that every visit comes with. -/
  listener : ListenerId := World.silentListener
  /-- A session map has parts that are locked one by one; this is the number of the last one. -/
  lastShard : Nat := 3
  /-- Spreads session ids over the parts. -/
  spread : String → Nat := String.length

def Scenario.shard (scenario : Scenario) (id : Key) : Nat :=
  scenario.spread id.folded % (scenario.lastShard + 1)

structure Shared where
  world : World
  held : List (ApplicationId × Nat) := []
  /-- The latest event first. -/
  log : List Event := []

namespace Shared

def change (shared : Shared) (operation : World → World) : Shared :=
  { shared with world := operation shared.world }

def note (shared : Shared) (event : Event) : Shared :=
  { shared with log := event :: shared.log }

def isCallOf (hook : Hook) : Event → Bool
  | .called _ other _ _ => other == hook
  | _ => false

def calls (shared : Shared) (hook : Hook) : Nat :=
  shared.log.countP (isCallOf hook)

def call (shared : Shared) (scenario : Scenario) (worker : Nat) (hook : Hook) (subject : Instance) : Answer × Shared :=
  let answer := scenario.plan hook (shared.calls hook)
  (answer, shared.note (.called worker hook subject answer))

def isHeld (shared : Shared) (a : ApplicationId) (shard : Nat) : Bool :=
  shared.held.contains (a, shard)

def hold (shared : Shared) (a : ApplicationId) (shard : Nat) : Shared :=
  { shared with held := (a, shard) :: shared.held }

def release (shared : Shared) (a : ApplicationId) (shard : Nat) : Shared :=
  { shared with held := shared.held.erase (a, shard) }

end Shared

inductive Progress (phase result : Type) where
  | more (next : phase)
  | done (result : result)

end ScopeEngine.Interleaving
