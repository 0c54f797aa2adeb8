import ScopeEngine.Interleaving.Shared

/-!
Ending sessions and shutting applications down, step by step. A shutdown lists the session map part by part, so that
sessions may come in while it lists, and ends what it found until a whole listing is empty.
-/

namespace ScopeEngine.Interleaving

inductive EndPhase where
  | flagging
  | weighing
  | calling
deriving DecidableEq, Repr

/-- One step of ending a session. The result is the error of the end hook. Without a listener no hook runs. -/
def EndPhase.step (scenario : Scenario) (worker : Nat) (listener : Option ListenerId) (a : ApplicationId)
    (s : SessionId) (shared : Shared) : EndPhase → Progress EndPhase (Option Error) × Shared
  | .flagging =>
    let (before, world) := shared.world.endSession s
    let shared := { shared with world }
    if before then (.done none, shared) else (.more .weighing, shared)
  | .weighing =>
    if (shared.world.session s).started && listener.isSome then (.more .calling, shared) else (.done none, shared)
  | .calling =>
    match shared.call scenario worker .sessionEnd (.session a s) with
    | (.raise error, shared) => (.done (some error), shared)
    | (_, shared) => (.done none, shared)

inductive ClosePhase where
  | flagging
  | fetching
  /-- Listing the parts of the session map; `ids` were found so far. -/
  | listing (shard : Nat) (ids : List Key)
  | draining (ids : List Key)
  | ending (s : SessionId) (phase : EndPhase) (ids : List Key)
  | weighing
  | calling

structure Closing where
  application : ApplicationId
  /-- Whether somebody asked for it; expired applications are closed unasked. -/
  requested : Bool
  phase : ClosePhase := .flagging
  listener : Option ListenerId := none
  sessionsClosed : Nat := 0
  failures : List String := []

namespace Closing

def report (closing : Closing) (w : World) : ShutdownReport :=
  { application := (w.application closing.application).name.name
    sessionsClosed := closing.sessionsClosed, failures := closing.failures }

def book (closing : Closing) (w : World) (s : SessionId) : Option Error → Closing
  | none => { closing with sessionsClosed := closing.sessionsClosed + 1 }
  | some error =>
    { closing with failures := closing.failures ++ ["session [" ++ (w.session s).id.name ++ "]: " ++ error.message] }

def finish (closing : Closing) (worker : Nat) (shared : Shared) : Option Closing × Shared :=
  (none, shared.note (.closed worker closing.application (closing.report shared.world) closing.requested))

/-- One step of a shutdown. None if it has to wait; no closing is left after the last step. -/
def step (scenario : Scenario) (worker : Nat) (closing : Closing) (shared : Shared) :
    Option (Option Closing × Shared) :=
  let a := closing.application
  match closing.phase with
  | .flagging =>
    let (before, world) := shared.world.beginShutdown a
    let shared := { shared with world }
    if before then some (closing.finish worker shared)
    else some (some { closing with phase := .fetching }, shared)
  | .fetching =>
    let listener := (shared.world.application a).listener
    some (some { closing with listener, phase := .listing 0 [] }, shared)
  | .listing shard ids =>
    if shard ≤ scenario.lastShard then
      if shared.isHeld a shard then none
      else
        let found := (shared.world.application a).sessions.keys.filter (scenario.shard · == shard)
        some (some { closing with phase := .listing (shard + 1) (ids ++ found) }, shared)
    else if ids.isEmpty then some (some { closing with phase := .weighing }, shared)
    else some (some { closing with phase := .draining ids }, shared)
  | .draining [] => some (some { closing with phase := .listing 0 [] }, shared)
  | .draining (id :: ids) =>
    if shared.isHeld a (scenario.shard id) then none
    else
      let (taken, world) := shared.world.takeSession a id
      let phase : ClosePhase := match taken with
        | some s => .ending s .flagging ids
        | none => .draining ids
      some (some { closing with phase }, { shared with world })
  | .ending s phase ids =>
    match phase.step scenario worker closing.listener a s shared with
    | (.more phase, shared) => some (some { closing with phase := .ending s phase ids }, shared)
    | (.done error, shared) =>
      some (some { closing.book shared.world s error with phase := .draining ids }, shared)
  | .weighing =>
    if (shared.world.application a).started && closing.listener.isSome then
      some (some { closing with phase := .calling }, shared)
    else
      some (closing.finish worker shared)
  | .calling =>
    match shared.call scenario worker .applicationEnd (.application a) with
    | (.raise error, shared) =>
      let failure := "application [" ++ (shared.world.application a).name.name ++ "]: " ++ error.message
      some ({ closing with failures := closing.failures ++ [failure] }.finish worker shared)
    | (_, shared) => some (closing.finish worker shared)

end Closing

end ScopeEngine.Interleaving
