import ScopeEngine.Interleaving.Closing
import ScopeEngine.Interleaving.Visit

/-!
Workers that run at the same time. Each has a list of tasks; a schedule says whose turn it is, and a worker that has to
wait lets its turn pass. Whatever holds after every schedule holds for every way in which workers can run side by side.
-/

namespace ScopeEngine.Interleaving

inductive Task where
  | visit (visit : Visit)
  /-- Asking an application for a session, and starting the one that is found or made if `starts` says so. -/
  | open (a : ApplicationId) (id : Key) (starts : Bool) (phase : OpenPhase)
  | start (subject : Instance) (phase : StartPhase)
  | finish (a : ApplicationId) (s : SessionId) (listener : Option ListenerId) (phase : EndPhase)
  | close (closing : Closing)
  | closeNamed (name : Key)
  | closeAll
  | wait (ms : Nat)

namespace Task

def shutdown (a : ApplicationId) : Task := .close { application := a, requested := true }

def retire (scenario : Scenario) (shared : Shared) (a : ApplicationId) (stale : SessionId) : Task :=
  .finish a stale (some ((shared.world.application a).listener.getD scenario.listener)) .flagging

/-- One step of a task: the tasks that are left of it, and what is shared. None if it has to wait. -/
def step (scenario : Scenario) (worker : Nat) (shared : Shared) : Task → Option (List Task × Shared)
  | .visit current =>
    match current.step scenario worker shared with
    | none => none
    | some (move, shared) =>
      match move with
      | .stay next => some ([.visit next], shared)
      | .close a next => some ([.close { application := a, requested := false }, .visit next], shared)
      | .retire a stale next => some ([retire scenario shared a stale, .visit next], shared)
      | .finished => some ([], shared)
  | .open a id starts phase =>
    match phase.step scenario worker a id shared with
    | none => none
    | some (.more phase, shared) => some ([.open a id starts phase], shared)
    | some (.done none, shared) => some ([], shared)
    | some (.done (some placed), shared) =>
      some ((placed.stale.map (retire scenario shared a)).toList ++
        (if starts then [.start (.session a placed.session) .glancing] else []), shared)
  | .start subject phase =>
    match phase.step scenario worker subject shared with
    | none => none
    | some (.more phase, shared) => some ([.start subject phase], shared)
    | some (.done _, shared) => some ([], shared)
  | .finish a s listener phase =>
    match phase.step scenario worker listener a s shared with
    | (.more phase, shared) => some ([.finish a s listener phase], shared)
    | (.done _, shared) => some ([], shared)
  | .close closing =>
    match closing.step scenario worker shared with
    | none => none
    | some (some closing, shared) => some ([.close closing], shared)
    | some (none, shared) => some ([], shared)
  | .closeNamed name =>
    match shared.world.registry.find? name with
    | none => some ([], shared)
    | some a => some ([shutdown a], shared.change fun w => { w with registry := w.registry.erase name })
  | .closeAll => some (shared.world.registry.keys.map .closeNamed, shared)
  | .wait ms => some ([], shared.change fun w => { w with clock := w.clock.addMillis ms })

end Task

structure Machine where
  scenario : Scenario
  shared : Shared
  workers : Array (List Task)

namespace Machine

def isFinished (m : Machine) : Bool := m.workers.all (·.isEmpty)

/-- One step of a worker. None if it has to wait or has nothing to do. -/
def step (m : Machine) (worker : Nat) : Option Machine :=
  match m.workers[worker]? with
  | some (task :: tasks) =>
    match task.step m.scenario worker m.shared with
    | some (left, shared) => some { m with shared, workers := m.workers.setIfInBounds worker (left ++ tasks) }
    | none => none
  | _ => none

def turn (m : Machine) (worker : Nat) : Machine :=
  match m.step worker with
  | some next => next
  | none => m

def run (m : Machine) (schedule : List Nat) : Machine :=
  schedule.foldl turn m

def complete : (rounds : Nat) → Machine → Machine
  | 0, m => m
  | rounds + 1, m => if m.isFinished then m else complete rounds (m.run (List.range m.workers.size))

def assign (m : Machine) (workers : Array (List Task)) : Machine := { m with workers }

def reports (m : Machine) : List ShutdownReport :=
  m.shared.log.reverse.filterMap fun
    | .closed _ _ report true => some report
    | _ => none

def visitResults (m : Machine) : List VisitResult :=
  m.shared.log.reverse.filterMap fun
    | .visited _ _ result => some result
    | _ => none

end Machine

end ScopeEngine.Interleaving
