import ScopeEngine.Engine
import ScopeEngine.Interleaving.Machine

/-!
Crowds of requests: workers that make the same number of requests each, spread over a number of clients.
-/

namespace ScopeEngine.Load

open Interleaving

structure Crowd where
  workers : Nat
  requests : Nat
  clients : Nat

namespace Crowd

/-- There is always at least one worker. -/
def size (crowd : Crowd) : Nat := max crowd.workers 1

def visits (crowd : Crowd) : Nat := crowd.size * crowd.requests

/-- The client of a worker's request. There is always at least one client. -/
def client (crowd : Crowd) (worker turn : Nat) : Key :=
  .of ("client-" ++ Decimal.natText ((worker + turn) % max crowd.clients 1))

def visit (crowd : Crowd) (settings : Settings) (errands : List Errand) (worker turn : Nat) : Visit :=
  { turn, settings, client := crowd.client worker turn, errands }

def tasks (crowd : Crowd) (settings : Settings) (errands : List Errand) (worker : Nat) : List Task :=
  (List.range crowd.requests).map fun turn => .visit (crowd.visit settings errands worker turn)

def machine (crowd : Crowd) (scenario : Scenario) (clock : Instant) (settings : Settings) (errands : List Errand) :
    Machine where
  scenario := scenario
  shared := { world := .start clock }
  workers := ((List.range crowd.size).map (crowd.tasks settings errands)).toArray

/-- Rounds that suffice for every request: only failed starts make requests go back, and each one fails a request. -/
def rounds (crowd : Crowd) : Nat := 50 * (crowd.visits + 1) * (crowd.size + 1)

/-- The crowd after its last step, with turns taken in rounds. -/
def served (crowd : Crowd) (scenario : Scenario) (clock : Instant) (settings : Settings) (errands : List Errand) :
    Machine :=
  (crowd.machine scenario clock settings errands).complete crowd.rounds

def closing (m : Machine) : Machine := m.assign #[[.closeAll]]

def closed (crowd : Crowd) (m : Machine) : Machine :=
  (closing m).complete (50 * (crowd.visits + m.scenario.lastShard + 1))

end Crowd

def hitsIn (w : World) (scope : ScopeId) : Int :=
  match ((w.scope scope).get .hits).bind Value.toInt? with
  | some n => n.toInt
  | none => 0

def sessionsOf (w : World) (a : ApplicationId) : List (Key × SessionId) :=
  let sessions := (w.application a).sessions
  (Key.sort sessions.keys).filterMap fun id => (sessions.find? id).map fun s => (id, s)

end ScopeEngine.Load
