import ScopeEngine.Load.Crowd

/-!
A stampede: a crowd of requests for the sessions of one application whose first starts fail, and what is counted
afterwards. The totals are the same in whatever order the workers take their steps.
-/

namespace ScopeEngine.Load

open Interleaving

structure Stampede where
  crowd : Crowd
  failingApplications : Nat
  failingSessions : Nat

structure Tally where
  applicationStarts : Nat
  sessionStarts : Nat
  errors : Nat
  applications : Nat
  applicationHits : Option Int
  sessionHits : Int
  sessionIds : List String
  sessionsClosed : Nat
  sessionEnds : Nat
  applicationEnds : Nat

namespace Stampede

def settings : Settings := { name := "stampede", sessionManagement := true }

def scenario (stampede : Stampede) : Scenario where
  plan hook calls :=
    let failures := match hook with
      | .applicationStart => stampede.failingApplications
      | .sessionStart => stampede.failingSessions
      | .sessionEnd | .applicationEnd => 0
    if calls < failures then .raise (.thrown "start refused") else .proceed

def errands : List Errand := [.touchSession, .countInApplication, .countInSession]

def machine (stampede : Stampede) (clock : Instant) : Machine :=
  stampede.crowd.machine stampede.scenario clock settings errands

def tally (served closed : Machine) : Tally :=
  let w := served.shared.world
  let registered := w.registry.find? settings.applicationKey
  let sessions := (registered.map (sessionsOf w)).getD []
  let results := served.visitResults
  let applications := results.filterMap fun
    | .served application _ => application
    | .failed _ => none
  { applicationStarts := closed.shared.calls .applicationStart
    sessionStarts := closed.shared.calls .sessionStart
    errors := results.countP fun
      | .failed _ => true
      | .served _ _ => false
    applications := applications.eraseDups.length
    applicationHits := registered.map fun a => hitsIn w (w.application a).scope
    sessionHits := (sessions.map fun (_, s) => hitsIn w (w.session s).scope).foldl (· + ·) 0
    sessionIds := sessions.map (·.1.name)
    sessionsClosed := (closed.reports.map (·.sessionsClosed)).foldl (· + ·) 0
    sessionEnds := closed.shared.calls .sessionEnd
    applicationEnds := closed.shared.calls .applicationEnd }

def run (stampede : Stampede) (clock : Instant) : Tally :=
  let served := (stampede.machine clock).complete stampede.crowd.rounds
  tally served (stampede.crowd.closed served)

end Stampede

end ScopeEngine.Load
