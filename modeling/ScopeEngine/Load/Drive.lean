import ScopeEngine.Load.Crowd

/-!
A drive: a crowd of requests that count in the application they run under and, with sessions on, in the session of
their client; and the lines that tell how it went.
-/

namespace ScopeEngine.Load

open Interleaving

structure Drive where
  crowd : Crowd
  settings : Settings

namespace Drive

def scenario : Scenario where
  plan _ _ := .proceed

def errands (drive : Drive) : List Errand :=
  [.touchApplication, .countInApplication] ++
    if drive.settings.sessionManagement then [.touchSession, .countInSession] else []

def machine (drive : Drive) (clock : Instant) : Machine :=
  drive.crowd.machine scenario clock drive.settings drive.errands

def hitsText (hits : Int) : String := Decimal.intText hits ++ " hit(s)"

/-- Tells about the application that the name of the settings, as it stands, is registered under. -/
def summary (w : World) (settings : Settings) : List String :=
  match w.registry.find? (.of settings.name) with
  | none => ["no application registered"]
  | some a =>
    let application := w.application a
    ("application [" ++ application.name.name ++ "]: " ++ hitsText (hitsIn w application.scope)) ::
      (sessionsOf w a).map fun (id, s) =>
        "  session [" ++ id.name ++ "]: " ++ hitsText (hitsIn w (w.session s).scope)

def reportLine (report : ShutdownReport) : String :=
  "shut down [" ++ report.application ++ "]: " ++ Decimal.natText report.sessionsClosed ++ " session(s) closed, " ++
    Decimal.natText report.failures.length ++ " failure(s)"

structure Result where
  lines : List String
  failed : Nat

def result (drive : Drive) (served closed : Machine) : Result where
  lines := summary served.shared.world drive.settings ++ closed.reports.map reportLine
  failed := served.visitResults.countP fun
    | .failed _ => true
    | .served _ _ => false

def run (drive : Drive) (clock : Instant) : Result :=
  let served := (drive.machine clock).complete drive.crowd.rounds
  drive.result served (drive.crowd.closed served)

end Drive

end ScopeEngine.Load
