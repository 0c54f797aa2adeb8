import ScopeEngine.CommandLine.Arguments
import ScopeEngine.Config
import ScopeEngine.Load.Drive

/-!
The command-line program: drives a crowd of requests through an engine and prints how it went. Files are read by the
caller; everything else is a function of the arguments and of what the files hold.
-/

namespace ScopeEngine.CommandLine

def programName : String := "cfrun"

def versionLine : String := programName ++ " " ++ Engine.productVersion

def helpLines : List String := [
  "Drive concurrent requests through the runtime",
  "",
  "Usage: cfrun [OPTIONS]",
  "",
  "Options:",
  "  -c, --config <CONFIG>      TOML configuration file",
  "  -a, --app <APP>            Application name (overrides the config file)",
  "  -s, --sessions             Enable session management",
  "  -t, --threads <THREADS>    [default: 4]",
  "  -r, --requests <REQUESTS>  Requests per thread [default: 25]",
  "      --clients <CLIENTS>    Distinct session ids to spread requests over [default: 2]",
  "  -h, --help                 Print help",
  "  -V, --version              Print version"]

structure Outcome where
  exitCode : Nat
  output : List String := []
  complaints : List String := []

/-- The settings that the requests of a run share. An application without a name is named after the program. -/
def Options.settings (options : Options) (config : Config) : Settings :=
  let settings := config.application
  let settings := match options.app with
    | some name => { settings with name }
    | none => settings
  let settings := if options.sessions then { settings with sessionManagement := true } else settings
  if settings.hasApplication then settings else { settings with name := programName }

def Options.drive (options : Options) (config : Config) : Load.Drive where
  crowd := { workers := options.threadCount, requests := options.requestCount, clients := options.clientCount }
  settings := options.settings config

def Options.run (options : Options) (config : Config) (clock : Instant) : Outcome :=
  let result := (options.drive config).run clock
  if result.failed = 0 then { exitCode := 0, output := result.lines }
  else
    { exitCode := 1, output := result.lines
      complaints := [programName ++ ": " ++ Decimal.natText result.failed ++ " request(s) failed"] }

def configPath? (arguments : List String) : Option String :=
  match parse arguments with
  | .ok (.drive options) => options.config
  | _ => none

def Options.readConfig (options : Options) (read : String → Except Config.ReadFailure ByteArray) :
    Except Error Config :=
  match options.config with
  | some path => Config.load path (read path)
  | none => .ok {}

def run (arguments : List String) (read : String → Except Config.ReadFailure ByteArray) (clock : Instant) : Outcome :=
  match parse arguments with
  | .error misuse => { exitCode := 2, complaints := ["error: " ++ misuse.message] }
  | .ok .help => { exitCode := 0, output := helpLines }
  | .ok .version => { exitCode := 0, output := [versionLine] }
  | .ok (.drive options) =>
    match options.readConfig read with
    | .ok config => options.run config clock
    | .error error => { exitCode := 1, complaints := [programName ++ ": " ++ error.message] }

end ScopeEngine.CommandLine
