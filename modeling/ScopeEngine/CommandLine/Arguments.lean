import ScopeEngine.Decimal.Integer

/-!
Arguments of the command line. Options have a long name and most have a letter; a value follows as the next argument,
after an equals sign, or right after the letter. Letters of flags may be joined. No option may be given twice, and
nothing but options may be given. Asking for help or the version ends the reading.
-/

namespace ScopeEngine.CommandLine

inductive OptionName where
  | config
  | app
  | sessions
  | threads
  | requests
  | clients
  | help
  | version
deriving DecidableEq, Repr

namespace OptionName

def all : List OptionName := [.config, .app, .sessions, .threads, .requests, .clients, .help, .version]

def text : OptionName → String
  | .config => "config"
  | .app => "app"
  | .sessions => "sessions"
  | .threads => "threads"
  | .requests => "requests"
  | .clients => "clients"
  | .help => "help"
  | .version => "version"

def letter? : OptionName → Option Char
  | .config => some 'c'
  | .app => some 'a'
  | .sessions => some 's'
  | .threads => some 't'
  | .requests => some 'r'
  | .clients => none
  | .help => some 'h'
  | .version => some 'V'

def takesValue : OptionName → Bool
  | .config | .app | .threads | .requests | .clients => true
  | .sessions | .help | .version => false

def ofText? (text : String) : Option OptionName := all.find? (·.text == text)

def ofLetter? (letter : Char) : Option OptionName := all.find? (·.letter? == some letter)

def spelling (option : OptionName) : String := "--" ++ option.text

end OptionName

structure Options where
  config : Option String := none
  app : Option String := none
  sessions : Bool := false
  threads : Option Nat := none
  requests : Option Nat := none
  clients : Option Nat := none
deriving DecidableEq, Repr

namespace Options

def threadCount (options : Options) : Nat := options.threads.getD 4

def requestCount (options : Options) : Nat := options.requests.getD 25

def clientCount (options : Options) : Nat := options.clients.getD 2

end Options

inductive Invocation where
  | drive (options : Options)
  | help
  | version
deriving DecidableEq, Repr

inductive Misuse where
  | unexpected (text : String)
  | missingValue (option : OptionName)
  | needlessValue (option : OptionName)
  | repeated (option : OptionName)
  | badNumber (option : OptionName) (text : String)
deriving DecidableEq, Repr

def Misuse.message : Misuse → String
  | .unexpected text => "unexpected argument [" ++ text ++ "] found"
  | .missingValue option => "a value is required for [" ++ option.spelling ++ "] but none was supplied"
  | .needlessValue option => "unexpected value for [" ++ option.spelling ++ "] found"
  | .repeated option => "the argument [" ++ option.spelling ++ "] cannot be used multiple times"
  | .badNumber option text => "invalid value [" ++ text ++ "] for [" ++ option.spelling ++ "]"

/-- An unsigned number of 64 bits; a plus sign may stand in front. -/
def readCount? (text : String) : Option Nat :=
  let digits := match text.toList with
    | '+' :: rest => rest
    | cs => cs
  let n := Decimal.digitsValue digits
  if !digits.isEmpty && digits.all Char.isDigit && n < UInt64.size then some n else none

def countFor (option : OptionName) (text : String) : Except Misuse Nat :=
  match readCount? text with
  | some n => .ok n
  | none => .error (.badNumber option text)

def Options.record (options : Options) (option : OptionName) (text : String) : Except Misuse Options :=
  match option with
  | .config =>
    if options.config.isSome then .error (.repeated option)
    else if text.isEmpty then .error (.missingValue option)
    else .ok { options with config := some text }
  | .app => if options.app.isSome then .error (.repeated option) else .ok { options with app := some text }
  | .threads => do
    if options.threads.isSome then .error (.repeated option)
    else return { options with threads := some (← countFor option text) }
  | .requests => do
    if options.requests.isSome then .error (.repeated option)
    else return { options with requests := some (← countFor option text) }
  | .clients => do
    if options.clients.isSome then .error (.repeated option)
    else return { options with clients := some (← countFor option text) }
  | .sessions | .help | .version => .error (.needlessValue option)

inductive Position where
  | ended (invocation : Invocation)
  | after (options : Options)
  /-- The next argument has to be the value of an option. -/
  | before (value : OptionName) (options : Options)

def Options.raise (options : Options) (flag : OptionName) : Except Misuse Position :=
  match flag with
  | .help => .ok (.ended .help)
  | .version => .ok (.ended .version)
  | _ => if options.sessions then .error (.repeated flag) else .ok (.after { options with sessions := true })

def readLong (options : Options) (cs : List Char) : Except Misuse Position :=
  let name := String.ofList (cs.takeWhile (· != '='))
  match OptionName.ofText? name, cs.dropWhile (· != '=') with
  | none, _ => .error (.unexpected ("--" ++ name))
  | some option, [] => if option.takesValue then .ok (.before option options) else options.raise option
  | some option, _ :: value => do return .after (← options.record option (String.ofList value))

/-- Reads joined letters. The first one that takes a value takes the rest as its value. -/
def readLetters (options : Options) : List Char → Except Misuse Position
  | [] => .ok (.after options)
  | letter :: rest =>
    match OptionName.ofLetter? letter with
    | none => .error (.unexpected ("-" ++ String.singleton letter))
    | some option =>
      if option.takesValue then
        match rest with
        | [] => .ok (.before option options)
        | '=' :: value => do return .after (← options.record option (String.ofList value))
        | value => do return .after (← options.record option (String.ofList value))
      else
        match options.raise option with
        | .ok (.after options) => readLetters options rest
        | other => other

inductive Shape where
  | terminator
  | long (cs : List Char)
  | letters (cs : List Char)
  | plain

def Shape.of (argument : String) : Shape :=
  match argument.toList with
  | ['-', '-'] => .terminator
  | '-' :: '-' :: cs => .long cs
  | ['-'] => .plain
  | '-' :: cs => .letters cs
  | _ => .plain

def readArgument (position : Position) (argument : String) : Except Misuse Position :=
  match position, Shape.of argument with
  | .ended invocation, _ => .ok (.ended invocation)
  | .before option options, .plain => do return .after (← options.record option argument)
  | .before option _, _ => .error (.missingValue option)
  | .after options, .long cs => readLong options cs
  | .after options, .letters cs => readLetters options cs
  | .after _, .terminator | .after _, .plain => .error (.unexpected argument)

def readAll : Position → List String → Except Misuse Invocation
  | .ended invocation, _ => .ok invocation
  | .after options, [] => .ok (.drive options)
  | .before option _, [] => .error (.missingValue option)
  -- nothing may follow the terminator
  | .after options, ["--"] => .ok (.drive options)
  | .after options, argument :: rest => do readAll (← readArgument (.after options) argument) rest
  | .before option options, argument :: rest => do readAll (← readArgument (.before option options) argument) rest

def parse (arguments : List String) : Except Misuse Invocation := readAll (.after {}) arguments

end ScopeEngine.CommandLine
