import ScopeEngine.Error
import ScopeEngine.Settings
import ScopeEngine.Toml.Document

/-!
Configuration of an engine, read from a TOML document. What the document does not mention takes its default, what is
not known is ignored. A section may be a table, or an array of its fields in order; a date in its place says nothing.
-/

namespace ScopeEngine

structure Config where
  application : Settings := {}
  filter : String := "info"
deriving DecidableEq, Repr, Inhabited

namespace Config

inductive Section where
  | named (entries : List (String × Toml.Value))
  | listed (items : List Toml.Value)

def Section.of? : Toml.Value → Option Section
  | .table entries => some (.named entries)
  | .array items => some (.listed items)
  | .dateTime => some (.named [])
  | _ => none

def Section.field (fields : Section) (name : String) (place : Nat) : Option Toml.Value :=
  match fields with
  | .named entries => entries.lookup name
  | .listed items => items[place]?

/-- The value of a field if it is present, else its default. Fails on a value of the wrong kind. -/
def fieldOr {α : Type} (read : Toml.Value → Option α) (default : α) : Option Toml.Value → Option α
  | none => some default
  | some value => read value

def text? : Toml.Value → Option String
  | .string s => some s
  | _ => none

def flag? : Toml.Value → Option Bool
  | .boolean b => some b
  | _ => none

def seconds? : Toml.Value → Option UInt64
  | .integer n => if 0 ≤ n then some (UInt64.ofNat n.toNat) else none
  | _ => none

def settings? (value : Toml.Value) : Option Settings := do
  let fields ← Section.of? value
  let standard : Settings := {}
  return {
    name := ← fieldOr text? standard.name (fields.field "name" 0)
    sessionManagement := ← fieldOr flag? standard.sessionManagement (fields.field "session_management" 1)
    sessionTimeout := ← fieldOr seconds? standard.sessionTimeout (fields.field "session_timeout" 2)
    applicationTimeout := ← fieldOr seconds? standard.applicationTimeout (fields.field "application_timeout" 3) }

def filter? (value : Toml.Value) : Option String := do
  let fields ← Section.of? value
  fieldOr text? ({} : Config).filter (fields.field "filter" 0)

def parse? (text : String) : Option Config := do
  let entries ← Toml.parse? text
  return {
    application := ← fieldOr settings? {} (entries.lookup "application")
    filter := ← fieldOr filter? ({} : Config).filter (entries.lookup "logging") }

inductive ReadFailure where
  | notFound
  | isDirectory
  | notADirectory
  | nameTooLong
  | notText
  | noSuchName
  | other (reason : String)
deriving DecidableEq, Repr

def ReadFailure.message : ReadFailure → String
  | .notFound => "No such file or directory (os error 2)"
  | .isDirectory => "Is a directory (os error 21)"
  | .notADirectory => "Not a directory (os error 20)"
  | .nameTooLong => "File name too long (os error 36)"
  | .notText => "stream did not contain valid UTF-8"
  | .noSuchName => "file name contained an unexpected NUL byte"
  | .other reason => reason

def load (path : String) (contents : Except ReadFailure ByteArray) : Except Error Config := do
  let unreadable (failure : ReadFailure) : Except Error Config := .error (.unreadableConfig path failure.message)
  match contents with
  | .error failure => unreadable failure
  | .ok bytes =>
    match String.fromUTF8? bytes with
    | none => unreadable .notText
    | some text =>
      match parse? text with
      | some config => .ok config
      | none => .error .malformedConfig

end Config

end ScopeEngine
