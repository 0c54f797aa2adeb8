import ScopeEngine.Text.UpperCase
import ScopeEngine.Text.Quoted
import ScopeEngine.Decimal.Integer
import ScopeEngine.Decimal.Shortest

/-!
Keys: names whose case does not matter. A key keeps the spelling it was made with; keys are equal, and ordered, by
their upper-cased names. Keys made from integers, and names of one to three digits, also carry a number by which
positional scopes are addressed.
-/

namespace ScopeEngine

structure Key where
  name : String
  number : Option Int64
  folded : String
  folded_eq : folded = Text.upper name

namespace Key

def build (name : String) (number : Option Int64) : Key :=
  ⟨name, number, Text.upper name, rfl⟩

def ofInt (n : Int64) : Key :=
  build (Decimal.intText n.toInt) (some n)

/-- The value of a name that consists of one to three digits. -/
def shortNumber? (name : String) : Option Nat :=
  let cs := name.toList
  if 1 ≤ cs.length ∧ cs.length ≤ 3 ∧ cs.all Char.isDigit then some (Decimal.digitsValue cs) else none

/-- The key of a name. Short digit strings become numbers, so `01` and `1` are one key. -/
def of (name : String) : Key :=
  match shortNumber? name with
  | some n => ofInt (Int64.ofNat n)
  | none => build name none

/-- Integral numbers of moderate size are integer keys; any other number is known by its text. -/
def ofFloat (x : Float) : Key :=
  match Decimal.floatInteger? x with
  | some n => if n.natAbs < Nat.pow 2 63 then ofInt (Int64.ofInt n) else build (Decimal.floatText x) none
  | none => build (Decimal.floatText x) none

instance : Inhabited Key := ⟨build "" none⟩

instance : BEq Key := ⟨fun a b => a.folded == b.folded⟩

instance : Ord Key := ⟨fun a b => compare a.folded b.folded⟩

instance : ToString Key := ⟨Key.name⟩

def isNumeric (key : Key) : Bool := key.number.isSome

def isEmpty (key : Key) : Bool := key.name.isEmpty

def sameSpelling (a b : Key) : Bool := a.name == b.name

def compareSpelling (a b : Key) : Ordering := compare a.name b.name

/-- A numeric key shows its number, any other its quoted name. -/
def debugText (key : Key) : String :=
  match key.number with
  | some n => "Key(" ++ Decimal.intText n.toInt ++ ")"
  | none => "Key(" ++ Text.quoted key.name ++ ")"

def sort (keys : List Key) : List Key :=
  keys.mergeSort fun a b => (compare a b).isLE

def sortBySpelling (keys : List Key) : List Key :=
  keys.mergeSort fun a b => (compareSpelling a b).isLE

end Key

inductive ScopeName where
  | vars
  | locals
  | arguments
  | self
  | shared
  | request
  | session
  | application
  | server
deriving DecidableEq, Repr

namespace ScopeName

def all : List ScopeName :=
  [.vars, .locals, .arguments, .self, .shared, .request, .session, .application, .server]

def text : ScopeName → String
  | .vars => "variables"
  | .locals => "local"
  | .arguments => "arguments"
  | .self => "this"
  | .shared => "static"
  | .request => "request"
  | .session => "session"
  | .application => "application"
  | .server => "server"

def key (name : ScopeName) : Key := .of name.text

end ScopeName

def Key.scopeName? (key : Key) : Option ScopeName :=
  ScopeName.all.find? fun name => name.key == key

def Key.isScopeName (key : Key) : Bool := key.scopeName?.isSome

namespace Key

def onApplicationStart : Key := .of "onApplicationStart"
def onApplicationEnd : Key := .of "onApplicationEnd"
def onSessionStart : Key := .of "onSessionStart"
def onSessionEnd : Key := .of "onSessionEnd"
def applicationName : Key := .of "applicationName"
def jsessionid : Key := .of "jsessionid"
def sessionid : Key := .of "sessionid"
def timeCreated : Key := .of "timeCreated"
def lastVisit : Key := .of "lastVisit"
def hits : Key := .of "hits"

end Key

end ScopeEngine
