import ScopeEngine.Decimal.Reader
import ScopeEngine.Toml.Text

/-!
TOML numbers, dates and times. Digits may be grouped by single underscores. Integers have 64 bits; decimal ones carry no
leading zeros.
-/

namespace ScopeEngine.Toml

inductive Scalar where
  | integer (n : Int)
  | float (x : Float)
  | dateTime

/-- The rest of a group of digits, with underscores between digits. Fails on an underscore that no digit follows. -/
def readMoreDigits (isDigit : Char → Bool) (done : List Char) : Reader (List Char)
  | [] => some (done.reverse, [])
  | '_' :: c :: rest => if isDigit c then readMoreDigits isDigit (c :: done) rest else none
  | c :: rest =>
    if isDigit c then readMoreDigits isDigit (c :: done) rest
    else if c == '_' then none
    else some (done.reverse, c :: rest)

def readDigits (isDigit : Char → Bool) : Reader (List Char)
  | c :: rest => if isDigit c then readMoreDigits isDigit [c] rest else none
  | [] => none

def readWhole : Reader (List Char)
  | '0' :: rest => some (['0'], rest)
  | cs => readDigits Char.isDigit cs

def inRange (n : Int) : Bool := Int64.minValue.toInt ≤ n && n ≤ Int64.maxValue.toInt

/-- An integer in a power-of-two base, after its mark. -/
def readBased (base : Nat) (cs : List Char) : Option (Scalar × List Char) := do
  let isDigit (c : Char) : Bool := (hexValue? c).any (· < base)
  let (digits, rest) ← readDigits isDigit cs
  let values ← digits.mapM hexValue?
  let n := values.foldl (fun n digit => base * n + digit) 0
  if inRange n then some (.integer n, rest) else none

/-- An optional sign and digits after the mark of an exponent. -/
def readExponent (cs : List Char) : Option (Int × List Char) := do
  let (negative, cs) := Decimal.spanSign cs
  let (digits, rest) ← readDigits Char.isDigit cs
  let n : Int := Decimal.digitsValue digits
  some (if negative then -n else n, rest)

/-- A finished float. One that is too large is refused. -/
def finishFloat (negative : Bool) (digits : List Char) (places : Nat) (exponent : Int) (rest : List Char) :
    Option (Scalar × List Char) :=
  let magnitude := Decimal.nearest (Decimal.digitsValue digits) (exponent - places)
  let x := if negative then -magnitude else magnitude
  if x == 1.0 / 0.0 then none else some (.float x, rest)

def isExponentMark (c : Char) : Bool := c == 'e' || c == 'E'

def readFraction (negative : Bool) (whole : List Char) : List Char → Option (Scalar × List Char)
  | '.' :: rest => do
    let (fraction, rest) ← readDigits Char.isDigit rest
    match rest with
    | mark :: after =>
      if isExponentMark mark then
        let (exponent, rest) ← readExponent after
        finishFloat negative (whole ++ fraction) fraction.length exponent rest
      else
        finishFloat negative (whole ++ fraction) fraction.length 0 rest
    | [] => finishFloat negative (whole ++ fraction) fraction.length 0 []
  | mark :: rest =>
    if isExponentMark mark then do
      let (exponent, rest) ← readExponent rest
      finishFloat negative whole 0 exponent rest
    else
      finishInteger (mark :: rest)
  | [] => finishInteger []
where
  finishInteger (rest : List Char) : Option (Scalar × List Char) :=
    let n : Int := Decimal.digitsValue whole
    let n := if negative then -n else n
    if inRange n then some (.integer n, rest) else none

def after? : (word : List Char) → List Char → Option (List Char)
  | [], cs => some cs
  | w :: word, c :: cs => if w == c then after? word cs else none
  | _ :: _, [] => none

/-- A decimal number, or one of the special floats, with an optional sign. -/
def readDecimal (cs : List Char) : Option (Scalar × List Char) :=
  let (negative, cs) := Decimal.spanSign cs
  match after? "inf".toList cs, after? "nan".toList cs with
  | some rest, _ => some (.float (if negative then -(1.0 / 0.0) else 1.0 / 0.0), rest)
  | _, some rest => some (.float (0.0 / 0.0), rest)
  | none, none => do
    let (whole, rest) ← readWhole cs
    readFraction negative whole rest

def readTwo (low high : Nat) : Reader Nat
  | a :: b :: rest =>
    if a.isDigit && b.isDigit then
      let n := Decimal.digitsValue [a, b]
      if low ≤ n && n ≤ high then some (n, rest) else none
    else
      none
  | _ => none

def readMark (mark : Char) : List Char → Option (List Char)
  | c :: rest => if c == mark then some rest else none
  | [] => none

def daysIn (year month : Nat) : Nat :=
  if month = 2 then
    if year % 4 = 0 ∧ (year % 100 ≠ 0 ∨ year % 400 = 0) then 29 else 28
  else if month = 4 ∨ month = 6 ∨ month = 9 ∨ month = 11 then 30
  else 31

def readDate : List Char → Option (List Char)
  | a :: b :: c :: d :: '-' :: rest => do
    if !([a, b, c, d].all Char.isDigit) then none
    let (month, rest) ← readTwo 1 12 rest
    let rest ← readMark '-' rest
    let (day, rest) ← readTwo 1 31 rest
    if day ≤ daysIn (Decimal.digitsValue [a, b, c, d]) month then some rest else none
  | _ => none

def readTime (cs : List Char) : Option (List Char) := do
  let (_, rest) ← readTwo 0 23 cs
  let rest ← readMark ':' rest
  let (_, rest) ← readTwo 0 59 rest
  let rest ← readMark ':' rest
  let (_, rest) ← readTwo 0 60 rest
  match rest with
  | '.' :: c :: fraction => if c.isDigit then some (fraction.dropWhile Char.isDigit) else some rest
  | _ => some rest

/-- The distance from universal time. Fails on a sign that no distance follows. -/
def readOffset : List Char → Option (List Char)
  | c :: rest =>
    if c == 'Z' || c == 'z' then some rest
    else if c == '+' || c == '-' then do
      let (_, rest) ← readTwo 0 23 rest
      let rest ← readMark ':' rest
      let (_, rest) ← readTwo 0 59 rest
      some rest
    else
      some (c :: rest)
  | [] => some []

/-- A date, perhaps with a time of day, or a time of day alone. -/
def readDateTime (cs : List Char) : Option (List Char) :=
  match readDate cs with
  | some rest =>
    match rest with
    | c :: time =>
      if c == 'T' || c == 't' || c == ' ' then
        match readTime time with
        | some rest => readOffset rest
        | none => some (c :: time)
      else
        some (c :: time)
    | [] => some []
  | none => readTime cs

/-- Whether a text begins like a date or a time, so that it cannot be a number. -/
def looksDated : List Char → Bool
  | a :: b :: ':' :: _ => a.isDigit && b.isDigit
  | a :: b :: c :: d :: '-' :: _ => [a, b, c, d].all Char.isDigit
  | _ => false

def readScalar : List Char → Option (Scalar × List Char)
  | '0' :: 'x' :: rest => readBased 16 rest
  | '0' :: 'o' :: rest => readBased 8 rest
  | '0' :: 'b' :: rest => readBased 2 rest
  | cs =>
    if looksDated cs then (readDateTime cs).map (Scalar.dateTime, ·)
    else readDecimal cs

end ScopeEngine.Toml
