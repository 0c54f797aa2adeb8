import ScopeEngine.Decimal.Integer

/-!
Reading a decimal number as the nearest double. Accepted are digits with an optional point and exponent, and the
words for infinity and for what is not a number, in any case and with an optional sign.
-/

namespace ScopeEngine.Decimal

def spanDigits (cs : List Char) : List Char × List Char :=
  (cs.takeWhile Char.isDigit, cs.dropWhile Char.isDigit)

def spanSign : List Char → Bool × List Char
  | '-' :: rest => (true, rest)
  | '+' :: rest => (false, rest)
  | cs => (false, cs)

/-- The double nearest to `digits * 10 ^ exponent`; exponents far out of range give infinity or zero at once. -/
def nearest (digits : Nat) (exponent : Int) : Float :=
  let places : Int := (Nat.toDigits 10 digits).length + exponent
  if digits = 0 ∨ places < -400 then 0.0
  else if 400 < places then 1.0 / 0.0
  else if 0 ≤ exponent then Float.ofScientific digits false exponent.toNat
  else Float.ofScientific digits true (-exponent).toNat

def readExponent : List Char → Option Int
  | [] => some 0
  | mark :: rest =>
    if mark = 'e' ∨ mark = 'E' then
      let (negative, rest) := spanSign rest
      let (digits, rest) := spanDigits rest
      if digits.isEmpty ∨ ¬ rest.isEmpty then none
      else some (if negative then -(digitsValue digits : Int) else digitsValue digits)
    else
      none

def readUnsigned (cs : List Char) : Option Float :=
  let (whole, rest) := spanDigits cs
  let (fraction, rest) := match rest with
    | '.' :: rest => spanDigits rest
    | _ => ([], rest)
  if whole.isEmpty ∧ fraction.isEmpty then none
  else (readExponent rest).map fun exponent => nearest (digitsValue (whole ++ fraction)) (exponent - fraction.length)

def readFloat? (text : String) : Option Float :=
  let (negative, cs) := spanSign text.toList
  let word := String.ofList (cs.map Char.toLower)
  let magnitude? :=
    if word = "inf" ∨ word = "infinity" then some (1.0 / 0.0)
    else if word = "nan" then some (0.0 / 0.0)
    else readUnsigned cs
  magnitude?.map fun (x : Float) => if negative then -x else x

end ScopeEngine.Decimal
