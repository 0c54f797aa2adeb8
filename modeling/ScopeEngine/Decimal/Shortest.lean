/-!
Binary floating-point numbers as decimal text. A number is written with the fewest digits that read back as the
same number; of two such digit strings the nearer one is taken, and the larger one when both are equally near.
The digits are found in exact arithmetic on naturals.
-/

namespace ScopeEngine.Decimal

/-- A finite number without its sign, as `mantissa * 2 ^ exponent`. `tight` marks a number whose lower neighbour
is only half as far away as its upper one. -/
structure Binary where
  mantissa : Nat
  exponent : Int
  tight : Bool
deriving DecidableEq, Repr

inductive Reading where
  | finite (negative : Bool) (number : Binary)
  | infinite (negative : Bool)
  | notANumber

def Reading.ofFloat (x : Float) : Reading :=
  let bits := x.toBits.toNat
  let negative := bits / Nat.pow 2 63 == 1
  let exponent : Nat := bits / Nat.pow 2 52 % Nat.pow 2 11
  let fraction := bits % Nat.pow 2 52
  if exponent = 2047 then
    if fraction = 0 then .infinite negative else .notANumber
  else if exponent = 0 then
    .finite negative ⟨fraction, -1074, false⟩
  else
    .finite negative ⟨fraction + Nat.pow 2 52, exponent - 1075, fraction == 0 && exponent != 1⟩

structure Ratio where
  num : Nat
  den : Nat

/-- `n * base ^ e` as a ratio. -/
def Ratio.scaled (n base : Nat) (e : Int) : Ratio :=
  if 0 ≤ e then ⟨n * base.pow e.toNat, 1⟩ else ⟨n, base.pow (-e).toNat⟩

def Ratio.lt (a b : Ratio) : Bool :=
  a.num * b.den < b.num * a.den

def Ratio.le (a b : Ratio) : Bool :=
  a.num * b.den ≤ b.num * a.den

/-- The least `k ≥ start` with `1 ≤ r * 10 ^ k`, found within `fuel` steps. -/
def lift (r : Ratio) : (fuel start : Nat) → Nat
  | 0, start => start
  | fuel + 1, start => if r.den ≤ r.num * Nat.pow 10 start then start else lift r fuel (start + 1)

/-- The place `p` of the leading digit: `10 ^ (p - 1) ≤ r < 10 ^ p`. -/
def magnitude (r : Ratio) : Int :=
  if r.den ≤ r.num then (Nat.toDigits 10 (r.num / r.den)).length
  else 1 - (lift r 400 1 : Nat)

/-- `digits * 10 ^ exponent`. -/
structure Scientific where
  digits : Nat
  exponent : Int
deriving DecidableEq, Repr

/-- The reals that read back as a given binary number lie between `low` and `high`, ends included when `closed`. -/
structure Basin where
  low : Ratio
  high : Ratio
  closed : Bool

def Binary.basin (b : Binary) : Basin where
  low := .scaled (4 * b.mantissa - (if b.tight then 1 else 2)) 2 (b.exponent - 2)
  high := .scaled (4 * b.mantissa + 2) 2 (b.exponent - 2)
  closed := b.mantissa % 2 == 0

def Basin.holds (basin : Basin) (r : Ratio) : Bool :=
  if basin.closed then basin.low.le r && r.le basin.high else basin.low.lt r && r.lt basin.high

/-- The neighbours of `value` on the grid of multiples of `10 ^ unit` that read back, the nearer one first chosen. -/
def onGrid (basin : Basin) (value : Ratio) (unit : Int) : Option Scientific :=
  let grid := Ratio.scaled 1 10 unit
  let below := value.num * grid.den / (value.den * grid.num)
  let fits (n : Nat) := basin.holds ⟨n * grid.num, grid.den⟩
  let remainder := value.num * grid.den % (value.den * grid.num)
  let upperNearer := value.den * grid.num ≤ 2 * remainder
  match 0 < below && fits below, fits (below + 1) with
  | true, true => some ⟨if upperNearer then below + 1 else below, unit⟩
  | true, false => some ⟨below, unit⟩
  | false, true => some ⟨below + 1, unit⟩
  | false, false => none

def Scientific.strip : (fuel : Nat) → Scientific → Scientific
  | 0, d => d
  | fuel + 1, d =>
    if d.exponent < 0 ∧ d.digits % 10 = 0 ∧ d.digits ≠ 0 then
      Scientific.strip fuel ⟨d.digits / 10, d.exponent + 1⟩
    else
      d

/-- The shortest decimal that reads back as `b`; seventeen digits always do. -/
def Binary.shortest (b : Binary) : Scientific :=
  if b.mantissa = 0 then ⟨0, 0⟩
  else
    let value := Ratio.scaled b.mantissa 2 b.exponent
    let place := magnitude value
    let basin := b.basin
    let found := (List.range 17).findSome? fun n => onGrid basin value (place - (n + 1 : Nat))
    Scientific.strip 20 (found.getD ⟨b.mantissa, 0⟩)

/-- All digits in positional notation, without a point when there is no fraction. -/
def Scientific.text (d : Scientific) : String :=
  let digits := Nat.toDigits 10 d.digits
  if 0 ≤ d.exponent then
    if d.digits = 0 then "0" else String.ofList (digits ++ List.replicate d.exponent.toNat '0')
  else
    let places := (-d.exponent).toNat
    let padded := List.replicate (places + 1 - digits.length) '0' ++ digits
    let whole := padded.take (padded.length - places)
    let fraction := padded.drop (padded.length - places)
    String.ofList (whole ++ '.' :: fraction)

/-- The text of a double: never an exponent, `-0` for negative zero. -/
def floatText (x : Float) : String :=
  match Reading.ofFloat x with
  | .notANumber => "NaN"
  | .infinite negative => if negative then "-inf" else "inf"
  | .finite negative number => (if negative then "-" else "") ++ number.shortest.text

/-- The integer a double stands for, if it stands for one. -/
def floatInteger? (x : Float) : Option Int :=
  match Reading.ofFloat x with
  | .finite negative ⟨mantissa, exponent, _⟩ =>
    let magnitude? : Option Nat :=
      if 0 ≤ exponent then some (mantissa * Nat.pow 2 exponent.toNat)
      else if mantissa % Nat.pow 2 (-exponent).toNat = 0 then some (mantissa / Nat.pow 2 (-exponent).toNat)
      else none
    magnitude?.map fun (n : Nat) => if negative then -(n : Int) else n
  | _ => none

end ScopeEngine.Decimal
