/-!
Instants on the time line and how they are written: the calendar date and time of day at offset zero, the
fraction of a second in the shortest of none, three, six or nine digits.
-/

namespace ScopeEngine

/-- Nanoseconds since the start of 1970, at offset zero. -/
structure Instant where
  nanos : Int
deriving DecidableEq, Inhabited, Repr

namespace Instant

def ofMillis (ms : Int) : Instant := ⟨ms * 1000000⟩

/-- Whole milliseconds since the start of 1970, rounded towards the past. -/
def millis (t : Instant) : Int64 :=
  Int64.ofInt (t.nanos.fdiv 1000000)

def addMillis (t : Instant) (ms : Int) : Instant :=
  ⟨t.nanos + ms * 1000000⟩

structure Date where
  year : Int
  month : Nat
  day : Nat

/-- The date `days` days after the first of January 1970. Years are counted from March so that the leap day comes
last, in eras of 400 years. -/
def dateOfDays (days : Int) : Date :=
  let shifted := days + 719468
  let era := shifted.fdiv 146097
  let dayOfEra := (shifted - era * 146097).toNat
  let yearOfEra := (dayOfEra - dayOfEra / 1460 + dayOfEra / 36524 - dayOfEra / 146096) / 365
  let dayOfYear := dayOfEra - (365 * yearOfEra + yearOfEra / 4 - yearOfEra / 100)
  let shiftedMonth := (5 * dayOfYear + 2) / 153
  let day := dayOfYear - (153 * shiftedMonth + 2) / 5 + 1
  let month := if shiftedMonth < 10 then shiftedMonth + 3 else shiftedMonth - 9
  ⟨yearOfEra + era * 400 + (if month ≤ 2 then 1 else 0), month, day⟩

/-- The digits of `n` with zeros in front up to `width` digits. -/
def padded (width n : Nat) : String :=
  let digits := Nat.toDigits 10 n
  String.ofList (List.replicate (width - digits.length) '0' ++ digits)

/-- Four digits, with a sign when they do not suffice or the year lies before year zero. -/
def yearText (year : Int) : String :=
  if year < 0 then "-" ++ padded 4 year.natAbs
  else if 9999 < year then "+" ++ padded 4 year.natAbs
  else padded 4 year.natAbs

def fractionText (nanos : Nat) : String :=
  if nanos = 0 then ""
  else if nanos % 1000000 = 0 then "." ++ padded 3 (nanos / 1000000)
  else if nanos % 1000 = 0 then "." ++ padded 6 (nanos / 1000)
  else "." ++ padded 9 nanos

def text (t : Instant) : String :=
  let days := t.nanos.fdiv 86400000000000
  let ofDay := (t.nanos - days * 86400000000000).toNat
  let seconds := ofDay / 1000000000
  let date := dateOfDays days
  yearText date.year ++ "-" ++ padded 2 date.month ++ "-" ++ padded 2 date.day ++ "T" ++
    padded 2 (seconds / 3600) ++ ":" ++ padded 2 (seconds / 60 % 60) ++ ":" ++ padded 2 (seconds % 60) ++
    fractionText (ofDay % 1000000000) ++ "+00:00"

end Instant

end ScopeEngine
