import ScopeEngine.Key
import ScopeEngine.Text.Blank

/-!
Settings of the application that a request runs under, and idle time: when something that was last used at one
time counts as expired at another.
-/

namespace ScopeEngine

/-- A length of time. -/
structure Duration where
  seconds : UInt64
  nanos : UInt32
deriving DecidableEq, Repr

namespace Duration

def ofSeconds (seconds : UInt64) : Duration := ⟨seconds, 0⟩

def ofMillis (millis : UInt64) : Duration := ⟨millis / 1000, .ofNat (millis.toNat % 1000 * 1000000)⟩

def millis (duration : Duration) : Nat := duration.seconds.toNat * 1000 + duration.nanos.toNat / 1000000

theorem millis_ofMillis (millis : UInt64) : (ofMillis millis).millis = millis.toNat := by
  simp only [Duration.millis, ofMillis, UInt64.toNat_div, UInt32.toNat_ofNat']
  rw [show (1000 : UInt64).toNat = 1000 from rfl]
  omega

end Duration

/-- Timeouts are in seconds; zero means never. -/
structure Settings where
  name : String := ""
  sessionManagement : Bool := false
  sessionTimeout : UInt64 := 1800
  applicationTimeout : UInt64 := 0
deriving DecidableEq, Repr, Inhabited

namespace Settings

def named (name : String) : Settings := { name }

/-- A blank name means that requests have no application. -/
def hasApplication (settings : Settings) : Bool :=
  !(Text.trim settings.name).isEmpty

def applicationKey (settings : Settings) : Key :=
  .of (Text.trim settings.name)

def nonZero (seconds : UInt64) : Option Duration :=
  if seconds = 0 then none else some (.ofSeconds seconds)

def sessionLimit (settings : Settings) : Option Duration := nonZero settings.sessionTimeout

def applicationLimit (settings : Settings) : Option Duration := nonZero settings.applicationTimeout

end Settings

/-- Idle limits in milliseconds; zero means never. -/
abbrev IdleLimit := UInt64

/-- Held at the largest number of milliseconds there is. -/
def IdleLimit.ofDuration : Option Duration → IdleLimit
  | some duration => .ofNat (min duration.millis (UInt64.size - 1))
  | none => 0

def IdleLimit.duration (limit : IdleLimit) : Option Duration :=
  if limit = 0 then none else some (.ofMillis limit)

@[simp] theorem IdleLimit.ofDuration_duration (limit : IdleLimit) : ofDuration limit.duration = limit := by
  unfold duration
  split
  next none => exact none.symm
  next =>
    have most : limit.toNat ≤ UInt64.size - 1 := Nat.le_pred_of_lt limit.toNat_lt
    rw [ofDuration, Duration.millis_ofMillis, Nat.min_eq_left most, UInt64.ofNat_toNat]

/-- Whether something last used at `last` has been idle for longer than the limit at `now`, both in milliseconds. -/
def IdleLimit.exceeded (limit : IdleLimit) (last now : Int64) : Bool :=
  if limit = 0 then false
  else
    let idle := now - last
    0 < idle && limit < idle.toUInt64

end ScopeEngine
