import ScopeEngine.Proofs.Marks

/-! Idle time is measured exactly. Timestamps lie far within 64 bits, so no difference of two of them wraps, and where a limit is
held at the most milliseconds there are, no two timestamps are that far apart. -/

namespace ScopeEngine

namespace Instant

def epochMillis (t : Instant) : Int := t.nanos.fdiv 1000000

def year (t : Instant) : Int := (dateOfDays (t.nanos.fdiv 86400000000000)).year

/-- The calendar of timestamps has years of 19 bits. -/
def IsTimestamp (t : Instant) : Prop := -262144 ≤ t.year ∧ t.year ≤ 262143

instance (t : Instant) : Decidable t.IsTimestamp := inferInstanceAs (Decidable (_ ∧ _))

/-- Idle since `last` for more than so many seconds; none stand for no limit. -/
def IdlesBeyond (seconds : UInt64) (last now : Instant) : Prop :=
  seconds ≠ 0 ∧ 1000 * (seconds.toNat : Int) < now.epochMillis - last.epochMillis

theorem year_dateOfDays (days : Int) : 400 * (days + 719468).fdiv 146097 ≤ (dateOfDays days).year ∧
    (dateOfDays days).year ≤ 400 * (days + 719468).fdiv 146097 + 401 := by
  simp only [dateOfDays, Int.fdiv_eq_ediv_of_nonneg _ (show (0 : Int) ≤ 146097 by decide)]
  constructor <;> split <;> omega

variable {t last now : Instant}

theorem IsTimestamp.bounds (timestamp : t.IsTimestamp) :
    -0x20000000000000 ≤ t.epochMillis ∧ t.epochMillis ≤ 0x20000000000000 := by
  obtain ⟨early, late⟩ := timestamp
  have era := year_dateOfDays (t.nanos.fdiv 86400000000000)
  rw [year] at early late
  -- only the era of the year matters, so the calendar need not be opened again
  generalize (dateOfDays (t.nanos.fdiv 86400000000000)).year = year at early late era
  simp only [epochMillis, Int.fdiv_eq_ediv_of_nonneg _ (show (0 : Int) ≤ 146097 by decide),
    Int.fdiv_eq_ediv_of_nonneg _ (show (0 : Int) ≤ 86400000000000 by decide),
    Int.fdiv_eq_ediv_of_nonneg _ (show (0 : Int) ≤ 1000000 by decide)] at era ⊢
  omega

theorem IsTimestamp.toInt_millis (timestamp : t.IsTimestamp) : t.millis.toInt = t.epochMillis := by
  have bounds := timestamp.bounds
  rw [epochMillis] at bounds ⊢
  exact Int64.toInt_ofInt_of_le (by omega) (by omega)

/-- The way from two timestamps to the time between them wraps nowhere. -/
structure Apart (last now : Instant) : Prop where
  earlier : last.millis.toInt = last.epochMillis
  later : now.millis.toInt = now.epochMillis
  difference : (now.millis - last.millis).toInt = now.epochMillis - last.epochMillis
  cast : 0 < now.millis - last.millis → ((now.millis - last.millis).toUInt64.toNat : Int) = now.epochMillis - last.epochMillis

theorem IsTimestamp.apart (old : last.IsTimestamp) (new : now.IsTimestamp) : Apart last now := by
  have difference : (now.millis - last.millis).toInt = now.epochMillis - last.epochMillis := by
    have early := old.bounds
    have late := new.bounds
    rw [Int64.toInt_sub, old.toInt_millis, new.toInt_millis]
    exact Int.bmod_eq_of_le (by omega) (by omega)
  refine ⟨old.toInt_millis, new.toInt_millis, difference, fun positive => ?_⟩
  have natural : (0 : Int64) ≤ now.millis - last.millis := Int64.le_of_lt positive
  rw [Int64.toNat_toUInt64_of_le natural, Int64.toNatClampNeg, Int.toNat_of_nonneg (Int64.le_iff_toInt_le.mp natural), difference]

end Instant

namespace IdleLimit

open Instant

variable {last now : Instant}

def ofSeconds (seconds : UInt64) : IdleLimit := ofDuration (Settings.nonZero seconds)

theorem toNat_ofSeconds (seconds : UInt64) : (ofSeconds seconds).toNat = min (1000 * seconds.toNat) (UInt64.size - 1) := by
  rw [ofSeconds, Settings.nonZero]
  split
  next none =>
    rw [none]
    rfl
  next =>
    have whole : (Duration.ofSeconds seconds).millis = seconds.toNat * 1000 := by
      simp [Duration.millis, Duration.ofSeconds]
    rw [ofDuration, UInt64.toNat_ofNat', whole, UInt64.size]
    omega

theorem exceeded_iff (apart : Apart last now) (limit : IdleLimit) : limit.exceeded last.millis now.millis = true ↔
    limit ≠ 0 ∧ (limit.toNat : Int) < now.epochMillis - last.epochMillis := by
  rw [exceeded]
  split
  next none => simp [none]
  next limited =>
    have positive : 0 < now.millis - last.millis ↔ 0 < now.epochMillis - last.epochMillis := by
      rw [Int64.lt_iff_toInt_lt, apart.difference]
      rfl
    simp only [Bool.and_eq_true, decide_eq_true_eq, positive, UInt64.lt_iff_toNat_lt]
    constructor
    · rintro ⟨later, beyond⟩
      have cast := apart.cast (positive.mpr later)
      exact ⟨limited, by omega⟩
    · rintro ⟨-, beyond⟩
      have later : 0 < now.epochMillis - last.epochMillis := by omega
      have cast := apart.cast (positive.mpr later)
      exact ⟨later, by omega⟩

/-- Where the limit is held at the most milliseconds there are, nothing is idle for so long either way. -/
theorem ofSeconds_exceeded_iff (old : last.IsTimestamp) (new : now.IsTimestamp) (seconds : UInt64) :
    (ofSeconds seconds).exceeded last.millis now.millis = true ↔ IdlesBeyond seconds last now := by
  have early := old.bounds
  have late := new.bounds
  have limit := toNat_ofSeconds seconds
  rw [exceeded_iff (old.apart new), IdlesBeyond, ne_eq, ne_eq, ← UInt64.toNat_inj, ← UInt64.toNat_inj, limit]
  simp only [UInt64.toNat_zero, UInt64.size]
  omega

end IdleLimit

/-- The settings were given to the application, when it was made or later, and its limits are still theirs. -/
inductive Application.Given (settings : Settings) : Application → Prop where
  | made (w : World) (name : Key) : Given settings ((w.newApplication name settings).2.application (w.newApplication name settings).1)
  | applied (application : Application) : Given settings (application.applySettings settings)
  | used {application later : Application} (given : Given settings application) (timeout : later.timeout = application.timeout)
      (sessions : later.sessionTimeout = application.sessionTimeout) : Given settings later

theorem Application.Given.limits {settings : Settings} {application : Application} (given : application.Given settings) :
    application.timeout = .ofSeconds settings.applicationTimeout ∧ application.sessionTimeout = .ofSeconds settings.sessionTimeout := by
  induction given with
  | made w name =>
    have read : (w.newApplication name settings).2.application (w.newApplication name settings).1 = _ :=
      Table.get_add w.applications w.applications.next _
    rw [read, if_pos rfl]
    exact ⟨rfl, rfl⟩
  | applied => exact ⟨rfl, rfl⟩
  | used given timeout sessions limits => exact ⟨timeout.trans limits.1, sessions.trans limits.2⟩

theorem World.timeout_of_created {w later : World} {a : ApplicationId} {id : Key} {s : SessionId} {stale : Option SessionId}
    (placed : w.placeSession a id = (.created s stale, later)) : (later.session s).timeout = (w.application a).sessionTimeout := by
  have inserted : ∀ old, w.insertSession a id old = (.created s stale, later) →
      (later.session s).timeout = (w.application a).sessionTimeout := by
    rintro old made
    cases made
    exact congrArg Session.timeout ((session_insertSession w a id stale _).trans (if_pos rfl))
  rw [placeSession] at placed
  split at placed
  · split at placed
    · exact inserted _ placed
    · cases placed
  · exact inserted _ placed

/-- Applications, and sessions that they create, expire once they have been idle for more than the seconds of the settings, over
the unbounded integers: nothing on the way to the answer wraps, and holding a limit at the most milliseconds changes no answer. -/
theorem expiry_is_exact (settings : Settings) {last now : Instant} (old : last.IsTimestamp) (new : now.IsTimestamp) :
    Instant.Apart last now ∧
    (∀ seconds, (IdleLimit.ofSeconds seconds).toNat = min (1000 * seconds.toNat) (UInt64.size - 1)) ∧
    (∀ application : Application, application.Given settings → application.lastAccess = last.millis →
      (application.isExpiredAt now = true ↔ Instant.IdlesBeyond settings.applicationTimeout last now)) ∧
    ∀ (w later : World) (a : ApplicationId) (id : Key) (s : SessionId) (stale : Option SessionId) (session : Session),
      (w.application a).Given settings → w.placeSession a id = (.created s stale, later) →
      session.timeout = (later.session s).timeout → session.lastVisit = last.millis →
      (session.isExpiredAt now = true ↔ Instant.IdlesBeyond settings.sessionTimeout last now) := by
  refine ⟨old.apart new, IdleLimit.toNat_ofSeconds, fun application given accessed => ?_,
    fun w later a id s stale session given placed timeout visited => ?_⟩
  · rw [Application.isExpiredAt, given.limits.1, accessed]
    exact IdleLimit.ofSeconds_exceeded_iff old new _
  · rw [Session.isExpiredAt, timeout, World.timeout_of_created placed, given.limits.2, visited]
    exact IdleLimit.ofSeconds_exceeded_iff old new _

/-- A limit of more milliseconds than there are, from the first to the last moment of the calendar. -/
theorem expiry_is_exact_saturated :
    let settings : Settings := { applicationTimeout := 18446744073709552 }
    let first : Instant := .ofMillis (-8334632851200000)
    let last : Instant := .ofMillis 8210298412799999
    (first.IsTimestamp ∧ last.IsTimestamp) ∧
      (IdleLimit.ofSeconds settings.applicationTimeout).toNat < 1000 * settings.applicationTimeout.toNat ∧
      ∀ application : Application, application.Given settings → application.lastAccess = first.millis →
        (application.isExpiredAt last = true ↔ Instant.IdlesBeyond settings.applicationTimeout first last) := by
  intro settings first last
  have old : first.IsTimestamp := by decide +kernel
  have new : last.IsTimestamp := by decide +kernel
  have held : (IdleLimit.ofSeconds settings.applicationTimeout).toNat < 1000 * settings.applicationTimeout.toNat := by
    rw [IdleLimit.toNat_ofSeconds]
    decide
  exact ⟨⟨old, new⟩, held, (expiry_is_exact settings old new).2.2.1⟩

end ScopeEngine
