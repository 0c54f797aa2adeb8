import ScopeEngine.Proofs.Bindings
import ScopeEngine.Proofs.Casing

/-! Keys that stand for numbers. Upper-casing leaves digits alone and makes no new ones, so whatever equals the key of a
number is spelled like it, and a name as short as the numbers below a thousand then carries that number itself. -/

namespace ScopeEngine

namespace Decimal

variable {d : Scientific} {n : Int}
variable {c : Char}

theorem digit_range (digit : c.isDigit = true) : 48 ≤ c.toNat ∧ c.toNat ≤ 57 := by
  simp only [Char.isDigit, Bool.and_eq_true, decide_eq_true_eq] at digit
  exact digit

theorem digitsValue_lt (digits : List Char) (numeric : ∀ c ∈ digits, c.isDigit = true) :
    digitsValue digits < Nat.pow 10 digits.length := by
  have from_ : ∀ n, digits.foldl (fun n c => 10 * n + (c.toNat - '0'.toNat)) n < (n + 1) * 10 ^ digits.length := by
    induction digits with
    | nil => intro n; simp
    | cons c rest ih =>
      intro n
      obtain ⟨first, numeric⟩ := List.forall_mem_cons.mp numeric
      have digit : c.toNat - '0'.toNat ≤ 9 := Nat.sub_le_sub_right (digit_range first).2 48
      calc rest.foldl _ (10 * n + (c.toNat - '0'.toNat))
          < (10 * n + (c.toNat - '0'.toNat) + 1) * 10 ^ rest.length := ih numeric _
        _ ≤ ((n + 1) * 10) * 10 ^ rest.length := Nat.mul_le_mul_right _ (by omega)
        _ = (n + 1) * 10 ^ (c :: rest).length := by rw [List.length_cons, Nat.pow_succ', Nat.mul_assoc]
  simpa [digitsValue] using from_ 0

theorem digits_natText (n : Nat) : ∀ c ∈ (natText n).toList, c.isDigit = true := by
  rw [natText, String.toList_ofList]
  exact fun c held => Nat.isDigit_of_mem_toDigits (by decide) (by decide) held

theorem natText_injective {m n : Nat} (same : natText m = natText n) : m = n := by
  have digits : Nat.toDigits 10 m = Nat.toDigits 10 n := by
    simpa only [natText, String.toList_ofList] using congrArg String.toList same
  rw [← Nat.ofDigitChars_ten_toDigits (n := m), digits, Nat.ofDigitChars_ten_toDigits]

theorem intText_of_nonneg (natural : 0 ≤ n) : intText n = natText n.natAbs :=
  if_neg (Int.not_lt.mpr natural)

theorem toList_intText_of_neg (negative : n < 0) : (intText n).toList = '-' :: (natText n.natAbs).toList := by
  rw [intText, if_pos negative, String.toList_append]
  rfl

theorem minus_or_digit_of_mem_intText (held : c ∈ (intText n).toList) : c = '-' ∨ c.isDigit = true := by
  rcases Int.lt_or_le n 0 with negative | natural
  · rw [toList_intText_of_neg negative, List.mem_cons] at held
    exact held.imp_right (digits_natText _ c)
  · rw [intText_of_nonneg natural] at held
    exact .inr (digits_natText _ c held)

theorem upper_eq_intText {text : String} : Text.upper text = intText n ↔ text = intText n := by
  have low : ∀ c ∈ (intText n).toList, c.toNat ≤ 57 := by
    intro c held
    rcases minus_or_digit_of_mem_intText held with rfl | digit
    · decide
    · exact (digit_range digit).2
  constructor
  · exact Text.eq_of_upper_digits low
  · rintro rfl
    exact Text.upper_of_digits low

theorem intText_injective {m : Int} (same : intText m = intText n) : m = n := by
  have apart : ∀ {m n : Int}, m < 0 → 0 ≤ n → intText m ≠ intText n := by
    intro m n negative natural same
    have minus := digits_natText n.natAbs '-' (by
      rw [← intText_of_nonneg natural, ← same, toList_intText_of_neg negative]
      exact List.mem_cons_self)
    cases minus
  rcases Int.lt_or_le m 0 with first | first <;> rcases Int.lt_or_le n 0 with second | second
  · have texts := congrArg String.toList same
    rw [toList_intText_of_neg first, toList_intText_of_neg second] at texts
    have sizes := natText_injective (String.toList_inj.mp (List.cons.inj texts).2)
    omega
  · exact absurd same (apart first second)
  · exact absurd same.symm (apart second first)
  · rw [intText_of_nonneg first, intText_of_nonneg second] at same
    have sizes := natText_injective same
    omega

def Scientific.Large (d : Scientific) : Prop :=
  1000 * Nat.pow 10 (-d.exponent).toNat ≤ d.digits * Nat.pow 10 d.exponent.toNat

theorem Scientific.Large.length_text (large : d.Large) : 3 < d.text.toList.length := by
  obtain ⟨digits, exponent⟩ := d
  simp only [Large, Nat.pow_eq] at large
  have length : ∀ k, 0 < k → 10 ^ k ≤ digits → k < (Nat.toDigits 10 digits).length := fun k some least =>
    Nat.lt_of_not_le fun short => Nat.not_lt_of_le least ((Nat.length_toDigits_le_iff (by decide) some).mp short)
  rcases Int.lt_or_le exponent 0 with negative | natural
  · rw [Int.toNat_of_nonpos (Int.le_of_lt negative), Nat.pow_zero, Nat.mul_one] at large
    have long := length ((-exponent).toNat + 3) (by omega) (by rw [Nat.pow_add]; omega)
    simp only [text, if_neg (Int.not_le.mpr negative), String.toList_ofList, List.length_append, List.length_cons,
      List.length_take, List.length_drop, List.length_replicate]
    omega
  · rw [Int.toNat_of_nonpos (by omega), Nat.pow_zero] at large
    have some : digits ≠ 0 := by
      rintro rfl
      omega
    simp only [text, if_pos natural, if_neg some, String.toList_ofList, List.length_append, List.length_replicate]
    have least : 1 ≤ (Nat.toDigits 10 digits).length := Nat.length_toDigits_pos
    by_cases short : exponent.toNat < 3
    · have long := length (3 - exponent.toNat) (by omega)
      have cases : exponent.toNat = 0 ∨ exponent.toNat = 1 ∨ exponent.toNat = 2 := by omega
      rcases cases with is | is | is <;> rw [is] at large long ⊢ <;> have := long (by omega) <;> omega
    · omega

theorem Scientific.Large.strip (large : d.Large) (fuel : Nat) : (Scientific.strip fuel d).Large := by
  induction fuel generalizing d with
  | zero => exact large
  | succ fuel ih =>
    rw [Scientific.strip]
    split
    next shorter =>
      apply ih
      obtain ⟨k, is⟩ : ∃ k : Nat, d.exponent = -(k + 1 : Nat) := ⟨(-d.exponent).toNat - 1, by omega⟩
      have before : (-d.exponent).toNat = k + 1 := by omega
      have after : (-(d.exponent + 1)).toNat = k := by omega
      simp only [Large, Nat.pow_eq, before, after, Int.toNat_of_nonpos (show d.exponent ≤ 0 by omega),
        Int.toNat_of_nonpos (show d.exponent + 1 ≤ 0 by omega), Nat.pow_succ, Nat.pow_zero, Nat.mul_one] at large ⊢
      omega
    next => exact large

theorem large_of_onGrid {basin : Basin} {value : Ratio} {unit : Int} (whole : basin.low.den = 1)
    (least : 1000 ≤ basin.low.num) (found : onGrid basin value unit = some d) : d.Large := by
  have fits : ∀ n, basin.holds ⟨n * (Ratio.scaled 1 10 unit).num, (Ratio.scaled 1 10 unit).den⟩ = true →
      Scientific.Large ⟨n, unit⟩ := by
    intro n holds
    have above : basin.low.num * (Ratio.scaled 1 10 unit).den ≤ n * (Ratio.scaled 1 10 unit).num := by
      simp only [Basin.holds, Ratio.le, Ratio.lt, whole, Nat.mul_one] at holds
      split at holds <;> simp only [Bool.and_eq_true, decide_eq_true_eq] at holds <;> omega
    have enough := Nat.le_trans (Nat.mul_le_mul_right _ least) above
    simp only [Scientific.Large, Nat.pow_eq]
    rcases Int.lt_or_le unit 0 with negative | natural
    · simpa [Ratio.scaled, Int.not_le.mpr negative, Int.toNat_of_nonpos (Int.le_of_lt negative)] using enough
    · simpa [Ratio.scaled, natural, Int.toNat_of_nonpos (show -unit ≤ 0 by omega)] using enough
  simp only [onGrid] at found
  split at found
  next first second =>
    cases found
    split
    · exact fits _ second
    · exact fits _ (Bool.and_eq_true_iff.mp first).2
  next first _ =>
    cases found
    exact fits _ (Bool.and_eq_true_iff.mp first).2
  next _ second =>
    cases found
    exact fits _ second
  next => cases found

theorem large_shortest {b : Binary} (mantissa : 1000 ≤ b.mantissa) (exponent : 2 ≤ b.exponent) : b.shortest.Large := by
  rw [Binary.shortest, if_neg (by omega)]
  apply Scientific.Large.strip
  have low : b.basin.low = ⟨(4 * b.mantissa - (if b.tight then 1 else 2)) * Nat.pow 2 (b.exponent - 2).toNat, 1⟩ :=
    if_pos (by omega)
  have positive : 0 < Nat.pow 2 (b.exponent - 2).toNat := Nat.pow_pos (by decide)
  have least : 1000 ≤ b.basin.low.num := by
    rw [low]
    refine Nat.le_trans ?_ (Nat.le_mul_of_pos_right _ positive)
    split <;> omega
  cases found : (List.range 17).findSome? fun n =>
      onGrid b.basin (Ratio.scaled b.mantissa 2 b.exponent) (magnitude (Ratio.scaled b.mantissa 2 b.exponent) - (n + 1 : Nat)) with
  | none => simpa [found, Scientific.Large] using mantissa
  | some d =>
    obtain ⟨n, -, is⟩ := List.exists_of_findSome?_eq_some found
    rw [Option.getD_some]
    exact large_of_onGrid (by rw [low]) least is

/-- An integral number that is beyond the integers has a long text. -/
theorem length_floatText {x : Float} (integral : floatInteger? x = some n) (huge : Nat.pow 2 63 ≤ n.natAbs) :
    3 < (floatText x).toList.length := by
  unfold floatInteger? at integral
  split at integral
  next negative mantissa exponent tight reading =>
    have shape : mantissa < 2 ^ 53 ∧ (exponent < 0 ∨ 1000 ≤ mantissa) := by
      have fraction : x.toBits.toNat % Nat.pow 2 52 < 2 ^ 52 := Nat.mod_lt _ (by decide)
      have read := reading
      simp only [Reading.ofFloat] at read
      split at read
      · split at read <;> cases read
      · split at read <;> cases read
        · exact ⟨Nat.lt_trans fraction (by decide), .inl (by decide)⟩
        · exact ⟨Nat.add_lt_add_right fraction _, .inr (Nat.le_trans (by decide) (Nat.le_add_left ..))⟩
    obtain ⟨size, is, rfl⟩ := Option.map_eq_some_iff.mp integral
    have huge : 2 ^ 63 ≤ size := by
      cases negative <;> simpa using huge
    have large : (Binary.mk mantissa exponent tight).shortest.Large := by
      split at is
      next natural =>
        cases is
        refine large_shortest (shape.2.resolve_left (Int.not_lt.mpr natural)) (Int.not_lt.mp fun (less : exponent < 2) => ?_)
        have few : exponent.toNat ≤ 1 := by omega
        have most := Nat.mul_le_mul_left mantissa (Nat.pow_le_pow_right (show 0 < 2 by decide) few)
        exact absurd (Nat.le_trans huge most) (by omega)
      next =>
        split at is
        · cases is
          have most := Nat.div_le_self mantissa (Nat.pow 2 (-exponent).toNat)
          omega
        · cases is
    simp only [floatText, reading, String.toList_append, List.length_append]
    exact Nat.lt_of_lt_of_le large.length_text (Nat.le_add_left ..)
  next => cases integral

end Decimal

namespace Key

variable {key : Key} {n : Int64}
variable {name : String} {value : Nat}

theorem beq_ofInt_iff : (key == ofInt n) = true ↔ key.name = Decimal.intText n.toInt := by
  rw [beq_iff, key.folded_eq, (ofInt n).folded_eq, show (ofInt n).name = Decimal.intText n.toInt from rfl,
    Decimal.upper_eq_intText.mpr rfl, Decimal.upper_eq_intText]

theorem ofInt_beq_iff {m : Int64} : (ofInt m == ofInt n) = true ↔ m = n := by
  rw [beq_ofInt_iff]
  constructor
  · intro same
    exact Int64.toInt_inj.mp (Decimal.intText_injective same)
  · rintro rfl
    rfl

def ShortDigits (name : String) : Prop :=
  1 ≤ name.toList.length ∧ name.toList.length ≤ 3 ∧ ∀ c ∈ name.toList, c.isDigit = true

theorem shortNumber?_eq_some_iff :
    shortNumber? name = some value ↔ ShortDigits name ∧ Decimal.digitsValue name.toList = value := by
  simp [shortNumber?, ShortDigits]

theorem shortDigits_natText (small : value < 1000) : ShortDigits (Decimal.natText value) := by
  refine ⟨?_, ?_, Decimal.digits_natText value⟩ <;> rw [Decimal.natText, String.toList_ofList]
  · exact Nat.length_toDigits_pos
  · exact (Nat.length_toDigits_le_iff (by decide) (by decide)).mpr small

theorem shortNumber?_natText (small : value < 1000) : shortNumber? (Decimal.natText value) = some value := by
  refine shortNumber?_eq_some_iff.mpr ⟨shortDigits_natText small, ?_⟩
  rw [Decimal.natText, String.toList_ofList]
  exact Nat.ofDigitChars_ten_toDigits

theorem lt_of_shortNumber? (short : shortNumber? name = some value) : value < 1000 := by
  obtain ⟨⟨-, most, digits⟩, rfl⟩ := shortNumber?_eq_some_iff.mp short
  calc Decimal.digitsValue name.toList < 10 ^ name.toList.length := Decimal.digitsValue_lt _ digits
    _ ≤ 10 ^ 3 := Nat.pow_le_pow_right (by decide) most

theorem toInt_ofNat (small : value < 1000) : (Int64.ofNat value).toInt = value :=
  Int64.toInt_ofNat_of_lt (by omega)

/-- A key that is made of a name, of an integer or of an integral number. -/
inductive Built : Key → Prop where
  | name (name : String) : Built (.of name)
  | integer (n : Int64) : Built (.ofInt n)
  | float {x : Float} {n : Int} (integral : Decimal.floatInteger? x = some n) : Built (.ofFloat x)

theorem short_of_beq_ofInt (natural : 0 ≤ n.toInt) (small : n.toInt < 1000) (same : (key == ofInt n) = true) :
    ShortDigits key.name := by
  rw [beq_ofInt_iff.mp same, Decimal.intText_of_nonneg natural]
  exact shortDigits_natText (by omega)

/-- A key either is that of an integer, or carries no number and differs from all numbers below a thousand. -/
theorem Built.number (built : key.Built) :
    (∃ n, key = .ofInt n) ∨ (key.number = none ∧ ∀ n : Int64, 0 ≤ n.toInt → n.toInt < 1000 → (key == ofInt n) = false) := by
  cases built with
  | integer n => exact .inl ⟨n, rfl⟩
  | name name =>
    rw [Key.of]
    cases short : shortNumber? name with
    | some n => exact .inl ⟨_, rfl⟩
    | none =>
      refine .inr ⟨rfl, fun n natural small => Bool.eq_false_iff.mpr fun same => ?_⟩
      have digits : ShortDigits name := short_of_beq_ofInt natural small same
      rw [shortNumber?_eq_some_iff.mpr ⟨digits, rfl⟩] at short
      cases short
  | @float x n integral =>
    rw [ofFloat, integral]
    dsimp only
    split
    · exact .inl ⟨_, rfl⟩
    next huge =>
      refine .inr ⟨rfl, fun m natural small => Bool.eq_false_iff.mpr fun same => ?_⟩
      have long := Decimal.length_floatText integral (Nat.le_of_not_lt huge)
      exact Nat.not_lt_of_le (short_of_beq_ofInt natural small same).2.1 long

/-- Equal keys carry the same number if one carries a number below a thousand. -/
theorem Built.number_eq {other : Key} (built : key.Built) (others : other.Built) (same : (key == other) = true)
    (carries : key.number = some n) (natural : 0 ≤ n.toInt) (small : n.toInt < 1000) : other.number = some n := by
  obtain ⟨m, rfl⟩ | ⟨plain, -⟩ := built.number
  · cases carries
    obtain ⟨k, rfl⟩ | ⟨-, apart⟩ := others.number
    · rw [ofInt_beq_iff.mp same]
      rfl
    · exact absurd (BEq.symm same) (Bool.eq_false_iff.mp (apart n natural small))
  · rw [plain] at carries
    cases carries

end Key

end ScopeEngine
