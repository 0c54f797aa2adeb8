import ScopeEngine.Proofs.Arguments.Numbers
import ScopeEngine.Proofs.Paths.Spelling

/-! The laws of keys. A name equals a number if it is the text of the number, or up to three digits of its value; and a
name equals every name that differs from it in case only, its full upper-casing included. -/

namespace ScopeEngine

namespace Decimal

theorem intText_eq_toString (n : Int) : intText n = toString n := by
  cases n with
  | ofNat n => rfl
  | negSucc n =>
    rw [intText, if_pos (Int.negSucc_lt_zero n)]
    rfl

end Decimal

namespace Key

variable {name : String} {n : Int64}

theorem of_shortDigits (short : ShortDigits name) : Key.of name = ofInt (Int64.ofNat (Decimal.digitsValue name.toList)) := by
  rw [Key.of, shortNumber?_eq_some_iff.mpr ⟨short, rfl⟩]

theorem of_not_shortDigits (long : ¬ ShortDigits name) : Key.of name = build name none := by
  cases number : shortNumber? name with
  | none => rw [Key.of, number]
  | some value => exact absurd (shortNumber?_eq_some_iff.mp number).1 long

theorem ofNat_digitsValue_eq_iff (short : ShortDigits name) :
    Int64.ofNat (Decimal.digitsValue name.toList) = n ↔ (Decimal.digitsValue name.toList : Int) = n.toInt := by
  rw [← Int64.toInt_inj, toInt_ofNat (lt_of_shortNumber? (shortNumber?_eq_some_iff.mpr ⟨short, rfl⟩))]

/-- A number that is written in digits only is not negative, so its digits are worth what it is. -/
theorem digitsValue_intText {n : Int} (digits : ∀ c ∈ (Decimal.intText n).toList, c.isDigit = true) :
    (Decimal.digitsValue (Decimal.intText n).toList : Int) = n := by
  rcases Int.lt_or_le n 0 with negative | natural
  · rw [Decimal.toList_intText_of_neg negative] at digits
    cases digits '-' List.mem_cons_self
  · have value : Decimal.digitsValue (Nat.toDigits 10 n.natAbs) = n.natAbs := Nat.ofDigitChars_ten_toDigits
    rw [Decimal.intText_of_nonneg natural, Decimal.natText, String.toList_ofList, value]
    omega

theorem of_beq_ofInt_iff : (Key.of name == ofInt n) = true ↔
    name = Decimal.intText n.toInt ∨ ShortDigits name ∧ (Decimal.digitsValue name.toList : Int) = n.toInt := by
  by_cases short : ShortDigits name
  · rw [of_shortDigits short, ofInt_beq_iff, ofNat_digitsValue_eq_iff short]
    constructor
    · intro value
      exact .inr ⟨short, value⟩
    · rintro (rfl | ⟨-, value⟩)
      · exact digitsValue_intText short.2.2
      · exact value
  · rw [of_not_shortDigits short, beq_ofInt_iff]
    constructor
    · exact .inl
    · rintro (text | ⟨digits, -⟩)
      · exact text
      · exact absurd digits short

theorem number_of_eq_some_iff : (Key.of name).number = some n ↔
    ShortDigits name ∧ (Decimal.digitsValue name.toList : Int) = n.toInt := by
  by_cases short : ShortDigits name
  · rw [of_shortDigits short, ← ofNat_digitsValue_eq_iff short]
    simp [ofInt, build, short]
  · rw [of_not_shortDigits short]
    simp [build, short]

theorem numeric_keys (name : String) (m n : Int64) :
    ((Key.of name == ofInt n) = true ↔
      name = toString n.toInt ∨ ShortDigits name ∧ (Decimal.digitsValue name.toList : Int) = n.toInt) ∧
    ((ofInt m == ofInt n) = true ↔ m = n) ∧
    ((Key.of name).isNumeric = true ↔ ShortDigits name) ∧
    ((Key.of name).number = some n ↔ ShortDigits name ∧ (Decimal.digitsValue name.toList : Int) = n.toInt) := by
  refine ⟨?_, ofInt_beq_iff, ?_, number_of_eq_some_iff⟩
  · rw [← Decimal.intText_eq_toString]
    exact of_beq_ofInt_iff
  · rw [isNumeric, Option.isSome_iff_exists]
    constructor
    · rintro ⟨value, carries⟩
      exact (number_of_eq_some_iff.mp carries).1
    · intro short
      exact ⟨_, by rw [of_shortDigits short]; rfl⟩

theorem shortDigits_upper_iff : ShortDigits (Text.upper name) ↔ ShortDigits name := by
  have same : ShortDigits (Text.upper name) ∨ ShortDigits name → Text.upper name = name := by
    rintro (⟨-, -, digits⟩ | ⟨-, -, digits⟩)
    · exact (Text.eq_of_upper_digits (fun c held => (Decimal.digit_range (digits c held)).2) rfl).symm
    · exact Text.upper_of_digits fun c held => (Decimal.digit_range (digits c held)).2
  constructor
  · intro short
    rwa [same (.inl short)] at short
  · intro short
    rwa [same (.inr short)]

theorem alike_upper (name : String) : (Key.of name).Alike (.of (Text.upper name)) := by
  by_cases short : ShortDigits name
  · rw [Text.upper_of_digits fun c held => (Decimal.digit_range (short.2.2 c held)).2]
    exact ⟨BEq.refl _, rfl⟩
  · rw [of_not_shortDigits short, of_not_shortDigits (mt shortDigits_upper_iff.mp short)]
    exact ⟨beq_iff.mpr (Text.upper_upper name).symm, rfl⟩

theorem of_folded (name : String) : (Key.of (Key.of name).folded == Key.of name) = true := by
  by_cases short : ShortDigits name
  · rw [of_shortDigits short, of_beq_ofInt_iff]
    exact .inl (Decimal.upper_eq_intText.mpr rfl)
  · rw [of_not_shortDigits short]
    have again := BEq.symm (alike_upper name).same
    rwa [of_not_shortDigits short] at again

theorem case_variants_are_alike (name : String) :
    (∀ other, Text.lower other = Text.lower name ∨ other = Text.upper name →
      (Key.of name).Alike (.of other) ∧ compare (Key.of name) (.of other) = .eq) ∧
    (Key.of (Key.of name).folded == Key.of name) = true := by
  refine ⟨fun other variant => ?_, of_folded name⟩
  have alike : (Key.of name).Alike (.of other) := by
    rcases variant with spelled | rfl
    · exact (alike_of_lower spelled).symm
    · exact alike_upper name
  refine ⟨alike, ?_⟩
  show compare (Key.of name).folded (Key.of other).folded = .eq
  rw [beq_iff.mp alike.same]
  exact Std.ReflOrd.compare_self

theorem case_variants_are_alike_strasse :
    "STRASSE 7B" = Text.upper "Straße 7b" ∧
    ((Key.of "Straße 7b").Alike (.of "STRASSE 7B") ∧ compare (Key.of "Straße 7b") (.of "STRASSE 7B") = .eq) ∧
    Text.lower "sTRAßE 7B" = Text.lower "Straße 7b" ∧ (Key.of "Straße 7b").Alike (.of "sTRAßE 7B") := by
  have upper : "STRASSE 7B" = Text.upper "Straße 7b" := by decide +kernel
  have lower : Text.lower "sTRAßE 7B" = Text.lower "Straße 7b" := by decide +kernel
  have variants := (case_variants_are_alike "Straße 7b").1
  exact ⟨upper, variants _ (.inr upper), lower, (variants _ (.inl lower)).1⟩

end Key

end ScopeEngine
