import ScopeEngine.Text.UpperCase

/-! Upper-case forms. No form holds a letter that has a form of its own, so upper-casing twice is upper-casing once. All
forms lie beyond the digits, so what is upper-cased into a number was that number before. -/

namespace ScopeEngine.Text

variable {c d : Char} {text other : String}

def CaseRun.forms (run : CaseRun) : List (Nat × List Nat) :=
  (List.range ((run.last - run.first) / run.step + 1)).map fun k =>
    (run.first + run.step * k, [run.target + run.step * k])

theorem CaseRun.mem_forms {run : CaseRun} {code upper : Nat} (is : run.upperOf? code = some upper) :
    (code, [upper]) ∈ run.forms := by
  rw [upperOf?] at is
  split at is
  next within =>
    obtain ⟨first, last, step⟩ := within
    cases is
    have whole : run.step * ((code - run.first) / run.step) = code - run.first :=
      Nat.mul_div_cancel' (Nat.dvd_of_mod_eq_zero step)
    refine List.mem_map.mpr ⟨(code - run.first) / run.step, List.mem_range.mpr (Nat.lt_succ_of_le ?_), ?_⟩
    · exact Nat.div_le_div_right (Nat.sub_le_sub_right last _)
    · rw [whole, Nat.add_sub_cancel' first]
  next => cases is

def asciiLetters : CaseRun := ⟨97, 122, 1, 65⟩

def upperForms : List (Nat × List Nat) :=
  (asciiLetters :: caseRuns).flatMap CaseRun.forms ++ caseExpansions

theorem upperChar_cases (c : Char) :
    upperChar c = [c] ∨ ∃ form, (c.toNat, form) ∈ upperForms ∧ upperChar c = form.map Char.ofNat := by
  have listed : ∀ {run code upper}, run ∈ asciiLetters :: caseRuns → run.upperOf? code = some upper →
      (code, [upper]) ∈ upperForms := fun held is =>
    List.mem_append_left _ (List.mem_flatMap.mpr ⟨_, held, CaseRun.mem_forms is⟩)
  by_cases ascii : c.toNat < 128
  · have each : ∀ n : Fin 128, upperChar (Char.ofNat n) =
        [Char.ofNat ((asciiLetters.upperOf? n).getD n)] := by decide
    have here := each ⟨c.toNat, ascii⟩
    rw [Char.ofNat_toNat] at here
    cases found : asciiLetters.upperOf? c.toNat with
    | none => exact .inl (by rw [here, found, Option.getD_none, Char.ofNat_toNat])
    | some upper => exact .inr ⟨[upper], listed List.mem_cons_self found, by rw [here, found]; rfl⟩
  · rw [upperChar, if_neg ascii, upperCodes]
    split
    next upper found =>
      obtain ⟨run, held, is⟩ := List.exists_of_findSome?_eq_some found
      exact .inr ⟨_, listed (List.mem_cons_of_mem _ held) is, rfl⟩
    next =>
      split
      next codes found =>
        obtain ⟨front, back, is, -⟩ := List.lookup_eq_some_iff.mp found
        exact .inr ⟨codes, List.mem_append_right _ (by rw [is]; simp), rfl⟩
      next => exact .inl (by rw [List.map_singleton, Char.ofNat_toNat])

def codeSet (codes : List Nat) : Nat :=
  codes.foldr (fun code set => set ||| 1 <<< code) 0

theorem testBit_codeSet {codes : List Nat} {code : Nat} (held : code ∈ codes) : (codeSet codes).testBit code = true := by
  induction codes with
  | nil => cases held
  | cons first rest ih =>
    rw [codeSet, List.foldr_cons, ← codeSet, Nat.testBit_or, Bool.or_eq_true]
    rcases List.mem_cons.mp held with rfl | held
    · exact .inr (by simp [Nat.testBit_shiftLeft])
    · exact .inl (ih held)

-- Comparing every form with every letter is slow; as sets of bits the two are compared at once.
theorem upperForms_settled {letter : Nat} {form other : List Nat} (first : (letter, form) ∈ upperForms) {code : Nat}
    (made : code ∈ form) : (code, other) ∉ upperForms := by
  intro second
  have apart : codeSet (upperForms.map Prod.fst) &&& codeSet (upperForms.flatMap Prod.snd) = 0 := by decide +kernel
  have letters : code ∈ upperForms.map Prod.fst := List.mem_map_of_mem second
  have forms : code ∈ upperForms.flatMap Prod.snd := List.mem_flatMap.mpr ⟨(letter, form), first, made⟩
  have both := congrArg (Nat.testBit · code) apart
  simp only [Nat.testBit_and, testBit_codeSet letters, testBit_codeSet forms, Nat.zero_testBit] at both
  cases both

theorem toNat_ofNat {code : Nat} (valid : code.isValidChar) : (Char.ofNat code).toNat = code := by
  rw [Char.ofNat, dif_pos valid]
  rfl

theorem upperForms_beyond_digits : ∀ form ∈ upperForms,
    57 < form.1 ∧ form.2 ≠ [] ∧ ∀ code ∈ form.2, 57 < code ∧ code.isValidChar := by
  decide +kernel

theorem upperChar_of_mem_upperChar (made : d ∈ upperChar c) : upperChar d = [d] := by
  rcases upperChar_cases c with same | ⟨form, listed, is⟩
  · rw [same, List.mem_singleton] at made
    rw [made, same]
  · rw [is] at made
    obtain ⟨code, held, rfl⟩ := List.mem_map.mp made
    have code_eq : (Char.ofNat code).toNat = code :=
      toNat_ofNat ((upperForms_beyond_digits _ listed).2.2 code held).2
    refine (upperChar_cases _).resolve_right ?_
    rintro ⟨other, again, -⟩
    rw [code_eq] at again
    exact upperForms_settled listed held again

theorem upper_of_unchanged (unchanged : ∀ c ∈ text.toList, upperChar c = [c]) : upper text = text := by
  have kept : ∀ cs : List Char, (∀ c ∈ cs, upperChar c = [c]) → cs.flatMap upperChar = cs := by
    intro cs unchanged
    induction cs with
    | nil => rfl
    | cons c cs ih =>
      rw [List.flatMap_cons, unchanged c List.mem_cons_self, ih fun d held => unchanged d (List.mem_cons_of_mem c held)]
      rfl
  rw [upper, kept _ unchanged, String.ofList_toList]

theorem mem_upper : d ∈ (upper text).toList ↔ ∃ c ∈ text.toList, d ∈ upperChar c := by
  rw [upper, String.toList_ofList, List.mem_flatMap]

theorem upper_upper (text : String) : upper (upper text) = upper text := by
  refine upper_of_unchanged fun d made => ?_
  obtain ⟨c, -, made⟩ := mem_upper.mp made
  exact upperChar_of_mem_upperChar made

theorem upper_of_digits (low : ∀ c ∈ text.toList, c.toNat ≤ 57) : upper text = text := by
  refine upper_of_unchanged fun c held => (upperChar_cases c).resolve_right ?_
  rintro ⟨form, listed, -⟩
  exact Nat.not_lt_of_le (low c held) (upperForms_beyond_digits _ listed).1

theorem eq_of_upper_digits (low : ∀ c ∈ text.toList, c.toNat ≤ 57) (same : upper other = text) : other = text := by
  subst same
  refine (upper_of_unchanged fun c held => (upperChar_cases c).resolve_right ?_).symm
  rintro ⟨form, listed, is⟩
  obtain ⟨-, some, codes⟩ := upperForms_beyond_digits _ listed
  obtain ⟨code, made⟩ := List.exists_mem_of_ne_nil _ some
  obtain ⟨beyond, valid⟩ := codes code made
  have within := low (Char.ofNat code) (mem_upper.mpr ⟨c, held, by rw [is]; exact List.mem_map_of_mem made⟩)
  rw [toNat_ofNat valid] at within
  exact Nat.not_lt_of_le within beyond

end ScopeEngine.Text
