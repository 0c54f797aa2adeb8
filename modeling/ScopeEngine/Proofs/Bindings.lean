import ScopeEngine.Bindings

/-! Ordered bindings as finite maps. Keys that differ only in spelling are the same key, so every law is stated up to
`==`. No law needs the keys of a map to be distinct, but erasing a key only makes it unbound if it is bound once. -/

namespace ScopeEngine

theorem Key.beq_iff {a b : Key} : (a == b) = true ↔ a.folded = b.folded :=
  beq_iff_eq (α := String)

instance : EquivBEq Key where
  rfl := Key.beq_iff.mpr rfl
  symm := fun same => Key.beq_iff.mpr (Key.beq_iff.mp same).symm
  trans := fun first second => Key.beq_iff.mpr ((Key.beq_iff.mp first).trans (Key.beq_iff.mp second))

namespace Bindings

variable {α : Type}

variable {b : Bindings α} {entry : Key × α} {key other : Key} {value : α}

theorem find?_congr (b : Bindings α) (same : (key == other) = true) : b.find? key = b.find? other := by
  have alike : (fun entry : Key × α => entry.1 == key) = fun entry => entry.1 == other := by
    funext entry
    exact BEq.congr_right same
  simp only [find?, alike]

theorem find?_eq_none : b.find? key = none ↔ ∀ entry ∈ b.entries, (entry.1 == key) = false := by
  simp [find?, List.find?_eq_none]

theorem entries_insert_of_unbound (unbound : b.find? key = none) (value : α) :
    (b.insert key value).entries = b.entries ++ [(key, value)] := by
  obtain ⟨entries⟩ := b
  have others := find?_eq_none.mp unbound
  clear unbound
  simp only [insert] at others ⊢
  induction entries with
  | nil => rfl
  | cons entry rest ih =>
    rw [insertEntry, if_neg (by simp [others entry List.mem_cons_self]),
      ih fun entry held => others entry (List.mem_cons_of_mem _ held)]
    rfl

/-- The entry that a bound key stands for, between those before it and those after it. -/
structure Split (b : Bindings α) (key : Key) (front : List (Key × α)) (bound : Key) (old : α) (back : List (Key × α)) : Prop where
  same : (bound == key) = true
  others : ∀ entry ∈ front, (entry.1 == key) = false
  entries : b.entries = front ++ (bound, old) :: back

theorem split_of_find? {old : α} (found : b.find? key = some old) :
    ∃ front bound back, b.Split key front bound old back := by
  obtain ⟨⟨bound, _⟩, there, rfl⟩ := Option.map_eq_some_iff.mp found
  obtain ⟨same, front, back, is, others⟩ := List.find?_eq_some_iff_append.mp there
  exact ⟨front, bound, back, same, by simpa using others, is⟩

namespace Split

variable {b : Bindings α} {key : Key} {front back : List (Key × α)} {bound : Key} {old : α}
  (split : b.Split key front bound old back)
include split

theorem entries_insert (value : α) : (b.insert key value).entries = front ++ (bound, value) :: back := by
  obtain ⟨entries⟩ := b
  obtain ⟨same, others, rfl⟩ := split
  simp only [insert]
  induction front with
  | nil => rw [List.nil_append, insertEntry, if_pos same, List.nil_append]
  | cons entry rest ih =>
    rw [List.cons_append, insertEntry, if_neg (by simp [others entry List.mem_cons_self]),
      ih fun entry held => others entry (List.mem_cons_of_mem _ held)]
    rfl

theorem entries_erase : (b.erase key).entries = front ++ back := by
  obtain ⟨same, others, is⟩ := split
  rw [erase, is, List.eraseP_append_right _ (by simpa using others), List.eraseP_cons_of_pos (by simpa using same)]

end Split

/-- A new key comes last, with its value; a bound one gets the value where it stands. -/
theorem insert_cases (b : Bindings α) (key : Key) (value : α) :
    (b.find? key = none ∧ (b.insert key value).entries = b.entries ++ [(key, value)]) ∨
      ∃ front bound old back, b.find? key = some old ∧ b.Split key front bound old back ∧
        (b.insert key value).entries = front ++ (bound, value) :: back := by
  cases found : b.find? key with
  | none => exact .inl ⟨rfl, entries_insert_of_unbound found value⟩
  | some old =>
    obtain ⟨front, bound, back, split⟩ := split_of_find? found
    exact .inr ⟨front, bound, old, back, rfl, split, split.entries_insert value⟩

theorem find?_insert (b : Bindings α) (key other : Key) (value : α) :
    (b.insert key value).find? other = if key == other then some value else b.find? other := by
  obtain ⟨entries⟩ := b
  simp only [insert, find?]
  induction entries with
  | nil => cases same : key == other <;> simp [insertEntry, same]
  | cons entry rest ih =>
    obtain ⟨bound, old⟩ := entry
    cases here : bound == key with
    | true =>
      have alike : (bound == other) = (key == other) := BEq.congr_left here
      cases same : key == other <;> simp [insertEntry, here, alike, same]
    | false =>
      cases there : bound == other with
      | true =>
        have apart : (key == other) = false := by
          cases same : key == other with
          | false => rfl
          | true => rw [← BEq.congr_right same, here] at there; cases there
        simp [insertEntry, here, there, apart]
      | false => simpa [insertEntry, here, there] using ih

@[simp] theorem find?_insert_self (b : Bindings α) (key : Key) (value : α) :
    (b.insert key value).find? key = some value := by
  rw [find?_insert, if_pos (BEq.refl key)]

theorem find?_erase_of_ne (b : Bindings α) (different : (key == other) = false) :
    (b.erase key).find? other = b.find? other := by
  obtain ⟨entries⟩ := b
  simp only [erase, find?]
  induction entries with
  | nil => rfl
  | cons entry rest ih =>
    obtain ⟨bound, old⟩ := entry
    cases here : bound == key with
    | true =>
      have apart : (bound == other) = false := by rw [BEq.congr_left here, different]
      simp [here, apart]
    | false => cases there : bound == other <;> simp [here, there, ih]

def Single (b : Bindings α) (key : Key) : Prop :=
  (b.entries.filter fun entry => entry.1 == key).length ≤ 1

theorem Single.congr (single : b.Single key) (same : (key == other) = true) : b.Single other := by
  have alike : (fun entry : Key × α => entry.1 == key) = fun entry => entry.1 == other := by
    funext entry
    exact BEq.congr_right same
  rwa [Single, ← alike]

theorem single_of_unbound (unbound : b.find? key = none) : b.Single key := by
  have none : (b.entries.filter fun entry => entry.1 == key) = [] := by
    simpa [List.filter_eq_nil_iff] using find?_eq_none.mp unbound
  simp [Single, none]

theorem Single.insert (single : b.Single other) (key : Key) (value : α) : (b.insert key value).Single other := by
  obtain ⟨unbound, is⟩ | ⟨front, bound, old, back, -, split, is⟩ := b.insert_cases key value
  · cases same : key == other with
    | false => simpa [Single, is, same] using single
    | true =>
      have none : (b.entries.filter fun entry => entry.1 == other) = [] := by
        simpa [List.filter_eq_nil_iff] using find?_eq_none.mp ((find?_congr b same).symm.trans unbound)
      simp [Single, is, none, same]
  · rw [Single, split.entries] at single
    cases there : bound == other <;> simpa [Single, is, there] using single

theorem Single.sublist {fewer : Bindings α} (single : b.Single key) (part : fewer.entries.Sublist b.entries) :
    fewer.Single key :=
  Nat.le_trans (part.filter fun entry => entry.1 == key).length_le single

theorem sublist_erase (b : Bindings α) (key : Key) : (b.erase key).entries.Sublist b.entries :=
  List.eraseP_sublist

theorem Single.erase (single : b.Single other) (key : Key) : (b.erase key).Single other :=
  single.sublist (b.sublist_erase key)

theorem Single.find?_of_mem (single : b.Single key) (member : entry ∈ b.entries) (same : (entry.1 == key) = true) :
    b.find? key = some entry.2 := by
  have answers : entry ∈ b.entries.filter fun entry => entry.1 == key := List.mem_filter.mpr ⟨member, same⟩
  obtain ⟨only, alone⟩ : ∃ only, (b.entries.filter fun entry => entry.1 == key) = [only] := by
    apply List.length_eq_one_iff.mp
    have some := List.length_pos_of_mem answers
    rw [Single] at single
    omega
  rw [alone, List.mem_singleton] at answers
  rw [find?, ← List.head?_filter, alone, answers]
  rfl

theorem Single.find?_erase (single : b.Single key) : (b.erase key).find? key = none := by
  obtain ⟨entries⟩ := b
  simp only [Single, Bindings.erase, find?] at single ⊢
  induction entries with
  | nil => rfl
  | cons entry rest ih =>
    obtain ⟨bound, old⟩ := entry
    cases here : bound == key with
    | true =>
      have alone : (rest.filter fun entry => entry.1 == key) = [] := by simpa [here] using single
      simpa [here, List.find?_eq_none, List.filter_eq_nil_iff] using alone
    | false => simpa [here] using ih (by simpa [here] using single)

theorem mem_values_of_find? (found : b.find? key = some value) : value ∈ b.values := by
  simp only [find?, Option.map_eq_some_iff] at found
  obtain ⟨entry, present, rfl⟩ := found
  exact List.mem_map.mpr ⟨entry, List.mem_of_find?_eq_some present, rfl⟩

theorem mem_entries_of_find? (found : b.find? key = some value) :
    ∃ entry ∈ b.entries, (entry.1 == key) = true ∧ entry.2 = value := by
  simp only [find?, Option.map_eq_some_iff] at found
  obtain ⟨entry, present, same⟩ := found
  have alike := List.find?_some present
  exact ⟨entry, List.mem_of_find?_eq_some present, alike, same⟩

theorem mem_entries_of_erase (present : entry ∈ (b.erase key).entries) : entry ∈ b.entries :=
  List.mem_of_mem_eraseP present

theorem mem_entries_of_insert (present : entry ∈ (b.insert key value).entries) :
    entry ∈ b.entries ∨ ((key == entry.1) = true ∧ entry.2 = value) := by
  obtain ⟨-, is⟩ | ⟨front, bound, old, back, -, split, is⟩ := b.insert_cases key value
  · rw [is, List.mem_append, List.mem_singleton] at present
    exact present.imp_right fun new => by simp [new]
  · rw [is, List.mem_append, List.mem_cons] at present
    rw [split.entries, List.mem_append, List.mem_cons]
    rcases present with front | rfl | back
    · exact .inl (.inl front)
    · exact .inr ⟨BEq.symm split.same, rfl⟩
    · exact .inl (.inr (.inr back))

theorem mem_keys_insert (present : other ∈ (b.insert key value).keys) : other = key ∨ other ∈ b.keys := by
  obtain ⟨-, is⟩ | ⟨front, bound, old, back, -, split, is⟩ := b.insert_cases key value
  · simpa [keys, is, or_comm] using present
  · exact .inr (by simpa [keys, is, split.entries] using present)

theorem mem_keys_of_erase (present : other ∈ (b.erase key).keys) : other ∈ b.keys := by
  obtain ⟨entry, member, same⟩ := List.mem_map.mp present
  exact List.mem_map.mpr ⟨entry, List.mem_of_mem_eraseP member, same⟩

theorem mem_values_of_erase (present : value ∈ (b.erase key).values) : value ∈ b.values := by
  obtain ⟨entry, member, same⟩ := List.mem_map.mp present
  exact List.mem_map.mpr ⟨entry, List.mem_of_mem_eraseP member, same⟩

theorem mem_values_insert (present : value ∈ b.values) (key : Key) (written : α) :
    value ∈ (b.insert key written).values ∨ b.find? key = some value := by
  obtain ⟨-, is⟩ | ⟨front, bound, old, back, found, split, is⟩ := b.insert_cases key written
  · exact .inl (by rw [values, is, List.map_append]; exact List.mem_append_left _ present)
  · simp only [values, split.entries, is, found, List.map_append, List.map_cons, List.mem_append, List.mem_cons,
      Option.some.injEq] at present ⊢
    grind

theorem mem_values_of_insert {written : α} (present : value ∈ (b.insert key written).values) :
    value = written ∨ value ∈ b.values := by
  obtain ⟨entry, member, rfl⟩ := List.mem_map.mp present
  exact (mem_entries_of_insert member).symm.imp (·.2) List.mem_map_of_mem

theorem erase_of_unbound (unbound : b.find? key = none) : b.erase key = b :=
  congrArg Bindings.mk (List.eraseP_of_forall_not fun entry held => by simp [find?_eq_none.mp unbound entry held])

theorem mem_values_erase (present : value ∈ b.values) (key : Key) :
    value ∈ (b.erase key).values ∨ b.find? key = some value := by
  cases found : b.find? key with
  | none => exact .inl (by rwa [erase_of_unbound found])
  | some old =>
    obtain ⟨front, bound, back, split⟩ := split_of_find? found
    simp only [values, split.entries, split.entries_erase, List.map_append, List.map_cons, List.mem_append, List.mem_cons,
      Option.some.injEq] at present ⊢
    grind

end Bindings

end ScopeEngine
