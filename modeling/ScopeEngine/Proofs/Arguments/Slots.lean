import ScopeEngine.Proofs.Bindings
import ScopeEngine.Scope

/-! Places in scopes. A key stands for the entry at the place that its number names, in a positional scope, and else for
itself. So what a number stands for changes when the scope grows past it. -/

namespace ScopeEngine

namespace Scope

variable {scope written : Scope} {key other : Key} {value : Value} {old : Option Value}

def entryAt? (scope : Scope) (key : Key) : Option (Key × Value) :=
  match scope.kind, key.number with
  | .positional, some n => if 1 ≤ n.toInt then scope.bindings.entries[n.toInt.toNat - 1]? else none
  | _, _ => none

theorem realKey_eq (scope : Scope) (key : Key) : scope.realKey key = ((scope.entryAt? key).map (·.1)).getD key := by
  cases kind : scope.kind with
  | positional =>
    cases number : key.number with
    | none => simp [realKey, entryAt?, kind, number]
    | some n =>
      simp only [realKey, entryAt?, kind, number]
      split
      · cases scope.bindings.entries[n.toInt.toNat - 1]? <;> rfl
      · rfl
  | generic | partlyLocked => simp [realKey, entryAt?, kind]

theorem realKey_of_unplaced (unplaced : scope.entryAt? key = none) : scope.realKey key = key := by
  rw [realKey_eq, unplaced]
  rfl

/-- Places are counted in positional scopes only, from one to the size. -/
theorem entryAt?_eq_some {entry : Key × Value} : scope.entryAt? key = some entry ↔ scope.kind = .positional ∧
    ∃ n, key.number = some n ∧ 1 ≤ n.toInt ∧ scope.bindings.entries[n.toInt.toNat - 1]? = some entry := by
  unfold entryAt?
  split
  next n positional number => simp [positional, number]
  next none =>
    simp only [reduceCtorEq, false_iff]
    rintro ⟨positional, n, number, -⟩
    exact none n positional number

theorem entryAt?_of_plain (plain : key.number = none) : scope.entryAt? key = none := by
  rw [Option.eq_none_iff_forall_ne_some]
  intro entry placed
  obtain ⟨-, n, number, -⟩ := entryAt?_eq_some.mp placed
  rw [plain] at number
  cases number

theorem mem_of_entryAt? {entry : Key × Value} (placed : scope.entryAt? key = some entry) : entry ∈ scope.bindings.entries := by
  obtain ⟨-, n, -, -, there⟩ := entryAt?_eq_some.mp placed
  exact List.mem_of_getElem? there

section

variable (same : (key == other) = true) (placed : scope.entryAt? key = scope.entryAt? other)
include same placed

theorem realKey_congr : (scope.realKey key == scope.realKey other) = true := by
  rw [realKey_eq, realKey_eq, placed]
  cases scope.entryAt? other with
  | none => exact same
  | some => exact BEq.refl _

theorem get_congr : scope.get key = scope.get other :=
  Bindings.find?_congr _ (realKey_congr same placed)

end

theorem put_eq (put : scope.put key value = .ok (old, written)) :
    written = { scope with bindings := scope.bindings.insert (scope.realKey key) value } := by
  simp only [Scope.put] at put
  split at put
  · cases put
  · cases put
    rfl

theorem put_of_positional (positional : scope.kind = .positional) (key : Key) (value : Value) : scope.put key value =
    .ok (scope.get key, { scope with bindings := scope.bindings.insert (scope.realKey key) value }) := by
  have free : scope.isLocked (scope.realKey key) = false := by simp [isLocked, positional]
  simp only [put, free, Bool.false_eq_true, if_false]
  rfl

def extended (scope : Scope) (key : Key) (value : Value) : Scope :=
  { scope with bindings := ⟨scope.bindings.entries ++ [(key, value)]⟩ }

theorem entryAt?_of_unbound (unbound : scope.get key = none) : scope.entryAt? key = none := by
  rw [Option.eq_none_iff_forall_ne_some]
  intro entry placed
  rw [get, realKey_eq, placed] at unbound
  exact absurd (BEq.refl entry.1) (Bool.eq_false_iff.mp (Bindings.find?_eq_none.mp unbound entry (mem_of_entryAt? placed)))

theorem insert_of_unbound (unbound : scope.get key = none) (value : Value) :
    { scope with bindings := scope.bindings.insert (scope.realKey key) value } = scope.extended key value := by
  have itself := realKey_of_unplaced (entryAt?_of_unbound unbound)
  rw [get, itself] at unbound
  rw [itself, extended, ← Bindings.entries_insert_of_unbound unbound]

def IsNext (scope : Scope) (key : Key) : Prop :=
  scope.kind = .positional ∧ ∃ n, key.number = some n ∧ n.toInt = scope.size + 1

theorem entryAt?_extended_of_next (next : scope.IsNext other) (key : Key) (value : Value) :
    (scope.extended key value).entryAt? other = some (key, value) := by
  obtain ⟨positional, n, number, is⟩ := next
  refine entryAt?_eq_some.mpr ⟨positional, n, number, by omega, ?_⟩
  rw [extended, show n.toInt.toNat - 1 = scope.bindings.entries.length by rw [is]; rfl, List.getElem?_concat_length]

theorem entryAt?_extended (later : ¬ scope.IsNext other) (key : Key) (value : Value) :
    (scope.extended key value).entryAt? other = scope.entryAt? other := by
  apply Option.ext
  intro entry
  rw [entryAt?_eq_some, entryAt?_eq_some]
  refine and_congr_right fun positional => exists_congr fun n => and_congr_right fun number => and_congr_right fun from1 => ?_
  have other : n.toInt.toNat - 1 ≠ scope.bindings.entries.length := fun is =>
    later ⟨positional, n, number, by rw [size, Bindings.size]; omega⟩
  rw [extended, List.getElem?_append]
  split
  · rfl
  · rw [List.getElem?_eq_none (by rw [List.length_singleton]; omega), List.getElem?_eq_none (by omega)]

theorem get_extended (unbound : scope.get key = none) (value : Value) (other : Key) :
    (scope.extended key value).get other =
      if key == (scope.extended key value).realKey other then some value
      else scope.bindings.find? ((scope.extended key value).realKey other) := by
  have itself := realKey_of_unplaced (entryAt?_of_unbound unbound)
  rw [get, itself] at unbound
  rw [get, ← Bindings.find?_insert]
  exact congrArg (Bindings.find? · _) (congrArg Bindings.mk (Bindings.entries_insert_of_unbound unbound value).symm)

theorem realKey_of_keys (kind : written.kind = scope.kind) (keys : written.bindings.keys = scope.bindings.keys) :
    written.realKey key = scope.realKey key := by
  have places : (written.entryAt? key).map (·.1) = (scope.entryAt? key).map (·.1) := by
    unfold entryAt?
    rw [kind]
    split
    · split
      · rw [← List.getElem?_map, ← List.getElem?_map]
        exact congrArg (·[_]?) keys
      · rfl
    · rfl
  rw [realKey_eq, places, realKey_eq]

theorem realKey_insert (scope : Scope) (key : Key) (value : Value) :
    realKey { scope with bindings := scope.bindings.insert (scope.realKey key) value } key = scope.realKey key := by
  cases bound : scope.get key with
  | none =>
    have free := entryAt?_of_unbound bound
    rw [insert_of_unbound bound, realKey_of_unplaced free]
    by_cases next : scope.IsNext key
    · rw [realKey_eq, entryAt?_extended_of_next next]
      rfl
    · exact realKey_of_unplaced ((entryAt?_extended next ..).trans free)
  | some old =>
    obtain ⟨front, first, back, split⟩ := Bindings.split_of_find? bound
    exact realKey_of_keys rfl (by simp [Bindings.keys, split.entries, split.entries_insert])

theorem get_put (put : scope.put key value = .ok (old, written)) : written.get key = some value := by
  rw [put_eq put, get, realKey_insert]
  exact Bindings.find?_insert_self ..

/-- Binding a new key disturbs no other: the key reads its value, and whatever was bound reads as before. The one exception is a
number that was bound beyond the end of a positional scope: once the scope has grown to it, it reads the new entry. -/
theorem new_binding_keeps_others (unbound : scope.get key = none) (put : scope.put key value = .ok (old, written)) :
    written.get key = some value ∧
      (∀ other, scope.get other ≠ none → ¬ scope.IsNext other → written.get other = scope.get other) ∧
      ∀ other, scope.IsNext other → written.get other = some value := by
  have grown : written = scope.extended key value := (put_eq put).trans (insert_of_unbound unbound value)
  subst grown
  have passes : ∀ other, scope.IsNext other → (scope.extended key value).get other = some value := by
    intro other next
    rw [get_extended unbound, realKey_eq, entryAt?_extended_of_next next]
    exact if_pos (BEq.refl key)
  refine ⟨get_put put, fun other bound later => ?_, passes⟩
  have real : (scope.extended key value).realKey other = scope.realKey other := by
    rw [realKey_eq, entryAt?_extended later, realKey_eq]
  rw [get_extended unbound, real, if_neg, get]
  -- the new key was unbound, so it is none that the other key could stand for
  intro same
  rw [get, realKey_of_unplaced (entryAt?_of_unbound unbound), Bindings.find?_congr _ same] at unbound
  exact bound unbound

/-- Two arguments, the second under a number that the scope has not grown to. -/
def sparse : Scope := ⟨ScopeName.arguments.key, .positional, ⟨[(.of "item", .integer 7), (.ofInt 4, .integer 1)]⟩⟩

theorem new_binding_keeps_others_sparse : ∃ written, sparse.get (.of "note") = none ∧
    sparse.put (.of "note") (.integer 9) = .ok (none, written) ∧ written.get (.of "note") = some (.integer 9) ∧
    (∀ other, sparse.get other ≠ none → ¬ sparse.IsNext other → written.get other = sparse.get other) ∧
    ∀ other, sparse.IsNext other → written.get other = some (.integer 9) :=
  ⟨_, rfl, rfl, new_binding_keeps_others rfl rfl⟩

/-- The scope grows to the number of its only entry, which from then on names the entry added there. -/
theorem number_moves_to_new_entry : ∃ first second, newArguments.put (.ofInt 2) (.integer 1) = .ok (none, first) ∧
    first.get (.of "note") = none ∧ first.put (.of "note") (.integer 9) = .ok (none, second) ∧
    first.get (.ofInt 2) = some (.integer 1) ∧ second.get (.ofInt 2) = some (.integer 9) :=
  ⟨_, _, rfl, rfl, rfl, rfl, rfl⟩

end Scope

end ScopeEngine
