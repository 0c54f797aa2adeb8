import ScopeEngine.Proofs.Arguments.Binding

/-! Equal keys are one key for a scope wherever their numbers name the same place. Names of one to three digits carry their
number, as integers do; a longer name does not, so in a positional scope of a thousand entries it can differ from its equal. -/

namespace ScopeEngine

namespace Bindings

variable {α : Type} {b : Bindings α} {key other : Key}

theorem erase_congr (b : Bindings α) (same : (key == other) = true) : b.erase key = b.erase other := by
  have alike : (fun entry : Key × α => entry.1 == key) = fun entry => entry.1 == other :=
    funext fun _ => BEq.congr_right same
  rw [erase, alike, erase]

theorem insert_congr {old : α} (same : (key == other) = true) (bound : b.find? key = some old) (value : α) :
    b.insert key value = b.insert other value := by
  obtain ⟨front, first, back, split⟩ := split_of_find? bound
  have again : b.Split other front first old back :=
    ⟨BEq.trans split.same same, fun entry held => (BEq.congr_right same).symm.trans (split.others entry held), split.entries⟩
  exact congrArg Bindings.mk ((split.entries_insert value).trans (again.entries_insert value).symm)

end Bindings

namespace Scope

variable {scope : Scope} {key other : Key}

/-- What a write under either of two equal keys comes to: one answer and one scope, but for the spelling of a key that comes
new, or a refusal that names the key as it was given. -/
inductive Interchanges {α : Type} (scope : Scope) (key other : Key) : (one two : Except Error (α × Scope)) → Prop where
  | same (outcome : α × Scope) : Interchanges scope key other (.ok outcome) (.ok outcome)
  | added (answer : α) (value : Value) :
      Interchanges scope key other (.ok (answer, scope.extended key value)) (.ok (answer, scope.extended other value))
  | refused : Interchanges scope key other (.error (scope.locked key)) (.error (scope.locked other))

section Interchange

variable (same : (key == other) = true) (placed : scope.entryAt? key = scope.entryAt? other)
include same placed

/-- Either both keys stand for one entry, which is not locked, or each stands for itself and is locked if the other is. -/
theorem realKey_cases : (scope.realKey key = scope.realKey other ∧ scope.isLocked (scope.realKey other) = false) ∨
    (scope.realKey key = key ∧ scope.realKey other = other ∧ scope.isLocked key = scope.isLocked other) := by
  cases there : scope.entryAt? other with
  | none =>
    refine .inr ⟨realKey_of_unplaced (placed.trans there), realKey_of_unplaced there, ?_⟩
    have alike : (fun bound : Key => bound == key) = fun bound => bound == other := funext fun _ => BEq.congr_right same
    rw [isLocked, alike, isLocked]
  | some entry =>
    have positional := (entryAt?_eq_some.mp there).1
    exact .inl ⟨by rw [realKey_eq, realKey_eq, placed, there]; rfl, by simp [isLocked, positional]⟩

theorem interchanges_write {α : Type} (answer : α) (value : Value) : Interchanges scope key other
    (if scope.isLocked (scope.realKey key) then .error (scope.locked (scope.realKey key))
      else .ok (answer, { scope with bindings := scope.bindings.insert (scope.realKey key) value }))
    (if scope.isLocked (scope.realKey other) then .error (scope.locked (scope.realKey other))
      else .ok (answer, { scope with bindings := scope.bindings.insert (scope.realKey other) value })) := by
  obtain ⟨one, free⟩ | ⟨first, second, locks⟩ := realKey_cases same placed
  · rw [one, free, if_neg Bool.false_ne_true]
    exact .same _
  · cases bound : scope.get key with
    | none =>
      rw [insert_of_unbound bound, insert_of_unbound ((get_congr same placed).symm.trans bound), first, second, locks]
      split
      · exact .refused
      · exact .added ..
    | some old =>
      rw [get, first] at bound
      rw [first, second, locks, Bindings.insert_congr same bound]
      split
      · exact .refused
      · exact .same _

theorem interchanges_remove : Interchanges scope key other (scope.remove key) (scope.remove other) := by
  have found : scope.bindings.find? (scope.realKey key) = scope.bindings.find? (scope.realKey other) := get_congr same placed
  simp only [remove, found, Bindings.erase_congr _ (realKey_congr same placed)]
  obtain ⟨one, free⟩ | ⟨first, second, locks⟩ := realKey_cases same placed
  · rw [one, free, if_neg Bool.false_ne_true]
    exact .same _
  · rw [first, second, locks]
    split
    · exact .refused
    · exact .same _

theorem interchanges_putIfAbsent (value : Value) :
    Interchanges scope key other (scope.putIfAbsent key value) (scope.putIfAbsent other value) := by
  have found : scope.bindings.find? (scope.realKey key) = scope.bindings.find? (scope.realKey other) := get_congr same placed
  simp only [putIfAbsent, found]
  split
  · exact .same _
  · exact interchanges_write same placed value value

end Interchange

/-- The numbers of equal keys name the same place, unless only one of the keys carries a number of a thousand or more. -/
theorem entryAt?_congr (built : key.Built) (others : other.Built) (same : (key == other) = true)
    (agree : scope.kind = .positional → ∀ n : Int64, 1000 ≤ n.toInt → n.toInt ≤ scope.size →
      (key.number = some n ↔ other.number = some n)) : scope.entryAt? key = scope.entryAt? other := by
  apply Option.ext
  intro entry
  rw [entryAt?_eq_some, entryAt?_eq_some]
  refine and_congr_right fun positional => exists_congr fun n => ?_
  constructor <;> rintro ⟨number, from1, there⟩ <;> refine ⟨?_, from1, there⟩
  all_goals
    have within : n.toInt ≤ scope.size := by
      have inside := (List.getElem?_eq_some_iff.mp there).1
      rw [size, Bindings.size]
      omega
    rcases Int.lt_or_le n.toInt 1000 with small | large
  · exact built.number_eq others same number (by omega) small
  · exact (agree positional n large within).mp number
  · exact others.number_eq built (BEq.symm same) number (by omega) small
  · exact (agree positional n large within).mpr number

/-- Equal keys are interchangeable in every scope and for every operation, but in a positional scope of a thousand entries or
more only if a number from a thousand up to the size that one of them carries is carried by both. -/
theorem equal_keys_interchange (scope : Scope) {key other : Key} (built : key.Built) (others : other.Built)
    (same : (key == other) = true)
    (agree : scope.kind = .positional → ∀ n : Int64, 1000 ≤ n.toInt → n.toInt ≤ scope.size →
      (key.number = some n ↔ other.number = some n)) :
    scope.get key = scope.get other ∧ scope.contains key = scope.contains other ∧
      (∀ value, Interchanges scope key other (scope.put key value) (scope.put other value)) ∧
      (∀ value, Interchanges scope key other (scope.putIfAbsent key value) (scope.putIfAbsent other value)) ∧
      (∀ change, Interchanges scope key other (scope.update key change) (scope.update other change)) ∧
      Interchanges scope key other (scope.remove key) (scope.remove other) := by
  have placed := entryAt?_congr built others same agree
  have found : scope.bindings.find? (scope.realKey key) = scope.bindings.find? (scope.realKey other) := get_congr same placed
  refine ⟨found, ?_, fun value => ?_, interchanges_putIfAbsent same placed, fun change => ?_, interchanges_remove same placed⟩
  · have alike : (fun entry : Key × Value => entry.1 == scope.realKey key) = fun entry => entry.1 == scope.realKey other :=
      funext fun _ => BEq.congr_right (realKey_congr same placed)
    rw [contains, Bindings.contains, alike, contains, Bindings.contains]
  · simp only [put, found]
    exact interchanges_write same placed _ value
  · simp only [update, found]
    exact interchanges_write same placed _ _

/-- A positional scope with an entry that is named by four digits, and is not the thousandth. -/
def scarce : Scope := ⟨ScopeName.arguments.key, .positional, ⟨[(.of "item", .integer 7), (.of "1000", .integer 8)]⟩⟩

theorem equal_keys_interchange_scarce :
    let name := Key.of "1000"
    let number := Key.ofInt 1000
    (name.Built ∧ number.Built ∧ (name == number) = true ∧ (scarce.kind = .positional → ∀ n : Int64, 1000 ≤ n.toInt →
      n.toInt ≤ scarce.size → (name.number = some n ↔ number.number = some n))) ∧
    scarce.get name = scarce.get number ∧ scarce.contains name = scarce.contains number ∧
      (∀ value, Interchanges scarce name number (scarce.put name value) (scarce.put number value)) ∧
      (∀ value, Interchanges scarce name number (scarce.putIfAbsent name value) (scarce.putIfAbsent number value)) ∧
      (∀ change, Interchanges scarce name number (scarce.update name change) (scarce.update number change)) ∧
      Interchanges scarce name number (scarce.remove name) (scarce.remove number) := by
  intro name number
  have same : (name == number) = true := by decide +kernel
  have small : scarce.size = 2 := rfl
  have agree : scarce.kind = .positional → ∀ n : Int64, 1000 ≤ n.toInt → n.toInt ≤ scarce.size →
      (name.number = some n ↔ number.number = some n) := by
    intro _ n from1000 within
    omega
  exact ⟨⟨.name _, .integer _, same, agree⟩, equal_keys_interchange scarce (.name _) (.integer _) same agree⟩

/-- So many entries, put under the numbers that follow on their count. -/
def abundant (count : Nat) : Scope :=
  newArguments.extendedBy ((List.replicate count Value.null).mapIdx fun i value => (.ofInt (Int64.ofNat (count + 1 + i)), value))

variable {count : Nat} (fits : count < 0x4000000000000000)
include fits

theorem distinct_abundant : Key.Distinct (abundant count).bindings.keys :=
  distinct_places (by rw [List.length_replicate]; omega)

theorem abundant_run (w : World) : bindEntries (abundant count).bindings.entries .newArguments w = (.ok (abundant count), w) := by
  have positional : newArguments.kind = .positional := rfl
  refine bindEntries_beyond positional (distinct_abundant fits) (allBeyond_places (Nat.zero_lt_succ _) ?_)
  rw [List.length_replicate]
  omega

theorem get_abundant_number (filled : 0 < count) : (abundant count).get (.ofInt (Int64.ofNat count)) = some .null := by
  have positional : (abundant count).kind = .positional := rfl
  have size : (abundant count).size = count := List.length_mapIdx.trans List.length_replicate
  have there : (abundant count).bindings.entries[count - 1]? = some (.ofInt (Int64.ofNat (count + 1 + (count - 1))), .null) := by
    have last : (List.replicate count Value.null)[count - 1]? = some .null := List.getElem?_replicate_of_lt (by omega)
    simp [abundant, extendedBy, newArguments, Bindings.empty, last]
  have real := realKey_place positional (by omega) there
  rw [Nat.sub_add_cancel filled] at real
  exact (addresses_of_realKey positional (distinct_abundant fits) there real).get

theorem get_abundant_name (plain : key.number = none) (same : (key == .ofInt (Int64.ofNat count)) = true) :
    (abundant count).get key = none := by
  rw [get, realKey_of_unplaced (entryAt?_of_plain plain), Bindings.find?_eq_none]
  intro entry held
  obtain ⟨i, inside, rfl⟩ := List.mem_mapIdx.mp held
  rw [List.length_replicate] at inside
  rw [BEq.congr_right same]
  refine Bool.eq_false_iff.mpr fun equal => ?_
  have is := congrArg Int64.toInt (Key.ofInt_beq_iff.mp equal)
  rw [toInt_place (by omega), toInt_place (by omega)] at is
  omega

omit fits

/-- With a thousand entries, a number names an entry that its equal, a name of four digits, does not; and a locked scope
names the key of a write as it is spelled. -/
theorem equal_keys_differ :
    ((Key.of "1000" == .ofInt 1000) = true ∧
      bindEntries (abundant 1000).bindings.entries .newArguments {} = (.ok (abundant 1000), {}) ∧
      (abundant 1000).get (.ofInt 1000) = some .null ∧ (abundant 1000).get (.of "1000") = none) ∧
    let locked : Scope := ⟨.of "server", .partlyLocked [.of "os"], .empty⟩
    (Key.of "OS" == .of "os") = true ∧ locked.put (.of "OS") .null = .error (.lockedKey "server" "OS") ∧
      locked.put (.of "os") .null = .error (.lockedKey "server" "os") := by
  have fits : 1000 < 0x4000000000000000 := by decide
  have same : (Key.of "1000" == .ofInt 1000) = true := by decide +kernel
  have plain : (Key.of "1000").number = none := by decide +kernel
  refine ⟨⟨same, abundant_run fits {}, get_abundant_number fits (by decide), get_abundant_name fits plain same⟩, ?_⟩
  exact ⟨by decide +kernel, rfl, rfl⟩

end Scope

end ScopeEngine
