import ScopeEngine.Calls
import ScopeEngine.Proofs.ActionLogic
import ScopeEngine.Proofs.Arguments.Numbers
import ScopeEngine.Proofs.Arguments.Slots
import ScopeEngine.Proofs.Copying.Isomorphism

/-! Filling the arguments scope of a call, one put at a time. As long as a key stands for itself and is new when its turn
comes, its entry goes to the end of the scope; a number that the scope has already grown to goes to an earlier entry. -/

namespace ScopeEngine

open ScopeEngine.Action

def Key.Distinct (keys : List Key) : Prop := keys.Pairwise fun one two => (one == two) = false

def Key.isBeyond (key : Key) (size : Nat) : Bool := key.number.all fun n => n.toInt < 1 || (size : Int) < n.toInt

/-- Each number lies beyond the places that are taken when its turn comes. -/
def allBeyond : (size : Nat) → List (Key × Value) → Bool
  | _, [] => true
  | size, (key, _) :: rest => key.isBeyond size && allBeyond (size + 1) rest

namespace Bindings

variable {α : Type} {b : Bindings α} {key : Key} {i : Nat} {entry : Key × α} (distinct : Key.Distinct b.keys)
  (there : b.entries[i]? = some entry) (same : (entry.1 == key) = true)
include distinct there same

theorem split_at : b.Split key (b.entries.take i) entry.1 entry.2 (b.entries.drop (i + 1)) := by
  obtain ⟨inside, is⟩ := List.getElem?_eq_some_iff.mp there
  have cut : b.entries = b.entries.take i ++ entry :: b.entries.drop (i + 1) := by
    rw [← is, ← List.drop_eq_getElem_cons inside, List.take_append_drop]
  refine ⟨same, fun other held => ?_, cut⟩
  rw [keys, cut, List.map_append, Key.Distinct] at distinct
  rw [← BEq.congr_right same]
  exact (List.pairwise_append.mp distinct).2.2 other.1 (List.mem_map_of_mem held) entry.1 List.mem_cons_self

theorem insert_at (value : α) : b.insert key value = ⟨b.entries.set i (entry.1, value)⟩ := by
  refine congrArg Bindings.mk (((split_at distinct there same).entries_insert value).trans ?_)
  rw [List.set_eq_take_append_cons_drop, if_pos (List.getElem?_eq_some_iff.mp there).1]

theorem erase_at : b.erase key = ⟨b.entries.eraseIdx i⟩ :=
  congrArg Bindings.mk ((split_at distinct there same).entries_erase.trans (List.eraseIdx_eq_take_drop_succ ..).symm)

theorem find?_at : b.find? key = some entry.2 := by
  have split := split_at distinct there same
  rw [find?, split.entries, List.find?_append, List.find?_eq_none.mpr (by simpa using split.others)]
  simp [same]

end Bindings

namespace Scope

variable {scope written : Scope} {key : Key} {value : Value} {old : Option Value}

def extendedBy (scope : Scope) (entries : List (Key × Value)) : Scope :=
  { scope with bindings := ⟨scope.bindings.entries ++ entries⟩ }

theorem extendedBy_nil (scope : Scope) : scope.extendedBy [] = scope := by
  rw [extendedBy, List.append_nil]

theorem extendedBy_cons (scope : Scope) (key : Key) (value : Value) (entries : List (Key × Value)) :
    (scope.extended key value).extendedBy entries = scope.extendedBy ((key, value) :: entries) := by
  simp only [extendedBy, extended, List.append_assoc, List.singleton_append]

theorem get_of_new (unplaced : scope.entryAt? key = none) {later : List Key}
    (distinct : Key.Distinct (scope.bindings.keys ++ key :: later)) : scope.get key = none := by
  rw [get, realKey_of_unplaced unplaced, Bindings.find?_eq_none]
  exact fun entry held => (List.pairwise_append.mp distinct).2.2 entry.1 (List.mem_map_of_mem held) key List.mem_cons_self

theorem entryAt?_eq_none_iff (positional : scope.kind = .positional) :
    scope.entryAt? key = none ↔ key.isBeyond scope.size = true := by
  cases number : key.number with
  | none => simp [entryAt?_of_plain number, Key.isBeyond, number]
  | some n =>
    simp only [entryAt?, positional, number, Key.isBeyond, Option.all_some, Bool.or_eq_true, decide_eq_true_eq]
    rw [size, Bindings.size]
    split
    next from1 =>
      rw [List.getElem?_eq_none_iff]
      omega
    next before => simp only [true_iff]; omega

/-- The key stands for the entry at the place: it reads, overwrites and updates that entry and no other. -/
structure Addresses (scope : Scope) (key : Key) (i : Nat) (entry : Key × Value) : Prop where
  get : scope.get key = some entry.2
  put : ∀ value, scope.put key value =
    .ok (some entry.2, { scope with bindings := ⟨scope.bindings.entries.set i (entry.1, value)⟩ })
  update : ∀ change, scope.update key change = .ok (change (some entry.2),
    { scope with bindings := ⟨scope.bindings.entries.set i (entry.1, change (some entry.2))⟩ })

theorem addresses_of_realKey {i : Nat} {entry : Key × Value} (positional : scope.kind = .positional)
    (distinct : Key.Distinct scope.bindings.keys) (there : scope.bindings.entries[i]? = some entry)
    (real : scope.realKey key = entry.1) : scope.Addresses key i entry := by
  have reads := Bindings.find?_at distinct there (BEq.refl _)
  have writes := Bindings.insert_at distinct there (BEq.refl _)
  have free : scope.isLocked entry.1 = false := by simp [isLocked, positional]
  refine ⟨?_, fun value => ?_, fun change => ?_⟩
  · rw [Scope.get, real, reads]
  · simp only [Scope.put, real, free, Bool.false_eq_true, if_false, reads, writes]
  · simp only [Scope.update, real, free, Bool.false_eq_true, if_false, reads, writes]

end Scope

variable {w later : World} {scope bound : Scope} {function : Function}

theorem bindEntries_cons (positional : scope.kind = .positional) (key : Key) (value : Value) (rest : List (Key × Value)) :
    bindEntries ((key, value) :: rest) scope w =
      bindEntries rest { scope with bindings := scope.bindings.insert (scope.realKey key) value } w := by
  rw [bindEntries, bind_apply, ofExcept_apply, Scope.put_of_positional positional]

theorem bindEntries_new {key : Key} {rest : List (Key × Value)} (positional : scope.kind = .positional)
    (distinct : Key.Distinct (scope.bindings.keys ++ key :: rest.map (·.1))) (beyond : key.isBeyond scope.size = true) (value : Value) :
    bindEntries ((key, value) :: rest) scope w = bindEntries rest (scope.extended key value) w ∧
      Key.Distinct ((scope.extended key value).bindings.keys ++ rest.map (·.1)) ∧
      (scope.extended key value).size = scope.size + 1 ∧ (scope.extended key value).kind = .positional := by
  have unplaced := (Scope.entryAt?_eq_none_iff positional).mpr beyond
  refine ⟨?_, by simpa [Scope.extended, Bindings.keys] using distinct, List.length_append, positional⟩
  rw [bindEntries_cons positional, Scope.insert_of_unbound (Scope.get_of_new unplaced distinct)]

/-- Entries whose keys are new and whose numbers lie beyond the scope when their turn comes are added in their order. -/
theorem bindEntries_beyond {entries : List (Key × Value)} (positional : scope.kind = .positional)
    (distinct : Key.Distinct (scope.bindings.keys ++ entries.map (·.1))) (beyond : allBeyond scope.size entries = true) :
    bindEntries entries scope w = (.ok (scope.extendedBy entries), w) := by
  induction entries generalizing scope with
  | nil => rw [scope.extendedBy_nil]; rfl
  | cons entry rest ih =>
    obtain ⟨here, further⟩ := Bool.and_eq_true_iff.mp beyond
    obtain ⟨goes, still, grown, kind⟩ := bindEntries_new (w := w) positional distinct here entry.2
    exact goes.trans ((ih kind still (by rwa [grown])).trans (by rw [scope.extendedBy_cons]))

/-! ### Places as keys -/

theorem toInt_place {i : Nat} (fits : i < 0x8000000000000000) : (Int64.ofNat i).toInt = i := Int64.toInt_ofNat_of_lt fits

theorem allBeyond_places {values : List Value} {size place : Nat} (next : size < place) (fits : place + values.length ≤ 0x8000000000000000) :
    allBeyond size (values.mapIdx fun i value => (.ofInt (Int64.ofNat (place + i)), value)) = true := by
  induction values generalizing size place with
  | nil => rfl
  | cons value values ih =>
    rw [List.length_cons] at fits
    have here : (Int64.ofNat place).toInt = place := toInt_place (by omega)
    have further := ih (Nat.add_lt_add_right next 1) (by omega)
    simp only [Nat.add_assoc, Nat.add_comm 1] at further
    have after : (Key.ofInt (Int64.ofNat place)).isBeyond size = true := by
      rw [Key.isBeyond, show (Key.ofInt (Int64.ofNat place)).number = some (Int64.ofNat place) from rfl]
      simp only [Option.all_some, here, Bool.or_eq_true, decide_eq_true_eq]
      omega
    rw [List.mapIdx_cons, allBeyond]
    exact Bool.and_eq_true_iff.mpr ⟨after, further⟩

theorem distinct_places {values : List Value} {place : Nat} (fits : place + values.length ≤ 0x8000000000000000) :
    Key.Distinct ((values.mapIdx fun i value => ((.ofInt (Int64.ofNat (place + i)) : Key), value)).map (·.1)) := by
  refine List.pairwise_iff_getElem.mpr fun i j low high less => ?_
  simp only [List.length_map, List.length_mapIdx] at low high
  simp only [List.getElem_map, List.getElem_mapIdx]
  refine Bool.eq_false_iff.mpr fun same => ?_
  have equal := congrArg Int64.toInt (Key.ofInt_beq_iff.mp same)
  rw [toInt_place (by omega), toInt_place (by omega)] at equal
  omega

theorem realKey_place {i : Nat} {entry : Key × Value} (positional : scope.kind = .positional) (fits : scope.size < 0x8000000000000000)
    (there : scope.bindings.entries[i]? = some entry) : scope.realKey (.ofInt (Int64.ofNat (i + 1))) = entry.1 := by
  have inside : i < scope.size := (List.getElem?_eq_some_iff.mp there).1
  have is : (Int64.ofNat (i + 1)).toInt = (i + 1 : Nat) := toInt_place (by omega)
  have placed : scope.entryAt? (.ofInt (Int64.ofNat (i + 1))) = some entry :=
    Scope.entryAt?_eq_some.mpr ⟨positional, _, rfl, by omega, by rw [is]; exact there⟩
  rw [Scope.realKey_eq, placed]
  rfl

end ScopeEngine
