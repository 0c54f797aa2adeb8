import ScopeEngine.Proofs.Paths.Spelling
import ScopeEngine.Proofs.Resolution.Qualified

/-! Writing to one scope. A write adds one entry at the end of the scope or gives one entry another value, and leaves every
other scope alone; scopes that are made on the way do not count as there. -/

namespace ScopeEngine

open ScopeEngine.Action

namespace Bindings

variable {α : Type}

/-- The entries differ in one place: one with a new key was added at the end, or the one of the key got another value where
it stands. -/
def Amends (key : Key) (before after : List (Key × α)) : Prop :=
  (∃ value, (∀ entry ∈ before, (entry.1 == key) = false) ∧ after = before ++ [(key, value)]) ∨
    ∃ front bound old value back, (bound == key) = true ∧ before = front ++ (bound, old) :: back ∧
      after = front ++ (bound, value) :: back

theorem amends_insert (b : Bindings α) (key : Key) (value : α) : Amends key b.entries (b.insert key value).entries := by
  obtain ⟨unbound, is⟩ | ⟨front, bound, old, back, -, split, is⟩ := b.insert_cases key value
  · exact .inl ⟨value, find?_eq_none.mp unbound, is⟩
  · exact .inr ⟨front, bound, old, value, back, split.same, split.entries, is⟩

end Bindings

namespace Scope

variable {scope written : Scope} {key : Key} {value : Value} {old : Option Value}

structure Amends (before after : Scope) : Prop where
  name : after.name = before.name
  kind : after.kind = before.kind
  entries : ∃ key, Bindings.Amends key before.bindings.entries after.bindings.entries

theorem amends_put (put : scope.put key value = .ok (old, written)) : scope.Amends written := by
  rw [put_eq put]
  exact ⟨rfl, rfl, _, Bindings.amends_insert ..⟩

end Scope

namespace World

variable {w later last : World} {n : Nat} {s t target container : ScopeId} {c : ContextId} {key other : Key} {value : Value}

theorem issued_of_get (bound : (w.scope s).get key = some value) : s.number < w.scopes.size := by
  refine Nat.lt_of_not_le fun beyond => ?_
  rw [scope, Table.get_of_ge _ beyond] at bound
  cases bound

/-- Of the scopes that were there, only the target changes, and that in one entry. -/
structure Writes (w : World) (target : ScopeId) (later : World) : Prop where
  rest : later = { w with scopes := later.scopes }
  size : w.scopes.size ≤ later.scopes.size
  kept : ∀ s, s.number < w.scopes.size → s ≠ target → later.scope s = w.scope s
  amended : target.number < w.scopes.size → (w.scope target).Amends (later.scope target)

theorem Writes.named (writes : w.Writes target later) (s : ScopeId) (issued : s.number < w.scopes.size) :
    (later.scope s).name = (w.scope s).name := by
  by_cases here : s = target
  · subst here
    exact (writes.amended issued).name
  · rw [writes.kept s issued here]

theorem Writes.spares (writes : w.Writes s later) (new : n ≤ s.number) (older : n ≤ w.scopes.size) : SparesFirst n w later where
  rest := writes.rest
  size := writes.size
  kept := fun t old => writes.kept t (Nat.lt_of_lt_of_le old older) fun same => by subst t; omega

/-- What happens to new scopes after a write is part of the write. -/
theorem Writes.trans (writes : w.Writes target later) (spares : SparesFirst w.scopes.size later last) : w.Writes target last where
  rest := by rw [spares.rest, writes.rest]
  size := Nat.le_trans writes.size spares.size
  kept := fun t issued other => (spares.kept t issued).trans (writes.kept t issued other)
  amended := fun issued => by
    rw [spares.kept target issued]
    exact writes.amended issued

theorem Writes.below (first : w.Writes target later) (new : w.scopes.size ≤ s.number) (second : later.Writes s last) :
    w.Writes target last :=
  first.trans (second.spares new first.size)

theorem writes_setScope {old : Option Value} {written : Scope} (put : (w.scope s).put key value = .ok (old, written)) :
    w.Writes s (w.setScope s written) where
  rest := rfl
  size := Nat.le_of_eq (Table.size_set ..).symm
  kept := fun t _ other => (Table.get_set ..).trans (if_neg fun same => other same.1.symm)
  amended := fun issued => by
    have there : (w.setScope s written).scope s = written := (Table.get_set ..).trans (if_pos ⟨rfl, issued⟩)
    rw [there]
    exact Scope.amends_put put

/-- Whatever was made after the first `n` scopes can be written to, and holds nothing but structs of that kind. -/
def Young (n : Nat) (w : World) : Prop :=
  ∀ s : ScopeId, n ≤ s.number → (w.scope s).kind = .generic ∧
    ∀ key value, (w.scope s).get key = some value → ∃ t : ScopeId, value = .struct t ∧ n ≤ t.number

theorem young_size (w : World) : Young w.scopes.size w := by
  intro s beyond
  rw [scope, Table.get_of_ge _ beyond]
  exact ⟨rfl, fun key value bound => by cases bound⟩

theorem Young.addScope (young : Young n w) (key : Key) : Young n (w.addScope (.new key)).2 := by
  intro s new
  have added : (w.addScope (.new key)).2.scope s = if s = w.scopes.next then .new key else w.scope s := Table.get_add ..
  rw [added]
  split
  · exact ⟨rfl, fun key value bound => by cases bound⟩
  · exact young s new

theorem Young.put (young : Young n w) {old : Option Value} {written : Scope} (inside : n ≤ t.number)
    (put : (w.scope s).put key (.struct t) = .ok (old, written)) : Young n (w.setScope s written) := by
  intro u new
  have read : (w.setScope s written).scope u = if s = u ∧ s.number < w.scopes.size then written else w.scope u :=
    Table.get_set ..
  rw [read]
  split
  next here =>
    obtain ⟨generic, holds⟩ := young u new
    rw [← here.1] at generic holds
    rw [Scope.put_eq put]
    refine ⟨generic, fun other value bound => ?_⟩
    simp only [Scope.get, Scope.realKey, generic] at bound holds
    rw [Bindings.find?_insert] at bound
    split at bound
    · exact ⟨t, (Option.some.inj bound).symm, inside⟩
    · exact holds other value bound
  next => exact young u new

end World

namespace Action

open World

variable {w : World} {s : ScopeId}

theorem after_putIn (s : ScopeId) (key : Key) (value : Value) : (putIn s key value).After w
    (fun _ later => w.Writes s later ∧ later.scopes.size = w.scopes.size ∧
      (s.number < w.scopes.size → (later.scope s).get key = some value) ∧
      ∀ n t, Young n w → value = .struct t → n ≤ t.number → Young n later) (fun _ later => later = w) := by
  simp only [putIn, writeScope, after_bind, after_get]
  cases put : (w.scope s).put key value with
  | error error => exact rfl
  | ok result =>
    obtain ⟨old, written⟩ := result
    refine ⟨writes_setScope put, Table.size_set .., fun issued => ?_, ?_⟩
    · have there : (w.setScope s written).scope s = written := (Table.get_set ..).trans (if_pos ⟨rfl, issued⟩)
      rw [there]
      exact Scope.get_put put
    · rintro n t young rfl inside
      exact young.put inside put

theorem after_createStruct (s : ScopeId) (key : Key) : (createStruct s key).After w
    (fun created later => w.Writes s later ∧ created = w.scopes.next ∧ created.number < later.scopes.size ∧
      Young w.scopes.size later ∧ (s.number < w.scopes.size → (later.scope s).get key = some (.struct created) ∧
        ∀ key, (later.scope created).get key = none)) (fun _ later => SparesFirst w.scopes.size w later) := by
  have added : SparesFirst w.scopes.size w (w.addScope (.new key)).2 := sparesFirst_addScope (Nat.le_refl _) _
  have inside : w.scopes.next.number < (w.addScope (.new key)).2.scopes.size := by
    rw [size_addScope]
    exact Nat.lt_succ_self _
  simp only [createStruct, newScope, after_bind, after_modifyGet]
  refine (after_putIn s key (.struct w.scopes.next)).mono ?_ ?_
  · rintro _ later ⟨writes, size, bound, young⟩
    refine ⟨⟨?_, Nat.le_trans added.size writes.size, ?_, ?_⟩, rfl, by rw [size]; exact inside,
      young _ _ (w.young_size.addScope key) rfl (Nat.le_refl _), fun issued => ?_⟩
    · rw [writes.rest]
      rfl
    · intro t old other
      rw [writes.kept t (Nat.lt_of_lt_of_le old added.size) other, added.kept t old]
    · intro issued
      rw [← added.kept s issued]
      exact writes.amended (Nat.lt_of_lt_of_le issued added.size)
    · have fresh : w.scopes.next ≠ s := fun same => by rw [← same] at issued; exact Nat.lt_irrefl _ issued
      have empty : (w.addScope (.new key)).2.scope w.scopes.next = .new key := Table.get_add_next ..
      refine ⟨bound (Nat.lt_of_lt_of_le issued added.size), fun key' => ?_⟩
      show (later.scope w.scopes.next).get key' = none
      rw [writes.kept _ inside fresh, empty]
      rfl
  · rintro _ _ rfl
    exact added

end Action

end ScopeEngine
