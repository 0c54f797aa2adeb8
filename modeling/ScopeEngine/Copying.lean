import ScopeEngine.World

/-!
Deep copies. Copying a value copies every struct that can be reached from it, each once, so that shared and cyclic
structs keep their shape and the copy shares no scope with what it was copied from.
-/

namespace ScopeEngine

/-- Scopes that have been copied, with their copies. -/
abbrev Copies := List (ScopeId × ScopeId)

namespace Copies

def originals (copies : Copies) : List ScopeId := copies.map (·.1)

theorem lookup_eq_none {copies : Copies} {s : ScopeId} : copies.lookup s = none ↔ s ∉ copies.originals := by
  induction copies with
  | nil => simp [originals]
  | cons first rest ih =>
    obtain ⟨t, copy⟩ := first
    by_cases same : s = t
    · simp [originals, same]
    · have other : (s == t) = false := beq_false_of_ne same
      simpa [originals, List.lookup_cons, other, same] using ih

end Copies

/-- A copy under way. -/
structure Copying where
  copies : Copies
  scopes : Table .scope Scope

namespace World

/-- What is left to do for the scopes that are not among `seen`: each has to be taken up, and then its entries. -/
def unseen (w : World) (seen : List ScopeId) : Nat :=
  (List.range w.scopes.size).foldr
    (fun n rest => (if seen.contains ⟨n⟩ then 0 else (w.scope ⟨n⟩).bindings.entries.length + 1) + rest) 0

theorem foldr_add_le {before after : Nat → Nat} {numbers : List Nat} {n done : Nat} (held : n ∈ numbers)
    (less : ∀ n, after n ≤ before n) (step : after n + done ≤ before n) :
    numbers.foldr (fun n rest => after n + rest) 0 + done ≤ numbers.foldr (fun n rest => before n + rest) 0 := by
  have rest : ∀ numbers : List Nat,
      numbers.foldr (fun n rest => after n + rest) 0 ≤ numbers.foldr (fun n rest => before n + rest) 0 := by
    intro numbers
    induction numbers with
    | nil => exact Nat.le_refl _
    | cons m numbers ih =>
      have here := less m
      simp only [List.foldr_cons]
      omega
  induction numbers with
  | nil => cases held
  | cons m numbers ih =>
    simp only [List.foldr_cons]
    rcases List.mem_cons.mp held with rfl | later
    · have others := rest numbers
      omega
    · have here := less m
      have others := ih later
      omega

theorem unseen_append_lt (w : World) (seen : List ScopeId) (s : ScopeId) (known : s.number < w.scopes.size)
    (new : ¬ seen.contains s) : w.unseen (seen ++ [s]) + ((w.scope s).bindings.entries.length + 1) ≤ w.unseen seen := by
  apply foldr_add_le (List.mem_range.mpr known)
  · intro n
    by_cases old : seen.contains ⟨n⟩
    · have still : (seen ++ [s]).contains ⟨n⟩ := by simp_all
      exact Nat.le_of_eq (by rw [if_pos old, if_pos still])
    · rw [if_neg old]
      split <;> omega
  · have here : (seen ++ [s]).contains s := by simp
    exact Nat.le_of_eq (by rw [if_pos here, if_neg new, Nat.zero_add])

theorem unseen_register_lt (w : World) {copies : Copies} {s : ScopeId} (known : s.number < w.scopes.size)
    (new : copies.lookup s = none) (copy : ScopeId) :
    w.unseen (copies ++ [(s, copy)]).originals + ((w.scope s).bindings.entries.length + 1) ≤ w.unseen copies.originals := by
  rw [Copies.originals, List.map_append]
  exact w.unseen_append_lt copies.originals s known (by simpa only [List.contains_iff_mem] using Copies.lookup_eq_none.mp new)

mutual

/-- The copy is registered before its entries are copied, so that what leads back to the scope finds it. It has the name and
the keys of the scope, and is never locked. -/
def copyScope (w : World) (state : Copying) (s : ScopeId) :
    { result : ScopeId × Copying // w.unseen result.2.copies.originals ≤ w.unseen state.copies.originals } :=
  match found : state.copies.lookup s with
  | some copy => ⟨(copy, state), Nat.le_refl _⟩
  | none =>
    if known : s.number < w.scopes.size then
      let copy := state.scopes.next
      have less := w.unseen_register_lt known found copy
      let original := w.scope s
      let blank : Scope := { name := original.name, kind := if original.isPositional then .positional else .generic, bindings := .empty }
      let ⟨(entries, filled), fewer⟩ :=
        w.copyEntries ⟨state.copies ++ [(s, copy)], state.scopes.add blank⟩ original.bindings.entries
      ⟨(copy, { filled with scopes := filled.scopes.set copy { blank with bindings := ⟨entries⟩ } }), by
        simp only at fewer ⊢
        omega⟩
    else ⟨(s, state), Nat.le_refl _⟩
termination_by w.unseen state.copies.originals

def copyEntries (w : World) (state : Copying) (entries : List (Key × Value)) :
    { result : List (Key × Value) × Copying // w.unseen result.2.copies.originals ≤ w.unseen state.copies.originals } :=
  match entries with
  | [] => ⟨([], state), Nat.le_refl _⟩
  | (key, .struct s) :: rest =>
    let ⟨(copy, state), (fewer : w.unseen state.copies.originals ≤ _)⟩ := w.copyScope state s
    let ⟨(rest, last), fewest⟩ := w.copyEntries state rest
    ⟨((key, .struct copy) :: rest, last), Nat.le_trans fewest fewer⟩
  | entry :: rest =>
    let ⟨(rest, last), fewer⟩ := w.copyEntries state rest
    ⟨(entry :: rest, last), fewer⟩
termination_by w.unseen state.copies.originals + entries.length

end

/-- Copies what can be reached from the value and has no copy yet. -/
def duplicateWith (w : World) (copies : Copies) (value : Value) : Value × Copies × World :=
  match value with
  | .struct s =>
    let (copy, state) := (w.copyScope ⟨copies, w.scopes⟩ s).1
    (.struct copy, state.copies, { w with scopes := state.scopes })
  | value => (value, copies, w)

def duplicate (w : World) (value : Value) : Value × World :=
  let (value, _, w) := w.duplicateWith [] value
  (value, w)

end World

end ScopeEngine
