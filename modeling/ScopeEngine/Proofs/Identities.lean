import ScopeEngine.World

/-! Reading the world after a change. Writing to an identity changes what it stands for, provided it was issued, and
nothing else; an addition takes the next identity. -/

namespace ScopeEngine

-- what the world holds can be compared, so that the worlds a run leads to can be told by evaluation
deriving instance DecidableEq for Key, Value, Bindings, ScopeKind, Scope, Server, Ancestor, Ancestors, Request,
  Call, ContextKind, Session, Application

namespace Table

variable {kind : Entity} {α : Type}

@[simp] theorem size_set (table : Table kind α) (id : Id kind) (row : α) : (table.set id row).size = table.size := by
  simp [size, set]

@[simp] theorem size_add (table : Table kind α) (row : α) : (table.add row).size = table.size + 1 := by
  simp [size, add]

section

variable [Inhabited α] (table : Table kind α)

theorem get_set (id other : Id kind) (row : α) :
    (table.set id row).get other = if id = other ∧ id.number < table.size then row else table.get other := by
  obtain ⟨n⟩ := id
  obtain ⟨k⟩ := other
  simp only [get, get?, set, size, Id.mk.injEq, Array.getElem?_setIfInBounds]
  by_cases same : n = k
  · subst k
    by_cases inside : n < table.rows.size <;> simp [inside]
  · simp [same]

theorem get_of_ge {id : Id kind} (beyond : table.size ≤ id.number) : table.get id = default := by
  simp only [get, get?]
  rw [Array.getElem?_eq_none beyond]
  rfl

theorem get_add (id : Id kind) (row : α) :
    (table.add row).get id = if id = table.next then row else table.get id := by
  obtain ⟨n⟩ := id
  simp only [get, get?, add, next, Id.mk.injEq, Array.getElem?_push]
  by_cases last : n = table.rows.size <;> simp [last]

theorem get_add_of_lt {id : Id kind} (row : α) (issued : id.number < table.size) :
    (table.add row).get id = table.get id := by
  have older : id ≠ table.next := by
    rintro rfl
    exact Nat.lt_irrefl _ issued
  rw [get_add, if_neg older]

theorem get_add_next (row : α) : (table.add row).get table.next = row := by
  rw [get_add, if_pos rfl]

end

section

variable (table : Table kind α)

theorem set_add_next (row new : α) : (table.add row).set table.next new = table.add new := by
  simp [set, add, next, Array.setIfInBounds, Array.set_push]

theorem set_add_of_lt (row new : α) {id : Id kind} (issued : id.number < table.size) :
    (table.add row).set id new = (table.set id new).add row := by
  simp only [size] at issued
  simp [set, add, Array.setIfInBounds, Array.set_push, issued, Nat.lt_succ_of_lt issued]

theorem next_lt_size_add (row : α) : table.next.number < (table.add row).size :=
  Nat.lt_of_lt_of_eq (Nat.lt_succ_self _) (size_add ..).symm

theorem size_le_size_add (row : α) : table.size ≤ (table.add row).size :=
  Nat.le_of_lt (table.next_lt_size_add row)

theorem lt_of_lt_size_add {row : α} {id : Id kind} (issued : id.number < (table.add row).size)
    (older : id ≠ table.next) : id.number < table.size :=
  Nat.lt_of_le_of_ne (Nat.le_of_lt_succ (Nat.lt_of_lt_of_eq issued (size_add ..))) fun equal => older (congrArg Id.mk equal)

end

end Table

namespace World

variable {w later last : World} {n : Nat}

/-- Scopes may have been made or changed, but none of the first `n`. -/
structure SparesFirst (n : Nat) (w later : World) : Prop where
  rest : later = { w with scopes := later.scopes }
  size : w.scopes.size ≤ later.scopes.size
  kept : ∀ s : ScopeId, s.number < n → later.scope s = w.scope s

theorem SparesFirst.refl (n : Nat) (w : World) : SparesFirst n w w := ⟨rfl, Nat.le_refl _, fun _ _ => rfl⟩

theorem SparesFirst.trans (first : SparesFirst n w later) (second : SparesFirst n later last) : SparesFirst n w last where
  rest := by rw [second.rest, first.rest]
  size := Nat.le_trans first.size second.size
  kept := fun s old => (second.kept s old).trans (first.kept s old)

theorem SparesFirst.mono {fewer : Nat} (spares : SparesFirst n w later) (less : fewer ≤ n) : SparesFirst fewer w later :=
  { spares with kept := fun s old => spares.kept s (Nat.lt_of_lt_of_le old less) }

theorem sparesFirst_addScope (older : n ≤ w.scopes.size) (scope : Scope) : SparesFirst n w (w.addScope scope).2 where
  rest := rfl
  size := Table.size_le_size_add ..
  kept := fun _ old => Table.get_add_of_lt _ _ (Nat.lt_of_lt_of_le old older)

theorem application_modify (w : World) (a b : ApplicationId) (change : Application → Application) :
    (w.modifyApplication a change).application b =
      if a = b ∧ a.number < w.applications.size then change (w.application a) else w.application b :=
  Table.get_set ..

/-- Whatever a change leaves alone reads as before, at every application. -/
theorem application_modify_keeps {β : Type} (w : World) (a b : ApplicationId) {change : Application → Application}
    (f : Application → β) (keeps : ∀ application, f (change application) = f application) :
    f ((w.modifyApplication a change).application b) = f (w.application b) := by
  rw [application_modify]
  split
  next same => rw [keeps, same.1]
  next => rfl

theorem modifyApplication_new (w : World) (row : Application) (change : Application → Application) :
    modifyApplication { w with applications := w.applications.add row } w.applications.next change =
      { w with applications := w.applications.add (change row) } := by
  simp only [modifyApplication, setApplication, application, Table.get_add_next, Table.set_add_next]

theorem session_modify (w : World) (s t : SessionId) (change : Session → Session) :
    (w.modifySession s change).session t =
      if s = t ∧ s.number < w.sessions.size then change (w.session s) else w.session t :=
  Table.get_set ..

theorem session_modify_keeps {β : Type} (w : World) (s t : SessionId) {change : Session → Session}
    (f : Session → β) (keeps : ∀ session, f (change session) = f session) :
    f ((w.modifySession s change).session t) = f (w.session t) := by
  rw [session_modify]
  split
  next same => rw [keeps, same.1]
  next => rfl

end World

end ScopeEngine
