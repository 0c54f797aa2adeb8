import ScopeEngine.Proofs.Paths.RoundTrip

/-! An assignment to a path happens as a whole or not at all. Structs that are missing are made and stored on the way, before
later segments are looked at. But what lies beyond the first such struct is of the assignment's own making, and nothing
there can stop it. -/

namespace ScopeEngine

open ScopeEngine.Action World

variable {w later : World} {n : Nat} {s container : ScopeId}

theorem achieves_putIn_young (young : Young n w) (new : n ≤ s.number) (older : n ≤ w.scopes.size) (key : Key) (value : Value) :
    (putIn s key value).Achieves w fun _ later => SparesFirst n w later ∧
      ∀ t, value = .struct t → n ≤ t.number → Young n later := by
  have puts := after_putIn (w := w) s key value
  have generic := (young s new).1
  cases put : (w.scope s).put key value with
  | error error => simp [Scope.put, Scope.isLocked, generic] at put
  | ok result =>
    have ran : putIn s key value w = (.ok result.1, w.setScope s result.2) := by
      simp only [putIn, writeScope, bind_apply, get_apply, put]
      rfl
    rw [After, ran] at puts
    obtain ⟨writes, -, -, still⟩ := puts
    exact ⟨_, _, ran, writes.spares new older, fun t is inside => still n t young is inside⟩

theorem achieves_assignBelow_young (young : Young n w) (older : n ≤ w.scopes.size) (new : n ≤ container.number)
    (walked : List String) (value : Value) (rest : List String) :
    (assignBelow container walked value rest).Achieves w fun _ later => SparesFirst n w later := by
  induction rest generalizing w container walked with
  | nil => exact (achieves_pure ()).mpr (.refl n w)
  | cons segment rest ih =>
    cases rest with
    | nil =>
      simp only [assignBelow, achieves_bind]
      exact (achieves_putIn_young young new older _ value).mono fun _ later done => (achieves_pure ()).mpr done.1
    | cons next rest =>
      simp only [assignBelow, achieves_bind, achieves_get]
      cases held : (w.scope container).get (.of segment) with
      | some bound =>
        obtain ⟨inner, rfl, inside⟩ := (young container new).2 _ _ held
        simpa only [pure_bind] using ih young older inside _
      | none =>
        simp only [createStruct, newScope, achieves_bind, achieves_modifyGet, achieves_pure]
        have adds := sparesFirst_addScope older (.new (.of segment))
        have more := Nat.le_trans older adds.size
        refine (achieves_putIn_young (young.addScope _) new more _ _).mono ?_
        rintro _ mid ⟨puts, still⟩
        have made := still w.scopes.next rfl older
        exact (ih made (Nat.le_trans more puts.size) older _).mono fun _ later done => (adds.trans puts).trans done

/-- The first struct that is missing is stored, or nothing changes, and the rest of the walk only adds to it. -/
theorem after_createStruct_atomic (s : ScopeId) (key : Key) (walked : List String) (value : Value) (rest : List String) :
    (createStruct s key >>= fun inner => assignBelow inner walked value rest).After w
      (fun _ later => ∃ target, w.Writes target later) (fun _ later => SparesFirst w.scopes.size w later) := by
  rw [after_bind]
  refine (after_createStruct s key).mono_ok ?_
  rintro inner mid ⟨writes, rfl, _, young, _⟩
  refine (achieves_assignBelow_young young writes.size (Nat.le_refl _) walked value rest).after.mono ?_ fun _ _ => False.elim
  exact fun _ later spares => ⟨s, writes.trans spares⟩

/-- An assignment below a container writes to one scope that was there, or to none. -/
theorem after_assignBelow_atomic (container : ScopeId) (walked : List String) (value : Value) (rest : List String) :
    (assignBelow container walked value rest).After w (fun _ later => ∃ target, w.Writes target later)
      (fun _ later => SparesFirst w.scopes.size w later) := by
  induction rest generalizing container walked with
  | nil => exact ⟨w.scopes.next, rfl, Nat.le_refl _, fun _ _ _ => rfl, fun issued => absurd issued (Nat.lt_irrefl _)⟩
  | cons segment rest ih =>
    cases rest with
    | nil =>
      simp only [assignBelow, after_bind]
      refine (after_putIn container (.of segment) value).mono (fun _ later done => ⟨container, done.1⟩) ?_
      rintro _ _ rfl
      exact .refl _ _
    | cons next rest =>
      have creates := after_createStruct_atomic (w := w) container (.of segment) (walked ++ [segment]) value (next :: rest)
      simp only [assignBelow, after_bind, after_get]
      cases held : (w.scope container).get (.of segment) with
      | none => simpa only [after_bind] using creates
      | some bound =>
        cases bound with
        | struct inner => exact ih inner _
        | null => simpa only [after_bind] using creates
        | _ => exact SparesFirst.refl _ w

/-- The action comes to an end. If it succeeds, it changed one entry of at most one scope that was there; if it fails, all of
them are as they were. -/
def Action.IsAtomic {α : Type} (action : Action α) (w : World) : Prop :=
  match action w with
  | (.ok _, later) => ∃ target, w.Writes target later
  | (.error (.failed _), later) => SparesFirst w.scopes.size w later
  | (.error .exhausted, _) => False

theorem finishing_scopes : ScopeRules (fun {_} action => ∀ w, action.Leaves False w fun _ => True) where
  pure := fun _ _ => trivial
  fail := fun _ _ => trivial
  get := fun _ => trivial
  bind := fun first rest w => (first w).bind (fun _ _ => trivial) fun b later _ => rest b later
  beside := fun _ _ => trivial

theorem isAtomic_of_after {α : Type} {action : Action α} (finishes : ∀ w, action.Leaves False w fun _ => True)
    (after : action.After w (fun _ later => ∃ target, w.Writes target later)
      (fun _ later => SparesFirst w.scopes.size w later)) : action.IsAtomic w := by
  have ends := finishes w
  unfold Action.IsAtomic
  unfold After at after
  unfold Leaves at ends
  rcases ran : action w with ⟨⟨stop | stop⟩ | a, later⟩ <;> rw [ran] at after ends <;> assumption

/-- Resolving a name other than the application or the session changes nothing, whether it succeeds or fails. -/
theorem resolve_reads (host : Host) (c : ContextId) {key : Key}
    (outer : key.scopeName? ≠ some .application ∧ key.scopeName? ≠ some .session) (s : ScopeId) (w : World) :
    (∃ found, resolve host c key (some s) w = (.ok found, w)) ∨
      ∃ error, resolve host c key (some s) w = (.error (.failed error), w) := by
  cases plain : key.isScopeName with
  | false => exact .inl ⟨_, resolve_default host c plain s w⟩
  | true =>
    obtain ⟨name, named⟩ := Option.isSome_iff_exists.mp plain
    rw [named] at outer
    have further : name ≠ .application ∧ name ≠ .session :=
      ⟨fun same => outer.1 (congrArg some same), fun same => outer.2 (congrArg some same)⟩
    simp only [resolve, plain, if_true, bind_apply, scopeNearby_apply host c named further]
    cases w.nearbyOf key name (w.ancestry c) with
    | some s => exact .inl ⟨_, rfl⟩
    | none => exact .inr ⟨_, rfl⟩

/-- Assigning to a path that does not begin with the session or the application is atomic, whatever the world looks like: if it
succeeds, at most one scope that was there differs, in one entry that was added at its end or got another value in its
place, and if it fails, none does. -/
theorem assignments_are_atomic (w : World) (host : Host) (c : ContextId) (path : String) (value : Value)
    (outer : ∀ first rest, splitPath path = .ok (first :: rest) →
      (Key.of first).scopeName? ≠ some .application ∧ (Key.of first).scopeName? ≠ some .session) :
    (setPath host c path value).IsAtomic w := by
  have stays := SparesFirst.refl w.scopes.size w
  unfold Action.IsAtomic
  rw [setPath, bind_apply]
  cases segments : splitPath path with
  | error error => exact stays
  | ok parts =>
    cases parts with
    | nil => exact stays
    | cons first rest =>
      simp only [ofExcept_apply, bind_apply, get_apply]
      rcases resolve_reads host c (outer first rest segments) (w.defaultScope c) w with ⟨found, resolves⟩ | ⟨error, resolves⟩
      · have below := fun s walked rest =>
          isAtomic_of_after (finishing_scopes.assignBelow s walked value rest) (after_assignBelow_atomic (w := w) s walked value rest)
        have creates := isAtomic_of_after (finishing_scopes.bind (finishing_scopes.createStruct _ _) fun inner =>
          finishing_scopes.assignBelow inner [first] value rest) (after_createStruct_atomic (w := w) found.scope (.of first) ..)
        simp only [resolves]
        cases rest with
        | nil => exact below found.scope [] [first]
        | cons next rest =>
          cases held : found.value with
          | struct s =>
            simp only [pure_bind]
            exact below s [first] (next :: rest)
          | null => exact creates
          | _ => exact stays
      · simp only [resolves]
        exact stays

/-- In a call with one argument, a struct is created as the second one; nothing is created below the first, a number. -/
theorem assignments_are_atomic_ordering :
    let host := Script.hostOf (Script.execute 0)
    let w := (ordering.action 9 (World.start default)).2
    (∃ later, setPath host ⟨2⟩ "arguments.2.total" (.integer 7) w = (.ok (), later) ∧ ∃ target, w.Writes target later) ∧
      ∃ error later, setPath host ⟨2⟩ "item.total" (.integer 7) w = (.error (.failed error), later) ∧
        SparesFirst w.scopes.size w later := by
  intro host w
  have outer : ∀ path ∈ ["arguments.2.total", "item.total"], ∀ first rest, splitPath path = .ok (first :: rest) →
      (Key.of first).scopeName? ≠ some .application ∧ (Key.of first).scopeName? ≠ some .session := by
    have heads : ∀ path ∈ ["arguments.2.total", "item.total"], ∀ first ∈ (pathSegments path).head?,
        (Key.of first).scopeName? ≠ some .application ∧ (Key.of first).scopeName? ≠ some .session := by decide +kernel
    intro path listed first rest split
    refine heads path listed first ?_
    simp only [splitPath] at split
    split at split
    next => cases split
    next => rw [Except.ok.inj split]; rfl
  have made : (setPath host ⟨2⟩ "arguments.2.total" (.integer 7) w).1.toOption = some () := by decide +kernel
  have refused : (setPath host ⟨2⟩ "item.total" (.integer 7) w).1.toOption = none := by decide +kernel
  have first := assignments_are_atomic w host ⟨2⟩ _ (.integer 7) (outer "arguments.2.total" (by decide))
  have second := assignments_are_atomic w host ⟨2⟩ _ (.integer 7) (outer "item.total" (by decide))
  unfold Action.IsAtomic at first second
  refine ⟨?_, ?_⟩
  · rcases ran : setPath host ⟨2⟩ "arguments.2.total" (.integer 7) w with ⟨⟨stop⟩ | a, later⟩ <;> rw [ran] at made first
    · cases made
    · exact ⟨later, rfl, first⟩
  · rcases ran : setPath host ⟨2⟩ "item.total" (.integer 7) w with ⟨⟨stop | stop⟩ | a, later⟩ <;> rw [ran] at refused second
    · exact ⟨stop, later, rfl, second⟩
    · exact second.elim
    · cases refused

end ScopeEngine
