import ScopeEngine.Lifecycle.Switching
import ScopeEngine.Proofs.ActionLogic
import ScopeEngine.Proofs.Bindings
import ScopeEngine.Proofs.Copying.Isomorphism

/-! Taking over the bindings of a scope. All values are copied under one map, which sends the scope that they are taken
from to the scope that they are put into, so what they share stays shared and no copy is an original. -/

namespace ScopeEngine

open ScopeEngine.Action

variable {image image' : ScopeId → ScopeId}

theorem Value.along_congr {value : Value}
    (agrees : ∀ t, value = .struct t → image t = image' t) : value.along image = value.along image' := by
  cases value with
  | struct t => exact congrArg Value.struct (agrees t rfl)
  | _ => rfl

theorem Scope.Mirrors.congr {original copy : Scope}
    (mirrors : original.Mirrors image copy)
    (agrees : ∀ t, Value.struct t ∈ original.bindings.values → image t = image' t) : original.Mirrors image' copy :=
  { mirrors with
    entries := by
      rw [mirrors.entries]
      apply List.map_congr_left
      intro entry held
      rw [Value.along_congr fun t is => agrees t (is ▸ List.mem_map_of_mem held)] }

namespace Bindings

variable {entries : List (Key × Value)}

/-- The bindings with those of `entries` added whose keys are not bound yet. -/
def takeOver (image : ScopeId → ScopeId) (present : Bindings Value) (entries : List (Key × Value)) : Bindings Value :=
  entries.foldl (fun bindings entry =>
    match bindings.find? entry.1 with
    | some _ => bindings
    | none => bindings.insert entry.1 (entry.2.along image)) present

theorem takeOver_congr {image image' : ScopeId → ScopeId} {present : Bindings Value}
    (agrees : ∀ key t, (key, Value.struct t) ∈ entries → image t = image' t) :
    takeOver image present entries = takeOver image' present entries := by
  induction entries generalizing present with
  | nil => rfl
  | cons entry rest ih =>
    have same : entry.2.along image = entry.2.along image' :=
      Value.along_congr fun t is => agrees entry.1 t (is ▸ List.mem_cons_self)
    simp only [takeOver, List.foldl_cons, same]
    exact ih fun key t held => agrees key t (List.mem_cons_of_mem _ held)

theorem entries_takeOver (image : ScopeId → ScopeId) (present : Bindings Value)
    (single : ∀ key, (Bindings.mk entries).Single key) : (takeOver image present entries).entries = present.entries ++
      (entries.filter fun entry => (present.find? entry.1).isNone).map fun entry => (entry.1, entry.2.along image) := by
  induction entries generalizing present with
  | nil => simp [takeOver]
  | cons entry rest ih =>
    have fewer : ∀ key, (Bindings.mk rest).Single key := fun key => (single key).sublist (List.sublist_cons_self ..)
    cases bound : present.find? entry.1 with
    | some value =>
      have next := ih present fewer
      simpa only [takeOver, List.foldl_cons, bound, List.filter_cons, Option.isNone_some, Bool.false_eq_true, if_false]
        using next
    | none =>
      have next := ih (present.insert entry.1 (entry.2.along image)) fewer
      -- No later entry has this key, so the later ones find bound what they would have found before.
      have others : ∀ other ∈ rest, (present.insert entry.1 (entry.2.along image)).find? other.1 = present.find? other.1 := by
        intro other held
        rw [find?_insert]
        split
        next same =>
          have both := single other.1
          simp only [Single, List.filter_cons, same, if_true, List.length_cons] at both
          have answers : other ∈ rest.filter fun entry => entry.1 == other.1 :=
            List.mem_filter.mpr ⟨held, BEq.refl other.1⟩
          have there := List.length_pos_of_mem answers
          omega
        next => rfl
      have alike : (rest.filter fun other => ((present.insert entry.1 (entry.2.along image)).find? other.1).isNone) =
          rest.filter fun other => (present.find? other.1).isNone :=
        List.filter_congr fun other held => by rw [others other held]
      rw [alike, entries_insert_of_unbound bound, List.append_assoc] at next
      simpa only [takeOver, List.foldl_cons, bound, List.filter_cons, Option.isNone_none, if_true, List.map_cons,
        List.singleton_append] using next

end Bindings

namespace World

variable {start now : World} {source target t u : ScopeId} {copies : Copies} {key : Key} {value : Value}
  {done rest : List (Key × Value)}

/-- A scope that takes over the bindings of another: nothing dangles below the other, and nothing there leads back. -/
structure Takes (start : World) (source target : ScopeId) : Prop where
  housed : ∀ t, start.Reaches source t → t.number < start.scopes.size
  inside : target.number < start.scopes.size
  unreached : ¬ start.Reaches source target
  plain : (start.scope target).kind = .generic

/-- How things stand when the bindings `done` of `source` have been taken over by `target`. -/
structure Inheriting (start : World) (source target : ScopeId) (done : List (Key × Value)) (copies : Copies)
    (now : World) : Prop where
  elsewhere : now = { start with scopes := now.scopes }
  more : start.scopes.size ≤ now.scopes.size
  kept : ∀ s, s.number < start.scopes.size → s ≠ target → now.scope s = start.scope s
  once : copies.originals.Nodup
  root : (source, target) ∈ copies
  reached : ∀ t ∈ copies.originals, start.Reaches source t
  made : ∀ t ∈ copies.originals, t ≠ source →
    start.scopes.size ≤ (copies.image t).number ∧ (copies.image t).number < now.scopes.size
  injective : ∀ t ∈ copies.originals, ∀ u ∈ copies.originals, copies.image t = copies.image u → t = u
  closed : ∀ t ∈ copies.originals, t ≠ source → ∀ u, start.Refers t u → u ∈ copies.originals
  mirrors : ∀ t ∈ copies.originals, t ≠ source → (start.scope t).Mirrors copies.image (now.scope (copies.image t))
  taken : ∀ key t, (key, Value.struct t) ∈ done → t ∈ copies.originals
  bindings : now.scope target =
    { start.scope target with bindings := (start.scope target).bindings.takeOver copies.image done }

theorem inheriting_nil (start : World) (source target : ScopeId) :
    start.Inheriting source target [] [(source, target)] start where
  elsewhere := rfl
  more := Nat.le_refl _
  kept := fun _ _ _ => rfl
  once := List.pairwise_singleton _ _
  root := List.mem_singleton_self _
  reached := fun _ held => List.mem_singleton.mp held ▸ .refl
  made := fun _ held other => absurd (List.mem_singleton.mp held) other
  injective := fun _ first _ second _ => (List.mem_singleton.mp first).trans (List.mem_singleton.mp second).symm
  closed := fun _ held other => absurd (List.mem_singleton.mp held) other
  mirrors := fun _ held other => absurd (List.mem_singleton.mp held) other
  taken := nofun
  bindings := rfl

namespace Inheriting

variable (takes : start.Takes source target) (inherits : start.Inheriting source target done copies now)

section
include inherits

theorem image_source : copies.image source = target :=
  Copies.image_of_mem inherits.once inherits.root

theorem source_mem : source ∈ copies.originals :=
  List.mem_map_of_mem inherits.root

end

section
include takes inherits

theorem scope_reached (leads : start.Reaches source t) : now.scope t = start.scope t := by
  refine inherits.kept t (takes.housed t leads) ?_
  rintro rfl
  exact takes.unreached leads

theorem reaches_now : now.Reaches source t ↔ start.Reaches source t :=
  reaches_congr fun _ leads => inherits.scope_reached takes leads

theorem image_lt (held : t ∈ copies.originals) : (copies.image t).number < now.scopes.size := by
  by_cases same : t = source
  · subst same
    rw [inherits.image_source]
    exact Nat.lt_of_lt_of_le takes.inside inherits.more
  · exact (inherits.made t held same).2

section

variable (child : ∀ p, value = .struct p → start.Refers source p)
include child

theorem reaches_of_copiesAfter (held : t ∈ (now.copiesAfter copies value).originals) : start.Reaches source t := by
  rw [originals_copiesAfter] at held
  rcases reachesBeyond_of_mem_explore held with before | ⟨p, waits, leads⟩
  · exact inherits.reached t before
  · have refers := child p (List.mem_singleton.mp (mem_structs.mp waits)).symm
    have first : now.Reaches source p := (inherits.reaches_now takes).mpr (.single refers)
    exact (inherits.reaches_now takes).mp (first.trans leads.reaches)

/-- Copying one more value of the source: the map grows, and everything under it stays as it was. -/
theorem copy : start.Inheriting source target done (now.copiesAfter copies value)
      { now with scopes := now.scopesAfter copies value } := by
  have grows : ∀ t ∈ copies.originals, t ∈ (now.copiesAfter copies value).originals := by
    intro t held
    rw [originals_copiesAfter]
    exact (prefix_explore ..).mem held
  have image : ∀ t ∈ copies.originals, (now.copiesAfter copies value).image t = copies.image t := fun t held =>
    image_copiesAfter_of_mem inherits.once now value held
  have older : ∀ s : ScopeId, s.number < now.scopes.size →
      World.scope { now with scopes := now.scopesAfter copies value } s = now.scope s := fun s issued =>
    get_scopesAfter_of_lt now copies value issued
  have newer : ∀ (i : Nat) s, (now.visited copies value)[i]? = some s →
      World.scope { now with scopes := now.scopesAfter copies value } ⟨now.scopes.size + i⟩ =
        copyOf (now.copiesAfter copies value) (now.scope s) := fun i s visits =>
    get_scopesAfter_of_visited visits
  have size := size_scopesAfter now copies value
  have more := inherits.more
  have target_lt := Nat.lt_of_lt_of_le takes.inside inherits.more
  have next : ∀ t ∈ (now.copiesAfter copies value).originals, start.Reaches source t := fun t held =>
    inherits.reaches_of_copiesAfter takes child held
  exact {
    elsewhere := by rw [inherits.elsewhere]
    more := by simp only [size]; omega
    kept := fun s issued other =>
      (older s (Nat.lt_of_lt_of_le issued more)).trans (inherits.kept s issued other)
    once := nodup_copiesAfter inherits.once now value
    root := List.mem_append_left _ inherits.root
    reached := next
    made := by
      intro t held other
      by_cases before : t ∈ copies.originals
      · rw [image t before]
        have made := inherits.made t before other
        simp only [size]
        omega
      · obtain ⟨i, visits⟩ := visited_of_mem held before
        have within := (List.getElem?_eq_some_iff.mp visits).1
        rw [image_copiesAfter_of_visited inherits.once visits]
        simp only [size]
        omega
    injective := by
      -- What had a copy has it below the new ones, and the new ones are numbered in order.
      intro t first u second same
      by_cases before : t ∈ copies.originals <;> by_cases before' : u ∈ copies.originals
      · rw [image t before, image u before'] at same
        exact inherits.injective t before u before' same
      · obtain ⟨i, visits⟩ := visited_of_mem second before'
        have below := inherits.image_lt takes before
        rw [image t before, image_copiesAfter_of_visited inherits.once visits] at same
        rw [same] at below
        exact absurd below (Nat.not_lt_of_le (Nat.le_add_right ..))
      · obtain ⟨i, visits⟩ := visited_of_mem first before
        have below := inherits.image_lt takes before'
        rw [image u before', image_copiesAfter_of_visited inherits.once visits] at same
        rw [← same] at below
        exact absurd below (Nat.not_lt_of_le (Nat.le_add_right ..))
      · obtain ⟨i, visits⟩ := visited_of_mem first before
        obtain ⟨j, visits'⟩ := visited_of_mem second before'
        rw [image_copiesAfter_of_visited inherits.once visits, image_copiesAfter_of_visited inherits.once visits',
          Id.mk.injEq, Nat.add_left_cancel_iff] at same
        subst j
        exact Option.some.inj (visits.symm.trans visits')
    closed := by
      intro t held other u refers
      by_cases before : t ∈ copies.originals
      · exact grows u (inherits.closed t before other u refers)
      · have leads := next t held
        have housed := takes.housed u (leads.tail refers)
        rw [originals_copiesAfter] at held ⊢
        refine mem_explore_of_refers held before ?_ (Nat.lt_of_lt_of_le housed more)
        rw [Refers, inherits.scope_reached takes leads]
        exact refers
    mirrors := by
      intro t held other
      by_cases before : t ∈ copies.originals
      · rw [image t before]
        refine Scope.Mirrors.congr ?_ fun u refers => (image u (inherits.closed t before other u refers)).symm
        rw [older _ (inherits.made t before other).2]
        exact inherits.mirrors t before other
      · obtain ⟨i, visits⟩ := visited_of_mem held before
        rw [image_copiesAfter_of_visited inherits.once visits, newer i t visits,
          inherits.scope_reached takes (next t held)]
        exact mirrors_copyOf _ fun _ _ => rfl
    taken := fun key t held => grows t (inherits.taken key t held)
    bindings := by
      rw [older target target_lt, inherits.bindings,
        Bindings.takeOver_congr fun key t held => (image t (inherits.taken key t held)).symm] }

theorem struct_mem_copiesAfter (is : value = .struct t) : t ∈ (now.copiesAfter copies value).originals := by
  subst is
  rw [originals_copiesAfter]
  have housed := takes.housed t (.single (child t rfl))
  exact mem_explore_of_pending (List.mem_singleton_self t) (Nat.lt_of_lt_of_le housed inherits.more)

end

theorem put (there : ∀ t, value = .struct t → t ∈ copies.originals) :
    Achieves (writeScope target (·.putIfAbsent key (value.along copies.image))) now fun _ later =>
      start.Inheriting source target (done ++ [(key, value)]) copies later := by
  have inside : target.number < now.scopes.size := Nat.lt_of_lt_of_le takes.inside inherits.more
  have plain : (now.scope target).kind = .generic := by rw [inherits.bindings]; exact takes.plain
  have others : ∀ (scope : Scope) s, s ≠ target → (now.setScope target scope).scope s = now.scope s := fun scope s other =>
    now.scope_setScope_of_ne other
  have here : ∀ scope : Scope, (now.setScope target scope).scope target = scope := by
    intro scope
    rw [World.scope, setScope, Table.get_set, if_pos ⟨rfl, inside⟩]
  have sizes : ∀ scope : Scope, (now.setScope target scope).scopes.size = now.scopes.size := fun scope => Table.size_set ..
  have writes : ∀ scope : Scope, scope = { start.scope target with
      bindings := (start.scope target).bindings.takeOver copies.image (done ++ [(key, value)]) } →
      start.Inheriting source target (done ++ [(key, value)]) copies (now.setScope target scope) := by
    intro scope is
    refine { inherits with
      elsewhere := ?_, more := ?_, kept := ?_, made := ?_, mirrors := ?_, taken := ?_, bindings := (here scope).trans is }
    · rw [setScope, inherits.elsewhere]
    · rw [sizes]
      exact inherits.more
    · intro s issued other
      rw [others scope s other]
      exact inherits.kept s issued other
    · intro t held other
      rw [sizes]
      exact inherits.made t held other
    · intro t held other
      rw [others]
      · exact inherits.mirrors t held other
      · intro same
        have made := (inherits.made t held other).1
        rw [same] at made
        exact absurd takes.inside (Nat.not_lt_of_le made)
    · intro k t held
      rcases List.mem_append.mp held with before | last
      · exact inherits.taken k t before
      · cases List.mem_singleton.mp last
        exact there t rfl
  have steps : (start.scope target).bindings.takeOver copies.image (done ++ [(key, value)]) =
      match (now.scope target).bindings.find? key with
      | some _ => (now.scope target).bindings
      | none => (now.scope target).bindings.insert key (value.along copies.image) := by
    rw [inherits.bindings]
    simp only [Bindings.takeOver, List.foldl_append, List.foldl_cons, List.foldl_nil]
  have real : (now.scope target).realKey key = key := by simp [Scope.realKey, plain]
  have free : (now.scope target).isLocked key = false := by simp [Scope.isLocked, plain]
  have same : now.scope target = { start.scope target with bindings := (now.scope target).bindings } := by
    rw [inherits.bindings]
  cases bound : (now.scope target).bindings.find? key with
  | some old =>
    refine ⟨old, now.setScope target (now.scope target), ?_, writes _ ?_⟩
    · simp only [writeScope, bind_apply, get_apply, Scope.putIfAbsent, real, bound, ofExcept_apply]
      rfl
    · rw [steps, bound]
      exact same
  | none =>
    refine ⟨value.along copies.image, now.setScope target { now.scope target with
      bindings := (now.scope target).bindings.insert key (value.along copies.image) }, ?_, writes _ ?_⟩
    · simp only [writeScope, bind_apply, get_apply, Scope.putIfAbsent, real, bound, free, ofExcept_apply,
        Bool.false_eq_true, if_false]
      rfl
    · rw [steps, bound, same]

theorem run (children : ∀ key t, (key, Value.struct t) ∈ rest → start.Refers source t) :
    Achieves (inherit target rest copies) now fun _ later =>
      ∃ copies, start.Inheriting source target (done ++ rest) copies later := by
  induction rest generalizing done copies now with
  | nil => exact ⟨(), now, rfl, copies, by rwa [List.append_nil]⟩
  | cons entry rest ih =>
    obtain ⟨key, value⟩ := entry
    have child : ∀ p, value = .struct p → start.Refers source p := fun p is => children key p (is ▸ List.mem_cons_self)
    have copied := inherits.copy takes child
    rw [inherit, achieves_bind, achieves_modifyGet, duplicateWith_eq, achieves_bind]
    refine (copied.put takes fun t is => inherits.struct_mem_copiesAfter takes child is).mono fun _ later placed => ?_
    have rests := ih placed fun key t held => children key t (List.mem_cons_of_mem _ held)
    rwa [List.append_assoc] at rests

end

/-- When all bindings were taken over, everything that the source leads to has its copy. -/
theorem mem_originals_iff (inherits : start.Inheriting source target (start.scope source).bindings.entries copies now) :
    t ∈ copies.originals ↔ start.Reaches source t := by
  refine ⟨inherits.reached t, fun leads => ?_⟩
  induction leads with
  | refl => exact inherits.source_mem
  | @tail t u _ refers held =>
    by_cases same : t = source
    · subst same
      obtain ⟨⟨key, value⟩, there, is⟩ := List.mem_map.mp refers
      cases is
      exact inherits.taken key u there
    · exact inherits.closed t held same u refers

end Inheriting

/-- One scope takes over all bindings of another. -/
theorem Takes.inherit (takes : start.Takes source target) :
    Achieves (inherit target (start.scope source).bindings.entries [(source, target)]) start fun _ later =>
      ∃ copies, start.Inheriting source target (start.scope source).bindings.entries copies later := by
  have begins := inheriting_nil start source target
  exact begins.run takes fun key t held => List.mem_map.mpr ⟨(key, .struct t), held, rfl⟩

end World

end ScopeEngine
