import ScopeEngine.Proofs.Copying.Duplicates

/-! A copy is a second graph of the same shape. The map from originals to copies is one to one, the copies are new, and
what is written on one side later is not seen from the other. -/

namespace ScopeEngine.World

variable {w mid later : World} {s t u : ScopeId} {image : ScopeId → ScopeId}

/-- In the later world `image s` is the root of a copy of everything that `s` leads to. -/
structure DeepCopy (w later : World) (s : ScopeId) (image : ScopeId → ScopeId) : Prop where
  /-- Nothing but scopes is made, and no scope that there was is changed. -/
  elsewhere : later = { w with scopes := later.scopes }
  kept : ∀ t, t.number < w.scopes.size → later.scope t = w.scope t
  injective : ∀ t u, w.Reaches s t → w.Reaches s u → image t = image u → t = u
  onto : ∀ u, later.Reaches (image s) u ↔ ∃ t, w.Reaches s t ∧ image t = u
  /-- The scopes that were made are the images. -/
  made : ∀ n, w.scopes.size ≤ n ∧ n < later.scopes.size ↔ ∃ t, w.Reaches s t ∧ image t = ⟨n⟩
  mirrors : ∀ t, w.Reaches s t → (w.scope t).Mirrors image (later.scope (image t))

def SameFrom (s : ScopeId) (w later : World) : Prop :=
  ∀ u, (later.Reaches s u ↔ w.Reaches s u) ∧ (w.Reaches s u → later.scope u = w.scope u)

def Severed (w : World) (s t : ScopeId) : Prop := ∀ u, w.Reaches s u → ¬ w.Reaches t u

/-- Worlds that come about by writing, again and again, to scopes that `s` leads to at that time, while all else happens
out of sight of both `s` and `t`. What is written does not lead to anything that `t` leads to. -/
inductive WrittenFrom (s t : ScopeId) (w : World) : World → Prop where
  | start : WrittenFrom s t w w
  | write {mid : World} {u : ScopeId} (scope : Scope) : WrittenFrom s t w mid → mid.Reaches s u →
      (∀ v, Value.struct v ∈ scope.bindings.values → mid.Severed v t) → WrittenFrom s t w (mid.setScope u scope)
  | aside {mid later : World} : WrittenFrom s t w mid →
      (∀ u, mid.Reaches s u ∨ mid.Reaches t u → later.scope u = mid.scope u) → WrittenFrom s t w later

theorem Severed.symm (severed : w.Severed s t) : w.Severed t s :=
  fun u leads other => severed u other leads

theorem scope_setScope_of_ne (w : World) {scope : Scope} (other : t ≠ s) : (w.setScope s scope).scope t = w.scope t := by
  rw [World.scope, setScope, Table.get_set, if_neg fun same => other same.1.symm]
  rfl

theorem reaches_of_setScope {scope : Scope} (leads : (w.setScope u scope).Reaches s t) :
    w.Reaches s t ∨ ∃ v, Value.struct v ∈ scope.bindings.values ∧ w.Reaches v t := by
  induction leads with
  | refl => exact .inl .refl
  | @tail a b _ step ih =>
    rw [Refers, World.scope, setScope, Table.get_set] at step
    split at step
    · exact .inr ⟨b, step, .refl⟩
    · rcases ih with before | ⟨v, held, before⟩
      · exact .inl (before.tail step)
      · exact .inr ⟨v, held, before.tail step⟩

theorem Severed.write {scope : Scope} (severed : w.Severed s t) (leads : w.Reaches s u)
    (written : ∀ v, Value.struct v ∈ scope.bindings.values → w.Severed v t) :
    (∀ v, w.Reaches t v → (w.setScope u scope).scope v = w.scope v) ∧ (w.setScope u scope).Severed s t := by
  have unseen : ∀ v, w.Reaches t v → (w.setScope u scope).scope v = w.scope v := by
    intro v seen
    apply scope_setScope_of_ne
    rintro rfl
    exact severed _ leads seen
  refine ⟨unseen, fun v reached other => ?_⟩
  have seen : w.Reaches t v := (reaches_congr unseen).mp other
  rcases reaches_of_setScope reached with before | ⟨x, held, before⟩
  · exact severed v before seen
  · exact written x held v before seen

/-- However much is written from one side, the other side leads to the same scopes, and they hold the same. -/
theorem Severed.unseen (severed : w.Severed s t) (written : WrittenFrom s t w later) :
    later.Severed s t ∧ SameFrom t w later := by
  induction written with
  | start => exact ⟨severed, fun u => ⟨.rfl, fun _ => rfl⟩⟩
  | write scope _ leads harmless ih =>
    obtain ⟨unseen, still⟩ := ih.1.write leads harmless
    refine ⟨still, fun u => ⟨(reaches_congr unseen).trans (ih.2 u).1, fun seen => ?_⟩⟩
    rw [unseen u ((ih.2 u).1.mpr seen), (ih.2 u).2 seen]
  | @aside mid later _ same ih =>
    have ours : ∀ u, later.Reaches s u ↔ mid.Reaches s u := fun u => reaches_congr fun u leads => same u (.inl leads)
    have theirs : ∀ u, later.Reaches t u ↔ mid.Reaches t u := fun u => reaches_congr fun u leads => same u (.inr leads)
    refine ⟨fun u leads other => ih.1 u ((ours u).mp leads) ((theirs u).mp other), fun u => ?_⟩
    refine ⟨(theirs u).trans (ih.2 u).1, fun seen => ?_⟩
    rw [same u (.inr ((ih.2 u).1.mpr seen)), (ih.2 u).2 seen]

/-- If everything that `s` leads to has a mirror at its image, the image leads to the images and to nothing else. -/
theorem reaches_image_iff (mirrors : ∀ t, w.Reaches s t → (w.scope t).Mirrors image (later.scope (image t))) :
    later.Reaches (image s) u ↔ ∃ t, w.Reaches s t ∧ image t = u := by
  constructor
  · intro leads
    induction leads with
    | refl => exact ⟨s, .refl, rfl⟩
    | tail _ step ih =>
      obtain ⟨t, before, rfl⟩ := ih
      obtain ⟨child, held, rfl⟩ := (mirrors t before).struct_mem.mp step
      exact ⟨child, before.tail held, rfl⟩
  · rintro ⟨t, leads, rfl⟩
    induction leads with
    | refl => exact .refl
    | tail before step ih => exact ih.tail ((mirrors _ before).struct_mem.mpr ⟨_, step, rfl⟩)

section Duplicate

variable (housed : ∀ t, w.Reaches s t → t.number < w.scopes.size)
include housed

/-- Copying a scope makes copies of all that it leads to, and of nothing else. -/
theorem mem_originals_iff : t ∈ (w.copiesAfter [] (.struct s)).originals ↔ w.Reaches s t := by
  rw [originals_copiesAfter]
  constructor
  · intro found
    obtain seen | ⟨p, waits, leads⟩ := reachesBeyond_of_mem_explore found
    · cases seen
    · cases List.mem_singleton.mp waits
      exact leads.reaches
  · intro leads
    exact mem_explore_of_reachesBeyond (List.mem_singleton_self s) (reachesBeyond_nil.mpr leads) housed

theorem visited_iff : (∃ i : Nat, (w.visited [] (.struct s))[i]? = some t) ↔ w.Reaches s t := by
  rw [← mem_originals_iff housed, originals_copiesAfter, explore_eq_append, ← List.mem_iff_getElem?]
  exact List.nil_append _ ▸ Iff.rfl

theorem deepCopy_duplicate : w.DeepCopy (w.duplicate (.struct s)).2 s (w.copiesAfter [] (.struct s)).image := by
  have once : (Copies.originals []).Nodup := List.nodup_nil
  have after : (w.duplicate (.struct s)).2 = { w with scopes := w.scopesAfter [] (.struct s) } := by
    rw [duplicate, duplicateWith_eq]
  rw [after]
  have mirrors : ∀ t, w.Reaches s t → (w.scope t).Mirrors (w.copiesAfter [] (.struct s)).image
      ((w.scopesAfter [] (.struct s)).get ((w.copiesAfter [] (.struct s)).image t)) := by
    intro t leads
    obtain ⟨i, visits⟩ := (visited_iff housed).mpr leads
    rw [image_copiesAfter_of_visited once visits, get_scopesAfter_of_visited visits]
    exact mirrors_copyOf _ fun _ _ => rfl
  refine ⟨rfl, fun t issued => get_scopesAfter_of_lt w [] _ issued, ?_, fun u => reaches_image_iff mirrors, ?_, mirrors⟩
  · intro t u first second same
    obtain ⟨i, visits⟩ := (visited_iff housed).mpr first
    obtain ⟨j, other⟩ := (visited_iff housed).mpr second
    rw [image_copiesAfter_of_visited once visits, image_copiesAfter_of_visited once other, Id.mk.injEq,
      Nat.add_left_cancel_iff] at same
    subst j
    exact Option.some.inj (visits.symm.trans other)
  · intro n
    rw [size_scopesAfter]
    constructor
    · rintro ⟨least, most⟩
      have visits := List.getElem?_eq_getElem (l := w.visited [] (.struct s)) (i := n - w.scopes.size) (by omega)
      refine ⟨_, (visited_iff housed).mp ⟨_, visits⟩, ?_⟩
      rw [image_copiesAfter_of_visited once visits, Nat.add_sub_cancel' least]
    · rintro ⟨t, leads, is⟩
      obtain ⟨i, visits⟩ := (visited_iff housed).mpr leads
      have within := (List.getElem?_eq_some_iff.mp visits).1
      rw [image_copiesAfter_of_visited once visits, Id.mk.injEq] at is
      omega

end Duplicate

/-- A copy and what it was copied from have no scope in common. -/
theorem DeepCopy.severed (copied : w.DeepCopy later s image) (housed : ∀ t, w.Reaches s t → t.number < w.scopes.size) :
    later.Severed s (image s) := by
  intro u leads other
  have original : w.Reaches s u := (reaches_congr fun t reached => copied.kept t (housed t reached)).mp leads
  obtain ⟨t, reached, rfl⟩ := (copied.onto u).mp other
  have new := ((copied.made _).mpr ⟨t, reached, rfl⟩).1
  exact Nat.not_lt_of_le new (housed _ original)

/-- Copying a scope, in a heap of any shape, gives the root of a second graph: there is a one to one map from what the
scope leads to onto what the copy leads to, all images are new and mirror their originals, and nothing that is written
from one side afterwards is seen from the other. -/
theorem duplicate_copies_graph (w : World) (s : ScopeId) (housed : ∀ t, w.Reaches s t → t.number < w.scopes.size) :
    ∃ copy image later, w.duplicate (.struct s) = (.struct copy, later) ∧ image s = copy ∧ w.DeepCopy later s image ∧
      ∀ written, (WrittenFrom s copy later written → SameFrom copy later written) ∧
        (WrittenFrom copy s later written → SameFrom s later written) := by
  have copied := deepCopy_duplicate housed
  refine ⟨_, _, _, ?_, rfl, copied, fun written => ⟨fun writes => ?_, fun writes => ?_⟩⟩
  · rw [duplicate, duplicateWith_eq]
    rfl
  · exact ((copied.severed housed).unseen writes).2
  · exact ((copied.severed housed).symm.unseen writes).2

theorem housed_of_closed {w : World} {s : ScopeId} {bound : Nat} (inside : s.number < bound)
    (closed : ∀ n : Fin bound, ∀ child ∈ structs (w.scope ⟨n⟩).bindings.values, child.number < bound) :
    ∀ t, w.Reaches s t → t.number < bound := by
  intro t leads
  induction leads with
  | refl => exact inside
  | @tail a b _ step inside => exact closed ⟨a.number, inside⟩ b (mem_structs.mpr step)

/-- A session scope that holds itself, and twice one struct that leads back to it. -/
def looped : World :=
  { scopes := ⟨#[
      ⟨.of "session", .partlyLocked [.of "me"],
        ⟨[(.of "me", .struct ⟨0⟩), (.of "left", .struct ⟨1⟩), (.of "right", .struct ⟨1⟩)]⟩⟩,
      ⟨.of "shared", .positional, ⟨[(.of "up", .struct ⟨0⟩), (.of "call", .function ⟨0⟩)]⟩⟩]⟩ }

theorem housed_looped : ∀ t, looped.Reaches ⟨0⟩ t → t.number < looped.scopes.size :=
  housed_of_closed (by decide) (by decide)

theorem duplicate_copies_graph_looped :
    (∀ t, looped.Reaches ⟨0⟩ t → t.number < looped.scopes.size) ∧
      ∃ copy image later, looped.duplicate (.struct ⟨0⟩) = (.struct copy, later) ∧ image ⟨0⟩ = copy ∧
        looped.DeepCopy later ⟨0⟩ image ∧
        ∀ written, (WrittenFrom ⟨0⟩ copy later written → SameFrom copy later written) ∧
          (WrittenFrom copy ⟨0⟩ later written → SameFrom ⟨0⟩ later written) :=
  ⟨housed_looped, duplicate_copies_graph looped ⟨0⟩ housed_looped⟩

end ScopeEngine.World
