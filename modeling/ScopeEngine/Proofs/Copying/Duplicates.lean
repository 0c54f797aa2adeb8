import Mathlib.Logic.Relation
import ScopeEngine.Copying
import ScopeEngine.Proofs.Identities

/-! What copying makes of a heap. A copy visits everything that struct values lead to, once. Each scope that is visited gets
one new scope, which holds what the original holds with every struct replaced by its copy; the originals stay. Several values
can be copied under one map of copies. -/

namespace ScopeEngine.World

open World

variable {w later : World} {s t u : ScopeId} {pending seen : List ScopeId}

def structs (values : List Value) : List ScopeId :=
  values.filterMap fun value => match value with
    | .struct s => some s
    | _ => none

def children (w : World) (s : ScopeId) : List ScopeId := structs (w.scope s).bindings.values

theorem length_children_le (w : World) (s : ScopeId) : (w.children s).length ≤ (w.scope s).bindings.entries.length := by
  refine Nat.le_trans (List.length_filterMap_le ..) (Nat.le_of_eq ?_)
  rw [Bindings.values, List.length_map]

/-- The scopes seen, and then all that can be reached from `pending` without passing through them. -/
def explore (w : World) (pending seen : List ScopeId) : List ScopeId :=
  match pending with
  | [] => seen
  | s :: rest =>
    if fresh : s.number < w.scopes.size ∧ ¬ seen.contains s then
      have := unseen_append_lt w seen s fresh.1 fresh.2
      have := w.length_children_le s
      w.explore (w.children s ++ rest) (seen ++ [s])
    else
      w.explore rest seen
termination_by w.unseen seen + pending.length
decreasing_by
  · simp only [List.length_append, List.length_cons]
    omega
  · simp only [List.length_cons]
    omega

theorem explore_append (w : World) (pending more seen : List ScopeId) :
    w.explore (pending ++ more) seen = w.explore more (w.explore pending seen) := by
  fun_induction explore w pending seen with
  | case1 seen => rfl
  | case2 seen s rest fresh _ _ ih =>
    rw [List.cons_append, explore, dif_pos fresh, ← List.append_assoc]
    exact ih
  | case3 seen s rest known ih =>
    rw [List.cons_append, explore, dif_neg known]
    exact ih

def Refers (w : World) (s t : ScopeId) : Prop := Value.struct t ∈ (w.scope s).bindings.values

/-- Struct values lead from the first scope to the second. -/
abbrev Reaches (w : World) : ScopeId → ScopeId → Prop := Relation.ReflTransGen w.Refers

abbrev ReachesBeyond (w : World) (seen : List ScopeId) : ScopeId → ScopeId → Prop :=
  Relation.ReflTransGen fun s t => s ∉ seen ∧ w.Refers s t

theorem mem_structs {values : List Value} : t ∈ structs values ↔ Value.struct t ∈ values := by
  simp only [structs, List.mem_filterMap]
  constructor
  · rintro ⟨value, held, is⟩
    cases value <;> cases is
    exact held
  · exact fun held => ⟨_, held, rfl⟩

theorem ReachesBeyond.reaches (leads : w.ReachesBeyond seen s t) : w.Reaches s t :=
  Relation.ReflTransGen.mono (fun _ _ step => step.2) _ _ leads

theorem reachesBeyond_nil : w.ReachesBeyond [] s t ↔ w.Reaches s t :=
  ⟨ReachesBeyond.reaches, Relation.ReflTransGen.mono (fun _ _ step => ⟨List.not_mem_nil, step⟩) _ _⟩

theorem Reaches.congr (same : ∀ u, w.Reaches s u → later.scope u = w.scope u) (leads : w.Reaches s t) :
    later.Reaches s t := by
  induction leads with
  | refl => exact .refl
  | tail before step ih =>
    refine ih.tail ?_
    rw [Refers, same _ before]
    exact step

theorem reaches_congr (same : ∀ u, w.Reaches s u → later.scope u = w.scope u) : later.Reaches s t ↔ w.Reaches s t := by
  refine ⟨fun leads => ?_, Reaches.congr same⟩
  induction leads with
  | refl => exact .refl
  | tail _ step ih =>
    refine ih.tail ?_
    rw [Refers, ← same _ ih]
    exact step

theorem prefix_explore (w : World) (pending seen : List ScopeId) : seen <+: w.explore pending seen := by
  fun_induction explore w pending seen with
  | case1 seen => exact List.prefix_rfl
  | case2 seen s rest fresh _ _ ih => exact (List.prefix_append ..).trans ih
  | case3 seen s rest known ih => exact ih

theorem nodup_explore (once : seen.Nodup) : (w.explore pending seen).Nodup := by
  fun_induction explore w pending seen with
  | case1 seen => exact once
  | case2 seen s rest fresh _ _ ih =>
    apply ih
    have new : s ∉ seen := by simpa using fresh.2
    exact List.nodup_append.mpr ⟨once, List.pairwise_singleton _ s, by grind⟩
  | case3 seen s rest known ih => exact ih once

theorem reachesBeyond_of_mem_explore (found : t ∈ w.explore pending seen) :
    t ∈ seen ∨ ∃ p ∈ pending, w.ReachesBeyond seen p t := by
  fun_induction explore w pending seen with
  | case1 seen => exact .inl found
  | case2 seen s rest fresh _ _ ih =>
    have new : s ∉ seen := by simpa using fresh.2
    obtain before | ⟨p, waits, leads⟩ := ih found
    · obtain before | rfl := (List.mem_append.mp before).imp_right List.mem_singleton.mp
      · exact .inl before
      · exact .inr ⟨_, List.mem_cons_self, .refl⟩
    · -- What avoids more scopes avoids these ones too; a child of `s` is reached from `s`.
      have shorter : w.ReachesBeyond seen p t :=
        Relation.ReflTransGen.mono (fun _ _ step => ⟨fun before => step.1 (List.mem_append_left _ before), step.2⟩)
          _ _ leads
      rcases List.mem_append.mp waits with child | later
      · exact .inr ⟨s, List.mem_cons_self, .head ⟨new, mem_structs.mp child⟩ shorter⟩
      · exact .inr ⟨p, List.mem_cons_of_mem _ later, shorter⟩
  | case3 seen s rest known ih =>
    exact (ih found).imp_right fun ⟨p, waits, leads⟩ => ⟨p, List.mem_cons_of_mem _ waits, leads⟩

theorem mem_explore_of_pending (waits : t ∈ pending) (issued : t.number < w.scopes.size) :
    t ∈ w.explore pending seen := by
  fun_induction explore w pending seen with
  | case1 seen => cases waits
  | case2 seen s rest fresh _ _ ih =>
    rcases List.mem_cons.mp waits with rfl | later
    · exact (prefix_explore ..).mem (List.mem_append_right _ (List.mem_singleton_self _))
    · exact ih (List.mem_append_right _ later)
  | case3 seen s rest known ih =>
    rcases List.mem_cons.mp waits with rfl | later
    · have before : t ∈ seen := by simpa [issued] using known
      exact (prefix_explore ..).mem before
    · exact ih later

theorem mem_explore_of_refers (found : t ∈ w.explore pending seen) (new : t ∉ seen) (step : w.Refers t u)
    (issued : u.number < w.scopes.size) : u ∈ w.explore pending seen := by
  fun_induction explore w pending seen with
  | case1 seen => exact absurd found new
  | case2 seen s rest fresh _ _ ih =>
    by_cases current : t = s
    · subst t
      exact mem_explore_of_pending (List.mem_append_left _ (mem_structs.mpr step)) issued
    · exact ih found (by simp [new, current])
  | case3 seen s rest known ih => exact ih found new

/-- Where nothing dangles, everything that the pending scopes lead to is found. -/
theorem mem_explore_of_reachesBeyond {p : ScopeId} (waits : p ∈ pending) (leads : w.ReachesBeyond seen p t)
    (housed : ∀ u, w.Reaches p u → u.number < w.scopes.size) : t ∈ w.explore pending seen := by
  induction leads with
  | refl => exact mem_explore_of_pending waits (housed p .refl)
  | tail before step ih => exact mem_explore_of_refers ih step.1 step.2 (housed _ ((ReachesBeyond.reaches before).tail step.2))

end ScopeEngine.World

namespace ScopeEngine

/-- A value whose struct, if it is one, is replaced by its image. -/
def Value.along (image : ScopeId → ScopeId) : Value → Value
  | .struct s => .struct (image s)
  | value => value

/-- The second scope is the first one over again, with every struct replaced by its image and nothing locked. -/
structure Scope.Mirrors (image : ScopeId → ScopeId) (original copy : Scope) : Prop where
  name : copy.name = original.name
  positional : copy.isPositional = original.isPositional
  unlocked : ∀ key, copy.isLocked key = false
  entries : copy.bindings.entries = original.bindings.entries.map fun entry => (entry.1, entry.2.along image)

theorem Value.along_eq_struct {image : ScopeId → ScopeId} {value : Value} {u : ScopeId} :
    value.along image = .struct u ↔ ∃ t, value = .struct t ∧ image t = u := by
  cases value <;> simp [along]

theorem Scope.Mirrors.struct_mem {image : ScopeId → ScopeId} {original copy : Scope} {u : ScopeId}
    (mirrors : original.Mirrors image copy) :
    Value.struct u ∈ copy.bindings.values ↔ ∃ t, Value.struct t ∈ original.bindings.values ∧ image t = u := by
  simp only [Bindings.values, mirrors.entries, List.map_map, List.mem_map, Function.comp_apply, Value.along_eq_struct]
  grind

namespace Copies

def image (copies : Copies) (s : ScopeId) : ScopeId := (copies.lookup s).getD s

theorem image_of_mem {copies : Copies} {s t : ScopeId} (once : copies.originals.Nodup) (made : (s, t) ∈ copies) :
    copies.image s = t := by
  have found : copies.lookup s = some t := by
    induction copies with
    | nil => cases made
    | cons first rest ih =>
      have ⟨new, once⟩ := List.nodup_cons.mp once
      rcases List.mem_cons.mp made with rfl | made
      · exact List.lookup_cons_self
      · have other : s ≠ first.1 := by
          rintro rfl
          exact new (List.mem_map.mpr ⟨_, made, rfl⟩)
        rw [List.lookup_cons, beq_false_of_ne other]
        exact ih once made
  rw [image, found, Option.getD_some]

end Copies

namespace World

variable {w later : World} {copies : Copies} {value : Value} {s t u : ScopeId} {image : ScopeId → ScopeId}

def copyOf (copies : Copies) (scope : Scope) : Scope where
  name := scope.name
  kind := if scope.isPositional then .positional else .generic
  bindings := ⟨scope.bindings.entries.map fun entry => (entry.1, entry.2.along copies.image)⟩

theorem mirrors_copyOf (original : Scope) (agrees : ∀ t, Value.struct t ∈ original.bindings.values → copies.image t = image t) :
    original.Mirrors image (copyOf copies original) where
  name := rfl
  positional := by
    cases kind : original.kind <;> simp [copyOf, Scope.isPositional, kind]
  unlocked := by
    intro key
    cases kind : original.kind <;> simp [copyOf, Scope.isPositional, Scope.isLocked, kind]
  entries := by
    apply List.map_congr_left
    rintro ⟨key, value⟩ held
    cases value with
    | struct t => exact congrArg (fun t => (key, Value.struct t)) (agrees t (List.mem_map_of_mem held))
    | _ => rfl

section Tables

variable {copy : ScopeId → Scope} {table : Table .scope Scope}

theorem size_foldl_add (new : List ScopeId) (copy : ScopeId → Scope) (table : Table .scope Scope) :
    (new.foldl (fun table s => table.add (copy s)) table).size = table.size + new.length := by
  induction new generalizing table with
  | nil => rfl
  | cons s rest ih => rw [List.foldl_cons, ih, Table.size_add, List.length_cons]; omega

theorem get_foldl_add_of_lt (new : List ScopeId) (issued : t.number < table.size) :
    (new.foldl (fun table s => table.add (copy s)) table).get t = table.get t := by
  induction new generalizing table with
  | nil => rfl
  | cons s rest ih =>
    have still : t.number < (table.add (copy s)).size := by rw [Table.size_add]; omega
    rw [List.foldl_cons, ih still, Table.get_add_of_lt _ _ issued]

theorem get_foldl_add_of_ge {new : List ScopeId} {i : Nat} (within : new[i]? = some s) :
    (new.foldl (fun table s => table.add (copy s)) table).get ⟨table.size + i⟩ = copy s := by
  induction new generalizing table i with
  | nil => cases within
  | cons first rest ih =>
    cases i with
    | zero =>
      cases within
      have last : (⟨table.size + 0⟩ : ScopeId).number < (table.add (copy s)).size := by simp
      rw [List.foldl_cons, get_foldl_add_of_lt rest last, Table.get_add]
      exact if_pos rfl
    | succ i =>
      have moved : (rest.foldl (fun table s => table.add (copy s)) (table.add (copy first))).get
          ⟨(table.add (copy first)).size + i⟩ = copy s := ih within
      rw [Table.size_add, Nat.add_right_comm] at moved
      exact moved

theorem set_foldl_add (new : List ScopeId) (row : Scope) (issued : t.number < table.size) :
    (new.foldl (fun table s => table.add (copy s)) table).set t row =
      new.foldl (fun table s => table.add (copy s)) (table.set t row) := by
  induction new generalizing table with
  | nil => rfl
  | cons s rest ih =>
    have still : t.number < (table.add (copy s)).size := by rw [Table.size_add]; omega
    rw [List.foldl_cons, ih still, Table.set_add_of_lt _ _ _ issued, List.foldl_cons]

end Tables

def Completes (w : World) (copies final : Copies) : Prop :=
  ∃ more, final = copies ++ more ∧ ∀ entry ∈ more, entry.1.number < w.scopes.size

theorem Completes.refl (w : World) (copies : Copies) : w.Completes copies copies := ⟨[], (List.append_nil _).symm, nofun⟩

theorem Completes.image_eq {final : Copies} (completes : w.Completes copies final)
    (settled : s ∈ copies.originals ∨ w.scopes.size ≤ s.number) : final.image s = copies.image s := by
  obtain ⟨more, rfl, known⟩ := completes
  have looks : (copies ++ more).lookup s = copies.lookup s := by
    rw [List.lookup_append]
    cases found : copies.lookup s with
    | some copy => rfl
    | none =>
      have beyond := settled.resolve_left (Copies.lookup_eq_none.mp found)
      refine Copies.lookup_eq_none.mpr fun held => ?_
      obtain ⟨entry, made, rfl⟩ := List.mem_map.mp held
      exact Nat.not_lt_of_le beyond (known entry made)
  rw [Copies.image, looks, Copies.image]

end World

namespace Copying

def listed (state : Copying) (new : List ScopeId) : Copies :=
  state.copies ++ new.mapIdx fun i s => (s, ⟨state.scopes.size + i⟩)

theorem originals_listed (state : Copying) (new : List ScopeId) :
    (state.listed new).originals = state.copies.originals ++ new := by
  rw [listed, Copies.originals, List.map_append, Copies.originals]
  congr 1
  apply List.ext_getElem <;> simp

/-- A copy has gone on and has copied `new`, in this order. -/
structure Copied (w : World) (state : Copying) (new : List ScopeId) (last : Copying) : Prop where
  known : ∀ s ∈ new, s.number < w.scopes.size
  copies : last.copies = state.listed new
  scopes : ∀ final, w.Completes last.copies final →
    last.scopes = new.foldl (fun table s => table.add (World.copyOf final (w.scope s))) state.scopes

namespace Copied

variable {w : World} {state mid last : Copying} {new more : List ScopeId} {final : Copies} {s : ScopeId}

theorem refl (w : World) (state : Copying) : Copied w state [] state :=
  ⟨nofun, (List.append_nil _).symm, fun _ _ => rfl⟩

theorem size (copied : Copied w state new last) : last.scopes.size = state.scopes.size + new.length := by
  rw [copied.scopes last.copies (.refl ..)]
  exact World.size_foldl_add ..

theorem completes (copied : Copied w state new last) (completes : w.Completes last.copies final) :
    w.Completes state.copies final := by
  obtain ⟨more, rfl, known⟩ := completes
  rw [copied.copies, listed, List.append_assoc]
  refine ⟨_, rfl, fun entry held => ?_⟩
  rcases List.mem_append.mp held with first | second
  · obtain ⟨i, within, rfl⟩ := List.mem_mapIdx.mp first
    exact copied.known _ (List.getElem_mem within)
  · exact known entry second

theorem trans (first : Copied w state new mid) (second : Copied w mid more last) : Copied w state (new ++ more) last where
  known := fun s held => (List.mem_append.mp held).elim (first.known s) (second.known s)
  copies := by
    rw [second.copies, listed, first.copies, listed, listed, List.append_assoc, List.mapIdx_append, first.size]
    simp [Nat.add_assoc, Nat.add_comm]
  scopes := fun final completes => by
    rw [second.scopes final completes, first.scopes final (second.completes completes), List.foldl_append]

end Copied

end Copying

namespace World

variable {w later : World} {copies : Copies} {value : Value} {s t u : ScopeId} {image : ScopeId → ScopeId}

section Recursion

/-- A scope that gets a copy has it at once, and is done when its entries are. -/
theorem copied_register (w : World) {state filled : Copying} {new : List ScopeId} {blank : Scope} (known : s.number < w.scopes.size)
    (copied : Copying.Copied w ⟨state.copies ++ [(s, state.scopes.next)], state.scopes.add blank⟩ new filled) {row : Scope}
    (is : ∀ final, w.Completes filled.copies final → row = copyOf final (w.scope s)) :
    Copying.Copied w state (s :: new) { filled with scopes := filled.scopes.set state.scopes.next row } where
  known := fun t held => (List.mem_cons.mp held).elim (fun same => same ▸ known) (copied.known t)
  copies := by
    simp only [copied.copies, Copying.listed, Table.size_add, List.append_assoc, List.mapIdx_cons, List.singleton_append, Nat.add_zero,
      Nat.add_right_comm _ 1]
    rfl
  scopes := fun final completes => by
    have inside : state.scopes.next.number < (state.scopes.add blank).size := Table.next_lt_size_add ..
    rw [copied.scopes final completes, set_foldl_add new row inside, Table.set_add_next, is final completes, List.foldl_cons]

mutual

theorem copied_copyScope (w : World) (state : Copying) (s : ScopeId) : ∃ new, Copying.Copied w state new (w.copyScope state s).1.2 ∧
    w.explore [s] state.copies.originals = state.copies.originals ++ new ∧
    ∀ final, w.Completes (w.copyScope state s).1.2.copies final → final.image s = (w.copyScope state s).1.1 := by
  rw [copyScope.eq_def]
  split
  next copy found =>
    have held : s ∈ state.copies.originals := Decidable.not_not.mp fun absent =>
      nomatch found.symm.trans (Copies.lookup_eq_none.mpr absent)
    refine ⟨[], .refl w state, ?_, fun final completes => ?_⟩
    · simp [explore, held]
    · rw [completes.image_eq (.inl held), Copies.image, found]
      rfl
  next found =>
    have absent := Copies.lookup_eq_none.mp found
    split
    next known =>
      have less := w.unseen_register_lt known found state.scopes.next
      let blank : Scope := ⟨(w.scope s).name, if (w.scope s).isPositional then .positional else .generic, .empty⟩
      obtain ⟨new, copied, explored, entries⟩ := w.copied_copyEntries
        ⟨state.copies ++ [(s, state.scopes.next)], state.scopes.add blank⟩ (w.scope s).bindings.entries
      have registers := w.copied_register known copied fun final completes => by
        exact congrArg (fun entries => (⟨blank.name, blank.kind, ⟨entries⟩⟩ : Scope)) (entries final completes)
      refine ⟨s :: new, registers, ?_, fun final completes => ?_⟩
      · have first : w.explore [s] state.copies.originals = w.explore (w.children s) (state.copies.originals ++ [s]) := by
          rw [explore, dif_pos ⟨known, by simpa using absent⟩, List.append_nil]
        rw [first, children, Bindings.values]
        simpa [Copies.originals] using explored
      · have here : s ∈ (state.listed (s :: new)).originals := by simp [Copying.originals_listed]
        have own : (state.listed (s :: new)).image s = state.scopes.next := by
          rw [Copies.image, Copying.listed, List.lookup_append, found, List.mapIdx_cons, List.lookup_cons_self]
          rfl
        rw [completes.image_eq (.inl (registers.copies ▸ here)), registers.copies]
        exact own
    next dangling =>
      refine ⟨[], .refl w state, ?_, fun final completes => ?_⟩
      · simp [explore, dangling]
      · rw [completes.image_eq (.inr (Nat.le_of_not_lt dangling)), Copies.image, found]
        rfl
termination_by w.unseen state.copies.originals

theorem copied_copyEntries (w : World) (state : Copying) (entries : List (Key × Value)) :
    ∃ new, Copying.Copied w state new (w.copyEntries state entries).1.2 ∧
      w.explore (structs (entries.map (·.2))) state.copies.originals = state.copies.originals ++ new ∧
      ∀ final, w.Completes (w.copyEntries state entries).1.2.copies final →
        (w.copyEntries state entries).1.1 = entries.map fun entry => (entry.1, entry.2.along final.image) := by
  match entries with
  | [] =>
    rw [copyEntries.eq_def]
    exact ⟨[], .refl w state, by simp [explore, structs], fun _ _ => rfl⟩
  | (key, .struct s) :: rest =>
    rw [copyEntries.eq_def]
    obtain ⟨new, copied, explored, is⟩ := w.copied_copyScope state s
    have fewer := (w.copyScope state s).2
    obtain ⟨more, further, explores, are⟩ := w.copied_copyEntries (w.copyScope state s).1.2 rest
    refine ⟨new ++ more, copied.trans further, ?_, fun final completes => ?_⟩
    · have splits : structs (((key, Value.struct s) :: rest).map (·.2)) = [s] ++ structs (rest.map (·.2)) := rfl
      rw [splits, explore_append, explored, ← Copying.originals_listed, ← copied.copies, explores, copied.copies,
        Copying.originals_listed, List.append_assoc]
    · rw [List.map_cons, ← are final completes]
      exact congrArg (fun s => (key, Value.struct s) :: _) (is final (further.completes completes)).symm
  | (key, .null) :: rest | (key, .boolean _) :: rest | (key, .integer _) :: rest | (key, .float _) :: rest
  | (key, .string _) :: rest | (key, .dateTime _) :: rest | (key, .function _) :: rest =>
    rw [copyEntries.eq_def]
    obtain ⟨new, copied, explored, are⟩ := w.copied_copyEntries state rest
    exact ⟨new, copied, explored, fun final completes => congrArg (_ :: ·) (are final completes)⟩
termination_by w.unseen state.copies.originals + entries.length

end

end Recursion

def visited (w : World) (copies : Copies) (value : Value) : List ScopeId :=
  (w.explore (structs [value]) copies.originals).drop copies.length

def copiesAfter (w : World) (copies : Copies) (value : Value) : Copies :=
  copies ++ (w.visited copies value).mapIdx fun i s => (s, ⟨w.scopes.size + i⟩)

def scopesAfter (w : World) (copies : Copies) (value : Value) : Table .scope Scope :=
  (w.visited copies value).foldl (fun table s => table.add (copyOf (w.copiesAfter copies value) (w.scope s))) w.scopes

section

variable (w : World) (copies : Copies) (value : Value)

theorem duplicateWith_eq :
    w.duplicateWith copies value = (value.along (w.copiesAfter copies value).image, w.copiesAfter copies value,
      { w with scopes := w.scopesAfter copies value }) := by
  unfold duplicateWith
  split
  next s =>
    obtain ⟨new, copied, explored, is⟩ := w.copied_copyScope ⟨copies, w.scopes⟩ s
    have done := Completes.refl w (w.copyScope ⟨copies, w.scopes⟩ s).1.2.copies
    have visits : w.visited copies (.struct s) = new := by
      rw [visited, show structs [Value.struct s] = [s] from rfl, explored]
      exact List.drop_left' (List.length_map _)
    have after : (w.copyScope ⟨copies, w.scopes⟩ s).1.2.copies = w.copiesAfter copies (.struct s) := by
      rw [copied.copies, copiesAfter, visits]
      rfl
    rw [scopesAfter, visits, ← after, ← copied.scopes _ done, Value.along, is _ done]
  next other =>
    have plain : structs [value] = [] ∧ ∀ image, value.along image = value := by
      cases value with
      | struct s => exact absurd rfl (other s)
      | _ => exact ⟨rfl, fun _ => rfl⟩
    have visits : w.visited copies value = [] := by
      rw [visited, plain.1, explore, Copies.originals]
      simp
    rw [scopesAfter, copiesAfter, visits, plain.2]
    simp

theorem explore_eq_append :
    w.explore (structs [value]) copies.originals = copies.originals ++ w.visited copies value := by
  have starts := List.prefix_iff_eq_append.mp (w.prefix_explore (structs [value]) copies.originals)
  rw [Copies.originals, List.length_map] at starts
  exact starts.symm

theorem originals_copiesAfter :
    (w.copiesAfter copies value).originals = w.explore (structs [value]) copies.originals := by
  rw [explore_eq_append, copiesAfter, Copies.originals, List.map_append, Copies.originals]
  congr 1
  apply List.ext_getElem <;> simp

end

section Copied

variable (once : copies.originals.Nodup)
include once

theorem nodup_copiesAfter (w : World) (value : Value) : (w.copiesAfter copies value).originals.Nodup := by
  rw [originals_copiesAfter]
  exact nodup_explore once

theorem image_copiesAfter_of_mem (w : World) (value : Value) (before : s ∈ copies.originals) :
    (w.copiesAfter copies value).image s = copies.image s := by
  obtain ⟨⟨_, t⟩, made, rfl⟩ := List.mem_map.mp before
  rw [Copies.image_of_mem once made]
  exact Copies.image_of_mem (nodup_copiesAfter once w value) (List.mem_append_left _ made)

theorem image_copiesAfter_of_visited {i : Nat} (visits : (w.visited copies value)[i]? = some s) :
    (w.copiesAfter copies value).image s = ⟨w.scopes.size + i⟩ := by
  apply Copies.image_of_mem (nodup_copiesAfter once w value)
  apply List.mem_append_right
  obtain ⟨within, rfl⟩ := List.getElem?_eq_some_iff.mp visits
  exact List.mem_mapIdx.mpr ⟨i, within, rfl⟩

end Copied

theorem visited_of_mem (made : s ∈ (w.copiesAfter copies value).originals) (new : s ∉ copies.originals) :
    ∃ i : Nat, (w.visited copies value)[i]? = some s := by
  rw [originals_copiesAfter, explore_eq_append] at made
  exact List.mem_iff_getElem?.mp ((List.mem_append.mp made).resolve_left new)

section

variable (w : World) (copies : Copies) (value : Value)

theorem size_scopesAfter : (w.scopesAfter copies value).size = w.scopes.size + (w.visited copies value).length :=
  size_foldl_add ..

theorem get_scopesAfter_of_lt (issued : s.number < w.scopes.size) : (w.scopesAfter copies value).get s = w.scope s :=
  get_foldl_add_of_lt _ issued

end

theorem get_scopesAfter_of_visited {i : Nat} (visits : (w.visited copies value)[i]? = some s) :
    (w.scopesAfter copies value).get ⟨w.scopes.size + i⟩ = copyOf (w.copiesAfter copies value) (w.scope s) :=
  get_foldl_add_of_ge visits

end World

end ScopeEngine
