import ScopeEngine.Proofs.Arguments.Binding

/-! How the entries of scopes stand. Whatever is done to a scope, its keys stay distinct: a write goes to the entry that its
key stands for, by its place or by its name, and only a key that stands for none comes new, at the end. A partly locked scope
does with all other keys what a generic scope does, and the entries of its locked keys are frozen from the start. -/

namespace ScopeEngine

namespace Bindings

variable {α : Type} {b : Bindings α}

theorem distinct_insert (distinct : Key.Distinct b.keys) (key : Key) (value : α) : Key.Distinct (b.insert key value).keys := by
  obtain ⟨unbound, is⟩ | ⟨front, bound, old, back, -, split, is⟩ := b.insert_cases key value
  · rw [keys, is, List.map_append]
    refine List.pairwise_append.mpr ⟨distinct, List.pairwise_singleton .., fun other held last new => ?_⟩
    rw [List.mem_singleton.mp new]
    obtain ⟨entry, member, rfl⟩ := List.mem_map.mp held
    exact find?_eq_none.mp unbound entry member
  · simpa [keys, is, split.entries] using distinct

theorem distinct_ofList (entries : List (Key × α)) : Key.Distinct (ofList entries).keys := by
  have adds : ∀ (entries : List (Key × α)) (b : Bindings α), Key.Distinct b.keys →
      Key.Distinct (entries.foldl (fun bindings entry => bindings.insert entry.1 entry.2) b).keys := by
    intro entries
    induction entries with
    | nil => exact fun _ distinct => distinct
    | cons entry rest ih => exact fun b distinct => ih _ (distinct_insert distinct entry.1 entry.2)
  exact adds entries empty .nil

/-- The last value that is listed under a key. -/
def lastListed (entries : List (Key × α)) (key : Key) : Option α :=
  (entries.reverse.find? fun entry => entry.1 == key).map (·.2)

theorem find?_ofList (entries : List (Key × α)) (key : Key) : (ofList entries).find? key = lastListed entries key := by
  have adds : ∀ (entries : List (Key × α)) (b : Bindings α),
      (entries.foldl (fun bindings entry => bindings.insert entry.1 entry.2) b).find? key =
        (lastListed entries key).or (b.find? key) := by
    intro entries
    induction entries with
    | nil => exact fun _ => rfl
    | cons entry rest ih =>
      intro b
      rw [List.foldl_cons, ih, find?_insert, lastListed, lastListed, List.reverse_cons, List.find?_append]
      cases List.find? (fun entry => entry.1 == key) rest.reverse with
      | some => rfl
      | none => cases same : entry.1 == key <;> simp [same]
  refine (adds entries empty).trans ?_
  rw [empty, find?, List.find?_nil, Option.map_none, Option.or_none]

theorem lastListed_of_listed {entries : List (Key × α)} {key : Key} (listed : (entries.any fun entry => entry.1 == key) = true) :
    ∃ value, lastListed entries key = some value := by
  obtain ⟨entry, member, same⟩ := List.any_eq_true.mp listed
  refine Option.ne_none_iff_exists'.mp fun none => ?_
  rw [lastListed, Option.map_eq_none_iff, List.find?_eq_none] at none
  exact none entry (List.mem_reverse.mpr member) same

end Bindings

namespace Scope

/-- What a program does to a scope. -/
inductive Operation where
  | put (key : Key) (value : Value)
  | putIfAbsent (key : Key) (value : Value)
  | update (key : Key) (change : Option Value → Value)
  | remove (key : Key)
  | clear

def settle {α : Type} (scope : Scope) (answer : α → Option Value) :
    Except Error (α × Scope) → Except Error (Option Value) × Scope
  | .ok (found, written) => (.ok (answer found), written)
  | .error error => (.error error, scope)

def perform (scope : Scope) : Operation → Except Error (Option Value) × Scope
  | .put key value => scope.settle id (scope.put key value)
  | .putIfAbsent key value => scope.settle some (scope.putIfAbsent key value)
  | .update key change => scope.settle some (scope.update key change)
  | .remove key => scope.settle id (scope.remove key)
  | .clear => (.ok none, scope.clear)

def Operation.written (scope : Scope) : Operation → Option (Key × Value)
  | .put key value => some (key, value)
  | .putIfAbsent key value => if (scope.get key).isNone then some (key, value) else none
  | .update key change => some (key, change (scope.get key))
  | .remove _ | .clear => none

/-- A scope that comes out of a constructor, and of whatever is done to it and to copies of it. -/
inductive Reached : Scope → Prop where
  | new (name : Key) : Reached (.new name)
  | arguments : Reached .newArguments
  | locked (name : Key) (entries : List (Key × Value)) : Reached (.newLocked name entries)
  | performed {scope : Scope} (reached : Reached scope) (operation : Operation) : Reached (scope.perform operation).2
  | duplicated {w later : World} {s copy : ScopeId} (reached : Reached (w.scope s)) (issued : s.number < w.scopes.size)
      (copied : w.duplicate (.struct s) = (.struct copy, later)) : Reached (later.scope copy)

/-- The entry at place `i` is the one that the key stands for: by its number, in a positional scope, or else by its name. -/
inductive Names (scope : Scope) (key : Key) (i : Nat) (entry : Key × Value) : Prop where
  | place {n : Int64} (positional : scope.kind = .positional) (number : key.number = some n) (is : n.toInt = i + 1)
      (there : scope.bindings.entries[i]? = some entry)
  | name (unplaced : scope.entryAt? key = none) (there : scope.bindings.entries[i]? = some entry)
      (same : (entry.1 == key) = true)

variable {scope : Scope} {key : Key} {value : Value} {i : Nat} {entry : Key × Value}

theorem Names.there (names : scope.Names key i entry) :
    scope.bindings.entries[i]? = some entry ∧ (entry.1 == scope.realKey key) = true := by
  cases names with
  | @place n positional number is there =>
    have placed : scope.entryAt? key = some entry :=
      entryAt?_eq_some.mpr ⟨positional, n, number, by omega, by rw [is]; exact there⟩
    rw [realKey_eq, placed]
    exact ⟨there, BEq.refl _⟩
  | name unplaced there same => exact ⟨there, by rwa [realKey_of_unplaced unplaced]⟩

theorem get_of_unnamed (unnamed : ∀ i entry, ¬ scope.Names key i entry) : scope.get key = none := by
  refine Option.eq_none_iff_forall_ne_some.mpr fun value bound => ?_
  cases placed : scope.entryAt? key with
  | some entry =>
    obtain ⟨positional, n, number, from1, there⟩ := entryAt?_eq_some.mp placed
    exact unnamed _ _ (.place positional number (by omega) there)
  | none =>
    obtain ⟨entry, member, same, -⟩ := Bindings.mem_entries_of_find? bound
    obtain ⟨i, there⟩ := List.mem_iff_getElem?.mp member
    rw [realKey_of_unplaced placed] at same
    exact unnamed i entry (.name placed there same)

theorem isLocked_realKey (scope : Scope) (key : Key) : scope.isLocked (scope.realKey key) = scope.isLocked key := by
  cases kind : scope.kind with
  | positional => simp [isLocked, kind]
  | generic | partlyLocked => rw [realKey_of_unplaced (by simp [entryAt?, kind])]

theorem perform_written {operation : Operation} (writes : operation.written scope = some (key, value)) :
    (scope.perform operation).2 = if scope.isLocked key then scope
      else { scope with bindings := scope.bindings.insert (scope.realKey key) value } := by
  cases operation with
  | put | update =>
    cases writes
    simp only [perform, put, update, isLocked_realKey]
    split <;> rfl
  | putIfAbsent =>
    simp only [Operation.written, Option.isNone_iff_eq_none] at writes
    split at writes
    next unbound =>
      cases writes
      rw [get] at unbound
      simp only [perform, putIfAbsent, unbound, isLocked_realKey]
      split <;> rfl
    next => cases writes
  | remove | clear => cases writes

theorem perform_remove (scope : Scope) (key : Key) : (scope.perform (.remove key)).2 = if scope.isLocked key then scope
    else { scope with bindings := scope.bindings.erase (scope.realKey key) } := by
  simp only [perform, remove, isLocked_realKey]
  split <;> rfl

theorem isLocked_congr {other : Key} (same : (key == other) = true) : scope.isLocked key = scope.isLocked other := by
  have alike : (fun bound : Key => bound == key) = fun bound => bound == other := funext fun _ => BEq.congr_right same
  rw [isLocked, alike, isLocked]

theorem realKey_ne_of_locked {other : Key} (free : scope.isLocked other ≠ true) (locked : scope.isLocked key = true) :
    (scope.realKey other == key) = false := by
  refine Bool.eq_false_iff.mpr fun same => free ?_
  rw [← isLocked_realKey, isLocked_congr same, locked]

/-- What is locked is not touched, and if nothing is to be written, entries are at most removed. -/
structure Keeps (scope : Scope) (operation : Operation) (later : Scope) : Prop where
  name : later.name = scope.name
  kind : later.kind = scope.kind
  locked : ∀ key, scope.isLocked key = true → later.bindings.find? key = scope.bindings.find? key
  removes : operation.written scope = none → later.bindings.entries.Sublist scope.bindings.entries

theorem Keeps.refl (scope : Scope) (operation : Operation) : scope.Keeps operation scope :=
  ⟨rfl, rfl, fun _ _ => rfl, fun _ => .refl _⟩

theorem keeps_perform (scope : Scope) (operation : Operation) : scope.Keeps operation (scope.perform operation).2 := by
  cases writes : operation.written scope with
  | some written =>
    rw [perform_written writes]
    split
    · exact .refl ..
    next free =>
      refine ⟨rfl, rfl, fun key locked => ?_, fun reads => by cases writes.symm.trans reads⟩
      rw [Bindings.find?_insert, if_neg (by simp [realKey_ne_of_locked free locked])]
  | none =>
    cases operation with
    | put | update => cases writes
    | putIfAbsent other value =>
      cases bound : scope.get other with
      | none => simp [Operation.written, bound] at writes
      | some old =>
        rw [get] at bound
        simp only [perform, putIfAbsent, bound, settle]
        exact .refl ..
    | remove other =>
      rw [perform_remove]
      split
      · exact .refl ..
      next free =>
        exact ⟨rfl, rfl, fun key locked => Bindings.find?_erase_of_ne _ (realKey_ne_of_locked free locked),
          fun _ => Bindings.sublist_erase ..⟩
    | clear =>
      refine ⟨rfl, rfl, fun key locked => ?_, fun _ => List.filter_sublist⟩
      have kept : (fun entry : Key × Value => decide (scope.isLocked entry.1 = true ∧ (entry.1 == key) = true)) =
          fun entry => entry.1 == key := by
        funext entry
        rw [Bool.eq_iff_iff, decide_eq_true_eq, and_iff_right_iff_imp]
        exact fun same => (isLocked_congr same).trans locked
      rw [Bindings.find?, Bindings.find?, perform, clear, List.find?_filter, kept]

theorem duplicate_eq {w later : World} {s copy : ScopeId} (issued : s.number < w.scopes.size)
    (copied : w.duplicate (.struct s) = (.struct copy, later)) : ∃ copies, later.scope copy = World.copyOf copies (w.scope s) := by
  have first : (w.visited [] (.struct s))[0]? = some s := by
    have starts : [s] <+: w.explore [s] [] := by
      rw [World.explore, dif_pos ⟨issued, by simp⟩]
      exact World.prefix_explore ..
    obtain ⟨rest, is⟩ := starts
    rw [World.visited, show World.structs [.struct s] = [s] from rfl, Copies.originals, List.map_nil, ← is]
    rfl
  rw [World.duplicate, World.duplicateWith_eq] at copied
  obtain ⟨copies, rfl⟩ := Prod.mk.inj copied
  obtain rfl := Value.struct.inj copies
  refine ⟨w.copiesAfter [] (.struct s), ?_⟩
  have once : (Copies.originals []).Nodup := List.nodup_nil
  rw [World.image_copiesAfter_of_visited once first]
  exact World.get_scopesAfter_of_visited first

theorem keys_copyOf (copies : Copies) (scope : Scope) : (World.copyOf copies scope).keys = scope.keys := by
  simp [keys, Bindings.keys, World.copyOf]

/-- No two keys are equal, and what is locked is bound. -/
structure Tidy (scope : Scope) : Prop where
  distinct : Key.Distinct scope.keys
  locks : ∀ key, scope.isLocked key = true → scope.get key ≠ none

theorem realKey_of_locked (locked : scope.isLocked key = true) (other : Key) : scope.realKey other = other := by
  cases kind : scope.kind with
  | generic | positional => simp [isLocked, kind] at locked
  | partlyLocked => exact realKey_of_unplaced (by simp [entryAt?, kind])

theorem Tidy.perform (tidy : scope.Tidy) (operation : Operation) : (scope.perform operation).2.Tidy := by
  have keeps := scope.keeps_perform operation
  refine ⟨?_, fun key locked => ?_⟩
  · cases writes : operation.written scope with
    | some written =>
      rw [perform_written writes]
      split
      · exact tidy.distinct
      · exact Bindings.distinct_insert tidy.distinct ..
    | none => exact List.Pairwise.sublist ((keeps.removes writes).map _) tidy.distinct
  · have before : scope.isLocked key = true := by rwa [isLocked, keeps.kind] at locked
    have bound := tidy.locks key before
    rw [get, realKey_of_locked before] at bound
    rwa [get, realKey_of_locked locked, keeps.locked key before]

theorem Reached.tidy (reached : scope.Reached) : scope.Tidy := by
  induction reached with
  | new | arguments => exact ⟨.nil, fun _ locked => by cases locked⟩
  | locked name entries =>
    refine ⟨Bindings.distinct_ofList entries, fun key locked => ?_⟩
    have listed : (entries.any fun entry => entry.1 == key) = true := by simpa [isLocked, newLocked, Function.comp_def] using locked
    obtain ⟨value, last⟩ := Bindings.lastListed_of_listed listed
    rw [get, realKey_of_locked locked, newLocked, Bindings.find?_ofList, last]
    exact Option.some_ne_none value
  | performed reached operation tidy => exact tidy.perform operation
  | @duplicated w later s copy reached issued copied tidy =>
    obtain ⟨copies, is⟩ := duplicate_eq issued copied
    rw [is]
    refine ⟨by rw [keys_copyOf]; exact tidy.distinct, fun key locked => ?_⟩
    have mirrors : (w.scope s).Mirrors copies.image (World.copyOf copies (w.scope s)) := World.mirrors_copyOf _ fun _ _ => rfl
    cases (mirrors.unlocked key).symm.trans locked

/-- In every scope that comes about no two entries have equal keys. A write to a key that stands for an entry, by place or by name,
changes the value there and nothing else; any other key goes to the end as it is spelled. Removing a key takes its entry out,
clearing takes out what is not locked, and copies have the same keys in the same order. -/
theorem entries_keep_places {scope : Scope} (reached : scope.Reached) :
    Key.Distinct scope.keys ∧
    (∀ operation key value, operation.written scope = some (key, value) →
      (∀ i entry, scope.Names key i entry → (scope.perform operation).2 = if scope.isLocked key then scope
        else { scope with bindings := ⟨scope.bindings.entries.set i (entry.1, value)⟩ }) ∧
      ((∀ i entry, ¬ scope.Names key i entry) → (scope.perform operation).2 = scope.extended key value)) ∧
    (∀ operation, operation.written scope = none →
      (scope.perform operation).2.bindings.entries.Sublist scope.bindings.entries) ∧
    (∀ key, (∀ i entry, scope.Names key i entry → (scope.perform (.remove key)).2 = if scope.isLocked key then scope
        else { scope with bindings := ⟨scope.bindings.entries.eraseIdx i⟩ }) ∧
      ((∀ i entry, ¬ scope.Names key i entry) → (scope.perform (.remove key)).2 = scope)) ∧
    ∀ (w later : World) (s copy : ScopeId), w.scope s = scope → s.number < w.scopes.size →
      w.duplicate (.struct s) = (.struct copy, later) → (later.scope copy).keys = scope.keys := by
  have tidy := reached.tidy
  refine ⟨tidy.distinct, fun operation key value writes => ⟨fun i entry names => ?_, fun unnamed => ?_⟩,
    fun operation => (scope.keeps_perform operation).removes, fun key => ⟨fun i entry names => ?_, fun unnamed => ?_⟩, ?_⟩
  · rw [perform_written writes, Bindings.insert_at tidy.distinct names.there.1 names.there.2]
  · have unbound := get_of_unnamed unnamed
    have free : scope.isLocked key ≠ true := fun locked => tidy.locks key locked unbound
    rw [perform_written writes, if_neg free, insert_of_unbound unbound]
  · rw [perform_remove, Bindings.erase_at tidy.distinct names.there.1 names.there.2]
  · rw [perform_remove, Bindings.erase_of_unbound (get_of_unnamed unnamed), ite_self]
  · rintro w later s copy rfl issued copied
    obtain ⟨copies, is⟩ := duplicate_eq issued copied
    rw [is, keys_copyOf]

/-- The arguments of a call, put under their names. -/
def ordered : Scope := ((newArguments.perform (.put (.of "item") (.integer 7))).2.perform (.put (.of "note") .null)).2

theorem entries_keep_places_ordered : ordered.Reached ∧ ordered.Names (.ofInt 2) 1 (.of "note", .null) ∧
    (ordered.perform (.put (.ofInt 2) (.integer 9))).2 =
      { ordered with bindings := ⟨ordered.bindings.entries.set 1 (.of "note", .integer 9)⟩ } := by
  have reached : ordered.Reached := .performed (.performed .arguments _) _
  have names : ordered.Names (.ofInt 2) 1 (.of "note", .null) := .place rfl rfl rfl rfl
  exact ⟨reached, names, ((entries_keep_places reached).2.1 (.put (.ofInt 2) (.integer 9)) _ _ rfl).1 1 _ names⟩

end Scope

open Bindings (lastListed)

namespace Scope

def after (scope : Scope) (operations : List Operation) : Scope :=
  operations.foldl (fun scope operation => (scope.perform operation).2) scope

section Twin

variable (entries : List (Key × Value))

def lists (key : Key) : Bool := entries.any fun entry => entry.1 == key

/-- The operation is to change what is bound to a listed key. -/
def Operation.isBarred : Operation → Bool
  | .put key _ | .update key _ | .remove key => lists entries key
  | .putIfAbsent .. | .clear => false

/-- What an operation does to a scope in which nothing is locked, but that clearing leaves the listed keys there. -/
def performSparing (scope : Scope) : Operation → Except Error (Option Value) × Scope
  | .clear => (.ok none, { scope with bindings := ⟨scope.bindings.entries.filter fun entry => lists entries entry.1⟩ })
  | operation => scope.perform operation

/-- The generic scope with the same entries after those operations that are not barred. -/
def unlockedAfter (name : Key) (operations : List Operation) : Scope :=
  (operations.filter (!·.isBarred entries)).foldl (fun scope operation => (scope.performSparing entries operation).2)
    ⟨name, .generic, .ofList entries⟩

end Twin

variable {name key : Key} {entries : List (Key × Value)} {scope twin : Scope} {operation : Operation}

/-- What stays of a scope whose listed keys are locked. -/
structure Frozen (name : Key) (entries : List (Key × Value)) (scope : Scope) : Prop where
  name : scope.name = name
  kind : scope.kind = .partlyLocked (entries.map (·.1))
  holds : ∀ key, lists entries key = true → scope.bindings.find? key = lastListed entries key

theorem frozen_newLocked (name : Key) (entries : List (Key × Value)) : (newLocked name entries).Frozen name entries :=
  ⟨rfl, rfl, fun key _ => Bindings.find?_ofList entries key⟩

namespace Frozen

variable (frozen : scope.Frozen name entries)
include frozen

theorem isLocked (key : Key) : scope.isLocked key = lists entries key := by
  simp [Scope.isLocked, frozen.kind, lists, Function.comp_def]

theorem realKey (key : Key) : scope.realKey key = key :=
  realKey_of_unplaced (by simp [entryAt?, frozen.kind])

theorem locked (key : Key) : scope.locked key = .lockedKey name.name key.name := by
  rw [Scope.locked, frozen.name]

theorem barred (listed : lists entries key = true) :
    (∀ value, scope.perform (.put key value) = (.error (.lockedKey name.name key.name), scope)) ∧
    (∀ change, scope.perform (.update key change) = (.error (.lockedKey name.name key.name), scope)) ∧
    scope.perform (.remove key) = (.error (.lockedKey name.name key.name), scope) := by
  simp only [perform, put, update, remove, frozen.realKey, frozen.isLocked, listed, if_true, settle, frozen.locked]
  exact ⟨fun _ => trivial, fun _ => trivial, trivial⟩

theorem bound (listed : lists entries key = true) : ∃ value, lastListed entries key = some value ∧ scope.get key = some value ∧
    ∀ new, scope.perform (.putIfAbsent key new) = (.ok (some value), scope) := by
  obtain ⟨value, last⟩ := Bindings.lastListed_of_listed listed
  have there : scope.bindings.find? key = some value := (frozen.holds key listed).trans last
  refine ⟨value, last, by rw [get, frozen.realKey, there], fun new => ?_⟩
  simp only [perform, putIfAbsent, frozen.realKey, there, settle]

theorem agrees (generic : twin.kind = .generic) (same : twin.bindings = scope.bindings)
    (free : operation.isBarred entries = false) : (scope.perform operation).1 = (twin.performSparing entries operation).1 ∧
      (twin.performSparing entries operation).2.kind = .generic ∧
      (twin.performSparing entries operation).2.bindings = (scope.perform operation).2.bindings := by
  have real : ∀ key, twin.realKey key = key := fun key => realKey_of_unplaced (by simp [entryAt?, generic])
  have unlocked : ∀ key, twin.isLocked key = false := fun key => by simp [Scope.isLocked, generic]
  cases operation with
  | clear => exact ⟨rfl, generic, by simp [performSparing, perform, clear, same, frozen.isLocked]⟩
  | put key | update key | remove key =>
    have allowed : lists entries key = false := free
    simp only [performSparing, perform, put, update, remove, real, unlocked, frozen.realKey, frozen.isLocked, allowed, settle, same]
    exact ⟨rfl, generic, rfl⟩
  | putIfAbsent key value =>
    simp only [performSparing, perform, putIfAbsent, real, unlocked, frozen.realKey, frozen.isLocked, same]
    cases unbound : scope.bindings.find? key with
    | some old => exact ⟨rfl, generic, same⟩
    | none =>
      have allowed : lists entries key = false := by
        refine Bool.eq_false_iff.mpr fun listed => ?_
        obtain ⟨value, -, reads, -⟩ := frozen.bound listed
        rw [get, frozen.realKey, unbound] at reads
        cases reads
      simp only [allowed, settle]
      exact ⟨rfl, generic, rfl⟩

theorem perform (operation : Operation) : (scope.perform operation).2.Frozen name entries := by
  have keeps := scope.keeps_perform operation
  refine ⟨keeps.name.trans frozen.name, keeps.kind.trans frozen.kind, fun key listed => ?_⟩
  rw [keeps.locked key ((frozen.isLocked key).trans listed), frozen.holds key listed]

end Frozen

theorem frozen_after (name : Key) (entries : List (Key × Value)) (operations : List Operation) :
    ((newLocked name entries).after operations).Frozen name entries ∧ (unlockedAfter entries name operations).kind = .generic ∧
      (unlockedAfter entries name operations).bindings = ((newLocked name entries).after operations).bindings := by
  have run : ∀ (operations : List Operation) (scope twin : Scope), scope.Frozen name entries → twin.kind = .generic →
      twin.bindings = scope.bindings → (scope.after operations).Frozen name entries ∧
        let last := (operations.filter (!·.isBarred entries)).foldl (fun scope operation => (scope.performSparing entries operation).2) twin
        last.kind = .generic ∧ last.bindings = (scope.after operations).bindings := by
    intro operations
    induction operations with
    | nil => exact fun scope twin frozen generic same => ⟨frozen, generic, same⟩
    | cons operation rest ih =>
      intro scope twin frozen generic same
      cases barred : operation.isBarred entries with
      | false =>
        obtain ⟨-, still, next⟩ := frozen.agrees generic same barred
        rw [List.filter_cons_of_pos (by simp [barred])]
        exact ih _ _ (frozen.perform operation) still next
      | true =>
        have stays : (scope.perform operation).2 = scope := by
          cases operation with
          | put key value => exact congrArg Prod.snd ((frozen.barred barred).1 value)
          | update key change => exact congrArg Prod.snd ((frozen.barred barred).2.1 change)
          | remove key => exact congrArg Prod.snd (frozen.barred barred).2.2
          | putIfAbsent | clear => cases barred
        rw [List.filter_cons_of_neg (by simp [barred])]
        exact ih _ _ (frozen.perform operation) generic (same.trans (congrArg Scope.bindings stays.symm))
  exact run operations _ _ (frozen_newLocked name entries) rfl rfl

/-- Locked keys are frozen, and only they are. After any operations a listed key, in any spelling, reads the last value listed for it;
whatever is to change it fails and leaves the scope as it was. In all else the scope is the generic one with the same entries on
which only the other operations are done, and clearing spares the listed keys. -/
theorem locked_keys_are_frozen (name : Key) (entries : List (Key × Value)) (operations : List Operation) :
    let scope := (newLocked name entries).after operations
    let twin := unlockedAfter entries name operations
    (∀ key, lists entries key = true → ∃ value, lastListed entries key = some value ∧ scope.get key = some value ∧
      (∀ new, scope.perform (.put key new) = (.error (.lockedKey name.name key.name), scope)) ∧
      (∀ change, scope.perform (.update key change) = (.error (.lockedKey name.name key.name), scope)) ∧
      scope.perform (.remove key) = (.error (.lockedKey name.name key.name), scope) ∧
      ∀ new, scope.perform (.putIfAbsent key new) = (.ok (some value), scope)) ∧
    scope.bindings = twin.bindings ∧ twin.kind = .generic ∧
    ∀ operation, operation.isBarred entries = false →
      (scope.perform operation).1 = (twin.performSparing entries operation).1 ∧
        (scope.perform operation).2.bindings = (twin.performSparing entries operation).2.bindings := by
  intro scope twin
  obtain ⟨frozen, generic, same⟩ := frozen_after name entries operations
  refine ⟨fun key listed => ?_, same.symm, generic, fun operation free => ?_⟩
  · obtain ⟨value, last, reads, absent⟩ := frozen.bound listed
    obtain ⟨puts, updates, removes⟩ := frozen.barred listed
    exact ⟨value, last, reads, puts, updates, removes, absent⟩
  · obtain ⟨answers, -, left⟩ := frozen.agrees generic same free
    exact ⟨answers, left.symm⟩

end Scope

end ScopeEngine
