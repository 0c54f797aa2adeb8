import ScopeEngine.Proofs.Arguments.Binding

/-! The arguments scope of a call. Every parameter gets the value of the call, else a copy of its default, else null, in the
order of declaration, unless a required one is missing. What is left over follows, under the places of a positional call or
the keys of a named one. -/

namespace ScopeEngine

open ScopeEngine.Action World

namespace World

variable {w mid later last : World} {original copy : Value}

/-- Nothing that the value leads to is missing. -/
def Houses (w : World) (value : Value) : Prop :=
  ∀ s, value = .struct s → ∀ t, w.Reaches s t → t.number < w.scopes.size

/-- On the way to the later world, which adds scopes only, a deep copy of the original was made. -/
def HasCopy (w later : World) (original copy : Value) : Prop :=
  ∃ mid after image, SparesFirst w.scopes.size w mid ∧ SparesFirst after.scopes.size after later ∧
    copy = original.along image ∧ ∀ s, original = .struct s → mid.DeepCopy after s image

/-- What a parameter is bound to: the value given for it, else a copy of its default, else null. -/
def Supplies (w later : World) (param : Param) (given : Option Value) (value : Value) : Prop :=
  match given, param.default with
  | some given, _ => value = given
  | none, some default => w.HasCopy later default value
  | none, none => value = .null

theorem SparesFirst.add (first : SparesFirst w.scopes.size w mid) (second : SparesFirst mid.scopes.size mid later) :
    SparesFirst w.scopes.size w later :=
  first.trans (second.mono first.size)

theorem Supplies.extend {param : Param} {given : Option Value} {value : Value} (supplies : mid.Supplies later param given value)
    (before : SparesFirst w.scopes.size w mid) (after : SparesFirst later.scopes.size later last) :
    w.Supplies last param given value := by
  unfold Supplies at supplies ⊢
  split at supplies
  · exact supplies
  · obtain ⟨start, stop, image, first, second, is, copies⟩ := supplies
    exact ⟨start, stop, image, before.add first, second.add after, is, copies⟩
  · exact supplies

theorem Houses.extend (houses : w.Houses original) (spares : SparesFirst w.scopes.size w later) : later.Houses original := by
  intro s is t leads
  have before := (reaches_congr fun u leads => spares.kept u (houses s is u leads)).mp leads
  exact Nat.lt_of_lt_of_le (houses s is t before) spares.size

theorem hasCopy_duplicate (houses : w.Houses original) : SparesFirst w.scopes.size w (w.duplicate original).2 ∧
    w.HasCopy (w.duplicate original).2 original (w.duplicate original).1 := by
  have is : w.duplicate original =
      (original.along (w.copiesAfter [] original).image, { w with scopes := w.scopesAfter [] original }) := by
    rw [duplicate, duplicateWith_eq]
  refine ⟨?_, w, _, _, .refl .., .refl .., congrArg Prod.fst is, ?_⟩
  · rw [is]
    exact ⟨rfl, Nat.le.intro (w.size_scopesAfter [] original).symm, fun _ issued => get_scopesAfter_of_lt w [] original issued⟩
  · rintro s rfl
    exact deepCopy_duplicate (houses s rfl)

end World

def Param.isLacking (given : Param × Option Value) : Bool :=
  given.2.isNone && given.1.default.isNone && given.1.required

def supply (function : Function) (param : Param) : Option Value → Action Value
  | some value => pure value
  | none => absentArgument function param

/-- Binds every parameter to the value given for it or to what stands in for it. -/
def bindGiven (function : Function) : List (Param × Option Value) → Scope → Action Scope
  | [], scope => pure scope
  | (param, given) :: rest, scope => do
    let value ← supply function param given
    let (_, scope) ← ofExcept (scope.put param.name value)
    bindGiven function rest scope

variable {w later : World} {scope bound : Scope} {function : Function}

theorem Scope.put_of_unbound {key : Key} (positional : scope.kind = .positional) (unbound : scope.get key = none) (value : Value) :
    scope.put key value = .ok (none, scope.extended key value) := by
  rw [put_of_positional positional, unbound, insert_of_unbound unbound]

def inOrder (params : List Param) (values : List Value) : List (Param × Option Value) :=
  params.mapIdx fun i param => (param, values[i]?)

def beyondParams (count : Nat) (values : List Value) : List (Key × Value) :=
  (values.drop count).mapIdx fun i value => (.ofInt (Int64.ofNat (count + 1 + i)), value)

def byName (params : List Param) (values : Bindings Value) : List (Param × Option Value) :=
  params.map fun param => (param, values.find? param.name)

/-- The values of a named call that belong to no parameter, in the order of the call. -/
def leftOver (params : List Param) (values : Bindings Value) : List (Key × Value) :=
  values.entries.filter fun entry => params.all fun param => !(entry.1 == param.name)

theorem params_inOrder (params : List Param) (values : List Value) : (inOrder params values).map (·.1) = params :=
  List.ext_getElem? fun i => by cases there : params[i]? <;> simp [inOrder, there]

theorem params_byName (params : List Param) (values : Bindings Value) : (byName params values).map (·.1) = params := by
  simp [byName, Function.comp_def]

theorem bindLeading_eq (function : Function) (params : List Param) (values : List Value) (scope : Scope) :
    bindLeading function params values scope = bindGiven function (inOrder params values) scope := by
  induction params generalizing values scope with
  | nil => cases values <;> rfl
  | cons param params ih => cases values <;> simp [bindLeading, inOrder, bindGiven, supply, ih]

theorem bindExtras_eq (place : Nat) (values : List Value) (scope : Scope) : bindExtras place values scope =
    bindEntries (values.mapIdx fun i value => (.ofInt (Int64.ofNat (place + i)), value)) scope := by
  induction values generalizing place scope with
  | nil => rfl
  | cons value values ih =>
    simp only [bindExtras, ih, List.mapIdx_cons, bindEntries, Nat.add_zero, Nat.add_assoc, Nat.add_comm 1]

theorem Bindings.entries_erase {b : Bindings Value} (distinct : Key.Distinct b.keys) (key : Key) :
    (b.erase key).entries = b.entries.filter fun entry => !(entry.1 == key) := by
  obtain ⟨entries⟩ := b
  simp only [erase, keys] at distinct ⊢
  induction entries with
  | nil => rfl
  | cons entry rest ih =>
    obtain ⟨others, distinct⟩ := List.pairwise_cons.mp distinct
    cases same : entry.1 == key with
    | true =>
      have kept : (rest.filter fun entry => !(entry.1 == key)) = rest := List.filter_eq_self.mpr fun other held => by
        rw [← BEq.congr_right same, BEq.comm, others other.1 (List.mem_map_of_mem held)]; rfl
      simp [same, kept]
    | false => simp [same, ih distinct]

/-- Taking the values of the parameters out one by one leaves those of no parameter. -/
theorem bindNamed_eq (function : Function) {params : List Param} {values : Bindings Value} (scope : Scope)
    (distinct : Key.Distinct (params.map (·.name))) (unique : Key.Distinct values.keys) :
    bindNamed function params values scope =
      (bindGiven function (byName params values) scope >>= fun scope => pure (⟨leftOver params values⟩, scope)) := by
  unfold leftOver byName
  induction params generalizing values scope with
  | nil =>
    have all : values.entries.filter (fun _ => true) = values.entries := List.filter_eq_self.mpr fun _ _ => rfl
    simp only [bindNamed, bindGiven, List.map_nil, List.all_nil, pure_bind, all]
  | cons param params ih =>
    obtain ⟨others, distinct⟩ := List.pairwise_cons.mp distinct
    have left := values.entries_erase unique param.name
    have fewer : Key.Distinct (values.erase param.name).keys := unique.sublist ((values.sublist_erase param.name).map _)
    have same : (params.map fun other => (other, (values.erase param.name).find? other.name)) =
        params.map fun other => (other, values.find? other.name) :=
      List.map_congr_left fun other held => by rw [Bindings.find?_erase_of_ne _ (others other.name (List.mem_map_of_mem held))]
    simp only [bindNamed, ih _ distinct fewer, same, left, List.filter_filter, List.map_cons, bindGiven, List.all_cons]
    cases values.find? param.name <;> simp only [supply, bind_assoc, Bool.and_comm]

/-! ### The parameters -/

variable {given : List (Param × Option Value)} {entries extras : List (Key × Value)} {lacking : Param × Option Value}

theorem supply_run (function : Function) {param : Param} {given : Option Value} (there : Param.isLacking (param, given) = false)
    (w : World) : ∃ value later, supply function param given w = (.ok value, later) ∧
      ((∀ default, param.default = some default → w.Houses default) →
        SparesFirst w.scopes.size w later ∧ w.Supplies later param given value) := by
  cases given with
  | some value => exact ⟨value, w, rfl, fun _ => ⟨.refl .., rfl⟩⟩
  | none =>
    simp only [Param.isLacking, Option.isNone_none, Bool.true_and] at there
    unfold supply absentArgument Supplies
    cases default : param.default with
    | some original => exact ⟨_, _, rfl, fun houses => hasCopy_duplicate (houses original rfl)⟩
    | none =>
      rw [default, Option.isNone_none, Bool.true_and] at there
      rw [there]
      exact ⟨.null, w, rfl, fun _ => ⟨.refl .., rfl⟩⟩

theorem supply_lacking {param : Param} {given : Option Value} (lacking : Param.isLacking (param, given) = true) (w : World) :
    supply function param given w = (.error (.failed (.missingArgument function.name.name param.name.name)), w) := by
  simp only [Param.isLacking, Bool.and_eq_true, Option.isNone_iff_eq_none] at lacking
  obtain ⟨⟨rfl, default⟩, required⟩ := lacking
  simp only [supply, absentArgument, default, required, if_true]
  rfl

/-- The first required parameter that lacks a value ends the call. -/
theorem bindGiven_lacking (function : Function) (positional : scope.kind = .positional) (first : given.find? Param.isLacking = some lacking) (w : World) :
    ∃ later, bindGiven function given scope w =
      (.error (.failed (.missingArgument function.name.name lacking.1.name.name)), later) := by
  induction given generalizing scope w with
  | nil => cases first
  | cons head rest ih =>
    obtain ⟨param, value⟩ := head
    rw [bindGiven, bind_apply]
    cases lacks : Param.isLacking (param, value) with
    | true =>
      rw [List.find?_cons_of_pos lacks] at first
      cases first
      exact ⟨w, by rw [supply_lacking lacks]⟩
    | false =>
      rw [List.find?_cons_of_neg (by simp [lacks])] at first
      obtain ⟨value, later, supplies, -⟩ := supply_run function lacks w
      simp only [supplies, bind_apply, ofExcept_apply, Scope.put_of_positional positional]
      exact ih (by exact positional) first later

structure Supplied (w later : World) (given : List (Param × Option Value)) (entries : List (Key × Value)) : Prop where
  names : entries.map (·.1) = given.map (·.1.name)
  values : ∀ (i : Nat) param value (entry : Key × Value), given[i]? = some (param, value) → entries[i]? = some entry →
    w.Supplies later param value entry.2

theorem Supplied.names_of {params : List Param} (supplied : Supplied w later given entries) (are : given.map (·.1) = params) :
    entries.map (·.1) = params.map (·.name) := by
  rw [supplied.names, ← are, List.map_map]
  rfl

theorem bindGiven_supplied (function : Function) (positional : scope.kind = .positional)
    (distinct : Key.Distinct (scope.bindings.keys ++ given.map (·.1.name))) (plain : ∀ g ∈ given, g.1.name.number = none)
    (houses : ∀ g ∈ given, ∀ default, g.1.default = some default → w.Houses default)
    (there : given.find? Param.isLacking = none) : ∃ entries later,
      bindGiven function given scope w = (.ok (scope.extendedBy entries), later) ∧
      SparesFirst w.scopes.size w later ∧ Supplied w later given entries := by
  induction given generalizing scope w with
  | nil => exact ⟨[], w, by rw [scope.extendedBy_nil]; rfl, .refl .., rfl, by simp⟩
  | cons head rest ih =>
    obtain ⟨param, given⟩ := head
    have lacks : Param.isLacking (param, given) = false := by
      simpa using List.find?_eq_none.mp there _ List.mem_cons_self
    rw [List.find?_cons_of_neg (by simp [lacks])] at there
    obtain ⟨value, mid, supplies, supplied⟩ := supply_run function lacks w
    obtain ⟨spares, supplied⟩ := supplied (houses _ List.mem_cons_self)
    have unbound := Scope.get_of_new (Scope.entryAt?_of_plain (plain _ List.mem_cons_self)) distinct
    have kind : (scope.extended param.name value).kind = .positional := positional
    have still : Key.Distinct ((scope.extended param.name value).bindings.keys ++ rest.map (·.1.name)) := by
      simpa [Scope.extended, Bindings.keys] using distinct
    obtain ⟨entries, later, goes, further, is⟩ := ih kind still (fun g held => plain g (List.mem_cons_of_mem _ held))
      (fun g held default is => (houses g (List.mem_cons_of_mem _ held) default is).extend spares) there
    refine ⟨(param.name, value) :: entries, later, ?_, spares.add further, ?_, fun i other given entry => ?_⟩
    · simp only [bindGiven, bind_apply, supplies, ofExcept_apply, Scope.put_of_unbound positional unbound, goes, scope.extendedBy_cons]
    · simp [is.names]
    · cases i with
      | zero =>
        rintro ⟨⟩ ⟨⟩
        exact supplied.extend (.refl ..) further
      | succ i => exact fun one two => (is.values i other given entry one two).extend spares (.refl ..)

/-! ### The scope of a call -/

theorem bindEntries_total (positional : scope.kind = .positional) (entries : List (Key × Value)) :
    ∃ bound, bound.kind = .positional ∧ ∀ w, bindEntries entries scope w = (.ok bound, w) := by
  induction entries generalizing scope with
  | nil => exact ⟨scope, positional, fun _ => rfl⟩
  | cons entry rest ih =>
    have kind : { scope with bindings := scope.bindings.insert (scope.realKey entry.1) entry.2 : Scope }.kind = .positional := positional
    obtain ⟨bound, still, goes⟩ := ih kind
    exact ⟨bound, still, fun w => (bindEntries_cons positional entry.1 entry.2 rest).trans (goes w)⟩

def fillArguments (function : Function) (given : List (Param × Option Value)) (extras : List (Key × Value)) : Action ScopeId := do
  newScope (← bindEntries extras (← bindGiven function given .newArguments))

theorem bindArguments_positional_eq (f : FunctionId) (values : List Value) (w : World) :
    bindArguments f (.positional values) w = fillArguments (w.function f) (inOrder (w.function f).params values)
      (beyondParams (w.function f).params.length values) w := by
  rw [fillArguments, ← bindLeading_eq, beyondParams]
  simp only [← bindExtras_eq]
  rfl

theorem bindArguments_named_eq {f : FunctionId} {values : Bindings Value}
    (distinct : Key.Distinct ((w.function f).params.map (·.name))) (unique : Key.Distinct values.keys) :
    bindArguments f (.named values) w = fillArguments (w.function f) (byName (w.function f).params values)
      (leftOver (w.function f).params values) w := by
  have is : bindArguments f (.named values) w =
      (bindNamed (w.function f) (w.function f).params values .newArguments >>= fun bound =>
        bindEntries bound.1.entries bound.2 >>= newScope) w := rfl
  rw [is, bindNamed_eq _ _ distinct unique, fillArguments]
  simp only [bind_assoc, pure_bind]

theorem fillArguments_lacking (function : Function) (extras : List (Key × Value))
    (first : given.find? Param.isLacking = some lacking) (w : World) : ∃ later, fillArguments function given extras w =
      (.error (.failed (.missingArgument function.name.name lacking.1.name.name)), later) := by
  have positional : Scope.newArguments.kind = .positional := rfl
  obtain ⟨later, stops⟩ := bindGiven_lacking function positional first w
  exact ⟨later, by rw [fillArguments, bind_apply, stops]⟩

/-- A name that is no number: it carries none and is spelled like none. -/
def Key.IsWord (key : Key) : Prop := key.number = none ∧ ∀ n, (key == .ofInt n) = false

/-- The parameters are told apart by names that are no numbers, and all that their defaults lead to is there. -/
structure World.Declared (w : World) (params : List Param) : Prop where
  distinct : Key.Distinct (params.map (·.name))
  words : ∀ param ∈ params, param.name.IsWord
  houses : ∀ param ∈ params, ∀ default, param.default = some default → w.Houses default

theorem fillArguments_supplied (function : Function) (extras : List (Key × Value)) (declared : w.Declared (given.map (·.1)))
    (there : given.find? Param.isLacking = none) : ∃ entries s later, fillArguments function given extras w = (.ok s, later) ∧
      bindEntries extras (Scope.newArguments.extendedBy entries) w = (.ok (later.scope s), w) ∧
      (later.scope s).kind = .positional ∧ Supplied w later given entries := by
  have positional : Scope.newArguments.kind = .positional := rfl
  have distinct : Key.Distinct (given.map (·.1.name)) := by
    have apart := declared.distinct
    rwa [List.map_map] at apart
  obtain ⟨entries, mid, binds, spares, supplied⟩ := bindGiven_supplied function positional distinct
    (fun _ held => (declared.words _ (List.mem_map_of_mem held)).1) (fun _ held => declared.houses _ (List.mem_map_of_mem held)) there
  have still : (Scope.newArguments.extendedBy entries).kind = .positional := rfl
  obtain ⟨bound, kind, goes⟩ := bindEntries_total still extras
  have is : (mid.addScope bound).2.scope (mid.addScope bound).1 = bound := mid.scopes.get_add_next bound
  refine ⟨entries, (mid.addScope bound).1, (mid.addScope bound).2, ?_, ?_, ?_, supplied.names, fun i param value entry one two => ?_⟩
  · rw [fillArguments, bind_apply, binds]
    simp only [bind_apply, goes mid]
    rfl
  · rw [goes w]; exact congrArg (fun scope => (Except.ok scope, w)) is.symm
  · rw [← kind]; exact congrArg Scope.kind is
  · exact (supplied.values i param value entry one two).extend (.refl ..) (sparesFirst_addScope (Nat.le_refl _) bound)

/-- After the parameters, extras whose numbers lie beyond the scope when their turn comes are added in their order. -/
theorem entries_of_beyond (distinct : Key.Distinct (entries.map (·.1) ++ extras.map (·.1)))
    (beyond : allBeyond entries.length extras = true)
    (binds : bindEntries extras (Scope.newArguments.extendedBy entries) w = (.ok bound, later)) :
    bound.bindings.entries = entries ++ extras := by
  have positional : (Scope.newArguments.extendedBy entries).kind = .positional := rfl
  have all := bindEntries_beyond (w := w) positional distinct beyond
  cases all.symm.trans binds
  rfl

/-! ### Positional calls -/

theorem find?_lacking (params : List Param) (values : List Value) : (inOrder params values).find? Param.isLacking =
      ((params.drop values.length).find? fun param => param.default.isNone && param.required).map (·, none) := by
  unfold inOrder
  induction params generalizing values with
  | nil => simp
  | cons param params ih =>
    cases values with
    | nil =>
      have rest := ih []
      simp only [List.mapIdx_cons, List.getElem?_nil, List.find?_cons, List.length_nil, List.drop_zero, Param.isLacking,
        Option.isNone_none, Bool.true_and] at rest ⊢
      rw [rest]
      split <;> rfl
    | cons value values => simpa [List.mapIdx_cons, Param.isLacking] using ih values

/-- The arguments scope of a positional call: the parameters, then the extra values under their places. A place and the key
of the entry there stand for the same slot. -/
structure World.HoldsCall (w later : World) (params : List Param) (values : List Value) (scope : Scope) : Prop where
  size : scope.size = max params.length values.length
  leading : ∀ (i : Nat) param, params[i]? = some param → ∃ value,
    scope.bindings.entries[i]? = some (param.name, value) ∧ w.Supplies later param values[i]? value
  extra : ∀ (i : Nat) value, params.length ≤ i → values[i]? = some value →
    scope.bindings.entries[i]? = some (.ofInt (Int64.ofNat (i + 1)), value)
  slots : ∀ (i : Nat) entry, scope.bindings.entries[i]? = some entry →
    scope.Addresses (.ofInt (Int64.ofNat (i + 1))) i entry ∧ scope.Addresses entry.1 i entry

variable {params : List Param} {values : List Value}

section

variable (declared : w.Declared params) (fits : max params.length values.length < 0x8000000000000000)
include declared fits

theorem distinct_words : Key.Distinct (params.map (·.name) ++ (beyondParams params.length values).map (·.1)) := by
  have short : params.length + 1 + (values.drop params.length).length ≤ 0x8000000000000000 := by
    rw [List.length_drop]
    omega
  have extras := distinct_places short
  refine List.pairwise_append.mpr ⟨declared.distinct, extras, fun name held key extra => ?_⟩
  obtain ⟨param, there, rfl⟩ := List.mem_map.mp held
  obtain ⟨entry, place, rfl⟩ := List.mem_map.mp extra
  obtain ⟨i, inside, rfl⟩ := List.mem_mapIdx.mp place
  exact (declared.words param there).2 _

theorem holdsCall (supplied : Supplied w later (inOrder params values) entries) (positional : bound.kind = .positional)
    (binds : bindEntries (beyondParams params.length values) (Scope.newArguments.extendedBy entries) w = (.ok bound, w)) :
    w.HoldsCall later params values bound := by
  have names := supplied.names_of (params_inOrder params values)
  have count : entries.length = params.length := by simpa using congrArg List.length names
  have apart := distinct_words declared fits
  rw [← names] at apart
  have is := entries_of_beyond apart (by rw [count]; exact allBeyond_places (by omega) (by rw [List.length_drop]; omega)) binds
  have size : bound.size = max params.length values.length := by
    rw [Scope.size, Bindings.size, is, beyondParams, List.length_append, List.length_mapIdx, List.length_drop, count]
    omega
  rw [← List.map_append, ← is] at apart
  have leading : ∀ (i : Nat) param, params[i]? = some param → ∃ value,
      bound.bindings.entries[i]? = some (param.name, value) ∧ w.Supplies later param values[i]? value := by
    intro i param there
    have inside := (List.getElem?_eq_some_iff.mp there).1
    have entry := List.getElem?_eq_getElem (count ▸ inside)
    have name : entries[i].1 = param.name := by
      have both := congrArg (·[i]?) names
      simpa [there, entry] using both
    refine ⟨entries[i].2, ?_, supplied.values i param values[i]? entries[i] (by simp [inOrder, there]) entry⟩
    rw [is, List.getElem?_append_left (count ▸ inside), entry, ← name]
  have extra : ∀ (i : Nat), params.length ≤ i →
      bound.bindings.entries[i]? = values[i]?.map fun value => (.ofInt (Int64.ofNat (i + 1)), value) := by
    intro i after
    rw [is, List.getElem?_append_right (count ▸ after), beyondParams, List.getElem?_mapIdx, List.getElem?_drop, count,
      Nat.add_sub_cancel' after, show params.length + 1 + (i - params.length) = i + 1 by omega]
  refine ⟨size, leading, fun i value after there => by rw [extra i after, there]; rfl, fun i entry there => ?_⟩
  have first := realKey_place positional (by omega) there
  refine ⟨Scope.addresses_of_realKey positional apart there first, Scope.addresses_of_realKey positional apart there ?_⟩
  -- an entry's own key is the name of a parameter, which stands for itself, or its place
  rcases Nat.lt_or_ge i params.length with inside | after
  · obtain ⟨value, named, -⟩ := leading i params[i] (List.getElem?_eq_getElem inside)
    cases there.symm.trans named
    exact Scope.realKey_of_unplaced (Scope.entryAt?_of_plain (declared.words _ (List.getElem_mem inside)).1)
  · obtain ⟨value, -, rfl⟩ := Option.map_eq_some_iff.mp ((extra i after).symm.trans there)
    exact first

end

def firstLacking (params : List Param) (values : List Value) : Option Param :=
  (params.drop values.length).find? fun param => param.default.isNone && param.required

theorem firstLacking_eq_none_iff : firstLacking params values = none ↔
    ∀ param ∈ params.drop values.length, param.default ≠ none ∨ param.required = false := by
  simp [firstLacking, List.find?_eq_none, Decidable.or_iff_not_imp_left]

/-- A positional call fails exactly if a required parameter without a default is beyond the values, and then the first such
parameter is named. -/
theorem bindArguments_positional (f : FunctionId) (values : List Value) (w : World) (declared : w.Declared (w.function f).params)
    (fits : max (w.function f).params.length values.length < 0x8000000000000000) :
    ((∃ s later, bindArguments f (.positional values) w = (.ok s, later)) ↔
      ∀ param ∈ (w.function f).params.drop values.length, param.default ≠ none ∨ param.required = false) ∧
    (∀ param, firstLacking (w.function f).params values = some param → ∃ later, bindArguments f (.positional values) w =
      (.error (.failed (.missingArgument (w.function f).name.name param.name.name)), later)) ∧
    ∀ s later, bindArguments f (.positional values) w = (.ok s, later) →
      w.HoldsCall later (w.function f).params values (later.scope s) := by
  rw [← firstLacking_eq_none_iff, bindArguments_positional_eq]
  have lacking := find?_lacking (w.function f).params values
  cases first : firstLacking (w.function f).params values with
  | some param =>
    obtain ⟨later, stops⟩ := fillArguments_lacking (w.function f) (beyondParams (w.function f).params.length values)
      (lacking.trans (congrArg (Option.map (·, none)) first)) w
    rw [stops]
    exact ⟨⟨by rintro ⟨s, later, ⟨⟩⟩, by rintro ⟨⟩⟩, by rintro _ ⟨⟩; exact ⟨later, rfl⟩, by rintro s later ⟨⟩⟩
  | none =>
    obtain ⟨entries, s, later, fills, binds, positional, supplied⟩ := fillArguments_supplied (w.function f)
      (beyondParams (w.function f).params.length values) (by rwa [params_inOrder])
      (lacking.trans (congrArg (Option.map (·, none)) first))
    rw [fills]
    refine ⟨⟨fun _ => rfl, fun _ => ⟨s, later, rfl⟩⟩, by rintro _ ⟨⟩, ?_⟩
    rintro _ _ ⟨⟩
    exact holdsCall declared fits supplied positional binds

theorem Key.isWord_of_letter {key : Key} (plain : key.number = none)
    (letter : key.name.toList.any (fun c => c != '-' && !c.isDigit) = true) : key.IsWord := by
  refine ⟨plain, fun n => Bool.eq_false_iff.mpr fun same => ?_⟩
  obtain ⟨c, held, other⟩ := List.any_eq_true.mp letter
  rw [Key.beq_ofInt_iff.mp same] at held
  rcases Decimal.minus_or_digit_of_mem_intText held with rfl | digit
  · cases other
  · simp [digit] at other

/-- A required parameter, one whose default is a struct that leads back to itself, and one that may be absent. -/
def orderParams : List Param :=
  [⟨.of "item", true, none⟩, ⟨.of "extras", true, some (.struct ⟨0⟩)⟩, ⟨.of "note", false, none⟩]

def orderDesk : World :=
  (looped.addFunction { (default : Function) with name := .of "order", params := orderParams }).2

theorem declared_orderDesk : orderDesk.Declared orderParams := by
  refine ⟨by unfold Key.Distinct; decide +kernel, fun param held => ?_, ?_⟩
  · have words : ∀ param ∈ orderParams, param.name.number = none ∧
        param.name.name.toList.any (fun c => c != '-' && !c.isDigit) = true := by decide +kernel
    exact Key.isWord_of_letter (words param held).1 (words param held).2
  · have only : ∀ param ∈ orderParams, param.default = none ∨ param.default = some (.struct ⟨0⟩) := by simp [orderParams]
    rintro param held default is s rfl
    obtain none | some := only param held
    · cases none.symm.trans is
    · cases some.symm.trans is
      exact housed_of_closed (by decide) (by decide)

theorem bindArguments_positional_orderDesk : orderDesk.Declared orderParams ∧
    (∃ later, bindArguments ⟨0⟩ (.positional []) orderDesk = (.error (.failed (.missingArgument "order" "item")), later)) ∧
    ∀ values : List Value, values = [.integer 7] ∨ values = [.integer 7, .integer 8, .null, .integer 9, .integer 10] →
      ∃ s later, bindArguments ⟨0⟩ (.positional values) orderDesk = (.ok s, later) ∧
        orderDesk.HoldsCall later orderParams values (later.scope s) := by
  refine ⟨declared_orderDesk, ?_, fun values either => ?_⟩
  · exact (bindArguments_positional ⟨0⟩ [] orderDesk declared_orderDesk (by decide)).2.1 ⟨.of "item", true, none⟩ rfl
  · have fits : max orderParams.length values.length < 0x8000000000000000 := by obtain rfl | rfl := either <;> decide
    obtain ⟨succeeds, -, holds⟩ := bindArguments_positional ⟨0⟩ values orderDesk declared_orderDesk fits
    have there : ∀ param ∈ orderParams.drop values.length, param.default ≠ none ∨ param.required = false := by
      obtain rfl | rfl := either <;> simp [orderParams]
    obtain ⟨s, later, binds⟩ := succeeds.mpr there
    exact ⟨s, later, binds, holds s later binds⟩

/-! ### Named calls -/

theorem size_bindEntries (positional : scope.kind = .positional)
    (bind : bindEntries entries scope w = (.ok bound, later)) : bound.size ≤ scope.size + entries.length := by
  induction entries generalizing scope with
  | nil => cases bind; exact Nat.le_refl _
  | cons entry rest ih =>
    rw [bindEntries_cons positional] at bind
    have further : bound.size ≤ (scope.bindings.insert (scope.realKey entry.1) entry.2).size + rest.length :=
      ih (by exact positional) bind
    have step : (scope.bindings.insert (scope.realKey entry.1) entry.2).size ≤ scope.size + 1 := by
      obtain ⟨-, is⟩ | ⟨front, first, old, back, -, split, is⟩ := scope.bindings.insert_cases (scope.realKey entry.1) entry.2
      · exact Nat.le_of_eq (congrArg List.length is |>.trans List.length_append)
      · simp [Scope.size, Bindings.size, is, split.entries]
    rw [List.length_cons]
    omega

/-- If every value got an entry of its own, no number was within the scope when its turn came. -/
theorem beyond_of_size (positional : scope.kind = .positional)
    (distinct : Key.Distinct (scope.bindings.keys ++ entries.map (·.1)))
    (bind : bindEntries entries scope w = (.ok bound, later)) (all : bound.size = scope.size + entries.length) :
    allBeyond scope.size entries = true := by
  induction entries generalizing scope with
  | nil => rfl
  | cons entry rest ih =>
    have here : entry.1.isBeyond scope.size = true := by
      rw [← Scope.entryAt?_eq_none_iff positional]
      refine Option.eq_none_iff_forall_ne_some.mpr fun taken placed => ?_
      -- the value goes to the entry at that place, and the scope stays as long as it was
      rw [bindEntries_cons positional] at bind
      have most := size_bindEntries (by exact positional) bind
      obtain ⟨unbound, -⟩ | ⟨front, first, old, back, -, split, is⟩ := scope.bindings.insert_cases (scope.realKey entry.1) entry.2
      · exact Option.some_ne_none taken (placed.symm.trans (Scope.entryAt?_of_unbound unbound))
      · simp only [Scope.size, Bindings.size, is, split.entries, List.length_append, List.length_cons] at most all
        omega
    obtain ⟨goes, still, grown, kind⟩ := bindEntries_new (w := w) positional distinct here entry.2
    have further := ih kind still (goes.symm.trans bind) (by rw [all, grown, List.length_cons]; omega)
    rw [grown] at further
    exact Bool.and_eq_true_iff.mpr ⟨here, further⟩

theorem find?_lacking_named (params : List Param) (values : Bindings Value) :
    (byName params values).find? Param.isLacking = none ↔
      ∀ param ∈ params, values.find? param.name ≠ none ∨ param.default ≠ none ∨ param.required = false := by
  simp only [byName, List.find?_eq_none, List.mem_map, forall_exists_index, and_imp, forall_apply_eq_imp_iff₂, Param.isLacking,
    Bool.and_eq_true, Option.isNone_iff_eq_none]
  grind

theorem distinct_leftOver {params : List Param} {values : Bindings Value} (distinct : Key.Distinct (params.map (·.name)))
    (unique : Key.Distinct values.keys) : Key.Distinct (params.map (·.name) ++ (leftOver params values).map (·.1)) := by
  refine List.pairwise_append.mpr ⟨distinct, unique.sublist (List.filter_sublist.map _), fun name declared key extra => ?_⟩
  obtain ⟨param, held, rfl⟩ := List.mem_map.mp declared
  obtain ⟨entry, left, rfl⟩ := List.mem_map.mp extra
  rw [BEq.comm]
  simpa using List.all_eq_true.mp (List.mem_filter.mp left).2 param held

/-- A named call fails exactly if a required parameter has neither a value nor a default. Otherwise its scope holds the
parameters and then all other values, unless one of those is keyed by a number that names an earlier entry when its turn
comes: it overwrites that entry, and the scope gets too short. -/
theorem bindArguments_named (f : FunctionId) (values : Bindings Value) (w : World) (declared : w.Declared (w.function f).params)
    (unique : Key.Distinct values.keys) :
    ((∃ s later, bindArguments f (.named values) w = (.ok s, later)) ↔ ∀ param ∈ (w.function f).params,
      values.find? param.name ≠ none ∨ param.default ≠ none ∨ param.required = false) ∧
    ∀ s later, bindArguments f (.named values) w = (.ok s, later) →
      if allBeyond (w.function f).params.length (leftOver (w.function f).params values) then
        ∃ entries, (later.scope s).bindings.entries = entries ++ leftOver (w.function f).params values ∧
          Supplied w later (byName (w.function f).params values) entries
      else (later.scope s).size < (w.function f).params.length + (leftOver (w.function f).params values).length := by
  rw [← find?_lacking_named, bindArguments_named_eq declared.distinct unique]
  cases first : (byName (w.function f).params values).find? Param.isLacking with
  | some lacking =>
    obtain ⟨later, stops⟩ := fillArguments_lacking (w.function f) (leftOver (w.function f).params values) first w
    rw [stops]
    exact ⟨⟨by rintro ⟨s, later, ⟨⟩⟩, by rintro ⟨⟩⟩, by rintro s later ⟨⟩⟩
  | none =>
    obtain ⟨entries, s, later, fills, binds, -, supplied⟩ := fillArguments_supplied (w.function f)
      (leftOver (w.function f).params values) (by rwa [params_byName]) first
    have names := supplied.names_of (params_byName ..)
    have count : entries.length = (w.function f).params.length := by simpa using congrArg List.length names
    have apart := distinct_leftOver declared.distinct unique
    rw [← names] at apart
    rw [fills]
    refine ⟨⟨fun _ => rfl, fun _ => ⟨s, later, rfl⟩⟩, ?_⟩
    rintro _ _ ⟨⟩
    split
    next beyond => exact ⟨entries, entries_of_beyond apart (by rwa [count]) binds, supplied⟩
    next within =>
      have start : (Scope.newArguments.extendedBy entries).kind = .positional := rfl
      have most := size_bindEntries start binds
      rw [← count] at within ⊢
      exact Nat.lt_of_le_of_ne most fun all => within (beyond_of_size start apart binds all)

theorem bindArguments_named_orderDesk :
    let values : Bindings Value := ⟨[(.of "gift", .boolean true), (.of "note", .integer 5), (.ofInt 9, .null), (.of "ITEM", .integer 7)]⟩
    (orderDesk.Declared orderParams ∧ Key.Distinct values.keys) ∧
    ∃ s later entries, bindArguments ⟨0⟩ (.named values) orderDesk = (.ok s, later) ∧
      (later.scope s).bindings.entries = entries ++ [(.of "gift", .boolean true), (.ofInt 9, .null)] ∧
      Supplied orderDesk later (byName orderParams values) entries := by
  intro values
  have unique : Key.Distinct values.keys := by unfold Key.Distinct; decide +kernel
  obtain ⟨succeeds, holds⟩ := bindArguments_named ⟨0⟩ values orderDesk declared_orderDesk unique
  have there : ∀ param ∈ orderParams, values.find? param.name ≠ none ∨ param.default ≠ none ∨ param.required = false := by
    decide +kernel
  obtain ⟨s, later, binds⟩ := succeeds.mpr there
  obtain ⟨entries, is, supplied⟩ := holds s later binds
  exact ⟨⟨declared_orderDesk, unique⟩, s, later, entries, binds, is, supplied⟩

/-- The number 1 names the first parameter, so its value replaces the one given for that parameter. -/
theorem numbered_extra_overwrites_parameter : ∃ s later, bindArguments ⟨0⟩ (.named
    ⟨[(.of "item", .integer 7), (.of "extras", .null), (.of "note", .null), (.ofInt 1, .integer 8)]⟩) orderDesk = (.ok s, later) ∧
    (later.scope s).bindings.entries = [(.of "item", .integer 8), (.of "extras", .null), (.of "note", .null)] :=
  ⟨_, _, rfl, rfl⟩

end ScopeEngine
