import ScopeEngine.Proofs.Paths.Writes

/-! What is assigned to a path is read back from it. An assignment modifies one scope that was there and otherwise only scopes
of its own making; a read in any spelling takes the same way, unless that one scope was on the way before. -/

namespace ScopeEngine

open ScopeEngine.Action

variable {key : Key} {name : ScopeName} {rest : List String} {w : World}

namespace World

variable {w later last : World} {s t target container : ScopeId} {c : ContextId} {key other : Key} {value : Value}

variable {segment : String}

/-- Where an assignment below `container` lands: the scopes it walks through, and the one it modifies, which is the first
that does not hold the next struct of the path. -/
def landing (w : World) (container : ScopeId) : List String → List ScopeId × ScopeId
  | segment :: next :: rest =>
    match (w.scope container).get (.of segment) with
    | some (.struct inner) => (container :: (w.landing inner (next :: rest)).1, (w.landing inner (next :: rest)).2)
    | _ => ([], container)
  | _ => ([], container)

theorem landing_empty (empty : ∀ key, (w.scope s).get key = none) (rest : List String) : w.landing s rest = ([], s) := by
  rcases rest with _ | ⟨segment, _ | ⟨next, rest⟩⟩
  · rfl
  · rfl
  · simp only [landing, empty]

/-- From the container, the rest of the path leads to the value, in any spelling. -/
def LeadsTo (w : World) (container : ScopeId) (rest : List String) (value : Value) : Prop :=
  ∀ (found : Finding) (walked spelled : List String), found.value = .struct container →
    spelled.map Text.lower = rest.map Text.lower →
    ∃ end_, followPath found walked spelled w = (.ok end_, w) ∧ end_.value = value

theorem followPath_cons {found : Finding} (walked : List String) (rest : List String)
    (holds : found.value = .struct container) (bound : (w.scope container).get (.of segment) = some value) :
    followPath found walked (segment :: rest) w =
      followPath { scope := container, key := .of segment, value } (walked ++ [segment]) rest w := by
  simp only [followPath, bind_apply, get_apply, holds, lookup, bound, Option.map_some]

theorem leadsTo_last (bound : (w.scope container).get (.of segment) = some value) :
    w.LeadsTo container [segment] value := by
  intro found walked spelled holds alike
  rcases spelled with _ | ⟨first, _ | _⟩ <;> simp only [List.map_cons, List.map_nil, List.cons.injEq, reduceCtorEq,
    and_false, and_true] at alike
  rw [← Scope.get_alike _ (Key.alike_of_lower alike)] at bound
  exact ⟨_, followPath_cons walked [] holds bound, rfl⟩

theorem LeadsTo.cons {inner : ScopeId} {rest : List String} (leads : w.LeadsTo inner rest value)
    (bound : (w.scope container).get (.of segment) = some (.struct inner)) :
    w.LeadsTo container (segment :: rest) value := by
  intro found walked spelled holds alike
  rcases spelled with _ | ⟨first, spelled⟩ <;> simp only [List.map_cons, List.map_nil, List.cons.injEq, reduceCtorEq]
    at alike
  rw [← Scope.get_alike _ (Key.alike_of_lower alike.1)] at bound
  rw [followPath_cons walked spelled holds bound]
  exact leads _ _ spelled rfl alike.2

end World

open World in
/-- An assignment below a container modifies one scope that was there. If the path did not come by that scope before, it
leads to the value afterwards. -/
theorem after_assignBelow (container : ScopeId) (walked : List String) (value : Value) (some_ : rest ≠ [])
    (there : (w.landing container rest).2.number < w.scopes.size)
    (unvisited : (w.landing container rest).2 ∉ (w.landing container rest).1) :
    (assignBelow container walked value rest).After w
      (fun _ later => w.Writes (w.landing container rest).2 later ∧ later.LeadsTo container rest value)
      (fun _ _ => True) := by
  -- A created struct is the container of the rest of the walk, in the world that has it.
  induction rest generalizing w container walked with
  | nil => exact absurd rfl some_
  | cons segment rest ih =>
    cases rest with
    | nil =>
      simp only [assignBelow, after_bind]
      refine (after_putIn _ (.of segment) value).partly ?_
      rintro _ later ⟨writes, _, bound, _⟩
      exact ⟨writes, leadsTo_last (bound there)⟩
    | cons next rest =>
      have onward : next :: rest ≠ [] := List.cons_ne_nil next rest
      have creates : w.landing container (segment :: next :: rest) = ([], container) →
          (createStruct container (.of segment) >>= fun inner =>
            assignBelow inner (walked ++ [segment]) value (next :: rest)).After w
            (fun _ later => w.Writes container later ∧ later.LeadsTo container (segment :: next :: rest) value)
            (fun _ _ => True) := by
        intro lands
        rw [lands] at there
        rw [after_bind]
        refine (after_createStruct container (.of segment)).partly ?_
        rintro inner mid ⟨writes, fresh, issued, _, made⟩
        obtain ⟨bound, empty⟩ := made there
        have new : w.scopes.size ≤ inner.number := by rw [fresh]; exact Nat.le_refl _
        have lands := landing_empty empty (next :: rest)
        refine (ih inner (walked ++ [segment]) onward (by rw [lands]; exact issued) (by rw [lands]; simp)).partly ?_
        rintro _ later ⟨below, leads⟩
        rw [lands] at below
        have older : container ≠ inner := fun same => by rw [same] at there; exact absurd there (Nat.not_lt.mpr new)
        refine ⟨writes.below new below, leads.cons ?_⟩
        rw [below.kept container (Nat.lt_of_lt_of_le there writes.size) older]
        exact bound
      simp only [assignBelow, after_bind, after_get]
      cases held : (w.scope container).get (.of segment) with
      | none =>
        have lands : w.landing container (segment :: next :: rest) = ([], container) := by simp only [landing, held]
        rw [lands]
        exact creates lands
      | some bound =>
        cases bound with
        | struct inner =>
          have lands : w.landing container (segment :: next :: rest) =
              (container :: (w.landing inner (next :: rest)).1, (w.landing inner (next :: rest)).2) := by
            simp only [landing, held]
          rw [lands] at there unvisited ⊢
          have apart := List.ne_and_not_mem_of_not_mem_cons unvisited
          refine (ih inner (walked ++ [segment]) onward there apart.2).partly ?_
          rintro _ later ⟨writes, leads⟩
          refine ⟨writes, leads.cons ?_⟩
          rw [writes.kept container (issued_of_get held) apart.1.symm]
          exact held
        | null =>
          have lands : w.landing container (segment :: next :: rest) = ([], container) := by simp only [landing, held]
          rw [lands]
          exact creates lands
        | _ => trivial

namespace World

variable {w later : World} {s t target : ScopeId} {c : ContextId} {key other : Key} {value : Value}

variable {found owner : Finding}

/-- The scopes up to and with the first that binds the key. -/
def upTo (w : World) (key : Key) : List ScopeId → List ScopeId
  | [] => []
  | s :: rest => if ((w.scope s).get key).isSome then [s] else s :: w.upTo key rest

/-- The scopes that are consulted for a name. One that names a scope is not searched for. -/
def consulted (w : World) (c : ContextId) (key : Key) : List ScopeId :=
  if key.isScopeName then [] else w.upTo key (w.searched c)

theorem frameOf_scopes (w : World) (heap : Table .scope Scope) (contexts : List ContextId) :
    frameOf { w with scopes := heap } contexts = w.frameOf contexts := by
  induction contexts with
  | nil => rfl
  | cons c above ih => rw [frameOf, frameOf, ih]; rfl

theorem searched_scopes (w : World) (heap : Table .scope Scope) (c : ContextId) :
    World.searched { w with scopes := heap } c = w.searched c := by
  simp only [searched, captureFrame, requestStop, ground, requestOf, ancestry_scopes, frameOf_scopes]
  rfl

theorem Parted.searched (parted : w.Parted) (s : ScopeId) (member : s ∈ w.searched c) : s.number < w.scopes.size := by
  refine parted.issued s (.inl ?_)
  rcases List.mem_append.mp member with inFrame | inRequest
  · exact (parted.frameOf _).scopes s inFrame
  · rw [requestStop] at inRequest
    split at inRequest
    · obtain ⟨⟨r, request⟩, found, rfl⟩ := List.mem_map.mp inRequest
      obtain ⟨_, _, here⟩ := List.exists_of_findSome?_eq_some (Option.mem_toList.mp found)
      obtain ⟨_, there, same⟩ := Option.map_eq_some_iff.mp here
      cases same
      exact open_of_kind (by decide : ScopeName.request.isSearched = true) (by rw [request?_eq_some.mp there]; rfl)
    · cases inRequest

theorem searched_default (inside : (w.context c).isRoot = false) : ∃ rest, w.searched c = w.defaultScope c :: rest := by
  have way : ∃ above, w.ancestry c = c :: above := by
    rw [ancestry]
    split
    · exact ⟨_, rfl⟩
    · split <;> exact ⟨_, rfl⟩
  obtain ⟨above, way⟩ := way
  rw [searched, captureFrame, way, defaultScope]
  cases kind : (w.context c).kind with
  | function call => cases component : call.component <;> simp [frameOf, kind, component]
  | server | application | session => simp [Context.isRoot, kind] at inside
  | _ => simp [frameOf, kind]

theorem lookupIn_split {scopes : List ScopeId} (hit : w.lookupIn scopes key = some found) :
    ∃ before after, scopes = before ++ found.scope :: after ∧ w.upTo key scopes = before ++ [found.scope] ∧
      ∀ t ∈ before, (w.scope t).get key = none := by
  induction scopes with
  | nil => cases hit
  | cons s rest ih =>
    rw [lookupIn_cons, lookup] at hit
    cases bound : (w.scope s).get key with
    | some value =>
      rw [bound] at hit
      cases hit
      exact ⟨[], rest, rfl, by simp [upTo, bound], by simp⟩
    | none =>
      rw [bound] at hit
      obtain ⟨before, after, same, upTo_, free⟩ := ih hit
      refine ⟨s :: before, after, by rw [same]; rfl, by simp [upTo, bound, upTo_], ?_⟩
      intro t member
      rcases List.mem_cons.mp member with rfl | member
      · exact bound
      · exact free t member

theorem Writes.rooted (writes : w.Writes target later) (rooted : w.Rooted) : later.Rooted := by
  rw [writes.rest]
  exact rooted

theorem Writes.searched (writes : w.Writes target later) (c : ContextId) : later.searched c = w.searched c := by
  rw [writes.rest, searched_scopes]

/-- The owner that an assignment to a name finds, or the default scope, is the first on the way of a search that may bind
the name. -/
theorem owner_split (rooted : w.Rooted) (inside : (w.context c).isRoot = false)
    (owns : (w.findNearby key false (w.ancestry c)).getD { scope := w.defaultScope c, key, value := .null } = owner) :
    ∃ before after, w.searched c = before ++ owner.scope :: after ∧
      ∀ t ∈ before, (w.scope t).get key = none ∧ t ≠ owner.scope := by
  rw [findNearby_ancestry rooted] at owns
  cases hit : w.lookupIn ((w.captureFrame c).scopes ++ w.requestStop c) key with
  | none =>
    obtain ⟨rest, first⟩ := searched_default inside
    rw [hit] at owns
    cases owns
    exact ⟨[], rest, first, by simp⟩
  | some found =>
    rw [hit] at owns
    cases owns
    obtain ⟨before, after, same, _, free⟩ := lookupIn_split hit
    refine ⟨before, after, same, fun t member => ⟨free t member, fun is => ?_⟩⟩
    have bound : (w.scope t).get key = some found.value := is ▸ (mem_of_lookupIn hit).2
    rw [free t member] at bound
    cases bound

theorem Writes.findNearby_owner (parted : w.Parted) (rooted : w.Rooted) (inside : (w.context c).isRoot = false)
    (owns : (w.findNearby key false (w.ancestry c)).getD { scope := w.defaultScope c, key, value := .null } = owner)
    (writes : w.Writes owner.scope later) (alike : other.Alike key)
    (bound : (later.scope owner.scope).get key = some value) :
    later.findNearby other false (later.ancestry c) = some { scope := owner.scope, key := other, value } := by
  obtain ⟨before, after, way, free⟩ := owner_split rooted inside owns
  have still : later.searched c = before ++ owner.scope :: after := (writes.searched c).trans way
  rw [findNearby_ancestry (writes.rooted rooted), ← World.searched, still]
  refine lookupIn_of_split (fun t member _ => ?_) ?_
  · have issued := parted.searched t (way ▸ List.mem_append_left _ member)
    rw [writes.kept t issued (free t member).2, Scope.get_alike _ alike]
    exact (free t member).1
  · rw [Scope.get_alike _ alike]
    exact bound

theorem Writes.findNearby_kept (parted : w.Parted) (rooted : w.Rooted) (writes : w.Writes target later)
    (plain : key.isScopeName = false) (unvisited : target ∉ w.consulted c key) (alike : other.Alike key)
    (hit : w.findNearby key false (w.ancestry c) = some found) :
    later.findNearby other false (later.ancestry c) = some { scope := found.scope, key := other, value := found.value } := by
  rw [findNearby_ancestry rooted] at hit
  obtain ⟨before, after, way, upTo_, free⟩ := lookupIn_split hit
  rw [← World.searched] at way upTo_
  rw [consulted, plain, if_neg Bool.false_ne_true, upTo_] at unvisited
  have kept : ∀ t ∈ before ++ [found.scope], later.scope t = w.scope t := by
    intro t member
    refine writes.kept t (parted.searched (c := c) t ?_) fun same => unvisited (same ▸ member)
    rw [way, List.append_cons]
    exact List.mem_append_left _ member
  rw [findNearby_ancestry (writes.rooted rooted), ← World.searched, writes.searched, way]
  refine lookupIn_of_split (fun t member _ => ?_) ?_
  · rw [kept t (List.mem_append_left _ member), Scope.get_alike _ alike]
    exact free t member
  · rw [kept _ (List.mem_append_right _ (List.mem_singleton_self _)), Scope.get_alike _ alike]
    exact (mem_of_lookupIn hit).2

theorem Writes.reach (parted : w.Parted) (writes : w.Writes target later) (alike : other.Alike key)
    (name : Option ScopeName) (contexts : List ContextId) : later.reach other name contexts = w.reach key name contexts := by
  have context : ∀ c, later.context c = w.context c := fun c => by rw [writes.rest]; rfl
  have component : ∀ k, later.component k = w.component k := fun k => by rw [writes.rest]; rfl
  have function : ∀ f, later.function f = w.function f := fun f => by rw [writes.rest]; rfl
  have captured : ∀ c call, (w.context c).kind = .closure call →
      (((w.function call.function).frame.map (·.scopes)).getD []).find? (fun s => (later.scope s).name == other) =
      (((w.function call.function).frame.map (·.scopes)).getD []).find? fun s => (w.scope s).name == key := by
    intro c call kind
    cases frame : (w.function call.function).frame with
    | none => rfl
    | some frame' =>
      have agree : ∀ s ∈ frame'.scopes, ((later.scope s).name == other) = ((w.scope s).name == key) := by
        intro s member
        have opens := (parted.frames _ _ (parted.closures c call kind).kind frame).scopes s member
        rw [writes.named s (parted.issued s (.inl opens))]
        exact BEq.congr_right alike.same
      rw [← List.head?_filter, ← List.head?_filter]
      exact congrArg List.head? (List.filter_congr agree)
  induction contexts with
  | nil => rfl
  | cons c above ih =>
    unfold World.reach
    simp only [ih, context, component, function]
    cases kind : (w.context c).kind with
    | closure call =>
      have same := captured c call kind
      rcases name with _ | _ | _ | _ | _ | _ | _ | _ | _ | _ <;> simp only [same]
    | _ => rcases name with _ | _ | _ | _ | _ | _ | _ | _ | _ | _ <;> rfl

end World

section

variable (host : Host) (c : ContextId) (parted : w.Parted) (named : key.scopeName? = some name)
  (outer : name ≠ .application ∧ name ≠ .session)
include parted named outer

theorem scopeNearby_again : ∃ answer, scopeNearby host c key w = (answer, w) ∧ ∀ s, answer = .ok s →
      ∀ target later other, w.Writes target later → other.Alike key →
        scopeNearby host c other later = (.ok s, later) := by
  rw [scopeNearby_apply host c named outer]
  cases found : w.nearbyOf key name (w.ancestry c) with
  | none => exact ⟨_, rfl, fun s ok => by cases ok⟩
  | some s =>
    refine ⟨.ok s, rfl, ?_⟩
    rintro _ ⟨⟩ target later other writes alike
    have way : later.ancestry c = w.ancestry c := by rw [writes.rest, World.ancestry_scopes]
    have global : ∀ contexts, later.globalOf name contexts = w.globalOf name contexts := fun _ => by rw [writes.rest]; rfl
    have again : later.nearbyOf other name (later.ancestry c) = some s := by
      simp only [World.nearbyOf, way, writes.reach parted alike, global]
      exact found
    rw [scopeNearby_apply host c (alike.scopeName?.trans named) outer, again]
    rfl

theorem resolve_named :
    ∃ answer, (∀ default, resolve host c key default w = (answer, w)) ∧ ∀ found, answer = .ok found →
      ∃ s, found.value = .struct s ∧ ∀ target later other, w.Writes target later → other.Alike key →
        ∃ again, resolve host c other none later = (.ok again, later) ∧ again.value = .struct s := by
  obtain ⟨answer, reads, again⟩ := scopeNearby_again host c parted named outer
  have isName : key.isScopeName = true := by rw [Key.isScopeName, named]; rfl
  simp only [resolve, isName, if_true, bind_apply, reads]
  cases answer with
  | error error => exact ⟨_, fun _ => rfl, fun found ok => by cases ok⟩
  | ok s =>
    refine ⟨_, fun _ => rfl, ?_⟩
    rintro _ ⟨⟩
    refine ⟨s, rfl, fun target later other writes alike => ?_⟩
    rw [alike.isScopeName, isName]
    simp only [if_true, bind_apply, again s rfl target later other writes alike]
    exact ⟨_, rfl, rfl⟩

end

/-- The one scope that an assignment below `container` modifies was there, and the path does not come by it before: it was
neither consulted for the first segment nor walked through. -/
structure World.Unvisited (w : World) (c : ContextId) (key : Key) (container : ScopeId) (rest : List String) : Prop where
  there : (w.landing container rest).2.number < w.scopes.size
  walked : (w.landing container rest).2 ∉ (w.landing container rest).1
  searched : (w.landing container rest).2 ∉ w.consulted c key

/-- From `c`, the path leads to the value, in any spelling. -/
def World.ReadsBack (w : World) (host : Host) (c : ContextId) (first : String) (rest : List String) (value : Value) : Prop :=
  ∀ first' rest', Text.lower first' = Text.lower first → rest'.map Text.lower = rest.map Text.lower →
    ∃ found end_, resolve host c (.of first') none w = (.ok found, w) ∧
      followPath found [first'] rest' w = (.ok end_, w) ∧ end_.value = value

theorem World.LeadsTo.readsBack {host : Host} {c : ContextId} {first : String} {container : ScopeId} {value : Value}
    (leads : w.LeadsTo container rest value)
    (resolves : ∀ other, other.Alike (.of first) → ∃ found, resolve host c other none w = (.ok found, w) ∧ found.value = .struct container) :
    w.ReadsBack host c first rest value := by
  intro first' rest' alike spelled
  obtain ⟨found, resolved, holds⟩ := resolves _ (Key.alike_of_lower alike)
  obtain ⟨end_, follows, is⟩ := leads found [first'] rest' holds spelled
  exact ⟨found, end_, resolved, follows, is⟩

section Assignments

variable {w : World} (reachable : w.Reachable) (host : Host) {c : ContextId} {first : String} {rest : List String}
  (value : Value)
include reachable

theorem after_assign_named {name : ScopeName} (named : (Key.of first).scopeName? = some name)
    (outer : name ≠ .application ∧ name ≠ .session) (some_ : rest ≠ [])
    (unvisited : ∀ found s, (resolve host c (.of first) none w).1 = .ok found → found.value = .struct s →
      w.Unvisited c (.of first) s rest) (default : Option ScopeId) :
    (resolve host c (.of first) default).After w (fun found mid => ∃ s, found.value = .struct s ∧
      (assignBelow s [first] value rest).After mid (fun _ later => later.ReadsBack host c first rest value)
        fun _ _ => True) fun _ _ => True := by
  obtain ⟨answer, reads, holds⟩ := resolve_named host c reachable.parted named outer
  rw [After, reads]
  cases answer with
  | error stop => cases stop <;> trivial
  | ok found =>
    obtain ⟨s, struct_, again⟩ := holds found rfl
    have clear := unvisited found s (by rw [reads]) struct_
    refine ⟨s, struct_, (after_assignBelow s [first] value some_ clear.there clear.walked).mono ?_ fun _ _ _ => trivial⟩
    rintro _ later ⟨writes, leads⟩
    exact leads.readsBack fun other alike => again _ later other writes alike

section Plain

variable (inside : (w.context c).isRoot = false) (plain : (Key.of first).isScopeName = false) {owner : Finding}
  (owns : (w.findNearby (.of first) false (w.ancestry c)).getD
    { scope := w.defaultScope c, key := .of first, value := .null } = owner)
include inside plain owns

omit plain in
theorem owner_issued : owner.scope.number < w.scopes.size := by
  obtain ⟨before, after, way, _⟩ := World.owner_split reachable.rooted inside owns
  exact reachable.parted.searched owner.scope (way ▸ List.mem_append_right _ (List.mem_cons_self ..))

theorem resolve_owner {later : World} {bound : Value} (writes : w.Writes owner.scope later)
    (binds : (later.scope owner.scope).get (.of first) = some bound) (other : Key) (alike : other.Alike (.of first)) :
    ∃ found, resolve host c other none later = (.ok found, later) ∧ found.value = bound := by
  have hit := writes.findNearby_owner reachable.parted reachable.rooted inside owns alike binds
  rw [resolve_apply host c (alike.isScopeName.trans plain), hit]
  exact ⟨_, rfl, rfl⟩

theorem after_assign_name : (putIn owner.scope (.of first) value).After w
    (fun _ later => later.ReadsBack host c first [] value) fun _ _ => True := by
  refine (after_putIn owner.scope (.of first) value).partly ?_
  rintro _ later ⟨writes, _, bound, _⟩ first' rest' alike nil
  have binds := bound (owner_issued reachable inside owns)
  obtain rfl : rest' = [] := List.map_eq_nil_iff.mp nil
  obtain ⟨found, resolved, holds⟩ := resolve_owner reachable host inside plain owns writes binds _ (Key.alike_of_lower alike)
  exact ⟨found, found, resolved, rfl, holds⟩

theorem after_assign_created (some_ : rest ≠ []) : (createStruct owner.scope (.of first) >>= fun container =>
      assignBelow container [first] value rest).After w
    (fun _ later => later.ReadsBack host c first rest value) fun _ _ => True := by
  have issued := owner_issued reachable inside owns
  rw [after_bind]
  refine (after_createStruct owner.scope (.of first)).partly ?_
  rintro container mid ⟨writes, fresh, there, _, made⟩
  obtain ⟨binds, empty⟩ := made issued
  have lands := World.landing_empty empty rest
  refine (after_assignBelow container [first] value some_ (by rw [lands]; exact there) (by rw [lands]; simp)).partly ?_
  rintro _ later ⟨below, leads⟩
  rw [lands] at below
  have new : w.scopes.size ≤ container.number := by rw [fresh]; exact Nat.le_refl _
  have older : owner.scope ≠ container := fun same => by rw [same] at issued; exact absurd issued (Nat.not_lt.mpr new)
  refine leads.readsBack (resolve_owner reachable host inside plain owns (writes.below new below) ?_)
  rw [below.kept _ (Nat.lt_of_lt_of_le issued writes.size) older]
  exact binds

omit inside in
theorem after_assign_below {s : ScopeId} (some_ : rest ≠ []) (struct_ : owner.value = .struct s)
    (unvisited : ∀ found s, (resolve host c (.of first) none w).1 = .ok found → found.value = .struct s →
      w.Unvisited c (.of first) s rest) :
    (assignBelow s [first] value rest).After w (fun _ later => later.ReadsBack host c first rest value)
      fun _ _ => True := by
  have hit : w.findNearby (.of first) false (w.ancestry c) = some owner := by
    cases found : w.findNearby (.of first) false (w.ancestry c) with
    | none =>
      rw [found] at owns
      subst owns
      cases struct_
    | some found =>
      rw [found] at owns
      exact congrArg some owns
  have clear := unvisited owner s (by rw [resolve_apply host c plain, hit]) struct_
  refine (after_assignBelow s [first] value some_ clear.there clear.walked).partly ?_
  rintro _ later ⟨writes, leads⟩
  refine leads.readsBack fun other alike => ?_
  have again := writes.findNearby_kept reachable.parted reachable.rooted plain clear.searched alike hit
  rw [resolve_apply host c (alike.isScopeName.trans plain), again]
  exact ⟨_, rfl, struct_⟩

end Plain

/-- Wherever it goes, an assignment that succeeds can be read back. -/
theorem after_setPath {path : String} (inside : (w.context c).isRoot = false)
    (segments : splitPath path = .ok (first :: rest))
    (outer : (Key.of first).scopeName? ≠ some .application ∧ (Key.of first).scopeName? ≠ some .session)
    (single : rest = [] → (Key.of first).isScopeName = false)
    (unvisited : rest ≠ [] → ∀ found s, (resolve host c (.of first) none w).1 = .ok found → found.value = .struct s →
      w.Unvisited c (.of first) s rest) :
    (setPath host c path value).After w (fun _ later => later.ReadsBack host c first rest value) fun _ _ => True := by
  have split : ofExcept (.ok (first :: rest)) = (pure (first :: rest) : Action (List String)) := rfl
  rw [setPath, after_bind, segments, split, after_pure, after_bind, after_get, after_bind]
  cases plain : (Key.of first).isScopeName with
  | true =>
    obtain ⟨name, named⟩ := Option.isSome_iff_exists.mp plain
    have further : name ≠ .application ∧ name ≠ .session := by
      rw [named] at outer
      exact ⟨fun same => outer.1 (congrArg some same), fun same => outer.2 (congrArg some same)⟩
    cases rest with
    | nil => rw [single rfl] at plain; cases plain
    | cons next rest =>
      have some_ := List.cons_ne_nil next rest
      refine (after_assign_named reachable host value named further some_ (unvisited some_) _).partly ?_
      rintro found mid ⟨s, struct_, assigns⟩
      simpa only [struct_, after_bind, after_pure] using assigns
  | false =>
    rw [After, resolve_default host c plain]
    generalize owns : (w.findNearby (.of first) false (w.ancestry c)).getD _ = owner
    cases rest with
    | nil =>
      simpa only [after_bind, after_pure] using after_assign_name reachable host value inside plain owns
    | cons next rest =>
      have some_ := List.cons_ne_nil next rest
      cases held : owner.value with
      | struct s =>
        simpa only [held, after_bind, after_pure] using
          after_assign_below reachable host value plain owns some_ held (unvisited some_)
      | null =>
        simpa only [held] using after_assign_created reachable host value inside plain owns some_
      | _ => simp only [held, after_bind, after_fail]

end Assignments

/-- What is assigned to a path is read back from it. The place is a request, a template, a component or a call; the path does
not begin with the session or the application scope and is not the bare name of a scope. If the first of several segments
already stands for a struct, the one scope that the assignment modifies is not one that the path came by before. The value is
then what the path resolves to, in any spelling. -/
theorem assigned_path_is_read_back {w later : World} (reachable : w.Reachable) (host : Host) {c : ContextId}
    (inside : (w.context c).isRoot = false) {path spelling first : String} {rest : List String} {value : Value}
    (segments : splitPath path = .ok (first :: rest))
    (outer : (Key.of first).scopeName? ≠ some .application ∧ (Key.of first).scopeName? ≠ some .session)
    (single : rest = [] → (Key.of first).isScopeName = false)
    (unvisited : rest ≠ [] → ∀ found s, (resolve host c (.of first) none w).1 = .ok found → found.value = .struct s →
      w.Unvisited c (.of first) s rest)
    (spelled : Text.lower spelling = Text.lower path) (assigned : setPath host c path value w = (.ok (), later)) :
    resolveValue host c spelling later = (.ok value, later) := by
  have after := after_setPath reachable host value inside segments outer single unvisited
  rw [After, assigned] at after
  obtain ⟨others, split, alike⟩ := splitPath_spelling segments spelled
  cases others with
  | nil => cases alike
  | cons first' rest' =>
    obtain ⟨sameFirst, sameRest⟩ := List.cons.inj alike
    obtain ⟨found, end_, resolved, follows, is⟩ := after first' rest' sameFirst sameRest
    simp only [resolveValue, resolvePath, split, bind_apply, ofExcept_apply, resolved, follows]
    rw [← is]
    rfl

/-- A request that calls a function with one argument. -/
def ordering : Script.Program where
  settings := { name := "shop" }
  steps := [
    .mk (.within .request [
      .mk (.function (.new (.mk .plain "order" [.mk "item" true none] .exposed none []) (some "order"))) false,
      .mk (.function (.call "order" (.positional [.integer 5]) none)) false]) false]

/-- In the call, a struct is created as the second argument. -/
theorem assigned_path_is_read_back_ordering :
    let host := Script.hostOf (Script.execute 0)
    let w := (ordering.action 9 (World.start default)).2
    w.Reachable ∧ (w.context ⟨2⟩).type = .function ∧ ((w.scope ⟨7⟩).isPositional ∧ (w.scope ⟨7⟩).size = 1) ∧
      ∃ later, setPath host ⟨2⟩ "arguments.2.total" (.integer 7) w = (.ok (), later) ∧
        resolveValue host ⟨2⟩ "Arguments.2.TOTAL" later = (.ok (.integer 7), later) := by
  intro host w
  have reachable : w.Reachable := .program ordering 9 default
  have parts : pathSegments "arguments.2.total" = ["arguments", "2", "total"] := by decide +kernel
  have segments : splitPath "arguments.2.total" = .ok ["arguments", "2", "total"] := by rw [splitPath, parts]; rfl
  have unvisited : ∀ found s, (resolve host ⟨2⟩ (.of "arguments") none w).1 = .ok found → found.value = .struct s →
      w.Unvisited ⟨2⟩ (.of "arguments") s ["2", "total"] := by
    intro found s resolves struct_
    have known : ((resolve host ⟨2⟩ (.of "arguments") none w).1.toOption.map (·.value == .struct ⟨7⟩)) = some true := by
      decide +kernel
    rw [resolves] at known
    have same : (found.value == .struct ⟨7⟩) = true := Option.some.inj known
    rw [struct_] at same
    obtain rfl : s = ⟨7⟩ := eq_of_beq (α := ScopeId) same
    exact ⟨by decide +kernel, by decide +kernel, by decide +kernel⟩
  have ran : (setPath host ⟨2⟩ "arguments.2.total" (.integer 7) w).1.toOption = some () := by decide +kernel
  have achieves : (setPath host ⟨2⟩ "arguments.2.total" (.integer 7)).Achieves w fun _ _ => True :=
    achieves_of_toOption ran trivial
  obtain ⟨_, later, assigned, _⟩ := achieves
  exact ⟨reachable, by decide +kernel, ⟨by decide +kernel, by decide +kernel⟩, later, assigned,
    assigned_path_is_read_back reachable host (by decide +kernel) segments ⟨by decide +kernel, by decide +kernel⟩ (by simp)
      (fun _ => unvisited) (by decide +kernel) assigned⟩

end ScopeEngine
