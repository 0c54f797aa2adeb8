import ScopeEngine.Lifecycle.Requests
import ScopeEngine.Proofs.Bindings
import ScopeEngine.Proofs.Identities

/-! Where a request stands: what it runs with, and the application and the session that its spliced nodes stand for.
Contexts are never taken away and keep their parents, so the nearest request of a context stays the same. -/

namespace ScopeEngine

namespace World

def nodeApplication (w : World) (node : ContextId) : Option ApplicationId :=
  match (w.context node).kind with
  | .application a => some a
  | _ => none

def nodeSession (w : World) (node : ContextId) : Option SessionId :=
  match (w.context node).kind with
  | .session s => some s
  | _ => none

abbrev framed (w : World) : World := ((w.addScope (.new ScopeName.vars.key)).2.addScope (.new ScopeName.request.key)).2

end World

structure Standing where
  settings : Settings
  detached : Bool
  sessionId : Option Key
  application : Option ApplicationId
  session : Option SessionId

namespace World

variable {request : Request}

def standingOf (w : World) (request : Request) : Standing where
  settings := request.settings
  detached := request.detached
  sessionId := request.sessionId
  application := request.applicationNode.bind w.nodeApplication
  session := request.sessionNode.bind w.nodeSession

section

variable (w : World) (request : Request) (node : ContextId)

@[simp] theorem standingOf_excise_session : w.standingOf (request.excise .session) =
    { w.standingOf request with session := none } := by
  simp only [standingOf, Request.sessionNode_excise_session, Request.applicationNode_excise_session, Option.bind_none]
  rfl

@[simp] theorem standingOf_excise_application : w.standingOf (request.excise .application) =
    { w.standingOf request with application := none } := by
  simp only [standingOf, Request.sessionNode_excise_application, Request.applicationNode_excise_application, Option.bind_none]
  rfl

@[simp] theorem standingOf_splice_session : w.standingOf (request.splice (.session node)) =
    { w.standingOf request with session := w.nodeSession node } := by
  simp only [standingOf, Request.sessionNode_splice_session, Request.applicationNode_splice_session, Option.bind_some]
  rfl

@[simp] theorem standingOf_splice_application : w.standingOf (request.splice (.application node)) =
    { w.standingOf request with application := w.nodeApplication node } := by
  simp only [standingOf, Request.sessionNode_splice_application, Request.applicationNode_splice_application, Option.bind_some]
  rfl

end

def standing (w : World) (r : ContextId) : Option Standing :=
  (w.context r).request?.map w.standingOf

def home (w : World) (c : ContextId) : Option ContextId :=
  (w.requestOf c).map Prod.fst

variable {w later : World} {c r t : ContextId}

theorem request?_eq_some {context : Context} : context.request? = some request ↔ context.kind = .request request := by
  obtain ⟨parent, kind, templates⟩ := context
  cases kind <;> simp [Context.request?]

theorem spliced_of_request (at_ : (w.context r).request? = some request) :
    (w.context r).spliced = request.sessionNode.toList ++ request.applicationNode.toList := by
  simp only [Context.spliced, request?_eq_some.mp at_]
  exact request.ancestors.map_node

theorem spliced_of_none (at_ : (w.context r).request? = none) : (w.context r).spliced = [] := by
  unfold Context.request? at at_
  unfold Context.spliced
  split at at_
  · cases at_
  · rfl

theorem ancestry_eq_cons (w : World) (c : ContextId) : ∃ rest, w.ancestry c = c :: rest := by
  rw [ancestry]
  split
  · exact ⟨[], rfl⟩
  · split
    · exact ⟨_, rfl⟩
    · exact ⟨[], rfl⟩

theorem requestOf_self (at_ : (w.context r).request? = some request) : w.requestOf r = some (r, request) := by
  obtain ⟨rest, way⟩ := w.ancestry_eq_cons r
  simp [requestOf, way, at_]

theorem request?_of_requestOf (found : w.requestOf c = some (r, request)) : (w.context r).request? = some request := by
  simp only [requestOf] at found
  obtain ⟨at_, _, same⟩ := List.exists_of_findSome?_eq_some found
  simp only [Option.map_eq_some_iff, Prod.mk.injEq] at same
  obtain ⟨request, there, rfl, rfl⟩ := same
  exact there

theorem home_self {standing : Standing} (at_ : w.standing r = some standing) : w.home r = some r := by
  obtain ⟨request, there, -⟩ := Option.map_eq_some_iff.mp at_
  rw [home, requestOf_self there]
  rfl

theorem requestOf_home (at_ : w.home c = some r) :
    ∃ request, w.requestOf c = some (r, request) ∧ (w.context r).request? = some request := by
  obtain ⟨⟨_, request⟩, found, rfl⟩ := Option.map_eq_some_iff.mp at_
  exact ⟨request, found, request?_of_requestOf found⟩

theorem standing_of_home (at_ : w.home c = some r) : ∃ standing, w.standing r = some standing := by
  obtain ⟨request, -, there⟩ := requestOf_home at_
  exact ⟨w.standingOf request, by rw [World.standing, there]; rfl⟩

theorem home_home (at_ : w.home c = some r) : w.home r = some r := by
  obtain ⟨standing, here⟩ := standing_of_home at_
  exact home_self here

theorem splicedApplication_eq (found : w.requestOf c = some (r, request)) :
    w.splicedApplication c = (w.standingOf request).application := by
  simp only [splicedApplication, found, standingOf, Option.bind_eq_bind, Option.bind_some]
  rfl

theorem splicedSession_eq (found : w.requestOf c = some (r, request)) :
    w.splicedSession c = (w.standingOf request).session := by
  simp only [splicedSession, found, standingOf, Option.bind_eq_bind, Option.bind_some]
  rfl

/-- The contexts of a world are still there later, below the same parents, and the same ones are requests. -/
structure Extends (w later : World) : Prop where
  size : w.contexts.size ≤ later.contexts.size
  parent : ∀ c : ContextId, c.number < w.contexts.size → (later.context c).parent = (w.context c).parent
  request : ∀ c : ContextId, c.number < w.contexts.size →
    ((later.context c).request?).isSome = ((w.context c).request?).isSome

theorem Extends.refl (w : World) : w.Extends w := ⟨Nat.le_refl _, fun _ _ => rfl, fun _ _ => rfl⟩

theorem Extends.trans {middle : World} (first : w.Extends middle) (second : middle.Extends later) : w.Extends later where
  size := Nat.le_trans first.size second.size
  parent := fun c issued =>
    (second.parent c (Nat.lt_of_lt_of_le issued first.size)).trans (first.parent c issued)
  request := fun c issued =>
    (second.request c (Nat.lt_of_lt_of_le issued first.size)).trans (first.request c issued)

theorem extends_of_contexts (contexts : later.contexts = w.contexts) : w.Extends later := by
  refine ⟨Nat.le_of_eq (by rw [contexts]), fun c _ => ?_, fun c _ => ?_⟩ <;> simp only [context, contexts]

theorem Extends.ancestry (extends_ : w.Extends later) (c : ContextId) (issued : c.number < w.contexts.size) :
    later.ancestry c = w.ancestry c := by
  have there := extends_.parent c issued
  induction c using World.ancestry.induct w with
  | case1 c none => rw [World.ancestry, World.ancestry, there, none]
  | case2 c parent some older ih =>
    rw [World.ancestry, World.ancestry, there, some]
    have inside := Nat.lt_trans older issued
    simp only [older, if_true, ih inside (extends_.parent parent inside)]
  | case3 c parent some younger =>
    rw [World.ancestry, World.ancestry, there, some]
    simp only [younger, if_false]

@[elab_as_elim]
theorem ancestry_induction {motive : ContextId → Prop} (alone : ∀ c, w.ancestry c = [c] → motive c)
    (below : ∀ c parent : ContextId, (w.context c).parent = some parent → parent.number < c.number →
      w.ancestry c = c :: w.ancestry parent → motive parent → motive c) (c : ContextId) : motive c := by
  induction c using World.ancestry.induct w with
  | case1 c none => exact alone c (by rw [World.ancestry, none])
  | case2 c parent some older ih => exact below c parent some older (by rw [World.ancestry, some]; exact if_pos older) ih
  | case3 c parent some younger => exact alone c (by rw [World.ancestry, some]; exact if_neg younger)

theorem le_of_mem_ancestry (w : World) (c : ContextId) : ∀ t ∈ w.ancestry c, t.number ≤ c.number := by
  induction c using w.ancestry_induction with
  | alone c way => simp [way]
  | below c parent _ older way ih =>
    rw [way]
    rintro t (_ | ⟨_, above⟩)
    · exact Nat.le_refl _
    · exact Nat.le_of_lt (Nat.lt_of_le_of_lt (ih t above) older)

theorem home_eq_find (w : World) (c : ContextId) :
    w.home c = (w.ancestry c).find? fun t => ((w.context t).request?).isSome := by
  simp only [home, requestOf]
  induction w.ancestry c with
  | nil => rfl
  | cons t rest ih => cases there : (w.context t).request? <;> simp [there, ih]

theorem Extends.home (extends_ : w.Extends later) (issued : c.number < w.contexts.size) : later.home c = w.home c := by
  rw [home_eq_find, home_eq_find, extends_.ancestry c issued]
  have alike : ∀ t ∈ w.ancestry c, ((later.context t).request?).isSome = ((w.context t).request?).isSome :=
    fun t above => extends_.request t (Nat.lt_of_le_of_lt (w.le_of_mem_ancestry c t above) issued)
  generalize w.ancestry c = way at alike
  induction way with
  | nil => rfl
  | cons t rest ih =>
    simp only [List.find?_cons, alike t (by simp)]
    rw [ih fun t above => alike t (List.mem_cons_of_mem _ above)]

theorem context_of_ge {c : ContextId} (beyond : w.contexts.size ≤ c.number) : w.context c = default := by
  simp only [context, Table.get, Table.get?]
  rw [Array.getElem?_eq_none beyond]
  rfl

theorem issued_of_request (at_ : (w.context r).request? = some request) : r.number < w.contexts.size := by
  refine Nat.lt_of_not_le fun beyond => ?_
  rw [context_of_ge beyond] at at_
  cases at_

theorem issued_of_node {a : ApplicationId} (stands : w.nodeApplication c = some a) : c.number < w.contexts.size := by
  refine Nat.lt_of_not_le fun beyond => ?_
  rw [nodeApplication, context_of_ge beyond] at stands
  cases stands

theorem issued_of_standing {standing : Standing} (at_ : w.standing r = some standing) : r.number < w.contexts.size := by
  obtain ⟨request, there, -⟩ := Option.map_eq_some_iff.mp at_
  exact issued_of_request there

theorem issued_of_home (home : w.home c = some r) : c.number < w.contexts.size := by
  refine Nat.lt_of_not_le fun beyond => ?_
  have missing := context_of_ge beyond
  have alone : w.ancestry c = [c] := by
    rw [ancestry, missing]
    rfl
  rw [home_eq_find, alone, List.find?_cons, missing] at home
  cases home

section ModifyRequest

variable (w : World) (r t : ContextId) (change : Request → Request)

theorem modifyRequest_eq : ∃ contexts, w.modifyRequest r change = { w with contexts } := by
  simp only [modifyRequest]
  split
  · exact ⟨_, rfl⟩
  · exact ⟨w.contexts, rfl⟩

@[simp] theorem modifyRequest_applications : (w.modifyRequest r change).applications = w.applications := by
  obtain ⟨contexts, same⟩ := w.modifyRequest_eq r change
  rw [same]

@[simp] theorem modifyRequest_sessions : (w.modifyRequest r change).sessions = w.sessions := by
  obtain ⟨contexts, same⟩ := w.modifyRequest_eq r change
  rw [same]

@[simp] theorem modifyRequest_registry : (w.modifyRequest r change).registry = w.registry := by
  obtain ⟨contexts, same⟩ := w.modifyRequest_eq r change
  rw [same]

@[simp] theorem modifyRequest_application (a : ApplicationId) :
    (w.modifyRequest r change).application a = w.application a := by
  simp [application]

@[simp] theorem modifyRequest_session (s : SessionId) : (w.modifyRequest r change).session s = w.session s := by
  simp [session]

@[simp] theorem modifyRequest_size : (w.modifyRequest r change).contexts.size = w.contexts.size := by
  simp only [modifyRequest]
  split
  · exact Table.size_set ..
  · rfl

theorem context_modifyRequest :
    (w.modifyRequest r change).context t = match (w.context r).request? with
      | some request => if r = t then { w.context t with kind := .request (change request) } else w.context t
      | none => w.context t := by
  cases at_ : (w.context r).request? with
  | none =>
    simp only [modifyRequest]
    split
    next request there => rw [request?_eq_some.mpr there] at at_; cases at_
    next => rfl
  | some request =>
    have issued := issued_of_request at_
    have there := request?_eq_some.mp at_
    simp only [modifyRequest, there]
    refine (Table.get_set w.contexts r t { w.context r with kind := .request (change request) }).trans ?_
    by_cases same : r = t
    · subst t
      rw [if_pos ⟨rfl, issued⟩, if_pos rfl]
    · rw [if_neg fun both => same both.1, if_neg same]
      rfl

@[simp] theorem parent_modifyRequest : ((w.modifyRequest r change).context t).parent = (w.context t).parent := by
  rw [context_modifyRequest]
  split
  · split <;> rfl
  · rfl

theorem request?_modifyRequest :
    ((w.modifyRequest r change).context t).request? =
      if r = t then ((w.context r).request?).map change else (w.context t).request? := by
  rw [context_modifyRequest]
  by_cases same : r = t
  · subst t
    cases at_ : (w.context r).request? with
    | none => simp [at_]
    | some request => simp [Context.request?]
  · cases (w.context r).request? <;> simp [same]

theorem kind_modifyRequest : ((w.modifyRequest r change).context t).kind = (w.context t).kind ∨ ∃ old new,
      (w.context t).kind = .request old ∧ ((w.modifyRequest r change).context t).kind = .request new := by
  rw [context_modifyRequest]
  cases at_ : (w.context r).request? with
  | none => exact .inl rfl
  | some request =>
    by_cases same : r = t
    · exact .inr ⟨request, change request, same ▸ request?_eq_some.mp at_, by simp [same]⟩
    · exact .inl (by simp [same])

@[simp] theorem nodeApplication_modifyRequest : (w.modifyRequest r change).nodeApplication t = w.nodeApplication t := by
  rcases w.kind_modifyRequest r t change with same | ⟨old, new, before, after⟩
  · simp [nodeApplication, same]
  · simp [nodeApplication, before, after]

@[simp] theorem nodeSession_modifyRequest : (w.modifyRequest r change).nodeSession t = w.nodeSession t := by
  rcases w.kind_modifyRequest r t change with same | ⟨old, new, before, after⟩
  · simp [nodeSession, same]
  · simp [nodeSession, before, after]

@[simp] theorem standingOf_modifyRequest (request : Request) :
    (w.modifyRequest r change).standingOf request = w.standingOf request := by
  have applications : (w.modifyRequest r change).nodeApplication = w.nodeApplication := by
    funext node
    simp
  have sessions : (w.modifyRequest r change).nodeSession = w.nodeSession := by
    funext node
    simp
  simp only [standingOf, applications, sessions]

theorem standing_modifyRequest :
    (w.modifyRequest r change).standing t =
      if r = t then ((w.context r).request?).map fun request => w.standingOf (change request) else w.standing t := by
  have same : (w.modifyRequest r change).standingOf = w.standingOf := by
    funext request
    simp
  simp only [standing, request?_modifyRequest, same]
  split
  · simp [Function.comp_def]
  · rfl

theorem extends_modifyRequest : w.Extends (w.modifyRequest r change) where
  size := Nat.le_of_eq (modifyRequest_size ..).symm
  parent := fun c _ => by simp
  request := fun c _ => by
    rw [request?_modifyRequest]
    split
    next same => simp [same]
    next => rfl

end ModifyRequest

section Requests

variable {request : Request}

theorem modifyRequest_modifyRequest (there : (w.context r).request? = some request) (first second : Request → Request) :
    (w.modifyRequest r first).modifyRequest r second = w.modifyRequest r (second ∘ first) := by
  have kind := request?_eq_some.mp there
  have changed : w.modifyRequest r first = w.setContext r { w.context r with kind := .request (first request) } := by
    rw [modifyRequest, kind]
  have here : (w.modifyRequest r first).context r = { w.context r with kind := .request (first request) } := by
    rw [context_modifyRequest, there]
    exact if_pos rfl
  rw [modifyRequest, here, changed]
  simp only [modifyRequest, kind, setContext, Table.set, Array.setIfInBounds_setIfInBounds, Function.comp]

variable (found : w.requestOf c = some (r, request))
include found

theorem excise_session :
    (w.excise c .session).2 = w.modifyRequest r (·.excise .session) := by
  simp only [excise, found]

theorem excise_application :
    (w.excise c .application).2 = w.modifyRequest r (·.excise .application) := by
  simp only [excise, found]

theorem excise_both : ((w.excise c .session).2.excise c .application).2 =
      w.modifyRequest r fun request => (request.excise .session).excise .application := by
  have there := request?_of_requestOf found
  have home : w.home c = some r := by rw [World.home, found]; rfl
  have still := ((w.extends_modifyRequest r (·.excise .session)).home
    (issued_of_home home)).trans home
  obtain ⟨now, again, -⟩ := requestOf_home still
  rw [excise_session found, excise_application again, modifyRequest_modifyRequest there]
  rfl

end Requests

end World

end ScopeEngine
