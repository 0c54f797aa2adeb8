import Mathlib.Data.List.Sort
import ScopeEngine.Proofs.Resolution.Owners

/-! The shape of spliced nodes: at most one of either kind, each in the place for its kind, the session nearer than the
application. Splicing replaces the node of the same kind where it stands, or else puts the new one in by its rank; taking a
node out leaves the other. -/

namespace ScopeEngine

open ScopeEngine.Action Script

namespace World

variable {w later : World} {r node : ContextId} {request before : Request}

/-- The nodes of the request are of the kinds that their places are for. -/
structure Fitting (w : World) (request : Request) : Prop where
  session : ∀ node, request.sessionNode = some node → (w.context node).type = .session
  application : ∀ node, request.applicationNode = some node → (w.context node).type = .application

def NodesFit (w : World) : Prop :=
  ∀ r request, (w.context r).request? = some request → w.Fitting request

theorem fitting_bare (session : request.sessionNode = none) (application : request.applicationNode = none) :
    w.Fitting request where
  session := fun node held => by cases session.symm.trans held
  application := fun node held => by cases application.symm.trans held

theorem Fitting.congr (fits : w.Fitting request)
    (types : ∀ node, (w.context node).type ≠ .server → (later.context node).type = (w.context node).type) :
    later.Fitting request where
  session := fun node held => by
    have type := fits.session node held
    rw [types node (by rw [type]; exact nofun), type]
  application := fun node held => by
    have type := fits.application node held
    rw [types node (by rw [type]; exact nofun), type]

theorem Fitting.within (fits : w.Fitting before) (within : request.Within before) : w.Fitting request where
  session := fun node held => by
    rcases within.session with same | none
    · exact fits.session node (same.symm.trans held)
    · cases none.symm.trans held
  application := fun node held => by
    rcases within.application with same | none
    · exact fits.application node (same.symm.trans held)
    · cases none.symm.trans held

theorem Fitting.withSession (fits : w.Fitting request) (type : (w.context node).type = .session) :
    w.Fitting (request.splice (.session node)) :=
  ⟨fun _ held => Option.some.inj ((request.sessionNode_splice_session node).symm.trans held) ▸ type, fun other held =>
    fits.application other ((request.applicationNode_splice_session node).symm.trans held)⟩

theorem Fitting.withApplication (fits : w.Fitting request) (type : (w.context node).type = .application) :
    w.Fitting (request.splice (.application node)) :=
  ⟨fun other held => fits.session other ((request.sessionNode_splice_application node).symm.trans held), fun _ held =>
    Option.some.inj ((request.applicationNode_splice_application node).symm.trans held) ▸ type⟩

theorem type_modifyRequest (w : World) (r node : ContextId) (change : Request → Request) :
    ((w.modifyRequest r change).context node).type = (w.context node).type := by
  rcases w.kind_modifyRequest r node change with same | ⟨old, new, before, after⟩
  · rw [Context.type, same, Context.type]
  · rw [Context.type, after, Context.type, before]
    rfl

section

variable (fit : w.NodesFit)
include fit

theorem NodesFit.congr (same : later.contexts = w.contexts) : later.NodesFit := by
  have contexts : later.context = w.context := by
    funext c
    rw [context, same, context]
  intro r request at_
  rw [contexts] at at_
  exact (fit r request at_).congr fun node _ => by rw [contexts]

theorem NodesFit.addContext {context : Context} (bare : context.spliced = []) : (w.addContext context).2.NodesFit := by
  -- The new context takes the place of nothing but the default, which is a server.
  have types : ∀ node, (w.context node).type ≠ .server →
      ((w.addContext context).2.context node).type = (w.context node).type := by
    intro node other
    by_cases issued : node.number < w.contexts.size
    · rw [context_addContext_of_lt w context issued]
    · rw [context_of_ge (Nat.le_of_not_lt issued)] at other
      exact absurd rfl other
  intro r request at_
  rw [context_addContext] at at_
  split at at_
  · simp only [Context.spliced, request?_eq_some.mp at_, Ancestors.map_node, List.append_eq_nil_iff,
      Option.toList_eq_nil_iff] at bare
    exact fitting_bare bare.1 bare.2
  · exact (fit r request at_).congr types

theorem NodesFit.modifyRequest (r : ContextId) {change : Request → Request}
    (fits : ∀ request, w.Fitting request → w.Fitting (change request)) : (w.modifyRequest r change).NodesFit := by
  intro t request at_
  refine Fitting.congr ?_ fun node _ => w.type_modifyRequest r node change
  rw [request?_modifyRequest] at at_
  split at at_
  · obtain ⟨before, there, rfl⟩ := Option.map_eq_some_iff.mp at_
    exact fits before (fit r before there)
  · exact fit t request at_

theorem NodesFit.setTemplates (c : ContextId) (templates : List String) :
    (w.setContext c { w.context c with templates }).NodesFit := by
  have kinds : ∀ t, ((w.setContext c { w.context c with templates }).context t).kind = (w.context t).kind := by
    intro t
    rw [context, setContext, Table.get_set]
    split
    next here => rw [here.1]
    next => rfl
  intro r request at_
  rw [request?_eq_some, kinds] at at_
  exact (fit r request (request?_eq_some.mpr at_)).congr fun node _ => by simp only [Context.type, kinds]

theorem NodesFit.newRequest (parent : ContextId) (detached : Bool) : (w.newRequest parent detached).2.NodesFit := by
  have framed : w.framed.NodesFit := fit.congr rfl
  exact framed.addContext rfl

theorem NodesFit.newDetached (parent : ContextId) (a : ApplicationId) : (w.newDetached parent a).2.NodesFit := by
  have noded : ((w.newRequest parent true).2.addNode (.application a)).2.NodesFit :=
    (fit.newRequest parent true).addContext rfl
  refine noded.modifyRequest _ fun request fits => ⟨nofun, ?_⟩
  rintro node ⟨⟩
  rw [addNode, context_addContext]
  exact congrArg Context.type (if_pos rfl)

end

theorem nodesFit_order : WorldOrder fun w later => w.NodesFit → later.NodesFit where
  refl := fun _ fit => fit
  trans := fun first second fit => second (first fit)
  beside := fun beside fit => fit.congr beside.contexts
  elsewhere := fun contexts _ _ fit => fit.congr contexts
  function := fun _ _ fit => fit.congr rfl
  component := fun _ _ fit => fit.congr rfl
  context := fun _ _ _ bare fit => fit.addContext bare
  detached := fun _ c a fit => fit.newDetached c a
  request := fun _ r _ within fit => fit.modifyRequest r fun request fits => fits.within (within request)
  templates := fun _ c templates fit => fit.setTemplates c templates
  sessionNode := fun _ r _ type fit => fit.modifyRequest r fun _ fits => fits.withSession type
  applicationNode := fun _ r _ type fit => fit.modifyRequest r fun _ fits => fits.withApplication type

end World

namespace Ancestor

variable {new node : Ancestor} {before after nodes : List Ancestor} {type : ContextType}

theorem sortByRank_eq (nodes : List Ancestor) :
    sortByRank nodes = nodes.insertionSort fun near far => near.type.rank ≤ far.type.rank := by
  have insert : ∀ new (rest : List Ancestor),
      insertByRank new rest = rest.orderedInsert (fun near far => near.type.rank ≤ far.type.rank) new := by
    intro new rest
    induction rest with
    | nil => rfl
    | cons next rest ih => rw [insertByRank, List.orderedInsert, ih]
  induction nodes with
  | nil => rfl
  | cons first rest ih => rw [sortByRank, List.foldr_cons, insert, ← sortByRank, ih, List.insertionSort_cons]

theorem findIdx?_split (is : node.type = type) (none : ∀ other ∈ before, other.type ≠ type) :
    (before ++ node :: after).findIdx? (·.type == type) = some before.length := by
  have before_ : before.findIdx? (·.type == type) = Option.none := by simpa [List.findIdx?_eq_none_iff] using none
  rw [List.findIdx?_append, before_, List.findIdx?_cons]
  simp [is]

theorem inject_split (same : node.type = new.type) (none : ∀ other ∈ before, other.type ≠ new.type) :
    new.inject (before ++ node :: after) = before ++ new :: after := by
  rw [inject, findIdx?_split same none]
  simp

theorem inject_absent (none : ∀ other ∈ nodes, other.type ≠ new.type) :
    new.inject nodes = (nodes ++ [new]).insertionSort fun near far => near.type.rank ≤ far.type.rank := by
  have absent : nodes.findIdx? (·.type == new.type) = Option.none := by simpa [List.findIdx?_eq_none_iff] using none
  rw [inject, absent, ← sortByRank_eq]

theorem remove_split (is : node.type = type) (none : ∀ other ∈ before, other.type ≠ type) :
    remove type (before ++ node :: after) = before ++ after := by
  rw [remove, findIdx?_split is none]
  simp [List.eraseIdx_append_of_length_le]

theorem remove_absent (none : ∀ other ∈ nodes, other.type ≠ type) : remove type nodes = nodes := by
  have absent : nodes.findIdx? (·.type == type) = Option.none := by simpa [List.findIdx?_eq_none_iff] using none
  rw [remove, absent]

theorem Ordered.before_ne (ordered : Ordered (before ++ node :: after)) : ∀ other ∈ before, other.type ≠ node.type := by
  intro other held same
  have less := (List.pairwise_append.mp ordered).2.2 other held node List.mem_cons_self
  rw [same] at less
  exact Nat.lt_irrefl _ less

end Ancestor

def Request.NodesOnly (change : Request → Request) : Prop :=
  ∀ request, { change request with ancestors := request.ancestors } = request

namespace World

variable {w later : World} {c r node : ContextId} {request : Request} {type : ContextType}

def typeAt (w : World) (c : ContextId) : ContextType := (w.context c).type

/-- The kinds of the nodes spliced in at each request are among the four lists there can be. -/
def Shaped (w : World) : Prop :=
  ∀ r, (w.context r).spliced.map w.typeAt ∈ [[], [.session], [.application], [.session, .application]]

/-- What injecting a node into the request at `r` does to the list of its nodes. -/
structure Injected (w later : World) (r node : ContextId) : Prop where
  elsewhere : ∃ change, Request.NodesOnly change ∧ later = w.modifyRequest r change
  replaced : ∀ before old after, (w.context r).spliced = before ++ old :: after → w.typeAt old = w.typeAt node →
    (later.context r).spliced = before ++ node :: after
  added : (∀ old ∈ (w.context r).spliced, w.typeAt old ≠ w.typeAt node) →
    (later.context r).spliced =
      ((w.context r).spliced ++ [node]).insertionSort fun a b => (w.typeAt a).rank ≤ (w.typeAt b).rank

/-- What removing the node of a kind from the request at `r` does to the list of its nodes. -/
structure Removed (w later : World) (r : ContextId) (type : ContextType) (removed : Option ContextId) : Prop where
  elsewhere : ∃ change, Request.NodesOnly change ∧ later = w.modifyRequest r change
  found : ∀ before node after, (w.context r).spliced = before ++ node :: after → w.typeAt node = type →
    removed = some node ∧ (later.context r).spliced = before ++ after
  absent : (∀ node ∈ (w.context r).spliced, w.typeAt node ≠ type) →
    removed = none ∧ (later.context r).spliced = (w.context r).spliced

theorem nodes_of_request (at_ : (w.context r).request? = some request) :
    (w.context r).spliced = request.ancestors.nodes.map (·.node) := by
  simp only [Context.spliced, request?_eq_some.mp at_]

theorem nodes_modifyRequest (at_ : (w.context r).request? = some request) (change : Request → Request) :
    ((w.modifyRequest r change).context r).spliced = (change request).ancestors.nodes.map (·.node) := by
  apply nodes_of_request
  rw [request?_modifyRequest, if_pos rfl, at_]
  rfl

theorem Fitting.types (fits : w.Fitting request) : ∀ ancestor ∈ request.ancestors.nodes, w.typeAt ancestor.node = ancestor.type := by
  intro ancestor held
  rw [Ancestors.nodes_eq] at held
  simp only [List.mem_append, Option.mem_toList, Option.map_eq_some_iff] at held
  rcases held with ⟨node, there, rfl⟩ | ⟨node, there, rfl⟩
  · exact fits.session node there
  · exact fits.application node there

theorem NodesFit.shaped (fit : w.NodesFit) : w.Shaped := by
  intro r
  cases at_ : (w.context r).request? with
  | none =>
    rw [spliced_of_none at_]
    exact List.mem_cons_self
  | some request =>
    have types : request.ancestors.nodes.map (w.typeAt ∘ (·.node)) = request.ancestors.nodes.map (·.type) :=
      List.map_congr_left (fit r request at_).types
    rw [nodes_of_request at_, List.map_map, types]
    rcases request.ancestors.ordered.shape with is | ⟨_, is⟩ | ⟨_, is⟩ | ⟨_, _, is⟩ <;> simp [is]

section Places

variable (fit : w.NodesFit) (at_ : (w.context r).request? = some request)
include fit at_

/-- The node that stands between two others in the list of contexts is one of the request's nodes. -/
theorem NodesFit.split {before after : List ContextId} (split : (w.context r).spliced = before ++ node :: after) :
    ∃ first there last, request.ancestors.nodes = first ++ there :: last ∧ first.map (·.node) = before ∧
      there.node = node ∧ last.map (·.node) = after ∧ there.type = w.typeAt node := by
  rw [nodes_of_request at_] at split
  obtain ⟨first, rest, nodes, rfl, tail⟩ := List.map_eq_append_iff.mp split
  obtain ⟨there, last, rfl, rfl, rfl⟩ := List.map_eq_cons_iff.mp tail
  have held : there ∈ request.ancestors.nodes := by simp [nodes]
  exact ⟨first, there, last, nodes, rfl, rfl, rfl, ((fit r request at_).types there held).symm⟩

theorem NodesFit.absent (absent : ∀ old ∈ (w.context r).spliced, w.typeAt old ≠ type) :
    ∀ other ∈ request.ancestors.nodes, other.type ≠ type := by
  intro other held same
  rw [nodes_of_request at_] at absent
  exact absent other.node (List.mem_map_of_mem held) (((fit r request at_).types other held).trans same)

theorem NodesFit.inject (new : Ancestor) (type : w.typeAt new.node = new.type) :
    w.Injected (w.modifyRequest r (·.splice new)) r new.node := by
  have ordered := request.ancestors.ordered
  refine ⟨⟨_, fun _ => by exact rfl, rfl⟩, fun before old after split same => ?_, fun absent => ?_⟩
  · obtain ⟨first, there, last, nodes, rfl, rfl, rfl, tagged⟩ := fit.split at_ split
    have typed : there.type = new.type := tagged.trans (same.trans type)
    rw [nodes] at ordered
    have injected : (request.splice new).ancestors.nodes = first ++ new :: last := by
      show new.inject request.ancestors.nodes = _
      rw [nodes]
      exact Ancestor.inject_split typed fun other held => typed ▸ ordered.before_ne other held
    rw [nodes_modifyRequest at_, injected]
    simp
  · have none := fit.absent at_ absent
    rw [type] at none
    have injected : (request.splice new).ancestors.nodes =
        (request.ancestors.nodes ++ [new]).insertionSort fun near far => near.type.rank ≤ far.type.rank :=
      Ancestor.inject_absent none
    have tags : ∀ ancestor ∈ request.ancestors.nodes ++ [new], w.typeAt ancestor.node = ancestor.type := by
      intro ancestor held
      rcases List.mem_append.mp held with old | added
      · exact (fit r request at_).types ancestor old
      · rwa [List.mem_singleton.mp added]
    rw [nodes_modifyRequest at_, injected, nodes_of_request at_]
    refine (List.map_insertionSort _ (fun a b => (w.typeAt a).rank ≤ (w.typeAt b).rank) _ _ ?_).trans ?_
    · intro near nearHeld far farHeld
      rw [tags near nearHeld, tags far farHeld]
    · rw [List.map_append, List.map_singleton]

theorem NodesFit.remove (type : ContextType) :
    w.Removed (w.modifyRequest r (·.excise type)) r type (request.ancestors.find type) := by
  have ordered := request.ancestors.ordered
  refine ⟨⟨_, fun _ => by exact rfl, rfl⟩, fun before node after split is => ?_, fun absent => ?_⟩
  · obtain ⟨first, there, last, nodes, rfl, rfl, rfl, tagged⟩ := fit.split at_ split
    have typed : there.type = type := tagged.trans is
    rw [nodes] at ordered
    have none : ∀ other ∈ first, other.type ≠ type := fun other held => typed ▸ ordered.before_ne other held
    have removed : (request.excise type).ancestors.nodes = first ++ last := by
      show Ancestor.remove type request.ancestors.nodes = _
      rw [nodes]
      exact Ancestor.remove_split typed none
    refine ⟨?_, by rw [nodes_modifyRequest at_, removed, List.map_append]⟩
    have skipped : first.find? (·.type == type) = Option.none := by simpa [List.find?_eq_none] using none
    rw [Ancestors.find, nodes, List.find?_append, skipped]
    simp [typed]
  · have none := fit.absent at_ absent
    have removed : (request.excise type).ancestors.nodes = request.ancestors.nodes := Ancestor.remove_absent none
    refine ⟨?_, by rw [nodes_modifyRequest at_, removed, nodes_of_request at_]⟩
    rw [Ancestors.find, Option.map_eq_none_iff, List.find?_eq_none]
    simpa using none

end Places

theorem NodesFit.splice (fit : w.NodesFit) (found : w.requestOf c = some (r, request))
    (type : w.typeAt node = .session ∨ w.typeAt node = .application) :
    ∃ later, ScopeEngine.splice c node w = (.ok (), later) ∧ w.Injected later r node := by
  have spliceable : (w.context node).type.isSpliceable = true := by
    rcases type with type | type <;> rw [show (w.context node).type = _ from type] <;> rfl
  refine ⟨_, ?_, fit.inject (request?_of_requestOf found) ⟨_, node, spliceable⟩ rfl⟩
  simp only [ScopeEngine.splice, bind_apply, get_apply, spliceable, dif_pos, found]
  rfl

theorem splice_fails (refused : w.typeAt node ≠ .session ∧ w.typeAt node ≠ .application ∨ w.requestOf c = none) :
    ∃ error, ScopeEngine.splice c node w = (.error (.failed error), w) := by
  simp only [ScopeEngine.splice, bind_apply, get_apply]
  split
  next spliceable =>
    rcases refused with ⟨session, application⟩ | none
    · rcases Ancestor.eq_session_or_application ⟨_, node, spliceable⟩ with is | is
      · exact absurd (congrArg Ancestor.type is) session
      · exact absurd (congrArg Ancestor.type is) application
    · rw [none]
      exact ⟨_, rfl⟩
  next => exact ⟨_, rfl⟩

theorem NodesFit.excise (fit : w.NodesFit) (found : w.requestOf c = some (r, request)) (type : ContextType) :
    ∃ removed later, ScopeEngine.excise c type w = (.ok removed, later) ∧ w.Removed later r type removed := by
  refine ⟨_, _, ?_, fit.remove (request?_of_requestOf found) type⟩
  rw [ScopeEngine.excise, modifyGet_apply]
  simp only [World.excise, found]

/-- A detached request has what a new one has, and the application at the end. -/
theorem spliced_newDetached (w : World) (c : ContextId) (a : ApplicationId) :
    ((w.newDetached c a).2.context (w.newDetached c a).1).spliced =
      ((w.newRequest c true).2.context (w.newRequest c true).1).spliced ++ [(w.newRequest c true).2.contexts.next] := by
  obtain ⟨request, there, -⟩ := w.request_newDetached c a
  have made : (w.newRequest c true).2.context w.contexts.next = _ := context_addContext_next ..
  have fresh : ((w.newRequest c true).2.context (w.newRequest c true).1).spliced = [] := congrArg Context.spliced made
  rw [fresh]
  exact nodes_modifyRequest there _

theorem nodesFit_start (clock : Instant) : (World.start clock).NodesFit := by
  intro r request at_
  rw [context_of_ge (Nat.zero_le _)] at at_
  cases at_

theorem Reachable.nodesFit (reachable : w.Reachable) : w.NodesFit := by
  induction reachable with
  | program program fuel clock => exact nodesFit_order.programs.program program fuel _ (nodesFit_start clock)
  | command _ fuel inBody c command fit => exact nodesFit_order.programs.execute fuel inBody c command _ fit
  | engine _ _ _ fit => exact fit.congr rfl
  | holding _ _ fit => exact fit.congr rfl

/-- In every world that can be reached, whatever hooks ran and however they touched things again, the nodes of a request
are a session, an application, both in this order, or none. Injecting a node replaces the one of its kind in its
place, or puts it at the end and sorts by rank; a node of any other kind is refused and nothing changes. Removing a kind leaves the
other, and a detached request has its application put at the end. -/
theorem splices_keep_shape (reachable : w.Reachable) :
    w.Shaped ∧
    (∀ c node r request, w.requestOf c = some (r, request) → w.typeAt node = .session ∨ w.typeAt node = .application →
      ∃ later, ScopeEngine.splice c node w = (.ok (), later) ∧ later.Shaped ∧ w.Injected later r node) ∧
    (∀ c node, w.typeAt node ≠ .session ∧ w.typeAt node ≠ .application ∨ w.requestOf c = none →
      ∃ error, ScopeEngine.splice c node w = (.error (.failed error), w)) ∧
    (∀ c r request type, w.requestOf c = some (r, request) →
      ∃ removed later, ScopeEngine.excise c type w = (.ok removed, later) ∧ later.Shaped ∧ w.Removed later r type removed) ∧
    (∀ c a, (w.newDetached c a).2.Shaped ∧ ((w.newDetached c a).2.context (w.newDetached c a).1).spliced =
      ((w.newRequest c true).2.context (w.newRequest c true).1).spliced ++ [(w.newRequest c true).2.contexts.next]) := by
  have fit := reachable.nodesFit
  refine ⟨fit.shaped, fun c node r request found type => ?_, fun c node refused => splice_fails refused,
    fun c r request type found => ?_, fun c a => ⟨(fit.newDetached c a).shaped, w.spliced_newDetached c a⟩⟩
  · obtain ⟨later, runs, injected⟩ := fit.splice found type
    have still := nodesFit_order.splice c node w fit
    rw [runs] at still
    exact ⟨later, runs, still.shaped, injected⟩
  · obtain ⟨removed, later, runs, taken⟩ := fit.excise found type
    have still := nodesFit_order.programs.excise c type w fit
    rw [runs] at still
    exact ⟨removed, later, runs, still.shaped, taken⟩

/-- A request that gets a session, has its session node taken out and touches the session again. -/
def revisiting : Program where
  settings := { name := "shop", sessionManagement := true }
  steps := [
    .mk (.within .request [
      .mk (.lifecycle (.setSessionId (.of "alice"))) false,
      .mk (.lifecycle (.ensureSession none)) false,
      .mk (.context (.removeNode .session none)) false,
      .mk (.lifecycle (.ensureSession none)) false]) false]

/-- The request is the second context. The session node that was taken out can replace the one that came for it. -/
theorem splices_keep_shape_revisiting :
    let w := (revisiting.action 9 (World.start default)).2
    w.Reachable ∧ (w.context ⟨1⟩).spliced = [⟨4⟩, ⟨2⟩] ∧ w.Shaped ∧
      ∃ later, ScopeEngine.splice ⟨1⟩ ⟨3⟩ w = (.ok (), later) ∧ later.Shaped ∧ (later.context ⟨1⟩).spliced = [⟨3⟩, ⟨2⟩] := by
  intro w
  have reachable : w.Reachable := .program revisiting 9 default
  have nodes : (w.context ⟨1⟩).spliced = [⟨4⟩, ⟨2⟩] := by decide +kernel
  have types : w.typeAt ⟨4⟩ = .session ∧ w.typeAt ⟨3⟩ = .session := by decide +kernel
  have within : (w.requestOf ⟨1⟩).map Prod.fst = some ⟨1⟩ := by decide +kernel
  obtain ⟨⟨r, request⟩, found, rfl⟩ := Option.map_eq_some_iff.mp within
  obtain ⟨shaped, injects, -⟩ := splices_keep_shape reachable
  obtain ⟨later, runs, still, injected⟩ := injects ⟨1⟩ ⟨3⟩ _ request found (.inl types.2)
  exact ⟨reachable, nodes, shaped, later, runs, still, injected.replaced [] _ _ nodes (types.1.trans types.2.symm)⟩

end World

end ScopeEngine
