import ScopeEngine.Proofs.Lifecycle

/-! A request without session management has no session. Code that runs in one request changes no other one, so the invariant
is kept by watching the request at hand: its settings may change under it, and a session may be spliced in only while they ask
for one. End hooks run in requests of their own and so change none that was there. -/

namespace ScopeEngine

open ScopeEngine.Action

structure Request.Sheds (request next : Request) : Prop where
  session : next.sessionNode = none ∨ next.sessionNode = request.sessionNode
  application : next.applicationNode = none ∨ next.applicationNode = request.applicationNode

theorem Request.Sheds.excise {request next : Request} (sheds : request.Sheds next) (type : ContextType) :
    request.Sheds (next.excise type) where
  session := (next.sessionNode_excise_cases type).elim (fun same => same ▸ sheds.session) .inl
  application := (next.applicationNode_excise_cases type).elim (fun same => same ▸ sheds.application) .inl

namespace World

variable {start w later last : World} {c d r t : ContextId} {request : Request}

def Served (w : World) (c : ContextId) : Prop :=
  ∃ t ∈ w.ancestry c, (w.context t).type = .server

def On (w : World) (r : ContextId) : Prop :=
  ∃ request, (w.context r).request? = some request ∧ request.settings.sessionManagement = true

/-- A request that does not ask for sessions has none. -/
def Proper (w : World) (r : ContextId) : Prop :=
  ∀ request, (w.context r).request? = some request → request.settings.sessionManagement = false →
    request.sessionNode = none

/-- The code is that of `start`, every request is proper, and the nodes of requests exist. An application is spliced in only
where there is a server, so that end hooks have a place of their own. -/
structure Modest (start w : World) : Prop where
  carries : start.Carries w
  proper : ∀ r, w.Proper r
  nodes : ∀ t, ∀ node ∈ (w.context t).spliced, node.number < w.contexts.size
  served : ∀ r request, (w.context r).request? = some request → request.applicationNode.isSome = true → w.Served r

structure Minds (start : World) (r : ContextId) (w later : World) : Prop where
  modest : Modest start later
  extends_ : w.Extends later
  types : ∀ t : ContextId, t.number < w.contexts.size → (later.context t).type = (w.context t).type
  others : ∀ t : ContextId, t.number < w.contexts.size → t ≠ r → (later.context t).kind = (w.context t).kind

structure Avoids (start w later : World) : Prop where
  modest : Modest start later
  extends_ : w.Extends later
  kind : ∀ t : ContextId, t.number < w.contexts.size → (later.context t).kind = (w.context t).kind

theorem served_of_serverOf (found : (w.serverOf c).isSome = true) : w.Served c := by
  obtain ⟨server, at_⟩ := Option.isSome_iff_exists.mp found
  obtain ⟨t, above, here⟩ := List.exists_of_findSome?_eq_some at_
  refine ⟨t, above, ?_⟩
  cases kind : (w.context t).kind <;> simp_all [Context.server?, Context.type, ContextKind.type]

/-- The way up from a context that was there leads through contexts of the same types. -/
theorem Served.still (served : w.Served c) (issued : c.number < w.contexts.size) (extends_ : w.Extends later)
    (types : ∀ t : ContextId, t.number < w.contexts.size → (later.context t).type = (w.context t).type) :
    later.Served c := by
  obtain ⟨t, above, server⟩ := served
  have older := w.le_of_mem_ancestry c t above
  rw [← extends_.ancestry c issued] at above
  exact ⟨t, above, (types t (by omega)).trans server⟩

namespace Minds

theorem trans (first : Minds start r w later) (second : Minds start r later last) : Minds start r w last where
  modest := second.modest
  extends_ := first.extends_.trans second.extends_
  types := fun t issued =>
    (second.types t (Nat.lt_of_lt_of_le issued first.extends_.size)).trans (first.types t issued)
  others := fun t issued other =>
    (second.others t (Nat.lt_of_lt_of_le issued first.extends_.size) other).trans (first.others t issued other)

theorem home (minds : Minds start r w later) (at_ : w.home c = some r) : later.home c = some r := by
  rw [minds.extends_.home (issued_of_home at_), at_]

theorem served (minds : Minds start r w later) (issued : c.number < w.contexts.size) (served : w.Served c) :
    later.Served c :=
  served.still issued minds.extends_ minds.types

end Minds

namespace Avoids

theorem refl (modest : Modest start w) : Avoids start w w := ⟨modest, .refl w, fun _ _ => rfl⟩

theorem trans (first : Avoids start w later) (second : Avoids start later last) : Avoids start w last where
  modest := second.modest
  extends_ := first.extends_.trans second.extends_
  kind := fun t issued => (second.kind t (Nat.lt_of_lt_of_le issued first.extends_.size)).trans (first.kind t issued)

section

variable (avoids : Avoids start w later)
include avoids

theorem minds (r : ContextId) : Minds start r w later where
  modest := avoids.modest
  extends_ := avoids.extends_
  types := fun t issued => congrArg ContextKind.type (avoids.kind t issued)
  others := fun t issued _ => avoids.kind t issued

theorem on (on : w.On r) : later.On r := by
  obtain ⟨request, there, wanted⟩ := on
  refine ⟨request, ?_, wanted⟩
  rw [request?_eq_some] at there ⊢
  rw [avoids.kind r (issued_of_request (request?_eq_some.mpr there)), there]

theorem inside (fresh : w.contexts.size ≤ d.number) (minds : Minds start d later last) : Avoids start w last where
  modest := minds.modest
  extends_ := avoids.extends_.trans minds.extends_
  kind := by
    intro t issued
    have other : t ≠ d := by
      intro equal
      rw [equal] at issued
      omega
    rw [minds.others t (Nat.lt_of_lt_of_le issued avoids.extends_.size) other, avoids.kind t issued]

end

end Avoids

section Changes

variable (modest : Modest start w)

variable {change : Request → Request}
include modest

theorem Modest.avoids (extends_ : w.Extends later) (carries : w.Carries later)
    (kind : ∀ t : ContextId, t.number < w.contexts.size → (later.context t).kind = (w.context t).kind)
    (fresh : ∀ t request, w.contexts.size ≤ t.number → (later.context t).request? = some request →
      request.applicationNode = none ∧ request.sessionNode = none) : Avoids start w later := by
  have before : ∀ t request, (later.context t).request? = some request →
      (t.number < w.contexts.size ∧ (w.context t).request? = some request) ∨
        request.applicationNode = none ∧ request.sessionNode = none := by
    intro t request there
    by_cases issued : t.number < w.contexts.size
    · rw [request?_eq_some, kind t issued, ← request?_eq_some] at there
      exact .inl ⟨issued, there⟩
    · exact .inr (fresh t request (Nat.le_of_not_lt issued) there)
  refine ⟨⟨modest.carries.trans carries, ?_, ?_, ?_⟩, extends_, kind⟩
  · intro t request there off
    rcases before t request there with ⟨_, old⟩ | new
    · exact modest.proper t request old off
    · exact new.2
  · intro t node member
    cases there : (later.context t).request? with
    | none =>
      rw [spliced_of_none there] at member
      cases member
    | some request =>
      rw [spliced_of_request there] at member
      rcases before t request there with ⟨_, old⟩ | new
      · refine Nat.lt_of_lt_of_le (modest.nodes t node ?_) extends_.size
        rwa [spliced_of_request old]
      · simp [new.1, new.2] at member
  · intro t request there spliced
    rcases before t request there with ⟨issued, old⟩ | new
    · exact (modest.served t request old spliced).still issued extends_ fun t less => congrArg ContextKind.type (kind t less)
    · rw [new.1] at spliced
      cases spliced

theorem Modest.apart (apart : w.Apart later) : Avoids start w later :=
  modest.avoids apart.extends_ (carries_of_same (congrArg Prod.snd apart.code) (congrArg Prod.fst apart.code)) apart.kind
    apart.fresh

theorem Modest.elsewhere (contexts : later.contexts = w.contexts) (carries : w.Carries later) : Avoids start w later := by
  have same : ∀ t, later.context t = w.context t := fun t => by rw [context, contexts, context]
  refine modest.avoids (extends_of_contexts contexts) carries (fun t _ => by rw [same t]) fun t request beyond there => ?_
  rw [same t] at there
  exact absurd (issued_of_request there) (Nat.not_lt_of_le beyond)

theorem Modest.beside (beside : w.Beside later) : Avoids start w later :=
  modest.elsewhere beside.contexts ⟨beside.listeners, beside.functions, beside.function⟩

section

variable (there : (w.context r).request? = some request)
  (proper : (change request).settings.sessionManagement = false → (change request).sessionNode = none)
include there proper

/-- The request at `r` may change as long as it stays proper and its nodes exist. -/
theorem Modest.modifyRequest (nodes : ∀ node ∈ (change request).sessionNode.toList ++
      (change request).applicationNode.toList, node.number < w.contexts.size)
    (served : (change request).applicationNode.isSome = true → w.Served r) :
    Minds start r w (w.modifyRequest r change) := by
  have others : ∀ t : ContextId, t ≠ r → (w.modifyRequest r change).context t = w.context t := by
    intro t other
    rw [context_modifyRequest, there]
    exact if_neg fun equal => other equal.symm
  have here : ((w.modifyRequest r change).context r).kind = .request (change request) := by
    rw [context_modifyRequest, there]
    simp
  have types : ∀ t, ((w.modifyRequest r change).context t).type = (w.context t).type := by
    intro t
    by_cases same : t = r
    · subst same
      rw [Context.type, here, Context.type, request?_eq_some.mp there]
      rfl
    · rw [others t same]
  have size : (w.modifyRequest r change).contexts.size = w.contexts.size := modifyRequest_size ..
  have code : w.Carries (w.modifyRequest r change) := by
    obtain ⟨contexts, same⟩ := w.modifyRequest_eq r change
    rw [same]
    exact carries_of_same rfl rfl
  have extends_ := w.extends_modifyRequest r change
  have still : ∀ c : ContextId, c.number < w.contexts.size → w.Served c → (w.modifyRequest r change).Served c := by
    intro c issued served
    exact served.still issued extends_ fun t _ => types t
  exact {
    modest := {
      carries := modest.carries.trans code
      proper := by
        intro t now at_ off
        by_cases same : t = r
        · subst same
          cases (request?_eq_some.mpr here).symm.trans at_
          exact proper off
        · rw [others t same] at at_
          exact modest.proper t now at_ off
      nodes := by
        intro t node member
        rw [size]
        by_cases same : t = r
        · subst same
          rw [spliced_of_request (request?_eq_some.mpr here)] at member
          exact nodes node member
        · rw [others t same] at member
          exact modest.nodes t node member
      served := by
        intro t now at_ spliced
        by_cases same : t = r
        · subst same
          cases (request?_eq_some.mpr here).symm.trans at_
          exact still t (issued_of_request there) (served spliced)
        · rw [others t same] at at_
          exact still t (issued_of_request at_) (modest.served t now at_ spliced) }
    extends_ := extends_
    types := fun t _ => types t
    others := fun t _ other => by rw [others t other] }

theorem Modest.dropNodes (sheds : request.Sheds (change request)) : Minds start r w (w.modifyRequest r change) := by
  apply modest.modifyRequest there proper
  · intro node member
    apply modest.nodes r node
    rw [spliced_of_request there]
    rcases List.mem_append.mp member with session_ | application_
    · rcases sheds.session with none | same
      · rw [none] at session_
        cases session_
      · rw [same] at session_
        exact List.mem_append_left _ session_
    · rcases sheds.application with none | same
      · rw [none] at application_
        cases application_
      · rw [same] at application_
        exact List.mem_append_right _ application_
  · intro held
    rcases sheds.application with none | same
    · rw [none] at held
      cases held
    · rw [same] at held
      exact modest.served r request there held

end

theorem Modest.sameSettings (there : (w.context r).request? = some request)
    (settings : (change request).settings = request.settings) (sheds : request.Sheds (change request)) :
    Minds start r w (w.modifyRequest r change) := by
  refine modest.dropNodes there (fun off => ?_) sheds
  rcases sheds.session with none | same
  · exact none
  · rw [settings] at off
    rw [same]
    exact modest.proper r request there off

theorem Modest.newDetached {server : ContextId} (issued : server.number < w.contexts.size) (served : w.Served server)
    (a : ApplicationId) : Avoids start w (w.newDetached server a).2 ∧
      (w.newDetached server a).2.home (w.newDetached server a).1 = some (w.newDetached server a).1 ∧
      w.contexts.size ≤ (w.newDetached server a).1.number := by
  let opened := (w.newRequest server true).2
  let d := (w.newRequest server true).1
  let node := opened.contexts.next
  let noded := (opened.addNode (.application a)).2
  let change : Request → Request := (·.detach (noded.application a) node)
  have opens : Avoids start w opened := modest.apart (w.apart_newRequest server true)
  have adds : Avoids start w noded := opens.trans (opens.modest.apart (opened.apart_addContext fun _ at_ => by cases at_))
  have fresh : w.contexts.size ≤ d.number := Nat.le_refl _
  have inside : d.number < opened.contexts.size := Table.next_lt_size_add ..
  have known : node.number < noded.contexts.size := Table.next_lt_size_add ..
  have still : noded.context d = opened.context d := context_addContext_of_lt opened _ inside
  have made : opened.context d = _ := context_addContext_next ..
  obtain ⟨request, there, -⟩ : ∃ request, (noded.context d).request? = some request ∧ _ := w.request_newDetached server a
  have below : noded.Served d := by
    obtain ⟨t, above, type⟩ := (adds.minds d).served issued served
    refine ⟨t, ?_, type⟩
    rw [ancestry, still, made]
    simp only
    rw [if_pos (Nat.lt_of_lt_of_le issued fresh)]
    exact List.mem_cons_of_mem _ above
  have changes : Minds start d noded (noded.modifyRequest d change) := by
    apply adds.modest.modifyRequest there
    · exact fun _ => rfl
    · intro other member
      cases List.mem_singleton.mp member
      exact known
    · exact fun _ => below
  have result : w.newDetached server a = (d, noded.modifyRequest d change) := rfl
  rw [result]
  refine ⟨adds.inside fresh changes, ?_, fresh⟩
  have here : ((noded.modifyRequest d change).context d).request? = some (change request) := by
    rw [request?_modifyRequest, if_pos rfl, there]
    rfl
  rw [home, requestOf_self here]
  rfl

end Changes

end World

variable {α β : Type} {host : Host} {start w later : World} {a : ApplicationId} {s : SessionId} {c r : ContextId}

namespace Action

abbrev Minds (start : World) (c r : ContextId) (action : Action α) : Prop :=
  Under (fun w => start.Modest w ∧ w.home c = some r) (start.Minds r) (start.Minds r) action

abbrev Avoids (start : World) (action : Action α) : Prop :=
  Under (start.Modest) (start.Avoids) (start.Avoids) action

theorem Avoids.minds {action : Action α} (avoids : Avoids start action) : Minds start c r action := fun w here =>
  (avoids w here.1).imp fun _ done => done.minds r

theorem regime_avoids : Regime (start.Modest) (start.Avoids) (start.Avoids) :=
  .of (fun modest aside => modest.beside aside.toBeside) (fun _ done => done.modest) .trans

theorem regime_minds : Regime (fun w => start.Modest w ∧ w.home c = some r) (start.Minds r) (start.Minds r) :=
  .of (fun here aside => (here.1.beside aside.toBeside).minds r) (fun here done => ⟨done.modest, done.home here.2⟩) .trans

theorem avoids_declares : Declares (fun {_} action => Avoids start action) where
  beside := fun beside w modest => modest.beside (beside w)

theorem avoids_rules : ScriptRules (fun {_} action => Avoids start action) := regime_avoids.rules

theorem minds_rules : ScriptRules (fun {_} action => Minds start c r action) := regime_minds.rules

theorem avoids_instances {change : World → α × World}
    (same : ∀ w, ((change w).2.contexts, (change w).2.listeners, (change w).2.functions) =
      (w.contexts, w.listeners, w.functions)) : Avoids start (modifyGet change) := by
  intro w modest
  have rows := same w
  simp only [Prod.mk.injEq] at rows
  exact modest.elsewhere rows.1 (World.carries_of_same rows.2.1 rows.2.2)

end Action

/-- Hooks read and write scopes and touch, read and change their own request. -/
def World.OwnHooks (w : World) : Prop :=
  ∀ l hook f, (w.listener l).hook hook = some f →
    f.number < w.functions.size ∧ Script.allAllow Script.LifecycleStep.isOwn (w.function f).body = true

def Host.Minds (start : World) (host : Host) : Prop :=
  ∀ body c r, Script.allAllow Script.LifecycleStep.isOwn body = true → Action.Minds start c r (host.run body c)

section Hooks

variable (own : start.OwnHooks) (minds : host.Minds start)
include own minds

theorem minds_callHook (l : ListenerId) (hook : Hook) (values : List Value) :
    Minds start c r (callHook host l hook c values) := by
  rintro w ⟨modest, home⟩
  have stays := (World.Avoids.refl modest).minds r
  simp only [callHook, after_bind, after_get]
  rw [World.listener, modest.carries.listeners, ← World.listener]
  cases hooked : (start.listener l).hook hook with
  | none => exact stays
  | some f =>
    obtain ⟨known, allowed⟩ := own l hook f hooked
    simp only [invoke, after_bind]
    apply (minds_rules.bindArguments f _ w ⟨modest, home⟩).mono_ok
    intro scope bound first
    have there := first.home home
    apply (after_callContext f scope (World.issued_of_home there)).mono
    · intro d opened called
      obtain ⟨apart, -, same⟩ := called
      have second := first.trans ((first.modest.apart apart).minds r)
      rw [after_get, second.modest.carries.function f known]
      exact (minds_rules.holding _ (minds _ d r allowed) opened ⟨second.modest, same.trans there⟩).imp fun _ next => second.trans next
    · exact fun _ _ apart => first.trans ((first.modest.apart apart).minds r)

theorem minds_shutdownSession (s : SessionId) (l : ListenerId) (scope : ScopeId) :
    Minds start c r (shutdownSession host s c l scope) :=
  minds_rules.shutdownSession (minds_callHook own minds) (avoids_instances fun _ => rfl).minds l scope

theorem minds_close (b : ApplicationId) (l : ListenerId) (report : ShutdownReport) :
    Minds start c r (holding (.application b) <| holding (.listener l) <| entering c do
      endApplication host b c l (← drainSessions host b c l host.patience report)) :=
  minds_rules.close (minds_callHook own minds) (minds_rules.closeSession
    (fun _ => (avoids_instances fun _ => rfl).minds) (minds_shutdownSession own minds)) l report

end Hooks

namespace World

theorem mem_ancestry_trans {t : ContextId} (way : r ∈ w.ancestry c) (above : t ∈ w.ancestry r) : t ∈ w.ancestry c := by
  induction c using w.ancestry_induction with
  | alone c path =>
    rw [path, List.mem_singleton] at way
    rwa [← way]
  | below c parent _ _ path ih =>
    rw [path] at way ⊢
    rcases List.mem_cons.mp way with same | further
    · rw [same, path] at above
      exact above
    · exact List.mem_cons_of_mem _ (ih further)

theorem Served.below (served : w.Served r) (home : w.home c = some r) : w.Served c := by
  obtain ⟨t, above, server⟩ := served
  rw [home_eq_find] at home
  exact ⟨t, mem_ancestry_trans (List.mem_of_find?_eq_some home) above, server⟩

theorem Served.nearest (served : w.Served c) : ∃ server, w.nearest c .server = some server := by
  obtain ⟨t, above, server⟩ := served
  rw [← Option.isSome_iff_exists, World.nearest, List.find?_isSome]
  refine ⟨t, List.mem_flatMap.mpr ⟨t, above, List.mem_cons_self⟩, ?_⟩
  rw [server]
  rfl

theorem Modest.nearest (modest : Modest start w) (issued : c.number < w.contexts.size) {server : ContextId}
    (found : w.nearest c .server = some server) : server.number < w.contexts.size ∧ w.Served server := by
  constructor
  · obtain ⟨t, above, near⟩ := List.mem_flatMap.mp (List.mem_of_find?_eq_some found)
    have older := w.le_of_mem_ancestry c t above
    rcases List.mem_cons.mp near with same | spliced
    · rw [same]
      omega
    · exact modest.nodes t server spliced
  · have here := List.find?_some found
    obtain ⟨rest, way⟩ := w.ancestry_eq_cons server
    exact ⟨server, by simp [way], eq_of_beq here⟩

end World

section Ending

variable (own : start.OwnHooks) (minds : host.Minds start)
include own minds

theorem after_retireSession_avoids (modest : start.Modest w) (served : w.Served c) (issued : c.number < w.contexts.size)
    (a : ApplicationId) (s : SessionId) :
    (retireSession host c a s).After w (fun _ => start.Avoids w) (fun _ => start.Avoids w) := by
  obtain ⟨server, found⟩ := served.nearest
  obtain ⟨known, serves⟩ := modest.nearest issued found
  obtain ⟨opens, home, fresh⟩ := modest.newDetached known serves a
  simp only [retireSession, after_bind, after_get, found, after_modifyGet]
  exact (minds_rules.retire (minds_shutdownSession own minds s) _ _ _ ⟨opens.modest, home⟩).imp fun _ done => opens.inside fresh done

theorem after_shutdownApplication_avoids (modest : start.Modest w) {server : ContextId}
    (known : server.number < w.contexts.size) (served : w.Served server) (a : ApplicationId) :
    (shutdownApplication host a server).After w (fun _ => start.Avoids w) (fun _ => start.Avoids w) := by
  have begins : start.Avoids w (w.beginShutdown a).2 := modest.elsewhere rfl (World.carries_of_same rfl rfl)
  simp only [shutdownApplication, after_bind, after_get, after_modifyGet]
  split
  · exact begins
  · have still_known : server.number < (w.beginShutdown a).2.contexts.size := known
    obtain ⟨opens, home, fresh⟩ := begins.modest.newDetached still_known ((begins.minds server).served known served) a
    simp only [after_bind, after_get, after_modifyGet]
    exact (minds_close own minds a _ _ _ ⟨opens.modest, home⟩).imp fun _ done => begins.trans (opens.inside fresh done)

end Ending

end ScopeEngine
