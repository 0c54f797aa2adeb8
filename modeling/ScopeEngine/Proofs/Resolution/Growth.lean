import ScopeEngine.Proofs.Programs.Steps
import ScopeEngine.Proofs.Resolution.Order

/-! What no program can change. If every single making and changing of things leads to a later world, then so does every
program, however deep its calls nest. Contexts, functions and components are never taken away; a context keeps its parent and
its scopes, and functions and components stay as they were made. -/

namespace ScopeEngine

open ScopeEngine.Action Script World

/-- Whatever the action does, and whether it ends or not, it leads to a later world. -/
def Action.Leads (order : World → World → Prop) {α : Type} (action : Action α) : Prop :=
  ∀ w : World, order w (action w).2

theorem Action.Leads.attempt {order : World → World → Prop} {α : Type} {action : Action α} (leads : Leads order action) :
    Leads order (attempt action) := by
  intro w
  have runs := leads w
  simp only [Action.attempt]
  split
  all_goals
    next ran =>
      rw [ran] at runs
      exact runs

/-- What an order on worlds has to satisfy so that every program leads to a later world. -/
structure WorldOrder (order : World → World → Prop) : Prop where
  refl : ∀ w, order w w
  trans : ∀ {w later last}, order w later → order later last → order w last
  beside : ∀ {w later : World}, w.Beside later → order w later
  elsewhere : ∀ {w later : World}, later.contexts = w.contexts → later.functions = w.functions →
    later.components = w.components → order w later
  function : ∀ (w : World) function, order w (w.addFunction function).2
  component : ∀ (w : World) component, order w (w.addComponent component).2
  context : ∀ (w : World) {context : Context}, (context.isRoot = true → context.parent = none) → context.spliced = [] →
    order w (w.addContext context).2
  detached : ∀ (w : World) c a, order w (w.newDetached c a).2
  request : ∀ (w : World) r {change : Request → Request}, (∀ request, (change request).Within request) →
    order w (w.modifyRequest r change)
  templates : ∀ (w : World) c templates, order w (w.setContext c { w.context c with templates })
  sessionNode : ∀ (w : World) r {node}, (w.context node).type = .session →
    order w (w.modifyRequest r (·.splice (.session node)))
  applicationNode : ∀ (w : World) r {node}, (w.context node).type = .application →
    order w (w.modifyRequest r (·.splice (.application node)))

namespace WorldOrder

variable {later : World → World → Prop} (order : WorldOrder later) {α β : Type}
include order

theorem chain {first : Action β} {next : β → Action α} (leads : Leads later first)
    (rest : ∀ b, first.Yields b → Leads later (next b)) : Leads later (first >>= next) := by
  intro w
  have begins := leads w
  rw [bind_apply]
  split
  next b after ran =>
    rw [ran] at begins
    exact order.trans begins (rest b ⟨w, after, ran⟩ after)
  next stop after ran =>
    rw [ran] at begins
    exact begins

theorem holding {action : Action α} (leads : Leads later action) (thing : Hold) : Leads later (holding thing action) := by
  intro w
  let held := { w with holds := thing :: w.holds }
  have enters : later w held := order.elsewhere rfl rfl rfl
  have leaves : later (action held).2 { (action held).2 with holds := w.holds } := order.elsewhere rfl rfl rfl
  exact order.trans (order.trans enters (leads held)) leaves

theorem withEngine {action : Action α} (leads : Leads later action) (server : Server) :
    Leads later (withEngine server action) := by
  intro w
  let inside := { w with engine := server }
  have enters : later w inside := order.elsewhere rfl rfl rfl
  have leaves : later (action inside).2 { (action inside).2 with engine := w.engine } := order.elsewhere rfl rfl rfl
  exact order.trans (order.trans enters (leads inside)) leaves

theorem scopes : ScopeRules (fun {_} action => Leads later action) where
  pure := fun _ => order.refl
  fail := fun _ => order.refl
  get := order.refl
  bind := fun leads rest => order.chain leads fun b _ => rest b
  beside := fun beside w => order.beside (beside w).toBeside

theorem callContext (f : FunctionId) (c : ContextId) (arguments : ScopeId) : Leads later (callContext f c arguments) := by
  refine order.scopes.bind order.refl fun w => order.scopes.bind (order.scopes.newScope _) fun locals =>
    order.scopes.bind order.refl fun _ => fun after => order.context after ?_ ?_
  · simp only [Context.isRoot]
    intro root
    cases kind : (w.function f).kind <;> simp [kind] at root
  · cases kind : (w.function f).kind <;> rfl

theorem registerFunction (c : ContextId) (function : Function) : Leads later (registerFunction c function) := by
  have adds : ∀ function, Leads later (modifyGet (·.addFunction function)) := fun function w => order.function w function
  have methods : ∀ k function, Leads later (defineMethod k function) := by
    intro k function
    simp only [defineMethod]
    generalize (if function.kind = .plain then { function with component := some k } else function) = method
    refine order.scopes.bind (adds method) fun f => order.scopes.bind order.refl fun w =>
      order.scopes.bind (order.scopes.putIn _ _ _) fun _ => ?_
    split
    · exact order.scopes.bind (order.scopes.putIn _ _ _) fun _ => order.scopes.pure f
    · exact order.scopes.pure f
  refine order.scopes.bind order.refl fun w => ?_
  dsimp only
  split
  · exact methods _ _
  · exact order.scopes.bind (adds _) fun f => order.scopes.bind order.refl fun _ =>
      order.scopes.bind (order.scopes.putIn _ _ _) fun _ => order.scopes.pure f

theorem newComponent (name : String) (shared : Option ScopeId) : Leads later (newComponent name shared) := by
  have builds : ∀ shared, Leads later (do
      let vars ← newScope (.new ScopeName.vars.key)
      let self ← newScope (.new ScopeName.self.key)
      modifyGet (·.addComponent { name := .of name, vars, self, shared })) := fun shared =>
    order.scopes.bind (order.scopes.newScope _) fun _ => order.scopes.bind (order.scopes.newScope _) fun _ w =>
      order.component w _
  cases shared with
  | none => exact order.scopes.bind (order.scopes.newScope _) builds
  | some s => exact order.scopes.bind (order.scopes.pure s) builds

theorem newServer (settings : Settings) (l : ListenerId) : Leads later (Engine.new settings l) :=
  order.scopes.bind (order.scopes.bind (order.scopes.describe _) fun _ => order.scopes.newScope _) fun _ =>
    order.scopes.pure _

theorem newRequest (c : ContextId) : Leads later (modifyGet (·.newRequest c false)) := by
  intro w
  have scopes : later w w.framed := order.elsewhere rfl rfl rfl
  exact order.trans scopes (order.context w.framed nofun rfl)

theorem splice (c node : ContextId) : Leads later (splice c node) := by
  intro w
  obtain same | ⟨r, ⟨session, same⟩ | ⟨application, same⟩⟩ := splice_cases c node w
  · rw [same]
    exact order.refl w
  · rw [same]
    exact order.sessionNode w r session
  · rw [same]
    exact order.applicationNode w r application

theorem programs : ProgramRules (fun {_} action => Leads later action) where
  toScopeRules := order.scopes
  declares := ⟨fun beside w => order.beside (beside w)⟩
  exhausted := order.refl
  attempt := Leads.attempt
  holding := fun thing leads => order.holding leads thing
  chain := order.chain
  instances := fun tends w => order.elsewhere (tends w).contexts (tends w).functions (tends w).components
  request := fun r _ kept w => order.request w r kept
  splice := order.splice
  templates := fun c change w => order.templates w c (change w)
  applicationNode := fun _ w => order.context w (fun _ => rfl) rfl
  sessionNode := fun _ w => order.context w (fun _ => rfl) rfl
  serverNode := order.scopes.bind order.refl fun _ w => order.context w (fun _ => rfl) rfl
  newRequest := order.newRequest
  newDetached := fun c a w => order.detached w c a
  template := fun _ _ => order.scopes.bind (order.scopes.newScope _) fun _ w => order.context w nofun rfl
  call := fun f c arguments => order.scopes.bind (order.scopes.bindArguments f arguments) fun scope =>
    order.callContext f c scope
  register := fun c function _ => order.registerFunction c function
  component := by
    intro name shared as
    refine order.scopes.bind (order.newComponent name shared) fun k => ?_
    cases as with
    | none => exact order.scopes.pure _
    | some handle => exact fun w => order.elsewhere rfl rfl rfl
  forget := fun _ w => order.elsewhere rfl rfl rfl
  inComponent := fun _ handle => order.scopes.bind (order.scopes.named _ handle) fun _ w => order.context w nofun rfl
  listener := fun _ _ w => order.elsewhere rfl rfl rfl
  componentListener := by
    intro host c component as
    refine order.scopes.bind (order.scopes.named _ component) fun k => order.scopes.bind order.refl fun w => ?_
    have adds : Leads later (modifyGet (·.addListener (listenerOf w k))) := fun _ => order.elsewhere rfl rfl rfl
    have keeps : ∀ l, Leads later (keepListener as l) := fun l => order.scopes.keepAs (by intros; rfl) as l
    exact order.scopes.bind adds fun l => order.scopes.bind (keeps l) fun _ => order.scopes.pure _
  engine := by
    intro α settings l inside leads
    have opens : ∀ server, Leads later (Engine.serverContext server) := fun _ w => order.context w (fun _ => rfl) rfl
    exact order.scopes.bind (order.newServer settings l) fun server =>
      order.withEngine (order.scopes.bind (opens server) leads) server

end WorldOrder

/-- What stays of a context. A request gets other nodes, settings and listeners and keeps its scopes. -/
def ContextKind.outline : ContextKind → ContextKind
  | .request opened => .request { vars := opened.vars, scope := opened.scope, settings := {}, listener := default }
  | kind => kind

namespace World

variable {w later last : World}

structure Grows (w later : World) : Prop where
  contexts : w.contexts.size ≤ later.contexts.size
  parent : ∀ c : ContextId, c.number < w.contexts.size → (later.context c).parent = (w.context c).parent
  outline : ∀ c : ContextId, c.number < w.contexts.size → (later.context c).kind.outline = (w.context c).kind.outline
  fresh : ∀ c : ContextId, w.contexts.size ≤ c.number → (later.context c).isRoot = true →
    (later.context c).parent = none
  functions : w.functions.size ≤ later.functions.size
  function : ∀ f : FunctionId, f.number < w.functions.size → later.function f = w.function f
  components : w.components.size ≤ later.components.size
  component : ∀ k : ComponentId, k.number < w.components.size → later.component k = w.component k

theorem grows_of_same (contexts : later.contexts = w.contexts) (functions : later.functions = w.functions)
    (components : later.components = w.components) : w.Grows later where
  contexts := Nat.le_of_eq (by rw [contexts])
  parent := fun c _ => by rw [context, contexts, context]
  outline := fun c _ => by rw [context, contexts, context]
  fresh := by
    intro c beyond _
    rw [← contexts] at beyond
    rw [context_of_ge beyond]
    rfl
  functions := Nat.le_of_eq (by rw [functions])
  function := fun f _ => by rw [function, functions, function]
  components := Nat.le_of_eq (by rw [components])
  component := fun k _ => by rw [component, components, component]

namespace Grows

theorem refl (w : World) : w.Grows w := grows_of_same rfl rfl rfl

theorem view {β : Type} (grows : w.Grows later) {c : ContextId} (issued : c.number < w.contexts.size)
    (f : ContextKind → β) (blind : ∀ kind, f kind.outline = f kind) :
    f (later.context c).kind = f (w.context c).kind := by
  rw [← blind, grows.outline c issued, blind]

theorem isRoot (grows : w.Grows later) {c : ContextId} (issued : c.number < w.contexts.size) :
    (later.context c).isRoot = (w.context c).isRoot :=
  grows.view issued (fun kind => Context.isRoot { parent := none, kind }) fun kind => by cases kind <;> rfl

theorem trans (first : w.Grows later) (second : later.Grows last) : w.Grows last where
  contexts := Nat.le_trans first.contexts second.contexts
  parent := fun c issued =>
    (second.parent c (Nat.lt_of_lt_of_le issued first.contexts)).trans (first.parent c issued)
  outline := fun c issued =>
    (second.outline c (Nat.lt_of_lt_of_le issued first.contexts)).trans (first.outline c issued)
  fresh := by
    intro c beyond root
    by_cases between : c.number < later.contexts.size
    · rw [second.isRoot between] at root
      rw [second.parent c between]
      exact first.fresh c beyond root
    · exact second.fresh c (Nat.le_of_not_lt between) root
  functions := Nat.le_trans first.functions second.functions
  function := fun f issued =>
    (second.function f (Nat.lt_of_lt_of_le issued first.functions)).trans (first.function f issued)
  components := Nat.le_trans first.components second.components
  component := fun k issued =>
    (second.component k (Nat.lt_of_lt_of_le issued first.components)).trans (first.component k issued)

theorem rooted (grows : w.Grows later) (rooted : w.Rooted) : later.Rooted := by
  intro c root
  by_cases issued : c.number < w.contexts.size
  · rw [grows.isRoot issued] at root
    rw [grows.parent c issued]
    exact rooted c root
  · exact grows.fresh c (Nat.le_of_not_lt issued) root

theorem request (grows : w.Grows later) {c : ContextId} (issued : c.number < w.contexts.size) :
    ((later.context c).request?).map (fun request => (request.vars, request.scope)) =
      ((w.context c).request?).map fun request => (request.vars, request.scope) :=
  grows.view issued
    (fun kind => (Context.request? { parent := none, kind }).map fun request => (request.vars, request.scope))
    fun kind => by cases kind <;> rfl

theorem extends_ (grows : w.Grows later) : w.Extends later where
  size := grows.contexts
  parent := grows.parent
  request := fun c issued => by
    have same := congrArg Option.isSome (grows.request issued)
    simpa only [Option.isSome_map] using same

end Grows

theorem Beside.grows (beside : w.Beside later) : w.Grows later := by
  let unchanged : World := { later with functions := w.functions }
  have same : w.Grows unchanged := grows_of_same beside.contexts rfl beside.components
  exact { same with functions := beside.functions, function := beside.function }

section

variable (w : World)

theorem grows_addFunction (function : Function) : w.Grows (w.addFunction function).2 :=
  { Grows.refl w with
    functions := Table.size_le_size_add ..
    function := fun _ issued => Table.get_add_of_lt _ _ issued }

theorem grows_addComponent (component : Component) : w.Grows (w.addComponent component).2 :=
  { Grows.refl w with
    components := Table.size_le_size_add ..
    component := fun _ issued => Table.get_add_of_lt _ _ issued }

theorem grows_addContext {context : Context} (root : context.isRoot = true → context.parent = none) :
    w.Grows (w.addContext context).2 :=
  { Grows.refl w with
    contexts := Table.size_le_size_add ..
    parent := fun c issued => by rw [context_addContext_of_lt w context issued]
    outline := fun c issued => by rw [context_addContext_of_lt w context issued]
    fresh := by
      intro c beyond
      rw [context_addContext]
      split
      · exact root
      · intro _
        rw [context_of_ge beyond]
        rfl }

theorem grows_modifyRequest (r : ContextId) {change : Request → Request}
    (kept : ∀ request, (change request).vars = request.vars ∧ (change request).scope = request.scope) :
    w.Grows (w.modifyRequest r change) := by
  have same : (w.modifyRequest r change).functions = w.functions ∧
      (w.modifyRequest r change).components = w.components := by
    obtain ⟨contexts, same⟩ := w.modifyRequest_eq r change
    rw [same]
    exact ⟨rfl, rfl⟩
  have kind : ∀ c, ((w.modifyRequest r change).context c).kind.outline = (w.context c).kind.outline := by
    intro c
    rw [context_modifyRequest]
    cases at_ : (w.context r).request? with
    | none => rfl
    | some request =>
      by_cases here : r = c
      · subst here
        simp [request?_eq_some.mp at_, ContextKind.outline, kept]
      · simp [here]
  exact {
    contexts := Nat.le_of_eq (modifyRequest_size ..).symm
    parent := fun c _ => parent_modifyRequest ..
    outline := fun c _ => kind c
    fresh := by
      intro c beyond _
      rw [context_of_ge (by rwa [modifyRequest_size])]
      rfl
    functions := Nat.le_of_eq (by rw [same.1])
    function := fun f _ => by rw [function, same.1, function]
    components := Nat.le_of_eq (by rw [same.2])
    component := fun k _ => by rw [component, same.2, component] }

theorem grows_setTemplates (c : ContextId) (templates : List String) :
    w.Grows (w.setContext c { w.context c with templates }) := by
  have same : ∀ t, ((w.setContext c { w.context c with templates }).context t).kind = (w.context t).kind ∧
      ((w.setContext c { w.context c with templates }).context t).parent = (w.context t).parent := by
    intro t
    rw [context, setContext, Table.get_set]
    split
    next here => rw [here.1]; exact ⟨rfl, rfl⟩
    next => exact ⟨rfl, rfl⟩
  exact { Grows.refl w with
    contexts := Nat.le_of_eq (Table.size_set ..).symm
    parent := fun t _ => (same t).2
    outline := fun t _ => by rw [(same t).1]
    fresh := fun t beyond _ => by
      rw [(same t).2, context_of_ge beyond]
      rfl }

theorem grows_newRequest (parent : ContextId) (detached : Bool) : w.Grows (w.newRequest parent detached).2 := by
  have scopes : w.Grows w.framed := grows_of_same rfl rfl rfl
  refine scopes.trans (grows_addContext w.framed ?_)
  intro root
  cases root

theorem grows_newDetached (parent : ContextId) (a : ApplicationId) : w.Grows (w.newDetached parent a).2 :=
  ((w.grows_newRequest parent true).trans (grows_addContext _ fun _ => rfl)).trans
    (grows_modifyRequest _ _ fun _ => ⟨rfl, rfl⟩)

end

end World

/-- No program can change what is permanent. -/
theorem World.grows_order : WorldOrder Grows where
  refl := Grows.refl
  trans := Grows.trans
  beside := Beside.grows
  elsewhere := grows_of_same
  function := grows_addFunction
  component := grows_addComponent
  context := fun w _ root _ => w.grows_addContext root
  detached := grows_newDetached
  request := fun w r _ kept => w.grows_modifyRequest r fun request => ⟨(kept request).vars, (kept request).scope⟩
  templates := grows_setTemplates
  sessionNode := fun w r _ _ => w.grows_modifyRequest r fun _ => ⟨rfl, rfl⟩
  applicationNode := fun w r _ _ => w.grows_modifyRequest r fun _ => ⟨rfl, rfl⟩

theorem rooted_program (program : Script.Program) (fuel : Nat) (clock : Instant) :
    (program.action fuel (start clock)).2.Rooted := by
  refine (grows_order.programs.program program fuel (start clock)).rooted ?_
  intro c _
  rw [context_of_ge (Nat.zero_le _)]
  rfl

end ScopeEngine
