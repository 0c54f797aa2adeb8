import ScopeEngine.Proofs.Resolution.Lambdas
import ScopeEngine.Proofs.Resolution.Ownership

/-! Who owns a name. In every world that programs can reach, a name that names no scope is found among variables, locals,
arguments or in a request scope, whatever closures were kept in sessions, applications or servers and called from other
requests. -/

namespace ScopeEngine

open ScopeEngine.Action Script

namespace Action

variable {α β : Type}

variable {action : Action α}

def Divides (action : Action α) : Prop :=
  ∀ w : World, w.Parted → w.Parts (action w).2

def Readies (action : Action α) : Prop :=
  ∀ w : World, w.Parted → w.Readies (action w).2

/-- The action answers with a scope of its own making, under that name, that is there for nothing yet. -/
def Allots (name : ScopeName) (action : Action ScopeId) : Prop :=
  ∀ w : World, w.Parted → w.Readies (action w).2 ∧ ∀ s, (action w).1 = .ok s → w.MadeAs name (action w).2 s

theorem Readies.divides (readies : Readies action) : Divides action :=
  fun w parted => (readies w parted).toParts

theorem divides_pure (a : α) : Divides (pure a) := fun _ parted => parted.parts

theorem readies_same {w : World} (parted : w.Parted) : w.Readies w :=
  { parted.parts with serves := fun _ _ serves => serves }

theorem readies_declares : Declares (fun {_} action => Readies action) where
  beside := fun beside w parted => parted.beside (beside w)

theorem readies_scopes : ScopeRules (fun {_} action => Readies action) where
  pure := fun _ _ => readies_same
  fail := fun _ _ => readies_same
  get := fun _ => readies_same
  bind := by
    intro α β first next readies rest w parted
    have begins := readies w parted
    rw [bind_apply]
    split
    next b later ran =>
      rw [ran] at begins
      exact begins.trans (rest b later begins.parted)
    next stop later ran =>
      rw [ran] at begins
      exact begins
  beside := fun aside => readies_declares.beside fun w => (aside w).toBeside

theorem Divides.chain {first : Action β} {next : β → Action α} (divides : Divides first)
    (rest : ∀ b, first.Yields b → Divides (next b)) : Divides (first >>= next) := by
  intro w parted
  have begins := divides w parted
  rw [bind_apply]
  split
  next b later ran =>
    rw [ran] at begins
    exact begins.trans (rest b ⟨w, later, ran⟩ later begins.parted)
  next stop later ran =>
    rw [ran] at begins
    exact begins

theorem Divides.attempt (divides : Divides action) : Divides (attempt action) := by
  intro w parted
  have runs := divides w parted
  simp only [Action.attempt]
  split
  all_goals
    next ran =>
      rw [ran] at runs
      exact runs

theorem readies_holds (holds : World → List Hold) : Readies (modify fun w => { w with holds := holds w }) := by
  intro w parted
  refine parted.rearranged (World.grows_of_same rfl rfl rfl) (.refl _) ?_ ?_ rfl parted.handles parted.listeners
  · exact fun name s => World.Serves.before rfl (fun _ => rfl) rfl rfl rfl rfl
  · exact fun f frame beyond closes => absurd closes (World.no_closure beyond)

theorem Divides.holding (divides : Divides action) (thing : Hold) : Divides (holding thing action) := by
  intro w parted
  let held := { w with holds := thing :: w.holds }
  have enters : w.Parts held := (readies_holds (fun w => thing :: w.holds)).divides w parted
  have runs := divides held enters.parted
  have leaves : (action held).2.Parts { (action held).2 with holds := w.holds } :=
    (readies_holds (fun _ => w.holds)).divides _ runs.parted
  exact (enters.trans runs).trans leaves

end Action

section Scopes

variable {name : ScopeName}

theorem allots_newScope {scope : Scope} (named : scope.name = name.key) : Allots name (newScope scope) := by
  intro w parted
  refine ⟨readies_scopes.newScope scope w parted, ?_⟩
  intro s answers
  cases answers
  exact (readies_same parted).next scope name named

theorem Action.Readies.allots {β : Type} {first : Action β} {next : β → Action ScopeId} (readies : Readies first)
    (rest : ∀ b, first.Yields b → Allots name (next b)) : Allots name (first >>= next) := by
  intro w parted
  have begins := readies w parted
  rw [bind_apply]
  split
  next b later ran =>
    rw [ran] at begins
    obtain ⟨ends, makes⟩ := rest b ⟨w, later, ran⟩ later begins.parted
    refine ⟨begins.trans ends, fun s answers => ?_⟩
    obtain ⟨made, label⟩ := makes s answers
    exact ⟨⟨Nat.le_trans begins.scopes.size made.1, made.2⟩, label⟩
  next stop later ran =>
    rw [ran] at begins
    exact ⟨begins, fun s answers => by cases answers⟩

section Arguments

variable {scope bound : Scope}

variable {function : Function} {params : List Param} {values : List Value}

theorem named_bindLeading (yields : (bindLeading function params values scope).Yields bound) :
    bound.name = scope.name := by
  fun_induction bindLeading function params values scope with
  | case1 =>
    cases yields.pure
    rfl
  | case2 param params value values scope ih =>
    obtain ⟨written, puts, further⟩ := yields.bind
    exact (ih written.2 further).trans (Scope.keepsName_put _ _ _ _ puts.ofExcept)
  | case3 param params scope ih =>
    obtain ⟨_, _, further⟩ := yields.bind
    obtain ⟨written, puts, further⟩ := further.bind
    exact (ih written.2 further).trans (Scope.keepsName_put _ _ _ _ puts.ofExcept)

theorem named_bindExtras {place : Nat} (yields : (bindExtras place values scope).Yields bound) :
    bound.name = scope.name := by
  fun_induction bindExtras place values scope with
  | case1 =>
    cases yields.pure
    rfl
  | case2 place value values scope ih =>
    obtain ⟨written, puts, further⟩ := yields.bind
    exact (ih written.2 further).trans (Scope.keepsName_put _ _ _ _ puts.ofExcept)

theorem named_bindNamed {values : Bindings Value} {result : Bindings Value × Scope}
    (yields : (bindNamed function params values scope).Yields result) : result.2.name = scope.name := by
  induction params generalizing values scope with
  | nil =>
    cases yields.pure
    rfl
  | cons param params ih =>
    simp only [bindNamed] at yields
    split at yields
    all_goals
      obtain ⟨_, _, further⟩ := yields.bind
      obtain ⟨written, puts, further⟩ := further.bind
      exact (ih further).trans (Scope.keepsName_put _ _ _ _ puts.ofExcept)

theorem named_bindEntries {entries : List (Key × Value)} (yields : (bindEntries entries scope).Yields bound) :
    bound.name = scope.name := by
  fun_induction bindEntries entries scope with
  | case1 =>
    cases yields.pure
    rfl
  | case2 key value rest scope ih =>
    obtain ⟨written, puts, further⟩ := yields.bind
    exact (ih written.2 further).trans (Scope.keepsName_put _ _ _ _ puts.ofExcept)

end Arguments

theorem allots_bindArguments (f : FunctionId) (arguments : Arguments) : Allots .arguments (bindArguments f arguments) := by
  refine readies_scopes.get.allots fun w _ => ?_
  cases arguments with
  | positional values =>
    refine (readies_scopes.bindLeading _ _ _ _).allots fun _ leads => ?_
    refine (readies_scopes.bindExtras _ _ _).allots fun _ extends_ => ?_
    exact allots_newScope ((named_bindExtras extends_).trans (named_bindLeading leads))
  | named values =>
    refine (readies_scopes.bindNamed _ _ _ _).allots fun _ leads => ?_
    refine (readies_scopes.bindEntries _ _).allots fun _ extends_ => ?_
    exact allots_newScope ((named_bindEntries extends_).trans (named_bindNamed leads))

theorem allots_newServerScope : Allots .server Engine.newServerScope :=
  (readies_scopes.describe _).allots fun _ _ => allots_newScope rfl

end Scopes

section Making

open World

variable {function : Function} {server : Server} {w : World} {α : Type}
variable (c : ContextId) (handle : String)

theorem divides_call (f : FunctionId) (c : ContextId) (arguments : Arguments) :
    Divides (do callContext f c (← bindArguments f arguments)) := by
  intro w parted
  obtain ⟨begins, made⟩ := allots_bindArguments f arguments w parted
  rw [bind_apply]
  split
  next scope later ran =>
    rw [ran] at begins made
    have locals := begins.next (.new ScopeName.locals.key) .locals rfl
    let ready := (newScope (.new ScopeName.locals.key) later).2
    have readies : w.Readies ready := begins.addScope (.new ScopeName.locals.key)
    have arguments := (made scope rfl).addScope (.new ScopeName.locals.key)
    have own : ∀ name s, name = .locals ∧ s = later.scopes.next ∨ name = .arguments ∧ s = scope →
        w.MadeAs name ready s ∧ ¬ ready.Reserved s := by
      rintro name s (⟨rfl, rfl⟩ | ⟨rfl, rfl⟩)
      · exact ⟨locals, (readies.unused parted locals.made).2⟩
      · exact ⟨arguments, (readies.unused parted arguments.made).2⟩
    change w.Parts (ready.addContext { parent := some c, kind := _, templates := _ }).2
    apply readies.toParts.addContext
    · cases (later.function f).kind <;> exact nofun
    · intro name s
      cases (later.function f).kind
      all_goals
        intro there
        obtain ⟨searched, which⟩ := ContextKind.scope?_call rfl there
        exact ⟨searched, own name s which⟩
    · intro call
      cases closes : (later.function f).kind
      all_goals
        intro same
        cases same
      exact ⟨closes, fun k belongs => (Option.filter_eq_some_iff.mp belongs).1⟩
    · intro k
      cases (later.function f).kind
      · exact readies.parted.followed
      · exact readies.parted.followed
      · exact nofun
  next stop later ran =>
    rw [ran] at begins
    exact begins.toParts

theorem divides_newRequest (detached : Bool) : Divides (modifyGet (·.newRequest c detached)) := by
  intro w parted
  have begins := readies_same parted
  have first := begins.addScope (.new ScopeName.vars.key)
  have second := first.addScope (.new ScopeName.request.key)
  have vars := (begins.next (.new ScopeName.vars.key) .vars rfl).addScope (.new ScopeName.request.key)
  have scope := first.next (.new ScopeName.request.key) .request rfl
  change w.Parts (addContext _ { parent := some c, kind := .request _ }).2
  apply second.toParts.addContext
  · exact nofun
  · intro name s own
    cases name <;> cases own
    · exact ⟨rfl, vars, (second.unused parted vars.made).2⟩
    · exact ⟨rfl, scope, (second.unused parted scope.made).2⟩
  · exact nofun
  · exact nofun

theorem divides_template (path : String) : Divides (do
    let vars ← newScope (.new ScopeName.vars.key)
    modifyGet (·.addContext { parent := some c, kind := .template vars, templates := [path] })) := by
  intro w parted
  have begins := readies_same parted
  have first := begins.addScope (.new ScopeName.vars.key)
  have vars := begins.next (.new ScopeName.vars.key) .vars rfl
  change w.Parts (addContext _ { parent := some c, kind := .template _, templates := _ }).2
  apply first.toParts.addContext
  · exact nofun
  · intro name s own
    cases name <;> cases own
    exact ⟨rfl, vars, (first.unused parted vars.made).2⟩
  · exact nofun
  · exact nofun

theorem divides_addNode {kind : ContextKind} (none : ∀ name, kind.scope? name = none) (closures : ∀ call, kind ≠ .closure call)
    (members : kind.component? = Option.none) : Divides (modifyGet (·.addNode kind)) := by
  intro w parted
  exact parted.parts.addRoot (fun name s own => by cases (none name).symm.trans own) closures members

theorem divides_serverContext (w : World) (parted : w.Parted) (issued : server.scope.number < w.scopes.size)
    (shut : ¬ w.Open server.scope) : w.Parts (Engine.serverContext server w).2 := by
  refine parted.parts.addRoot ?_ nofun rfl
  intro name s own
  cases name <;> cases own
  exact ⟨rfl, issued, shut⟩

theorem divides_newDetached (a : ApplicationId) : Divides (modifyGet (·.newDetached c a)) := by
  intro w parted
  have begins := divides_newRequest c true w parted
  have adds : Divides (modifyGet (·.addNode (.application a))) := divides_addNode (fun name => by cases name <;> rfl) nofun rfl
  have node := adds _ begins.parted
  exact (begins.trans node).trans (node.parted.modifyRequest _ fun _ => by exact ⟨rfl, rfl⟩).toParts

theorem divides_declared (parted : w.Parted) {rest : FunctionId → Action α}
    (captured : ∀ frame, function.kind = .closure → function.frame = some frame → ∃ c, frame = w.captureFrame c)
    (rests : ∀ f, Divides (rest f)) : w.Parts ((modifyGet (·.addFunction function) >>= rest : Action α) w).2 :=
  let declares := (parted.beside (beside_addFunction captured)).toParts
  declares.trans (rests _ _ declares.parted)

theorem divides_putIn (s : ScopeId) (key : Key) (value : Value) {rest : Action α} (rests : Divides rest) :
    Divides (do
      let _ ← putIn s key value
      rest) :=
  (readies_scopes.putIn s key value).divides.chain fun _ _ => rests

theorem divides_get : Divides (get : Action World) := fun _ parted => parted.parts

theorem divides_defineMethod (parted : w.Parted) (k : ComponentId)
    (captured : ∀ frame, function.kind = .closure → function.frame = some frame → ∃ c, frame = w.captureFrame c) :
    w.Parts (defineMethod k function w).2 := by
  simp only [defineMethod]
  generalize shape : (if function.kind = .plain then { function with component := some k } else function) = method
  have same : ∀ frame, method.kind = .closure → method.frame = some frame → ∃ c, frame = w.captureFrame c := by
    subst shape
    split
    next plain => exact fun frame closes => by cases plain.symm.trans closes
    · exact captured
  refine divides_declared parted same fun f => divides_get.chain fun _ _ => divides_putIn _ _ _ ?_
  split
  · exact divides_putIn _ _ _ (divides_pure f)
  · exact divides_pure f

theorem divides_registerFunction (function : Function) : Divides (registerFunction c function) := by
  intro w parted
  have captured : ∀ frame, (w.bound c function).kind = .closure → (w.bound c function).frame = some frame →
      ∃ c, frame = w.captureFrame c := fun frame closes held => ⟨c, frame_bound closes held⟩
  rw [registerFunction, bind_apply, get_apply]
  dsimp only
  cases w.declaringComponent c with
  | some k => exact divides_defineMethod parted k captured
  | none =>
    exact divides_declared parted captured fun f => divides_get.chain fun _ _ => divides_putIn _ _ _ (divides_pure f)

theorem divides_newComponent (name : String) (shared : Option ScopeId) (as : Option String) :
    Divides (do keepComponent as (← newComponent name shared)) := by
  have keeps : ∀ (w later : World) k, w.Parts later → k.number < later.components.size →
      w.Parts (keepComponent as k later).2 := by
    intro w later k parts issued
    cases as with
    | none => exact parts
    | some handle =>
      refine parts.trans (parts.parted.setHandles ?_).toParts
      intro entry member
      rcases List.mem_cons.mp member with rfl | member
      · exact issued
      · exact parts.parted.handles entry (List.mem_filter.mp member |>.1)
  have builds : ∀ (w later : World) shared, w.Readies later → w.Parted → w.Parts ((do
      let vars ← newScope (.new ScopeName.vars.key)
      let self ← newScope (.new ScopeName.self.key)
      let k ← modifyGet fun w : World => w.addComponent { name := .of name, vars, self, shared }
      keepComponent as k : Action Unit) later).2 := by
    intro w later shared begins parted
    have first := begins.addScope (.new ScopeName.vars.key)
    have second := first.addScope (.new ScopeName.self.key)
    have vars := (begins.next (.new ScopeName.vars.key) .vars rfl).addScope (.new ScopeName.self.key)
    have self := (first.next (.new ScopeName.self.key) .self rfl).made
    apply keeps
    · apply second.toParts.addComponent vars (second.unused parted vars.made).2 self.2 (second.unused parted self).1
      intro same
      have numbers : later.scopes.size = later.scopes.size + 1 := (congrArg Id.number same).trans (size_addScope ..)
      omega
    · exact Table.next_lt_size_add ..
  intro w parted
  have begins := readies_same parted
  cases shared with
  | some s => exact builds w w s begins parted
  | none => exact builds w _ _ (begins.addScope (.new ScopeName.shared.key)) parted

theorem divides_named {rest : ComponentId → Action α}
    (rests : ∀ (w : World) k, w.Parted → k.number < w.components.size → w.Parts (rest k w).2) :
    Divides (named (·.components) handle >>= rest) := by
  intro w parted
  simp only [named, bind_apply, get_apply]
  cases found : w.handles.components.lookup handle with
  | none => exact parted.parts
  | some k =>
    obtain ⟨before, after, split, _⟩ := List.lookup_eq_some_iff.mp found
    refine rests w k parted (parted.handles (handle, k) ?_)
    rw [split]
    simp

theorem divides_inComponent : Divides (do
    let k ← named (·.components) handle
    modifyGet (·.addContext { parent := some c, kind := .component k })) := by
  apply divides_named
  intro w k parted issued
  apply parted.parts.addContext
  · exact nofun
  · intro name s own
    cases name <;> cases own
  · exact nofun
  · intro j member
    cases member
    exact issued

theorem divides_componentListener (host : Host) (c : ContextId) (component : String) (as : Option String) :
    Divides ((LifecycleStep.componentListener component as).run host c) := by
  apply divides_named
  intro w k parted issued
  have listens : w.Parts (w.addListener (listenerOf w k)).2 := by
    refine (parted.addListener ?_).toParts
    intro j made
    cases made
    exact issued
  have keeps : ∀ l reply, Divides (do keepListener as l; pure reply : Action Reply) := fun l reply =>
    (readies_scopes.keepAs (by intros; rfl) as l).divides.chain fun _ _ => divides_pure reply
  exact listens.trans (keeps _ _ _ listens.parted)

/-- Code within an engine keeps the kinds apart if it does so at a server context of the engine. -/
theorem parts_withEngine {inside : ContextId → Action α} (divides : ∀ c, Divides (inside c))
    (within : World.Parted { w with engine := server }) (issued : w.engine.scope.number < w.scopes.size)
    (shut : ¬ w.Open w.engine.scope) :
    w.Parts (withEngine server (do inside (← Engine.serverContext server)) w).2 := by
  let entered : World := { w with engine := server }
  let opened : World := (Engine.serverContext server entered).2
  have opens : entered.Parts opened := divides_serverContext entered within within.ofEngine.1 within.ofEngine.2
  have runs := opens.trans (divides entered.contexts.next opened opens.parted)
  have leaves := runs.parted.inEngine (Nat.lt_of_lt_of_le issued runs.scopes.size) fun now => by
    rcases runs.opened _ now with before | new
    · exact shut before.anyEngine
    · exact Nat.not_lt_of_le new issued
  refine ⟨leaves.parted, runs.scopes, fun s now => ?_⟩
  exact (runs.opened s now.anyEngine).imp_left Open.anyEngine

theorem divides_engine (settings : Settings) (l : ListenerId) {inside : ContextId → Action α}
    (divides : ∀ c, Divides (inside c)) : Divides (do
      let server ← Engine.new settings l
      withEngine server do inside (← Engine.serverContext server)) := by
  intro w parted
  obtain ⟨begins, made⟩ := allots_newServerScope w parted
  rw [Engine.new, bind_assoc, bind_apply]
  split
  next scope later ran =>
    rw [ran] at begins made
    have fresh := (made scope rfl).made
    have within : World.Parted { later with engine := ⟨scope, settings, l⟩ } :=
      (begins.parted.inEngine fresh.2 (begins.unused parted fresh).1).parted
    have own := begins.parted.ofEngine
    exact begins.toParts.trans (parts_withEngine divides within own.1 own.2)
  next stop later ran =>
    rw [ran] at begins
    exact begins.toParts

end Making

theorem divides_splice (c node : ContextId) : Divides (splice c node) := by
  intro w parted
  obtain same | ⟨r, ⟨_, same⟩ | ⟨_, same⟩⟩ := splice_cases c node w
  · rw [same]
    exact parted.parts
  · rw [same]
    exact (parted.modifyRequest r fun _ => by exact ⟨rfl, rfl⟩).toParts
  · rw [same]
    exact (parted.modifyRequest r fun _ => by exact ⟨rfl, rfl⟩).toParts

theorem divides_programs : ProgramRules (fun {_} action => Divides action) where
  pure := divides_pure
  fail := fun _ _ parted => parted.parts
  get := divides_get
  bind := fun divides rest => divides.chain fun b _ => rest b
  beside := fun aside => (readies_scopes.beside aside).divides
  declares := ⟨fun beside => (readies_declares.beside beside).divides⟩
  exhausted := fun _ parted => parted.parts
  attempt := Divides.attempt
  holding := fun thing divides => divides.holding thing
  chain := Divides.chain
  instances := fun tends w parted => parted.tends (tends w)
  request := fun r _ kept _ parted => (parted.modifyRequest r fun request =>
    ⟨(kept request).vars, (kept request).scope⟩).toParts
  splice := divides_splice
  templates := fun c change w parted => (parted.setTemplates c (change w)).toParts
  applicationNode := fun _ => divides_addNode (fun name => by cases name <;> rfl) nofun rfl
  sessionNode := fun _ => divides_addNode (fun name => by cases name <;> rfl) nofun rfl
  serverNode := fun w parted => divides_serverContext w parted parted.ofEngine.1 parted.ofEngine.2
  newRequest := fun c => divides_newRequest c false
  newDetached := divides_newDetached
  template := divides_template
  call := divides_call
  register := fun c function _ => divides_registerFunction c function
  component := divides_newComponent
  forget := fun handle w parted => (parted.setHandles fun entry member =>
    parted.handles entry (List.mem_filter.mp member).1).toParts
  inComponent := divides_inComponent
  listener := fun listener none w parted => (parted.addListener fun k made => by cases none.symm.trans made).toParts
  componentListener := divides_componentListener
  engine := divides_engine

section Programs

variable {clock : Instant} {scopes : Table .scope Scope} {server : Server}
variable (settings : Settings) (l : ListenerId)

theorem opens_start (clock : Instant) :
    ∃ scopes : Table .scope Scope, scopes.size = 5 ∧
      Engine.new settings l (World.start clock) = (.ok ⟨⟨4⟩, settings, l⟩, { World.start clock with scopes }) :=
  ⟨_, rfl, rfl⟩

theorem serves_start {name : ScopeName} {s : ScopeId}
    (serves : World.Serves { World.start clock with scopes, engine := server } name s) :
    name = .server ∧ s = server.scope := by
  cases serves with
  | context issued | component issued | session issued | application issued => cases issued
  | engine => exact ⟨rfl, rfl⟩

theorem shut_start (s : ScopeId) : ¬ World.Open { World.start clock with scopes, engine := server } s := by
  intro opens
  obtain ⟨name, searched, serves⟩ := opens
  obtain ⟨rfl, _⟩ := serves_start serves
  cases searched

theorem parted_start (clock : Instant) (issued : server.scope.number < scopes.size) :
    World.Parted { World.start clock with scopes, engine := server } where
  issued := by
    intro s serves
    rcases serves with opens | reserves
    · exact absurd opens (shut_start s)
    · obtain ⟨name, _, serves⟩ := reserves
      obtain ⟨_, rfl⟩ := serves_start serves
      exact issued
  apart := fun s opens => absurd opens (shut_start s)
  labels := fun name s searched serves => absurd ⟨name, searched, serves⟩ (shut_start s)
  frames := fun f frame closes => absurd closes (World.no_closure (Nat.zero_le _))
  closures := fun c call kind => by cases (World.kind_of_ge (Nat.zero_le _)).symm.trans kind
  members := fun c k member => by
    cases (congrArg ContextKind.component? (World.kind_of_ge (Nat.zero_le _))).symm.trans member
  handles := nofun
  listeners := by
    intro l k made
    have silent : World.listener (World.start clock) l = .silent := by
      rw [World.listener, World.start, Table.get_add]
      split <;> rfl
    cases (congrArg Listener.component silent).symm.trans made

theorem parted_engine {α : Type} (clock : Instant) {inside : ContextId → Action α}
    (divides : ∀ c, Divides (inside c)) : ((do
      let server ← Engine.new settings l
      withEngine server do inside (← Engine.serverContext server)) (World.start clock)).2.Parted := by
  obtain ⟨scopes, size, opens⟩ := opens_start settings l clock
  let later : World := { World.start clock with scopes }
  have within : World.Parted { later with engine := ⟨⟨4⟩, settings, l⟩ } := parted_start clock (Nat.lt_of_lt_of_eq (by decide : 4 < 5) size.symm)
  have runs : later.Parts _ :=
    parts_withEngine divides within (Nat.lt_of_lt_of_eq (by decide : 0 < 5) size.symm) (shut_start _)
  rw [bind_apply, opens]
  exact runs.parted

theorem parted_program (program : Program) (fuel : Nat) (clock : Instant) :
    (program.action fuel (World.start clock)).2.Parted := by
  have rules := divides_programs
  have obeys : (hostOf (execute fuel)).Obeys (fun {_} action => Divides action) := rules.hostOf (rules.execute fuel)
  have runs := fun c => rules.runSteps false program.steps fun step _ => rules.execute fuel false c step.command
  have enters := fun c => rules.bind (rules.holding (.context c) (runs c)) fun outcomes => rules.pure outcomes.1
  cases listens : program.listener with
  | none =>
    simp only [Program.action, Program.newListener, listens, pure_bind]
    exact parted_engine program.settings World.silentListener clock enters
  | some listener =>
    have first : (program.newListener (hostOf (execute fuel)) (World.start clock)).2.Parted := by
      simp only [Program.newListener, listens]
      exact parted_engine {} World.silentListener clock fun c =>
        rules.holding (.context c) (rules.newListener obeys c listener)
    rw [Program.action, bind_apply]
    split
    next l later ran =>
      rw [ran] at first
      exact (rules.engine program.settings l enters later first).parted
    next stop later ran =>
      rw [ran] at first
      exact first

end Programs

namespace World

variable {contexts : List ContextId} {found : Finding} {key : Key} {w : World}

/-- A world that code may find itself in: programs, and the commands they are made of, lead from one to the next, code may
run in any engine that was opened, and it holds on to things while it runs. -/
inductive Reachable : World → Prop where
  | program (program : Program) (fuel : Nat) (clock : Instant) : Reachable (program.action fuel (start clock)).2
  | command {w : World} (reachable : w.Reachable) (fuel : Nat) (inBody : Bool) (c : ContextId) (command : Command) :
      Reachable (execute fuel inBody c command w).2
  | engine {w : World} (reachable : w.Reachable) {c : ContextId} {server : Server} (issued : c.number < w.contexts.size)
      (there : (w.context c).kind = .server server) : Reachable { w with engine := server }
  | holding {w : World} (reachable : w.Reachable) (thing : Hold) : Reachable { w with holds := thing :: w.holds }

theorem Reachable.parted (reachable : w.Reachable) : w.Parted := by
  induction reachable with
  | program program fuel clock => exact parted_program program fuel clock
  | command _ fuel inBody c command parted => exact (divides_programs.execute fuel inBody c command _ parted).parted
  | @engine w _ c server issued there parted =>
    have reserved : w.Reserved server.scope := ⟨.server, rfl, .context issued (by rw [there]; rfl)⟩
    have shut : ¬ w.Open server.scope := fun opens => parted.apart _ opens reserved
    exact (parted.inEngine (parted.issued _ (.inr reserved)) shut).parted
  | holding _ thing parted => exact (readies_holds (fun w => thing :: w.holds) _ parted).parted

theorem Parted.findGlobal (hit : w.findGlobal key contexts = some found) :
    w.Open found.scope ∧ (w.scope found.scope).get key = some found.value := by
  induction contexts with
  | nil => cases hit
  | cons c above ih =>
    cases kind : (w.context c).kind with
    | request request =>
      simp only [World.findGlobal, kind] at hit
      obtain ⟨value, bound, rfl⟩ := Option.map_eq_some_iff.mp hit
      exact ⟨open_of_kind (by decide : ScopeName.request.isSearched = true) (by rw [kind]; rfl), bound⟩
    | server | application | session =>
      simp only [World.findGlobal, kind] at hit
      cases hit
    | _ =>
      simp only [World.findGlobal, kind] at hit
      exact ih hit

theorem Parted.findNearby (parted : w.Parted) (hit : w.findNearby key false contexts = some found) :
    w.Open found.scope ∧ (w.scope found.scope).get key = some found.value := by
  rw [findNearby_deep] at hit
  rcases Option.or_eq_some_iff.mp hit with inFrame | ⟨_, inRequest⟩
  · obtain ⟨member, bound⟩ := mem_of_lookupIn inFrame
    exact ⟨(parted.frameOf _).scopes _ member, bound⟩
  · split at inRequest
    · exact findGlobal inRequest
    · cases inRequest

end World

/-- In every world that can be reached, the owner of a name that is found without a qualifier binds it, and is a variables,
locals, arguments or request scope. It is never the scope of a session, an application or a server, and never the public
members of a component. -/
theorem owners_are_searched {w : World} (reachable : w.Reachable) (host : Host) (c : ContextId) {key : Key}
    (plain : key.isScopeName = false) {found : Finding} {later : World}
    (resolves : resolve host c key none w = (.ok found, later)) :
    (w.scope found.scope).get key = some found.value ∧
      (∃ name ∈ [ScopeName.vars, .locals, .arguments, .request], w.Serves name found.scope) ∧
      ∀ name ∈ [ScopeName.session, .application, .server, .self], ¬ w.Serves name found.scope := by
  have parted := reachable.parted
  rw [resolve_apply host c plain] at resolves
  cases hit : w.findNearby key false (w.ancestry c) with
  | none =>
    rw [hit] at resolves
    cases resolves
  | some owner =>
    rw [hit] at resolves
    cases resolves
    obtain ⟨opens, bound⟩ := parted.findNearby hit
    refine ⟨bound, ?_, ?_⟩
    · obtain ⟨name, searched, serves⟩ := opens
      refine ⟨name, ?_, serves⟩
      revert searched
      cases name <;> decide
    · intro name listed serves
      have reserved : name.isReserved = true := by
        revert listed
        cases name <;> decide
      exact parted.apart _ opens ⟨name, reserved, serves⟩

/-- A request keeps a closure in the application scope; a second one, with a variable and an entry of the application of the
same name as a variable of the first, calls it. -/
def crossing : Program where
  settings := { name := "shop" }
  steps := [
    .mk (.within .request [
      .mk (.scope (.put (.nearby ScopeName.vars.key) (.of "x") (.integer 1))) false,
      .mk (.function (.bindHere (.mk .closure "f" [] .exposed none []) (some "f"))) false,
      .mk (.scope (.put (.nearby ScopeName.application.key) (.of "f") (.function "f"))) false]) false,
    .mk (.within .request [
      .mk (.scope (.put (.nearby ScopeName.vars.key) (.of "x") (.integer 2))) false,
      .mk (.scope (.put (.nearby ScopeName.application.key) (.of "x") (.integer 3))) false,
      .mk (.function (.call "f" (.positional []) none)) false]) false]

/-- From the call, `x` is found among the variables of the first request and not in the application scope. -/
theorem owners_are_searched_crossing :
    let host := hostOf (execute 0)
    let w := (crossing.action 9 (World.start default)).2
    w.Reachable ∧ (w.context ⟨5⟩).type = .closure ∧ ((w.scope ⟨7⟩).get (.of "x")).isSome = true ∧
      w.Serves .application ⟨7⟩ ∧ ∃ found, resolve host ⟨5⟩ (.of "x") none w = (.ok found, w) ∧ found.scope = ⟨5⟩ ∧
        (w.scope found.scope).get (.of "x") = some found.value ∧
        (∃ name ∈ [ScopeName.vars, .locals, .arguments, .request], w.Serves name found.scope) ∧
        ∀ name ∈ [ScopeName.session, .application, .server, .self], ¬ w.Serves name found.scope := by
  intro host w
  have reachable : w.Reachable := .program crossing 9 default
  have plain : (Key.of "x").isScopeName = false := by decide +kernel
  have serves : w.Serves .application ⟨7⟩ := by
    have scope : (w.application ⟨0⟩).scope = ⟨7⟩ := by decide +kernel
    rw [← scope]
    exact .application (by decide +kernel : 0 < w.applications.size)
  have hit : (w.findNearby (.of "x") false (w.ancestry ⟨5⟩)).map (·.scope) = some ⟨5⟩ := by decide +kernel
  obtain ⟨found, hit, owner⟩ := Option.map_eq_some_iff.mp hit
  have resolves : resolve host ⟨5⟩ (.of "x") none w = (.ok found, w) := by
    rw [resolve_apply host ⟨5⟩ plain, hit]
  exact ⟨reachable, by decide +kernel, by decide +kernel, serves, found, resolves, owner,
    owners_are_searched reachable host ⟨5⟩ plain resolves⟩

end ScopeEngine
