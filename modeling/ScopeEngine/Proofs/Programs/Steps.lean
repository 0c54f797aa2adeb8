import ScopeEngine.Proofs.Programs.Rules

/-! Running programs: whatever steps a script takes, at whatever place and however deep its calls nest, the run has every
property that single makings and changings of things have. -/

namespace ScopeEngine

open ScopeEngine.Action Script

theorem frame_of_yields {host : Host} {c : ContextId} {declaration : Declaration} {function : Function}
    (yields : (declared host c declaration).Yields function) : function.frame = none := by
  obtain ⟨kind, name, params, access, source, body⟩ := declaration
  obtain ⟨w, later, ran⟩ := yields
  simp only [declared, bind_apply] at ran
  split at ran
  · cases ran
    rfl
  · cases ran

namespace ProgramRules

variable {holds : ∀ {α : Type}, Action α → Prop} (rules : ProgramRules holds)
variable (as : Option String) (c : ContextId) {host : Host} {run : Executor}
include rules

theorem declare {α : Type} {c : ContextId} {declaration : Declaration} {next : Function → Action α}
    (declares : holds (declared host c declaration)) (rest : ∀ function, function.frame = none → holds (next function)) :
    holds (do next (← declared host c declaration)) :=
  rules.chain declares fun function yields => rest function (frame_of_yields yields)

theorem defineMethod (k : ComponentId) {function : Function} (unbound : function.frame = none) :
    holds (defineMethod k function) := by
  have still : (if function.kind = .plain then { function with component := some k } else function).frame = none := by
    split
    · exact unbound
    · exact unbound
  simp only [ScopeEngine.defineMethod]
  generalize (if function.kind = .plain then { function with component := some k } else function) = method at still
  refine rules.bind (rules.declares.addFunction still) fun f => rules.bind rules.get fun w =>
    rules.bind (rules.putIn _ _ _) fun _ => ?_
  split
  · exact rules.bind (rules.putIn _ _ _) fun _ => rules.pure f
  · exact rules.pure f

theorem keepNode : holds (keepNode as c) :=
  rules.keepAs (by intros; rfl) as c

theorem keepListener (l : ListenerId) : holds (keepListener as l) :=
  rules.keepAs (by intros; rfl) as l

theorem contextStep (step : ContextStep) : holds (step.run c) := by
  cases step with
  | inspect | hasType kind => exact rules.answer _
  | pushTemplate path => exact rules.bind (rules.templates c _) fun _ => rules.pure _
  | popTemplate =>
    exact rules.bind rules.get fun _ => rules.bind (rules.templates c fun _ => _) fun _ => rules.pure _
  | removeNode kind as =>
    refine rules.bind (rules.excise c kind) fun node => ?_
    dsimp only
    split
    · exact rules.bind (rules.keepNode as _) fun _ => rules.answer _
    · exact rules.answer _
  | injectNode node =>
    exact rules.bind (rules.named _ node) fun node => rules.bind (rules.splice c node) fun _ => rules.pure _
  | newServerNode as =>
    have opens := rules.bind rules.serverNode fun node => rules.bind (rules.keepNode as node) fun _ =>
      rules.pure Reply.nothing
    rwa [bind_assoc] at opens

theorem sessionStep (step : SessionStep) : holds step.run := by
  have names : ∀ handle, holds (named (·.sessions) handle) := rules.named _
  cases step with
  | inspect session | expiredAfter session ms | state session | moved session =>
    exact rules.bind (names session) fun _ => rules.answer _
  | same a b => exact rules.bind (names a) fun _ => rules.bind (names b) fun _ => rules.pure _
  | setTimeout session limit =>
    exact rules.bind (names session) fun s =>
      rules.bind (rules.modifySession s (fun session => { session with timeout := limit }) fun _ => rfl) fun _ =>
        rules.pure _
  | touch session =>
    exact rules.bind (names session) fun s => rules.bind (rules.tend fun w => w.tends_touchSession s) fun _ =>
      rules.pure _

section Steps

variable {host : Host} (obeys : host.Obeys holds) (c : ContextId)
include obeys

theorem globalScope (key : Key) (name : Option ScopeName) (contexts : List ContextId) :
    holds (globalScope host key name contexts) := by
  have asks : ∀ found, holds (orScopeNotFound key found) := by
    intro found
    cases found with
    | none => exact rules.fail _
    | some s => exact rules.pure s
  induction contexts with
  | nil => exact rules.fail _
  | cons c above ih =>
    refine rules.bind rules.get fun w => ?_
    split
    · exact rules.pure _
    · exact rules.pure _
    · exact rules.pure _
    · exact rules.pure _
    · exact rules.bind (rules.ensureApplication obeys c) fun _ => rules.bind rules.get fun _ => asks _
    · exact rules.bind (rules.ensureSession obeys c) fun _ => rules.bind rules.get fun _ => asks _
    · exact ih

theorem access : AccessRules host c holds where
  toScopeRules := rules.toScopeRules
  declares := rules.declares
  nearby := by
    intro key
    refine rules.bind rules.get fun w => ?_
    split
    · exact rules.pure _
    · exact rules.globalScope obeys key _ _
    · exact rules.fail _
  global := fun key => rules.bind rules.get fun _ => rules.globalScope obeys key _ _

theorem evaluateAll (values : List Expr) : holds (evaluateAll host c values) := by
  induction values with
  | nil =>
    simp only [Script.evaluateAll]
    exact rules.pure _
  | cons value rest ih =>
    simp only [Script.evaluateAll]
    exact rules.bind ((rules.access obeys c).evaluate value) fun _ => rules.bind ih fun _ => rules.pure _

theorem evaluateArguments (arguments : ArgumentList) : holds (evaluateArguments host c arguments) := by
  cases arguments with
  | positional values => exact rules.bind (rules.evaluateAll obeys c values) fun _ => rules.pure _
  | named values => exact rules.bind ((rules.access obeys c).evaluateEntries values) fun _ => rules.pure _

theorem newListener (spec : ListenerSpec) : holds (newListener host c spec) := by
  obtain ⟨name, hooks⟩ := spec
  have declares : ∀ entry : Hook × Declaration, holds (do
      let function ← declared host c entry.2
      Pure.pure (entry.1, ← modifyGet (·.addFunction function))) := fun entry =>
    rules.declare ((rules.access obeys c).declared entry.2) fun _ unbound =>
      rules.bind (rules.declares.addFunction unbound) fun _ => rules.pure _
  exact rules.bind (rules.mapM declares hooks) fun _ => rules.listener _ rfl

theorem functionStep (step : FunctionStep) : holds (step.run host c) := by
  have places := rules.access obeys c
  have reports : ∀ as f, holds (reportFunction as f) := fun as f =>
    rules.bind (rules.keepFunction as f) fun _ => rules.answer _
  cases step with
  | new function as =>
    exact rules.declare (places.declared function) fun _ unbound =>
      rules.bind (rules.declares.addFunction unbound) fun f => reports as f
  | bindHere function as =>
    exact rules.bind (places.declared function) fun _ => rules.bind (rules.declares.bindFunction c _) fun f => reports as f
  | register function as =>
    exact rules.declare (places.declared function) fun _ unbound =>
      rules.bind (rules.register c _ unbound) fun f => reports as f
  | defineMethod component function as =>
    exact rules.bind (rules.named _ component) fun k => rules.declare (places.declared function) fun _ unbound =>
      rules.bind (rules.defineMethod k unbound) fun f => reports as f
  | inspect function => exact rules.bind (rules.named _ function) fun _ => rules.answer _
  | «alias» value as =>
    refine rules.bind (places.evaluate value) fun found => ?_
    split
    · exact rules.bind (rules.keepFunction as _) fun _ => rules.answer _
    · exact rules.pure _
  | bindArguments function arguments as =>
    exact rules.bind (rules.named _ function) fun f => rules.bind (rules.evaluateArguments obeys c arguments) fun _ =>
      rules.bind (rules.bindArguments f _) fun s => rules.bind (rules.keepScope as s) fun _ => rules.answer _
  | invoke name arguments =>
    refine rules.bind (rules.evaluateArguments obeys c arguments) fun _ => rules.bind ?_ fun _ => rules.answer _
    refine rules.bind (places.resolvePath name) fun found => ?_
    split
    · exact rules.invoke obeys _ c _
    · exact rules.fail _
  | call function arguments as =>
    refine rules.bind (rules.named _ function) fun f => rules.bind (rules.evaluateArguments obeys c arguments) fun _ =>
      rules.bind (rules.invoke obeys f c _) fun value => ?_
    dsimp only
    split
    · exact rules.bind (rules.keepFunction as _) fun _ => rules.answer _
    · exact rules.answer _
  | newComponent name shared as =>
    refine rules.bind (places.scopesAt shared) fun shared => ?_
    have makes := rules.bind (rules.component name shared as) fun _ => rules.pure Reply.nothing
    rwa [bind_assoc] at makes
  | inspectComponent component => exact rules.bind (rules.named _ component) fun _ => rules.answer _
  | dropComponent component =>
    exact rules.bind rules.get fun _ => rules.bind (rules.forget component) fun _ => rules.pure _

theorem ownRequest : OwnRules host c holds where
  toAccessRules := rules.access obeys c
  application := rules.ensureApplication obeys c
  session := rules.ensureSession obeys c
  settings := rules.updateSettings c
  listener := rules.setListener c
  sessionId := rules.setSessionId c
  initialization := rules.initializeSession obeys c
  rotation := rules.rotateSession obeys c
  invalidation := rules.invalidateSession obeys c

theorem lifecycleStep (step : LifecycleStep) : holds (step.run host c) := by
  cases step with
  | newListener spec as =>
    exact rules.bind (rules.newListener obeys c spec) fun l => rules.bind (rules.keepListener as l) fun _ => rules.pure _
  | componentListener component as => exact rules.componentListener host c component as
  | _ => exact (rules.ownRequest obeys c).lifecycleStep rfl

theorem applicationStep (step : ApplicationStep) : holds (step.run host c) := by
  have names : ∀ handle, holds (named (·.applications) handle) := rules.named _
  cases step with
  | inspect application | expiredAfter application ms | expired application | moved application =>
    exact rules.bind (names application) fun _ => rules.answer _
  | same a b => exact rules.bind (names a) fun _ => rules.bind (names b) fun _ => rules.pure _
  | setTimeout application limit =>
    exact rules.bind (names application) fun a => rules.bind
      (rules.modifyApplication a (fun application => { application with timeout := limit }) fun _ => rfl) fun _ =>
        rules.pure _
  | setSessionTimeout application limit =>
    exact rules.bind (names application) fun a => rules.bind
      (rules.modifyApplication a (fun application => { application with sessionTimeout := limit }) fun _ => rfl) fun _ =>
        rules.pure _
  | touch application =>
    exact rules.bind (names application) fun a => rules.bind (rules.touchApplication a) fun _ => rules.pure _
  | findSession application id as =>
    refine rules.bind (names application) fun _ => rules.bind rules.get fun _ => ?_
    dsimp only
    split
    · exact rules.bind (rules.keepSession as _) fun _ => rules.pure _
    · exact rules.pure _
  | removeSession application id as =>
    refine rules.bind (names application) fun a => rules.bind (rules.instances fun w => w.tends_takeSession a id)
      fun found => ?_
    dsimp only
    split
    · exact rules.bind (rules.keepSession as _) fun _ => rules.answer _
    · exact rules.answer _
  | shutdown application =>
    exact rules.bind (names application) fun a => rules.bind (rules.shutdownApplication obeys a c) fun _ => rules.pure _
  | restart application =>
    exact rules.bind (names application) fun a => rules.bind (rules.restartApplication obeys a c) fun _ => rules.pure _

theorem registryStep (step : RegistryStep) : holds (step.run host c) := by
  cases step with
  | inspect | has name => exact rules.answer _
  | find name as =>
    refine rules.bind rules.get fun _ => ?_
    dsimp only
    split
    · exact rules.bind (rules.keepApplication as _) fun _ => rules.pure _
    · exact rules.pure _
  | remove name as =>
    refine rules.bind rules.get fun _ => ?_
    dsimp only
    split
    · exact rules.bind (rules.keepApplication as _) fun _ => rules.bind (rules.eraseName name) fun _ => rules.pure _
    · exact rules.bind (rules.eraseName name) fun _ => rules.pure _
  | create name settings as =>
    exact rules.bind (rules.instances fun w => w.tends_findOrCreateApplication name settings) fun a =>
      rules.bind (rules.keepApplication as a) fun _ => rules.answer _
  | discard application =>
    exact rules.bind (rules.named _ application) fun a =>
      rules.bind (rules.instances fun w => w.tends_unregister a) fun _ => rules.pure _
  | shutdown name => exact rules.bind (rules.shutdownNamed obeys name c) fun _ => rules.pure _
  | shutdownAll => exact rules.bind (rules.shutdownAll obeys c) fun _ => rules.pure _
  | shutdownEngine =>
    have opens := rules.bind rules.serverNode fun d => rules.holding (.context d) (rules.shutdownAll obeys d)
    rw [bind_assoc] at opens
    have ends := rules.bind opens fun reports => rules.pure (Reply.shutdowns (tidyReports reports))
    rwa [bind_assoc] at ends

end Steps

theorem hostOf (runs : ∀ inBody c command, holds (run inBody c command)) :
    (hostOf run).Obeys holds := fun _ c =>
  rules.runBody fun step _ => runs true c step.command

theorem withinEngine {α : Type} (obeys : host.Obeys holds) (c : ContextId) (settings : Settings)
    (listener : Option ListenerSpec) {inside : ContextId → Action α} (runs : ∀ c, holds (inside c)) :
    holds (do
      let l ← match listener with
        | some listener => Script.newListener host c listener
        | none => Pure.pure World.silentListener
      let server ← Engine.new settings l
      withEngine server do inside (← Engine.serverContext server)) := by
  cases listener with
  | none => exact rules.bind (rules.pure _) fun l => rules.engine settings l runs
  | some spec => exact rules.bind (rules.newListener obeys c spec) fun l => rules.engine settings l runs

theorem runWithin (runs : ∀ inBody c command, holds (run inBody c command))
    (obeys : host.Obeys holds) (inBody : Bool) (c : ContextId) (body : List Step) (place : Place) :
    holds (runWithin run host inBody c body place) := by
  have blocks : ∀ c, holds (Script.runBlock run inBody c body) := fun c =>
    rules.runBlock fun step _ => runs inBody c step.command
  have orAbsent : ∀ place, holds (runWithin.orAbsent run inBody body place) := by
    intro place
    cases place with
    | none => exact rules.pure _
    | some c => exact blocks c
  cases place with
  | request => exact rules.bind (rules.newRequest c) blocks
  | template path =>
    have opens := rules.bind (rules.template c path) blocks
    rwa [bind_assoc] at opens
  | component handle =>
    have opens := rules.bind (rules.inComponent c handle) blocks
    rwa [bind_assoc] at opens
  | detached handle => exact rules.bind (rules.named _ handle) fun a => rules.bind (rules.newDetached c a) blocks
  | parent | nearestRequest | nearest kind => exact rules.bind rules.get fun _ => orAbsent _
  | node handle => exact rules.bind (rules.named _ handle) blocks
  | engine settings listener =>
    have listens := fun settings => rules.withinEngine obeys c settings listener blocks
    cases settings with
    | none => exact rules.bind (rules.fail _) listens
    | some settings => exact rules.bind (rules.pure _) listens

/-- Every command has the property, however deep its calls and blocks may nest. -/
theorem execute (fuel : Nat) (inBody : Bool) (c : ContextId) (command : Command) :
    holds (execute fuel inBody c command) := by
  induction fuel generalizing inBody c command with
  | zero => exact rules.exhausted
  | succ fuel ih =>
    have obeys : (Script.hostOf (Script.execute fuel)).Obeys holds := rules.hostOf ih
    have places := rules.access obeys c
    have block : ∀ (runs : Bool) (body : List Step), holds (if runs then
        Script.runBlock (Script.execute fuel) inBody c body else Pure.pure (.skipped, .next)) := by
      intro runs body
      split
      · exact rules.runBlock fun step _ => ih inBody c step.command
      · exact rules.pure _
    cases command with
    | return_ value => exact rules.bind (places.evaluate value) fun _ => rules.answer _
    | raise error => exact rules.fail error
    | sleep ms => exact rules.bind (rules.sleep ms) fun _ => rules.pure _
    | ifCount counter limit body => exact rules.bind (rules.count counter) fun _ => block _ body
    | ifEqual a b body =>
      exact rules.bind (places.evaluate a) fun _ => rules.bind (places.evaluate b) fun _ => block _ body
    | within place body => exact rules.runWithin ih obeys inBody c body place
    | value step => exact rules.replies (places.valueStep step)
    | scope step => exact rules.replies (places.scopeStep step)
    | name step => exact rules.replies (places.nameStep step)
    | function step => exact rules.replies (rules.functionStep obeys c step)
    | context step => exact rules.replies (rules.contextStep c step)
    | lifecycle step => exact rules.replies (rules.lifecycleStep obeys c step)
    | application step => exact rules.replies (rules.applicationStep obeys c step)
    | session step => exact rules.replies (rules.sessionStep step)
    | registry step => exact rules.replies (rules.registryStep obeys c step)

theorem program (program : Program) (fuel : Nat) : holds (program.action fuel) := by
  have obeys : (Script.hostOf (Script.execute fuel)).Obeys holds := rules.hostOf (rules.execute fuel)
  have listens : holds (program.newListener (Script.hostOf (Script.execute fuel))) := by
    simp only [Program.newListener]
    split
    · exact rules.pure _
    next listener _ =>
      exact rules.engine {} World.silentListener fun c => rules.holding (.context c) (rules.newListener obeys c listener)
  have runs := fun c => rules.runSteps false program.steps fun step _ => rules.execute fuel false c step.command
  exact rules.bind listens fun l => rules.engine program.settings l fun c =>
    rules.bind (rules.holding (.context c) (runs c)) fun outcomes => rules.pure outcomes.1

end ProgramRules

end ScopeEngine
