import ScopeEngine.Proofs.ActionLogic
import ScopeEngine.Proofs.Copying.Duplicates
import ScopeEngine.Script.Interpreter

/-! Reading and writing scopes. A property of actions that single accesses have, and that sequences inherit from their
parts, holds of every expression and of every step on values, scopes and names, and of scripts made of such steps. -/

namespace ScopeEngine

open ScopeEngine.Action World

variable {holds : ∀ {α : Type}, Action α → Prop}

namespace Scope

variable (scopes : Table .scope Scope) (key : Key) (value : Value)

structure Retained (before after : Table .scope Scope) : Prop where
  size : before.size ≤ after.size
  name : ∀ s : ScopeId, s.number < before.size → (after.get s).name = (before.get s).name

theorem Retained.refl : Retained scopes scopes :=
  ⟨Nat.le_refl _, fun _ _ => rfl⟩

theorem Retained.trans {before between after : Table .scope Scope} (first : Retained before between)
    (second : Retained between after) : Retained before after where
  size := Nat.le_trans first.size second.size
  name := fun s issued => (second.name s (Nat.lt_of_lt_of_le issued first.size)).trans (first.name s issued)

theorem retained_add (scope : Scope) : Retained scopes (scopes.add scope) where
  size := Table.size_le_size_add ..
  name := fun _ issued => congrArg Scope.name (Table.get_add_of_lt _ _ issued)

theorem retained_set (s : ScopeId) {scope : Scope} (same : scope.name = (scopes.get s).name) :
    Retained scopes (scopes.set s scope) where
  size := Nat.le_of_eq (Table.size_set ..).symm
  name := by
    intro t _
    rw [Table.get_set]
    split
    next here => rw [same, here.1]
    next => rfl

theorem retained_scopesAfter (w : World) (copies : Copies) (value : Value) :
    Retained w.scopes (w.scopesAfter copies value) where
  size := Nat.le.intro (w.size_scopesAfter copies value).symm
  name := fun _ issued => congrArg Scope.name (w.get_scopesAfter_of_lt copies value issued)

def KeepsName {α : Type} (operation : Scope → Except Error (α × Scope)) : Prop :=
  ∀ scope result, operation scope = .ok result → result.2.name = scope.name

theorem keepsName_put : KeepsName (·.put key value) := by
  intro scope result writes
  simp only [put] at writes
  split at writes <;> cases writes
  rfl

theorem keepsName_putIfAbsent : KeepsName (·.putIfAbsent key value) := by
  intro scope result writes
  simp only [putIfAbsent] at writes
  split at writes
  · cases writes
    rfl
  · split at writes <;> cases writes
    rfl

theorem keepsName_update (change : Option Value → Value) : KeepsName (·.update key change) := by
  intro scope result writes
  simp only [update] at writes
  split at writes <;> cases writes
  rfl

theorem keepsName_remove : KeepsName (·.remove key) := by
  intro scope result writes
  simp only [remove] at writes
  split at writes <;> cases writes
  rfl

end Scope

namespace World

variable {function : Function} {handles : Handles} {scopes : Table .scope Scope}
variable {later : World}

structure Carries (w later : World) : Prop where
  listeners : later.listeners = w.listeners
  functions : w.functions.size ≤ later.functions.size
  function : ∀ f : FunctionId, f.number < w.functions.size → later.function f = w.function f

theorem Carries.trans {w last : World} (first : w.Carries later) (second : later.Carries last) : w.Carries last where
  listeners := second.listeners.trans first.listeners
  functions := Nat.le_trans first.functions second.functions
  function := fun f issued =>
    (second.function f (Nat.lt_of_lt_of_le issued first.functions)).trans (first.function f issued)

theorem Carries.listener {w : World} (carries : w.Carries later) (l : ListenerId) : later.listener l = w.listener l := by
  rw [World.listener, carries.listeners, World.listener]

theorem carries_of_same {w : World} (listeners : later.listeners = w.listeners)
    (functions : later.functions = w.functions) : w.Carries later :=
  ⟨listeners, Nat.le_of_eq (congrArg Table.size functions).symm, fun f _ => by rw [function, functions, function]⟩

/-- The worlds differ only in scopes, in functions that were added, in session ids that were drawn, in the time and in what
scripts noted. No scope is taken away or renamed, and a closure that was added has the frame of some place. -/
structure Beside (w later : World) : Prop extends w.Carries later where
  contexts : later.contexts = w.contexts
  components : later.components = w.components
  applications : later.applications = w.applications
  sessions : later.sessions = w.sessions
  registry : later.registry = w.registry
  engine : later.engine = w.engine
  clock : w.clock.nanos ≤ later.clock.nanos
  named : later.handles.components = w.handles.components
  scopes : Scope.Retained w.scopes later.scopes
  captured : ∀ (f : FunctionId) frame, w.functions.size ≤ f.number → (later.function f).kind = .closure →
    (later.function f).frame = some frame → ∃ c, frame = w.captureFrame c

structure Aside (w later : World) : Prop extends Beside w later where
  declared : later.functions = w.functions

variable {w : World}

theorem readClock_passes (w : World) : w.clock.nanos ≤ w.readClock.2.clock.nanos := Int.le_add_of_nonneg_right (by decide)

theorem function_of_ge {f : FunctionId} (beyond : w.functions.size ≤ f.number) : w.function f = default := by
  simp only [function, Table.get, Table.get?]
  rw [Array.getElem?_eq_none beyond]
  rfl

theorem Aside.refl (w : World) : w.Aside w where
  toCarries := carries_of_same rfl rfl
  contexts := rfl
  components := rfl
  applications := rfl
  sessions := rfl
  registry := rfl
  engine := rfl
  clock := Int.le_refl _
  named := rfl
  scopes := .refl _
  captured := by
    intro f frame beyond closes
    rw [function_of_ge beyond] at closes
    cases closes
  declared := rfl

theorem beside_scopes (retained : Scope.Retained w.scopes scopes) : w.Aside { w with scopes } :=
  { Aside.refl w with scopes := retained }

theorem beside_duplicateWith (w : World) (copies : Copies) (value : Value) : w.Aside (w.duplicateWith copies value).2.2 := by
  rw [duplicateWith_eq]
  exact beside_scopes (Scope.retained_scopesAfter w copies value)

theorem beside_handles (named : handles.components = w.handles.components) : w.Aside { w with handles } :=
  { Aside.refl w with named }

theorem beside_clock {clock : Instant} (passes : w.clock.nanos ≤ clock.nanos) : w.Aside { w with clock } :=
  { Aside.refl w with clock := passes }

theorem beside_journal (journal : List Script.Event) : w.Aside { w with journal } :=
  { Aside.refl w with }

theorem beside_counters (counters : List (String × Int)) : w.Aside { w with counters } :=
  { Aside.refl w with }

theorem beside_holds (holds : List Hold) : w.Aside { w with holds } :=
  { Aside.refl w with }

theorem beside_drawSessionId : w.Aside w.drawSessionId.2 :=
  { Aside.refl w with }

theorem beside_addFunction
    (captured : ∀ frame, function.kind = .closure → function.frame = some frame → ∃ c, frame = w.captureFrame c) :
    w.Beside (w.addFunction function).2 := {
  (Aside.refl w).toBeside with
  functions := by simp [addFunction, Table.size, Table.add]
  function := fun f issued => Table.get_add_of_lt _ _ issued
  captured := by
    intro f frame beyond
    have added : (w.addFunction function).2.function f = if f = w.functions.next then function else w.function f :=
      Table.get_add ..
    rw [added]
    split
    · exact captured frame
    · rw [function_of_ge beyond]
      intro closes
      cases closes }

theorem frame_bound {c : ContextId} {frame : Frame} (closes : (w.bound c function).kind = .closure)
    (held : (w.bound c function).frame = some frame) : frame = w.captureFrame c := by
  cases kind : function.kind <;> simp only [bound, kind] at closes held
  · cases closes
  · exact (Option.some.inj held).symm
  · cases closes

theorem beside_bound (c : ContextId) (function : Function) : w.Beside (w.addFunction (w.bound c function)).2 :=
  beside_addFunction fun _ closes held => ⟨c, frame_bound closes held⟩

end World

theorem writeScope_eq {α : Type} (s : ScopeId) (operation : Scope → Except Error (α × Scope)) :
    writeScope s operation = (do
      let result ← modifyGet fun w => match operation (w.scope s) with
        | .ok (a, scope) => (Except.ok a, w.setScope s scope)
        | .error error => (Except.error error, w)
      Action.ofExcept result) := by
  funext w
  have changes : ∀ {β : Type} (change : World → β × World), (modifyGet change : Action β) w = (.ok (change w).1, (change w).2) :=
    fun _ => rfl
  simp only [writeScope, bind_apply, get_apply, changes]
  cases operation (w.scope s) <;> rfl

/-- What a property of actions has to satisfy so that reading and writing scopes has it. -/
structure ScopeRules (holds : ∀ {α : Type}, Action α → Prop) : Prop where
  pure : ∀ {α : Type} (a : α), holds (pure a : Action α)
  fail : ∀ {α : Type} (error : Error), holds (Action.fail error : Action α)
  get : holds (get : Action World)
  bind : ∀ {α β : Type} {first : Action β} {next : β → Action α}, holds first → (∀ b, holds (next b)) →
    holds (first >>= next)
  beside : ∀ {α : Type} {change : World → α × World}, (∀ w : World, w.Aside (change w).2) → holds (modifyGet change)

structure Declares (holds : ∀ {α : Type}, Action α → Prop) : Prop where
  beside : ∀ {α : Type} {change : World → α × World}, (∀ w : World, w.Beside (change w).2) → holds (modifyGet change)

theorem Declares.addFunction (declares : Declares holds) {function : Function} (unbound : function.frame = none) :
    holds (modifyGet (·.addFunction function)) :=
  declares.beside fun _ => beside_addFunction fun _ _ held => by cases unbound.symm.trans held

theorem Declares.bindFunction (declares : Declares holds) (c : ContextId) (function : Function) :
    holds (bindFunction c function) :=
  declares.beside fun _ => beside_bound c function

structure AccessRules (host : Host) (c : ContextId) (holds : ∀ {α : Type}, Action α → Prop) : Prop
    extends ScopeRules holds where
  declares : Declares holds
  nearby : ∀ key, holds (scopeNearby host c key)
  global : ∀ key, holds (getScope host c key)

namespace ScopeRules

open Script

variable {holds : ∀ {α : Type}, Action α → Prop} (rules : ScopeRules holds)

variable {α : Type}
variable (s : ScopeId)
include rules

theorem answer (value : World → α) : holds (do Pure.pure (value (← MonadState.get))) :=
  rules.bind rules.get fun _ => rules.pure _

theorem ofExcept (result : Except Error α) : holds (Action.ofExcept result) := by
  cases result with
  | ok a => exact rules.pure a
  | error error => exact rules.fail error

theorem newScope (scope : Scope) : holds (newScope scope) :=
  rules.beside fun w => beside_scopes (Scope.retained_add w.scopes scope)

theorem duplicate (value : Value) : holds (modifyGet (·.duplicate value)) :=
  rules.beside fun w => beside_duplicateWith w [] value

theorem writeScope {operation : Scope → Except Error (α × Scope)} (named : Scope.KeepsName operation) :
    holds (writeScope s operation) := by
  rw [writeScope_eq]
  refine rules.bind (rules.beside fun w => ?_) rules.ofExcept
  cases writes : operation (w.scope s) with
  | ok written => exact beside_scopes (Scope.retained_set _ s (named _ written writes))
  | error _ => exact beside_scopes (.refl _)

theorem putIn (key : Key) (value : Value) : holds (putIn s key value) :=
  rules.writeScope s (Scope.keepsName_put key value)

section Arguments

variable (function : Function) (params : List Param)

theorem absentArgument (param : Param) : holds (absentArgument function param) := by
  simp only [ScopeEngine.absentArgument]
  split
  · exact rules.duplicate _
  · split
    · exact rules.fail _
    · exact rules.pure _

theorem bindLeading (values : List Value) (scope : Scope) :
    holds (bindLeading function params values scope) := by
  fun_induction ScopeEngine.bindLeading function params values scope with
  | case1 => exact rules.pure _
  | case2 _ _ _ _ _ ih => exact rules.bind (rules.ofExcept _) fun _ => ih _
  | case3 _ _ _ ih =>
    exact rules.bind (rules.absentArgument _ _) fun _ => rules.bind (rules.ofExcept _) fun _ => ih _

theorem bindExtras (place : Nat) (values : List Value) (scope : Scope) : holds (bindExtras place values scope) := by
  fun_induction ScopeEngine.bindExtras place values scope with
  | case1 => exact rules.pure _
  | case2 _ _ _ _ ih => exact rules.bind (rules.ofExcept _) fun _ => ih _

theorem bindNamed (values : Bindings Value) (scope : Scope) :
    holds (bindNamed function params values scope) := by
  induction params generalizing values scope with
  | nil => exact rules.pure _
  | cons param params ih =>
    simp only [ScopeEngine.bindNamed]
    split
    · exact rules.bind (rules.pure _) fun _ => rules.bind (rules.ofExcept _) fun _ => ih _ _
    · exact rules.bind (rules.absentArgument _ _) fun _ => rules.bind (rules.ofExcept _) fun _ => ih _ _

theorem bindEntries (entries : List (Key × Value)) (scope : Scope) : holds (bindEntries entries scope) := by
  fun_induction ScopeEngine.bindEntries entries scope with
  | case1 => exact rules.pure _
  | case2 _ _ _ _ ih => exact rules.bind (rules.ofExcept _) fun _ => ih _

theorem bindArguments (f : FunctionId) (arguments : Arguments) : holds (bindArguments f arguments) := by
  refine rules.bind rules.get fun w => ?_
  cases arguments with
  | positional values =>
    exact rules.bind (rules.bindLeading _ _ _ _) fun _ => rules.bind (rules.bindExtras _ _ _) fun _ => rules.newScope _
  | named values =>
    exact rules.bind (rules.bindNamed _ _ _ _) fun _ => rules.bind (rules.bindEntries _ _) fun _ => rules.newScope _

end Arguments

section Paths

theorem followPath (found : Finding) (walked rest : List String) : holds (followPath found walked rest) := by
  induction rest generalizing found walked with
  | nil => exact rules.pure found
  | cons segment rest ih =>
    refine rules.bind rules.get fun w => ?_
    dsimp only
    split
    · exact ih _ _
    · exact rules.fail _

theorem createStruct (s : ScopeId) (key : Key) : holds (createStruct s key) :=
  rules.bind (rules.newScope _) fun _ => rules.bind (rules.putIn s key _) fun _ => rules.pure _

theorem assignBelow (container : ScopeId) (walked : List String) (value : Value) (rest : List String) :
    holds (assignBelow container walked value rest) := by
  fun_induction ScopeEngine.assignBelow container walked value rest with
  | case1 => exact rules.pure _
  | case2 => exact rules.bind (rules.putIn _ _ _) fun _ => rules.pure _
  | case3 container walked segment rest _ walked ih =>
    refine rules.bind rules.get fun w => ?_
    dsimp only
    split
    · exact rules.bind (rules.pure _) ih
    · exact rules.bind (rules.createStruct _ _) ih
    · exact rules.bind (rules.createStruct _ _) ih
    · exact rules.bind (rules.fail _) ih

end Paths

section Handles

variable {α : Type}

theorem named (names : Handles → List (String × α)) (handle : String) : holds (named names handle) := by
  refine rules.bind rules.get fun w => ?_
  split
  · exact rules.pure _
  · exact rules.fail _

theorem keepAs {assign : Handles → String → α → Handles}
    (other : ∀ handles name thing, (assign handles name thing).components = handles.components)
    (handle : Option String) (thing : α) : holds (keepAs assign handle thing) := by
  cases handle with
  | none => exact rules.pure _
  | some handle => exact rules.beside fun _ => beside_handles (other ..)

section

variable (as : Option String)

theorem keepScope (s : ScopeId) : holds (keepScope as s) :=
  rules.keepAs (by intros; rfl) as s

theorem keepFunction (f : FunctionId) : holds (keepFunction as f) :=
  rules.keepAs (by intros; rfl) as f

theorem keepApplication (a : ApplicationId) : holds (keepApplication as a) :=
  rules.keepAs (by intros; rfl) as a

theorem keepSession (s : SessionId) : holds (keepSession as s) :=
  rules.keepAs (by intros; rfl) as s

end

theorem keepSpliced (host : Host) (c : ContextId) (application session : Option String) :
    holds ((LifecycleStep.keepSpliced application session).run host c) := by
  refine rules.bind rules.get fun w => ?_
  cases w.splicedApplication c with
  | none =>
    cases w.splicedSession c with
    | none => exact rules.pure _
    | some s => exact rules.bind (rules.keepSession session s) fun _ => rules.pure _
  | some a =>
    cases w.splicedSession c with
    | none => exact rules.bind (rules.keepApplication application a) fun _ => rules.pure _
    | some s =>
      exact rules.bind (rules.keepApplication application a) fun _ => rules.bind (rules.keepSession session s) fun _ =>
        rules.pure _

theorem keepValue (as : Option String) (value : Value) : holds (keepValue as value) := by
  cases value with
  | struct s => exact rules.keepScope as s
  | function f => exact rules.keepFunction as f
  | _ => exact rules.pure _

theorem putEntries (s : ScopeId) (entries : List (Key × Value)) : holds (putEntries s entries) := by
  induction entries with
  | nil => exact rules.pure _
  | cons entry rest ih => exact rules.bind (rules.putIn _ _ _) fun _ => ih

theorem placeAt {host : Host} {c : ContextId} (nearby : ∀ key, holds (scopeNearby host c key)) (ref : ScopeRef) :
    holds (scopeAt host c ref) := by
  cases ref with
  | server => exact rules.bind rules.get fun _ => rules.pure _
  | nearby name => exact nearby name
  | handle name => exact rules.named _ name
  | application handle | session handle | component handle part =>
    exact rules.bind (rules.named _ handle) fun _ => rules.bind rules.get fun _ => rules.pure _

end Handles

section Switching

theorem theRequest (c : ContextId) : holds (theRequest c) := by
  refine rules.bind rules.get fun w => ?_
  cases w.requestOf c with
  | none => exact rules.fail _
  | some found => exact rules.pure _

theorem setSessionId (excises : ∀ r, holds (excise r .session))
    (points : ∀ r id, holds (modify (·.modifyRequest r fun request => { request with sessionId := some id })))
    (c : ContextId) (id : Key) : holds (setSessionId c id) := by
  refine rules.bind (rules.theRequest c) fun found => rules.bind rules.get fun w => ?_
  dsimp only
  split
  · split
    · exact rules.bind (excises _) fun _ => points _ id
    · exact points _ id
  · exact points _ id

theorem drawSessionId : holds (modifyGet (·.drawSessionId)) :=
  rules.beside fun _ => beside_drawSessionId

theorem orDrawnId (id : Option Key) : holds (orDrawnId id) := by
  cases id with
  | none => exact rules.drawSessionId
  | some id => exact rules.pure id

theorem orSessionsDisabled {α : Type} (found : Option α) : holds (orSessionsDisabled found) := by
  cases found with
  | none => exact rules.fail _
  | some a => exact rules.pure a

theorem inherit (s : ScopeId) (entries : List (Key × Value)) (copies : Copies) : holds (inherit s entries copies) := by
  induction entries generalizing copies with
  | nil => exact rules.pure _
  | cons entry rest ih =>
    refine rules.bind ?_ fun copied => rules.bind (rules.writeScope s (Scope.keepsName_putIfAbsent _ _)) fun _ => ih _
    exact rules.beside fun w => beside_duplicateWith w copies entry.2

end Switching

end ScopeRules

namespace AccessRules

variable {host : Host} {c : ContextId} {holds : ∀ {α : Type}, Action α → Prop}
  (rules : AccessRules host c holds)
include rules

section Searches

variable (path : String)

theorem resolve (key : Key) (default : Option ScopeId) : holds (resolve host c key default) := by
  simp only [ScopeEngine.resolve]
  split
  · exact rules.bind (rules.nearby key) fun _ => rules.pure _
  · refine rules.bind rules.get fun w => ?_
    split
    · exact rules.pure _
    · exact rules.pure _
    · exact rules.fail _

theorem resolvePath : holds (resolvePath host c path) := by
  refine rules.bind (rules.ofExcept _) fun segments => ?_
  cases segments with
  | nil => exact rules.fail _
  | cons first rest => exact rules.bind (rules.resolve _ _) fun found => rules.followPath found _ rest

theorem resolveValue : holds (resolveValue host c path) :=
  rules.bind (rules.resolvePath path) fun _ => rules.pure _

theorem setPath (value : Value) : holds (setPath host c path value) := by
  refine rules.bind (rules.ofExcept _) fun segments => ?_
  cases segments with
  | nil => exact rules.fail _
  | cons first rest =>
    refine rules.bind rules.get fun w => rules.bind (rules.resolve _ _) fun found => ?_
    have below := fun container => rules.assignBelow container [first] value rest
    cases rest with
    | nil => exact rules.bind (rules.putIn _ _ _) fun _ => rules.pure _
    | cons segment rest =>
      dsimp only
      split
      · exact rules.bind (rules.pure _) below
      · exact rules.bind (rules.createStruct _ _) below
      · exact rules.bind (rules.fail _) below

end Searches

section Expressions

open Script

theorem scopeAt (ref : ScopeRef) : holds (scopeAt host c ref) := rules.placeAt rules.nearby ref

mutual

theorem evaluate : ∀ value : Expr, holds (evaluate host c value)
  | .null | .boolean _ | .integer _ | .float _ | .string _ | .dateTime _ => by
    simp only [Script.evaluate]
    exact rules.pure _
  | .struct name entries => by
    simp only [Script.evaluate]
    exact rules.bind (evaluateEntries entries) fun values => rules.bind (rules.newScope _) fun s =>
      rules.bind (rules.putEntries s values) fun _ => rules.pure _
  | .scope ref => by
    simp only [Script.evaluate]
    exact rules.bind (rules.scopeAt ref) fun _ => rules.pure _
  | .function handle => by
    simp only [Script.evaluate]
    exact rules.bind (rules.named _ handle) fun _ => rules.pure _
  | .path path => by
    simp only [Script.evaluate]
    exact rules.resolveValue path
  | .declare declaration => by
    simp only [Script.evaluate]
    exact rules.bind (declared declaration) fun function => rules.bind (rules.declares.bindFunction c function) fun _ =>
      rules.pure _

theorem evaluateEntries : ∀ entries : List (Key × Expr), holds (evaluateEntries host c entries)
  | [] => by
    simp only [Script.evaluateEntries]
    exact rules.pure _
  | (key, value) :: rest => by
    simp only [Script.evaluateEntries]
    exact rules.bind (evaluate value) fun _ => rules.bind (evaluateEntries rest) fun _ => rules.pure _

theorem declared : ∀ declaration : Declaration, holds (declared host c declaration)
  | .mk kind name params access source body => by
    simp only [Script.declared]
    exact rules.bind (evaluateParameters params) fun _ => rules.pure _

theorem evaluateParameters : ∀ params : List Parameter, holds (evaluateParameters host c params)
  | [] => by
    simp only [Script.evaluateParameters]
    exact rules.pure _
  | .mk name required default :: rest => by
    simp only [Script.evaluateParameters]
    exact rules.bind (evaluateDefault default) fun _ => rules.bind (evaluateParameters rest) fun _ => rules.pure _

theorem evaluateDefault : ∀ default : Option Expr, holds (evaluateDefault host c default)
  | none => by
    simp only [Script.evaluateDefault]
    exact rules.pure _
  | some value => by
    simp only [Script.evaluateDefault]
    exact rules.bind (evaluate value) fun _ => rules.pure _

end

end Expressions

section Steps

open Script

variable (as : Option String)

theorem valueStep (step : ValueStep) : holds (step.run host c) := by
  cases step with
  | inspect value =>
    exact rules.bind (rules.evaluate value) fun _ => rules.bind (rules.duplicate _) fun _ => rules.answer _
  | equal a b =>
    exact rules.bind (rules.evaluate a) fun _ => rules.bind (rules.evaluate b) fun _ => rules.pure _
  | duplicate value as =>
    exact rules.bind (rules.evaluate value) fun _ => rules.bind (rules.duplicate _) fun _ =>
      rules.bind (rules.keepValue as _) fun _ => rules.answer _

theorem scopeStep (step : ScopeStep) : holds (step.run host c) := by
  cases step with
  | new _ as | newArguments as =>
    exact rules.bind (rules.newScope _) fun s => rules.bind (rules.keepScope as s) fun _ => rules.pure _
  | newLocked name entries as =>
    exact rules.bind (rules.evaluateEntries entries) fun _ => rules.bind (rules.newScope _) fun s =>
      rules.bind (rules.keepScope as s) fun _ => rules.answer _
  | «alias» scope as =>
    exact rules.bind (rules.scopeAt scope) fun s => rules.bind (rules.keepScope as s) fun _ => rules.answer _
  | read scope key | contains scope key | isLocked scope key | debug scope | dump scope =>
    exact rules.bind (rules.scopeAt scope) fun _ => rules.answer _
  | readOr scope key value =>
    exact rules.bind (rules.evaluate value) fun _ => rules.bind (rules.scopeAt scope) fun _ => rules.answer _
  | put scope key value =>
    exact rules.bind (rules.evaluate value) fun _ => rules.bind (rules.scopeAt scope) fun s =>
      rules.bind (rules.putIn s _ _) fun _ => rules.answer _
  | putIfAbsent scope key value =>
    exact rules.bind (rules.evaluate value) fun _ => rules.bind (rules.scopeAt scope) fun s =>
      rules.bind (rules.writeScope s (Scope.keepsName_putIfAbsent _ _)) fun _ => rules.answer _
  | remove scope key =>
    exact rules.bind (rules.scopeAt scope) fun s =>
      rules.bind (rules.writeScope s (Scope.keepsName_remove _)) fun _ => rules.answer _
  | clear scope =>
    have clears : ∀ s, holds (modify fun w => w.setScope s (w.scope s).clear) := fun _ =>
      rules.beside fun _ => beside_scopes (Scope.retained_set _ _ rfl)
    exact rules.bind (rules.scopeAt scope) fun s => rules.bind (clears s) fun _ => rules.pure _
  | duplicate scope as =>
    exact rules.bind (rules.scopeAt scope) fun s => rules.bind (rules.duplicate _) fun _ =>
      rules.bind (rules.keepValue as _) fun _ => rules.answer _
  | same a b =>
    exact rules.bind (rules.scopeAt a) fun _ => rules.bind (rules.scopeAt b) fun _ => rules.pure _
  | update scope key mode value =>
    exact rules.bind (rules.evaluate value) fun _ => rules.bind (rules.scopeAt scope) fun s =>
      rules.bind rules.get fun _ => rules.bind (rules.writeScope s (Scope.keepsName_update _ _)) fun _ => rules.answer _

theorem reportPlace (s : ScopeId) : holds (reportPlace c as s) :=
  rules.bind (rules.keepScope as s) fun _ => rules.answer _

theorem reportFinding (found : Finding) : holds (reportFinding c as found) :=
  rules.bind (rules.keepScope as _) fun _ => rules.answer _

theorem scopesAt (ref : Option ScopeRef) : holds (ref.mapM (Script.scopeAt host c)) := by
  cases ref with
  | none => exact rules.pure _
  | some ref => exact rules.bind (rules.scopeAt ref) fun _ => rules.pure _

theorem nameStep (step : NameStep) : holds (step.run host c) := by
  cases step with
  | resolve key default as =>
    exact rules.bind (rules.scopesAt default) fun _ => rules.bind (rules.resolve key _) fun _ =>
      rules.reportFinding as _
  | resolvePath path as =>
    exact rules.bind (rules.resolvePath path) fun _ => rules.reportFinding as _
  | resolveValue path =>
    exact rules.bind (rules.resolveValue path) fun _ => rules.answer _
  | assign scope key value =>
    exact rules.bind (rules.evaluate value) fun _ => rules.bind (rules.scopeAt scope) fun s =>
      rules.bind (rules.putIn s key _) fun _ => rules.pure _
  | assignPath path value =>
    exact rules.bind (rules.evaluate value) fun _ => rules.bind (rules.setPath path _) fun _ => rules.pure _
  | defaultScope as => exact rules.bind rules.get fun _ => rules.reportPlace as _
  | scopeNearby name as => exact rules.bind (rules.nearby name) fun _ => rules.reportPlace as _
  | getScope name as => exact rules.bind (rules.global name) fun _ => rules.reportPlace as _
  | visible | frame => exact rules.answer _

end Steps

end AccessRules

namespace Script

variable {step : Step} {steps : List Step}

mutual

def Command.allows (allowed : LifecycleStep → Bool) : Command → Bool
  | .return_ _ | .raise _ | .sleep _ => true
  | .ifCount _ _ body | .ifEqual _ _ body => allAllow allowed body
  | .value _ | .scope _ | .name _ => true
  | .lifecycle step => allowed step
  | _ => false

def Step.allows (allowed : LifecycleStep → Bool) : Step → Bool
  | .mk command _ => command.allows allowed

def allAllow (allowed : LifecycleStep → Bool) : List Step → Bool
  | [] => true
  | step :: rest => step.allows allowed && allAllow allowed rest

end

theorem allows_of_mem {allowed : LifecycleStep → Bool} (allow : allAllow allowed steps = true) (member : step ∈ steps) :
    step.command.allows allowed = true := by
  induction steps with
  | nil => cases member
  | cons first rest ih =>
    rw [allAllow, Bool.and_eq_true] at allow
    rcases List.mem_cons.mp member with rfl | further
    · obtain ⟨command, tolerant⟩ := step
      exact allow.1
    · exact ih allow.2 further

mutual

def Command.depth : Command → Nat
  | .ifCount _ _ body | .ifEqual _ _ body | .within _ body => depthOf body + 1
  | _ => 1

def Step.depth : Step → Nat
  | .mk command _ => command.depth

def depthOf : List Step → Nat
  | [] => 0
  | step :: rest => max step.depth (depthOf rest)

end

theorem depth_le_of_mem (member : step ∈ steps) : step.command.depth ≤ depthOf steps := by
  induction steps with
  | nil => cases member
  | cons first rest ih =>
    rw [depthOf]
    rcases List.mem_cons.mp member with rfl | further
    · obtain ⟨command, tolerant⟩ := step
      exact Nat.le_max_left ..
    · exact Nat.le_trans (ih further) (Nat.le_max_right ..)

theorem Command.depth_pos (command : Command) : 0 < command.depth := by
  cases command <;> simp [Command.depth]

def LifecycleStep.isTouch : LifecycleStep → Bool
  | .ensureApplication _ | .ensureSession _ => true
  | _ => false

/-- Steps that only read and write scopes. Those of the application and of the session have to be touched first; a script
may also wait, branch, answer and fail. -/
def areAccesses (steps : List Step) : Bool := allAllow LifecycleStep.isTouch steps

variable {allowed wider : LifecycleStep → Bool}

mutual

theorem Command.allows_mono (widens : ∀ step, allowed step = true → wider step = true) :
    ∀ command : Command, command.allows allowed = true → command.allows wider = true
  | .return_ _ | .raise _ | .sleep _ | .value _ | .scope _ | .name _ => by simp only [Command.allows, implies_true]
  | .ifCount _ _ body | .ifEqual _ _ body => by
    simp only [Command.allows]
    exact allAllow_mono widens body
  | .lifecycle step => by
    simp only [Command.allows]
    exact widens step
  | .within _ _ | .function _ | .context _ | .application _ | .session _ | .registry _ => by
    simp only [Command.allows, Bool.false_eq_true, false_implies]

theorem Step.allows_mono (widens : ∀ step, allowed step = true → wider step = true) :
    ∀ step : Step, step.allows allowed = true → step.allows wider = true
  | .mk command _ => by
    simp only [Step.allows]
    exact command.allows_mono widens

theorem allAllow_mono (widens : ∀ step, allowed step = true → wider step = true) :
    ∀ steps : List Step, allAllow allowed steps = true → allAllow wider steps = true
  | [] => by simp only [allAllow, implies_true]
  | step :: rest => by
    simp only [allAllow, Bool.and_eq_true]
    exact And.imp (step.allows_mono widens) (allAllow_mono widens rest)

end

def Expr.isLiteral : Expr → Bool
  | .null | .boolean _ | .integer _ | .float _ | .string _ | .dateTime _ => true
  | _ => false

/-- What a hook may do: read and write scopes, which touches the application or the session of its request, wait, and
answer or fail. -/
def Step.isTouch (step : Step) : Bool :=
  match step.command with
  | .return_ value => value.isLiteral
  | .raise _ | .sleep _ => true
  | .scope (.read _ _) => true
  | .scope (.put _ _ value) => value.isLiteral
  | .lifecycle (.ensureApplication _) | .lifecycle (.ensureSession _) => true
  | _ => false

theorem Step.allows_of_isTouch (touch : step.isTouch = true) : step.allows LifecycleStep.isTouch = true := by
  obtain ⟨command, tolerant⟩ := step
  simp only [isTouch] at touch
  split at touch <;> subst_vars <;> simp_all [Step.allows, Command.allows, LifecycleStep.isTouch]

theorem areAccesses_of_touches (touches : steps.all Step.isTouch = true) : areAccesses steps = true := by
  rw [areAccesses]
  induction steps with
  | nil => rw [allAllow]
  | cons step rest ih =>
    rw [List.all_cons, Bool.and_eq_true] at touches
    rw [allAllow, Step.allows_of_isTouch touches.1, ih touches.2]
    rfl

end Script

/-- What a property of actions has to satisfy so that blocks of steps have it whose commands have it. -/
structure BlockRules (holds : ∀ {α : Type}, Action α → Prop) : Prop extends ScopeRules holds where
  attempt : ∀ {α : Type} {action : Action α}, holds action → holds (Action.attempt action)
  holding : ∀ {α : Type} {action : Action α} (thing : Hold), holds action → holds (Action.holding thing action)

structure ScriptRules (holds : ∀ {α : Type}, Action α → Prop) : Prop extends BlockRules holds where
  exhausted : ∀ {α : Type}, holds (Action.exhausted : Action α)

/-- Looking a scope up by name from `c`, which may touch the application or the session, has the property. -/
structure VisitRules (host : Host) (c : ContextId) (holds : ∀ {α : Type}, Action α → Prop) : Prop
    extends ScopeRules holds where
  nearby : ∀ key, holds (scopeNearby host c key)
  global : ∀ key, holds (getScope host c key)
  application : holds (ensureApplication host c)
  session : holds (ensureSession host c)

structure TouchRules (host : Host) (c : ContextId) (holds : ∀ {α : Type}, Action α → Prop) : Prop
    extends AccessRules host c holds, VisitRules host c holds

namespace VisitRules

open Script

variable {host : Host} {c : ContextId} {holds : ∀ {α : Type}, Action α → Prop} (rules : VisitRules host c holds)
variable (as : Option String)
include rules

theorem applicationTouch : holds ((LifecycleStep.ensureApplication as).run host c) := by
  refine rules.bind rules.application fun found => ?_
  cases found with
  | none => exact rules.answer _
  | some a => exact rules.bind (rules.keepApplication as a) fun _ => rules.answer _

theorem sessionTouch : holds ((LifecycleStep.ensureSession as).run host c) := by
  refine rules.bind rules.session fun found => ?_
  cases found with
  | none => exact rules.answer _
  | some s => exact rules.bind (rules.keepSession as s) fun _ => rules.answer _

end VisitRules

structure OwnRules (host : Host) (c : ContextId) (holds : ∀ {α : Type}, Action α → Prop) : Prop
    extends TouchRules host c holds where
  settings : ∀ settings, holds (updateSettings c settings)
  listener : ∀ l, holds (setListener c l)
  sessionId : ∀ id, holds (setSessionId c id)
  initialization : ∀ id, holds (initializeSession host c id)
  rotation : holds (rotateSession host c)
  invalidation : ∀ id, holds (invalidateSession host c id)

/-- Steps that touch, read and change the request that they run in. -/
def Script.LifecycleStep.isOwn : Script.LifecycleStep → Bool
  | .newListener _ _ | .componentListener _ _ => false
  | _ => true

theorem OwnRules.lifecycleStep {host : Host} {c : ContextId} (rules : OwnRules host c holds)
    {step : Script.LifecycleStep} (own : step.isOwn = true) : holds (step.run host c) := by
  have reports : ∀ as s, holds (Script.reportSession as s) := fun as s =>
    rules.bind (rules.keepSession as s) fun _ => rules.answer _
  cases step with
  | newListener | componentListener => cases own
  | settings | listener | sessionId | spliced => exact rules.answer _
  | updateSettings wanted => exact rules.bind (rules.settings wanted) fun _ => rules.pure _
  | setListener handle =>
    have sets : ∀ l, holds (do
        setListener c l
        pure Script.Reply.nothing) := fun l => rules.bind (rules.listener l) fun _ => rules.pure _
    cases handle with
    | none => exact rules.bind (rules.pure _) sets
    | some handle => exact rules.bind (rules.named _ handle) sets
  | setSessionId id => exact rules.bind (rules.sessionId id) fun _ => rules.pure _
  | ensureApplication as => exact rules.applicationTouch as
  | ensureSession as => exact rules.sessionTouch as
  | initializeSession id as => exact rules.bind (rules.initialization id) fun s => reports as s
  | rotateSession as => exact rules.bind rules.rotation fun s => reports as s
  | invalidateSession id as => exact rules.bind (rules.invalidation id) fun s => reports as s
  | keepSpliced application session => exact rules.keepSpliced host c application session

namespace BlockRules

open Script

variable {holds : ∀ {α : Type}, Action α → Prop} (rules : BlockRules holds)

variable {c : ContextId} {run : Command → Action (Result × Flow)}
include rules

theorem runStep {step : Step} (runs : holds (run step.command)) (arrange : List Event → List Event) :
    holds (runStep run arrange step) := by
  have journals : ∀ journal : World → List Event, holds (modify fun w => { w with journal := journal w }) :=
    fun _ => rules.beside fun _ => beside_journal _
  refine rules.bind rules.get fun before => rules.bind (journals _) fun _ => rules.bind (rules.attempt runs) fun result =>
    rules.bind rules.get fun _ => rules.bind (journals fun _ => before.journal) fun _ => ?_
  cases result with
  | ok => exact rules.pure _
  | error => exact rules.pure _

theorem runSteps (inBody : Bool) (steps : List Step) (runs : ∀ step ∈ steps, holds (run step.command)) :
    holds (runSteps run inBody steps) := by
  induction steps with
  | nil => exact rules.pure _
  | cons step rest ih =>
    refine rules.bind (rules.runStep (runs step (by simp)) _) fun outcome => ?_
    have further := rules.bind (ih fun step member => runs step (List.mem_cons_of_mem _ member)) fun tail =>
      rules.pure (outcome.1 :: tail.1, tail.2)
    dsimp only
    split
    · exact further
    · exact rules.pure _
    · split
      · exact further
      · exact rules.pure _

theorem runBody {run : Executor} {body : Body} (runs : ∀ step ∈ body, holds (run true c step.command)) :
    holds (runBody run body c) := by
  have notes : ∀ event : Event, holds (modify fun w => { w with journal := w.journal ++ [event] }) :=
    fun _ => rules.beside fun _ => beside_journal _
  refine rules.bind rules.get fun w => rules.bind (rules.runSteps true body runs) fun result =>
    rules.bind (notes _) fun _ => ?_
  cases result.2 with
  | next => exact rules.pure _
  | returned value => exact rules.pure _
  | raised error => exact rules.fail _

theorem replies {action : Action Reply} (runs : holds action) :
    holds (do Pure.pure (Result.reply (← action), Flow.next)) :=
  rules.bind runs fun _ => rules.pure _

theorem runBlock {run : Executor} {inBody : Bool} {body : List Step}
    (runs : ∀ step ∈ body, holds (run inBody c step.command)) : holds (runBlock run inBody c body) :=
  rules.bind (rules.holding _ (rules.runSteps inBody body runs)) fun _ => rules.pure _

theorem sleep (ms : Nat) : holds (modify fun w => { w with clock := w.clock.addMillis ms }) :=
  rules.beside fun _ => beside_clock (Int.le_add_of_nonneg_right (Int.mul_nonneg (Int.natCast_nonneg ms) (by decide)))

theorem count (counter : String) : holds (count counter) := by
  refine rules.bind rules.get fun _ => rules.bind ?_ fun _ => rules.pure _
  exact rules.beside fun _ => beside_counters _

/-- Scripts that read and write scopes have the property if single accesses and the steps of the lifecycle that are allowed
in them have it, however deep hooks nest. The blocks of the script itself must not nest too deeply, or running out of steps
has the property as well. -/
theorem executeWithin {allowed : LifecycleStep → Bool} (fuel : Nat)
    (accesses : ∀ n < fuel, AccessRules (hostOf (Script.execute n)) c holds)
    (steps : ∀ n < fuel, ∀ step, allowed step = true → holds (LifecycleStep.run (hostOf (Script.execute n)) c step))
    (inBody : Bool) {command : Command} (allow : command.allows allowed = true)
    (shallow : command.depth ≤ fuel ∨ ∀ {α : Type}, holds (Action.exhausted : Action α)) :
    holds (Script.execute fuel inBody c command) := by
  induction fuel generalizing inBody command with
  | zero =>
    refine shallow.elim (fun none => ?_) fun stuck => stuck
    exact absurd (Nat.lt_of_lt_of_le command.depth_pos none) (Nat.lt_irrefl 0)
  | succ fuel ih =>
    have here := accesses fuel (Nat.lt_succ_self _)
    have below := ih (fun n less => accesses n (Nat.lt_succ_of_lt less)) fun n less => steps n (Nat.lt_succ_of_lt less)
    have block : ∀ (runs : Bool) (body : List Step), allAllow allowed body = true →
        (depthOf body + 1 ≤ fuel + 1 ∨ ∀ {α : Type}, holds (Action.exhausted : Action α)) →
        holds (if runs then Script.runBlock (Script.execute fuel) inBody c body else pure (.skipped, .next)) := by
      intro runs body allow shallow
      split
      · refine rules.runBlock fun step member => below inBody (allows_of_mem allow member) ?_
        exact shallow.imp_left fun less => Nat.le_trans (depth_le_of_mem member) (Nat.le_of_succ_le_succ less)
      · exact rules.pure _
    cases command with
    | return_ value => exact rules.bind (here.evaluate value) fun _ => rules.answer _
    | raise error => exact rules.fail error
    | sleep ms => exact rules.bind (rules.sleep ms) fun _ => rules.pure _
    | ifCount counter limit body =>
      exact rules.bind (rules.count counter) fun _ => block _ body allow shallow
    | ifEqual a b body =>
      exact rules.bind (here.evaluate a) fun _ => rules.bind (here.evaluate b) fun _ => block _ body allow shallow
    | value step => exact rules.replies (here.valueStep step)
    | scope step => exact rules.replies (here.scopeStep step)
    | name step => exact rules.replies (here.nameStep step)
    | lifecycle step => exact rules.replies (steps fuel (Nat.lt_succ_self _) step allow)
    | _ => cases allow

end BlockRules

namespace ScriptRules

open Script

variable {holds : ∀ {α : Type}, Action α → Prop} (rules : ScriptRules holds)

variable {c : ContextId} {command : Command}
variable (fuel : Nat)
include rules

theorem execute (touches : ∀ n < fuel, TouchRules (hostOf (execute n)) c holds) (inBody : Bool)
    (allow : command.allows LifecycleStep.isTouch = true) : holds (execute fuel inBody c command) := by
  refine rules.executeWithin fuel (fun n less => (touches n less).toAccessRules) ?_ inBody allow (.inr rules.exhausted)
  intro n less step touch
  cases step with
  | ensureApplication as => exact (touches n less).applicationTouch as
  | ensureSession as => exact (touches n less).sessionTouch as
  | _ => cases touch

theorem executeTouch (visits : ∀ n < fuel, VisitRules (hostOf (Script.execute n)) c holds)
    (inBody : Bool) {step : Step} (touch : step.isTouch = true) :
    holds (Script.execute fuel inBody c step.command) := by
  have replies : ∀ {action : Action Reply}, holds action → holds (do pure (Result.reply (← action), Flow.next)) :=
    fun runs => rules.bind runs fun _ => rules.pure _
  cases fuel with
  | zero => exact rules.exhausted
  | succ fuel =>
    have here := visits fuel (Nat.lt_succ_self _)
    have literal : ∀ {value : Expr}, value.isLiteral = true → holds (evaluate (hostOf (Script.execute fuel)) c value) := by
      intro value literal
      cases value <;> first | (cases literal; done) | exact rules.pure _
    simp only [Step.isTouch] at touch
    split at touch
    next value same =>
      rw [same]
      exact rules.bind (literal touch) fun _ => rules.answer _
    next error same =>
      rw [same]
      exact rules.fail error
    next ms same =>
      rw [same]
      exact rules.bind (rules.sleep ms) fun _ => rules.pure _
    next ref key same =>
      rw [same]
      exact rules.replies (rules.bind (rules.placeAt here.nearby ref) fun _ => rules.answer _)
    next ref key value same =>
      rw [same]
      exact rules.replies (rules.bind (literal touch) fun _ => rules.bind (rules.placeAt here.nearby ref) fun _ =>
        rules.bind (rules.putIn _ _ _) fun _ => rules.answer _)
    next as same =>
      rw [same]
      exact rules.replies (here.applicationTouch as)
    next as same =>
      rw [same]
      exact rules.replies (here.sessionTouch as)
    next => cases touch

end ScriptRules

end ScopeEngine
