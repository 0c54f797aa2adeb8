import ScopeEngine.Proofs.Access
import ScopeEngine.Proofs.Coherence.Running

/-! How instances start and end, for any property of actions that sequences inherit from their parts, such as regimes: wherever
the world is well, an action leads it on, so that it stays well unless the action fails. And where the name of a scope leads: to
a scope that is there, to nothing, or to a touch of the application or the session of the request around. -/

namespace ScopeEngine.Action

variable {α β : Type} {well : World → Prop} {leads fails : World → World → Prop}

/-- Wherever the world is well, the action leads it on or fails on the way. -/
def Under (well : World → Prop) (leads fails : World → World → Prop) (action : Action α) : Prop :=
  ∀ w, well w → action.After w (fun _ => leads w) (fun _ => fails w)

/-- What scopes hold is no concern of a regime. -/
structure Regime (well : World → Prop) (leads fails : World → World → Prop) : Prop where
  aside : ∀ {w later : World}, well w → w.Aside later → leads w later
  keeps : ∀ {w later : World}, well w → leads w later → well later
  trans : ∀ {w mid later : World}, leads w mid → leads mid later → leads w later
  falls : ∀ {w mid later : World}, leads w mid → fails mid later → fails w later
  ends : ∀ {w mid later : World}, well w → fails w mid → mid.Aside later → fails w later

theorem Regime.of (aside : ∀ {w later : World}, well w → w.Aside later → leads w later)
    (keeps : ∀ {w later : World}, well w → leads w later → well later)
    (trans : ∀ {w mid later : World}, leads w mid → leads mid later → leads w later) : Regime well leads leads :=
  ⟨aside, keeps, trans, trans, fun here led beside => trans led (aside (keeps here led) beside)⟩

theorem Regime.bind (regime : Regime well leads fails) {first : Action β} {next : β → Action α}
    (under : Under well leads fails first) (rest : ∀ b, Under well leads fails (next b)) :
    Under well leads fails (first >>= next) := by
  intro w here
  rw [after_bind]
  refine (under w here).mono_ok (fun b middle led => ?_)
  exact (rest b middle (regime.keeps here led)).mono (fun _ _ next => regime.trans led next)
    (fun _ _ next => regime.falls led next)

theorem Regime.holding (regime : Regime well leads fails) {action : Action α} (thing : Hold)
    (under : Under well leads fails action) : Under well leads fails (holding thing action) := by
  intro w here
  have enters := regime.aside here (World.beside_holds (thing :: w.holds))
  rw [after_holding]
  refine (under _ (regime.keeps here enters)).mono (fun _ later led => ?_) (fun _ later failed => ?_)
  · have whole := regime.trans enters led
    exact regime.trans whole (regime.aside (regime.keeps here whole) (World.beside_holds w.holds))
  · exact regime.ends here (regime.falls enters failed) (World.beside_holds w.holds)

theorem Regime.rules (regime : Regime well leads leads) : ScriptRules (fun {_} action => Under well leads leads action) where
  pure := fun _ _ here => regime.aside here (World.beside_scopes (.refl _))
  fail := fun _ _ here => regime.aside here (World.beside_scopes (.refl _))
  get := fun _ here => regime.aside here (World.beside_scopes (.refl _))
  bind := regime.bind
  beside := fun aside w here => regime.aside here (aside w)
  exhausted := fun _ _ => trivial
  attempt := fun under w here => (after_attempt _).mpr (under w here)
  holding := regime.holding

/-- The rules of every place are the rules of all places. -/
theorem rules_forall {ι : Type} {holds : ι → ∀ {α : Type}, Action α → Prop} (rules : ∀ i, ScriptRules (holds i)) :
    ScriptRules (fun {_} action => ∀ i, holds i action) where
  pure := fun a i => (rules i).pure a
  fail := fun error i => (rules i).fail error
  get := fun i => (rules i).get
  bind := fun first rest i => (rules i).bind (first i) fun b => rest b i
  beside := fun aside i => (rules i).beside aside
  exhausted := fun i => (rules i).exhausted
  attempt := fun action i => (rules i).attempt (action i)
  holding := fun thing action i => (rules i).holding thing (action i)

end ScopeEngine.Action

namespace ScopeEngine

open ScopeEngine.Action

variable {host : Host} {w : World} {c r : ContextId}
variable {action : Action ScopeId} {key : Key} {post : World → Prop}

def applicationScope (host : Host) (key : Key) (r : ContextId) : Action ScopeId := do
  let found ← ensureApplication host r
  let w ← get
  orScopeNotFound key (found.map fun a => (w.application a).scope)

def sessionScope (host : Host) (key : Key) (r : ContextId) : Action ScopeId := do
  let found ← ensureSession host r
  let w ← get
  orScopeNotFound key (found.map fun s => (w.session s).scope)

section Global

variable {stuck : Prop} {post : World → Prop} (key : Key) (name : Option ScopeName) (contexts : List ContextId)
  (known : post w)
include known

theorem leaves_globalScope_read (application : name ≠ some .application) (session : name ≠ some .session) :
    (globalScope host key name contexts).Leaves stuck w post := by
  induction contexts with
  | nil => exact known
  | cons t above ih =>
    rw [globalScope, leaves_get_bind]
    split
    all_goals first | exact known | exact ih | simp at application session

/-- A global scope is there at once, or there is none, or it is touched from the nearest request. -/
theorem leaves_globalScope (application : ∀ r, (contexts.find? fun t => ((w.context t).request?).isSome) = some r →
      (applicationScope host key r).Leaves stuck w post)
    (session : ∀ r, (contexts.find? fun t => ((w.context t).request?).isSome) = some r →
      (sessionScope host key r).Leaves stuck w post) : (globalScope host key name contexts).Leaves stuck w post := by
  induction contexts with
  | nil => exact known
  | cons t above ih =>
    rw [List.find?_cons] at application session
    cases there : (w.context t).request? with
    | some request =>
      simp only [there, Option.isSome_some] at application session
      have kind := World.request?_eq_some.mp there
      by_cases touched : name = some .application
      · rw [globalScope, leaves_get_bind, kind, touched]
        exact application t rfl
      by_cases touched' : name = some .session
      · rw [globalScope, leaves_get_bind, kind, touched']
        exact session t rfl
      exact leaves_globalScope_read key name _ known touched touched'
    | none =>
      simp only [there, Option.isSome_none] at application session
      rw [globalScope, leaves_get_bind]
      split
      next => exact known
      next => exact known
      next => exact known
      next kind => simp [Context.request?, kind] at there
      next kind => simp [Context.request?, kind] at there
      next kind => simp [Context.request?, kind] at there
      next => exact ih application session

end Global

inductive AsksScope (host : Host) (c : ContextId) (key : Key) : Action ScopeId → Prop
  | nearby : AsksScope host c key (scopeNearby host c key)
  | global : AsksScope host c key (getScope host c key)

theorem AsksScope.leaves {stuck : Prop}
    (asks : AsksScope host c key action) (known : post w)
    (application : ∀ r, w.home c = some r → (applicationScope host key r).Leaves stuck w post)
    (session : ∀ r, w.home c = some r → (sessionScope host key r).Leaves stuck w post) : action.Leaves stuck w post := by
  rw [World.home_eq_find] at application session
  cases asks with
  | nearby =>
    rw [scopeNearby, leaves_get_bind]
    cases reached : w.reach key key.scopeName? (w.ancestry c) with
    | here s => exact known
    | nowhere => exact known
    | global contexts =>
      rw [← World.nearest_of_reach reached] at application session
      exact leaves_globalScope key _ contexts known application session
  | global => exact leaves_globalScope key _ _ known application session

theorem AsksScope.after (asks : AsksScope host c key action)
    (known : post w)
    (application : ∀ r, w.home c = some r → (applicationScope host key r).After w (fun _ => post) (fun _ => post))
    (session : ∀ r, w.home c = some r → (sessionScope host key r).After w (fun _ => post) (fun _ => post)) :
    action.After w (fun _ => post) (fun _ => post) := by
  simp only [← leaves_true_iff] at application session ⊢
  exact asks.leaves known application session

namespace ScopeRules

variable {holds : ∀ {α : Type}, Action α → Prop} (rules : ScopeRules holds)
variable {β : Type}
include rules

theorem orScopeNotFound (key : Key) (found : Option ScopeId) : holds (orScopeNotFound key found) := by
  cases found with
  | none => exact rules.fail _
  | some s => exact rules.pure s

theorem applicationScope (ensures : holds (ensureApplication host r)) (key : Key) : holds (applicationScope host key r) :=
  rules.bind ensures fun _ => rules.bind rules.get fun _ => rules.orScopeNotFound key _

theorem sessionScope (ensures : holds (ensureSession host r)) (key : Key) : holds (sessionScope host key r) :=
  rules.bind ensures fun _ => rules.bind rules.get fun _ => rules.orScopeNotFound key _

theorem foldlM {α : Type} {step : α → β → Action α} (steps : ∀ a b, holds (step a b)) (items : List β) (a : α) :
    holds (items.foldlM step a) := by
  induction items generalizing a with
  | nil => exact rules.pure _
  | cons item rest ih =>
    rw [List.foldlM_cons]
    exact rules.bind (steps a item) ih

theorem map {α : Type} {action : Action β} (f : β → α) (runs : holds action) : holds (f <$> action) := by
  rw [← bind_pure_comp]
  exact rules.bind runs fun _ => rules.pure _

theorem mapM {α : Type} {step : β → Action α} (steps : ∀ b, holds (step b)) (items : List β) : holds (items.mapM step) := by
  induction items with
  | nil => exact rules.pure _
  | cons item rest ih =>
    rw [List.mapM_cons]
    exact rules.bind (steps item) fun _ => rules.bind ih fun _ => rules.pure _

theorem shutdownAll {server : ContextId} (each : ∀ name, holds (shutdownNamed host name server)) :
    holds (shutdownAll host server) :=
  rules.bind rules.get fun _ => rules.bind (rules.mapM each _) fun _ => rules.pure _

theorem chooseSessionId (points : ∀ r id, holds (modify (·.modifyRequest r fun request =>
    { request with sessionId := some id }))) (r : ContextId) (request : Request) : holds (chooseSessionId r request) := by
  simp only [ScopeEngine.chooseSessionId]
  split
  · exact rules.pure _
  · exact rules.bind rules.drawSessionId fun id => rules.bind (points r id) fun _ => rules.pure _

end ScopeRules

namespace ScriptRules

variable {holds : ∀ {α : Type}, Action α → Prop} (rules : ScriptRules holds) {a : ApplicationId} {s : SessionId}
include rules

section Endings

variable (hooks : ∀ l hook values, holds (callHook host l hook c values))
include hooks

theorem shutdownSession (ends : holds (modifyGet (·.endSession s))) (l : ListenerId) (scope : ScopeId) :
    holds (shutdownSession host s c l scope) := by
  refine rules.bind ends fun before => rules.bind rules.get fun w => ?_
  dsimp only
  split
  · exact rules.bind (hooks l _ _) fun _ => rules.pure _
  · exact rules.pure _

theorem endApplication (a : ApplicationId) (l : ListenerId) (report : ShutdownReport) :
    holds (endApplication host a c l report) := by
  refine rules.bind rules.get fun w => ?_
  dsimp only
  split
  · refine rules.bind (rules.attempt (hooks l _ _)) fun ended => ?_
    cases ended with
    | ok => exact rules.pure _
    | error => exact rules.pure _
  · exact rules.pure _

omit hooks in
theorem retire (ends : ∀ l scope, holds (ScopeEngine.shutdownSession host s c l scope)) (l : ListenerId) (scope : ScopeId) :
    holds (Action.holding (.listener l) do
      let _ ← Action.attempt (entering c (ScopeEngine.shutdownSession host s c l scope))) :=
  rules.holding _ (rules.bind (rules.attempt (rules.holding _ (ends l scope))) fun _ => rules.pure _)

omit hooks in
theorem closeSession (takes : ∀ id, holds (modifyGet (·.takeSession a id)))
    (ends : ∀ s l scope, holds (ScopeEngine.shutdownSession host s c l scope)) (l : ListenerId) (report : ShutdownReport)
    (id : Key) : holds (closeSession host a c l report id) := by
  refine rules.bind (takes id) fun taken => ?_
  cases taken with
  | none => exact rules.pure _
  | some s =>
    refine rules.bind rules.get fun w => rules.bind (rules.attempt (ends s l _)) fun ended => ?_
    cases ended with
    | ok => exact rules.pure _
    | error => exact rules.answer _

theorem close (closes : ∀ l report id, holds (ScopeEngine.closeSession host a c l report id)) (l : ListenerId)
    (report : ShutdownReport) :
    holds (Action.holding (.application a) <| Action.holding (.listener l) <| entering c do
      ScopeEngine.endApplication host a c l (← drainSessions host a c l host.patience report)) := by
  have drains : ∀ fuel report, holds (drainSessions host a c l fuel report) := by
    intro fuel
    induction fuel with
    | zero => exact fun _ => rules.exhausted
    | succ fuel ih =>
      intro report
      refine rules.bind rules.get fun w => ?_
      dsimp only
      split
      · exact rules.pure _
      · exact rules.bind (rules.foldlM (closes l) _ report) ih
  exact rules.holding _ (rules.holding _ (rules.holding _ (rules.bind (drains _ report) fun _ =>
    rules.endApplication hooks a l _)))

end Endings

section Starts

theorem settleSession (starts : holds (modify (·.sessionStarted s))) (leaves : holds (modify (·.leaveSessionStart s)))
    (refuses : holds (modify (·.sessionRefused s))) (drops : holds (modifyGet (·.dropSession a s))) (cause : Option Error) :
    holds (settleSession a s cause) := by
  cases cause with
  | none => exact rules.bind starts fun _ => rules.bind leaves fun _ => rules.pure _
  | some cause =>
    exact rules.bind refuses fun _ => rules.bind drops fun _ => rules.bind leaves fun _ => rules.bind rules.get fun _ =>
      rules.fail _

theorem startSession (begins : holds (modify (·.beginSessionStart s)))
    (hooks : ∀ l hook values, holds (callHook host l hook r values)) (settles : ∀ cause, holds (ScopeEngine.settleSession a s cause))
    (l : ListenerId) : holds (startSession host a s r l) := by
  refine rules.bind rules.get fun w => ?_
  split
  · exact rules.pure _
  · exact rules.pure _
  · exact rules.exhausted
  · exact rules.bind begins fun _ => rules.bind (rules.attempt (hooks l _ _)) fun _ => settles _

theorem adoptSession (splices : holds (spliceNew r (.session s)))
    (starts : ∀ l, holds (ScopeEngine.startSession host a s r l)) (visits : holds (modify (·.touchSession s)))
    (excises : holds (excise r .session)) (l : ListenerId) : holds (adoptSession host r a s l) := by
  refine rules.bind splices fun _ => rules.bind (rules.attempt (starts l)) fun started => ?_
  split
  · exact rules.bind visits fun _ => rules.pure _
  · exact rules.bind excises fun _ => rules.pure _
  · exact rules.bind excises fun _ => rules.fail _

end Starts

end ScriptRules

end ScopeEngine
