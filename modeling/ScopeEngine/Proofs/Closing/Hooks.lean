import ScopeEngine.Proofs.Readiness.Hooks
import ScopeEngine.Proofs.Rotation.Opening

/-! End hooks in requests that are set aside for them. Such a request has its application spliced in and can have no session:
either it does without session management, or the application is shut down and takes no session any more. So whatever its hooks
read, write and touch, they start nothing and end nothing, and leave everything but scopes as it is. -/

namespace ScopeEngine

open ScopeEngine.Action Script World

namespace World

/-- The request is one for the end hooks of an application: it finds the application again and has no session. -/
structure Attends (w : World) (closed : Bool) (name : Key) (a : ApplicationId) (request : Request) : Prop where
  detached : request.detached = true
  bare : request.sessionNode = none
  node : request.applicationNode.bind w.nodeApplication = some a
  wanted : request.settings.hasApplication = true
  named : (name == request.settings.applicationKey) = true
  unmanaged : closed = false → request.settings.sessionManagement = false

/-- The request at `d` is set aside for an application. It is the application that keeps sessions away if it is closed, else
the request itself. -/
structure Secluded (w : World) (closed : Bool) (name : Key) (d : ContextId) (a : ApplicationId) : Prop where
  at_ : ∃ request, (w.context d).request? = some request ∧ w.Attends closed name a request
  issued : a.number < w.applications.size
  titled : (w.application a).name = name
  shut : closed = true → (w.application a).shutDown = true

/-- What code in a request that is set aside may change: the request itself, the times and the limits of its application,
and scopes. -/
structure Aloof (d : ContextId) (a : ApplicationId) (w later : World) : Prop extends w.Carries later where
  extends_ : w.Extends later
  kind : ∀ c : ContextId, c.number < w.contexts.size → c ≠ d → (later.context c).kind = (w.context c).kind
  applications : later.applications.size = w.applications.size
  others : ∀ b, b ≠ a → later.application b = w.application b
  own : later.application a = { w.application a with
    lastAccess := (later.application a).lastAccess, timeout := (later.application a).timeout
    sessionTimeout := (later.application a).sessionTimeout }
  sessions : later.sessions = w.sessions
  registry : later.registry = w.registry
  scopes : w.scopes.size ≤ later.scopes.size

variable {w later last : World} {closed : Bool} {name : Key} {c d : ContextId} {a : ApplicationId}

theorem Aloof.trans (first : Aloof d a w later) (second : Aloof d a later last) : Aloof d a w last where
  extends_ := first.extends_.trans second.extends_
  kind := fun c issued other =>
    (second.kind c (Nat.lt_of_lt_of_le issued first.extends_.size) other).trans (first.kind c issued other)
  applications := second.applications.trans first.applications
  others := fun b other => (second.others b other).trans (first.others b other)
  own := by rw [second.own, first.own]
  sessions := second.sessions.trans first.sessions
  registry := second.registry.trans first.registry
  toCarries := first.toCarries.trans second.toCarries
  scopes := Nat.le_trans first.scopes second.scopes

theorem Beside.aloof (beside : w.Beside later) (d : ContextId) (a : ApplicationId) : Aloof d a w later where
  extends_ := extends_of_contexts beside.contexts
  kind := fun c _ _ => by rw [context, beside.contexts, context]
  applications := by rw [beside.applications]
  others := fun b _ => by rw [application, beside.applications, application]
  own := by rw [application, beside.applications, application]
  sessions := beside.sessions
  registry := beside.registry
  toCarries := beside.toCarries
  scopes := beside.scopes.size

section

variable (d : ContextId) (a : ApplicationId) (w : World)

theorem Aloof.refl : Aloof d a w w :=
  Beside.aloof (beside_journal w.journal).toBeside d a

theorem aloof_holds (holds : List Hold) : Aloof d a w { w with holds } :=
  { Aloof.refl d a w with extends_ := extends_of_contexts rfl }

theorem aloof_modifyApplication (change : Application → Application)
    (kept : ∀ application, change application = { application with
      lastAccess := (change application).lastAccess, timeout := (change application).timeout
      sessionTimeout := (change application).sessionTimeout }) : Aloof d a w (w.modifyApplication a change) :=
  { Aloof.refl d a w with
    extends_ := extends_of_contexts rfl
    applications := Table.size_set ..
    others := fun b other => (application_modify w a b change).trans (if_neg fun both => other both.1.symm)
    own := by
      rw [application_modify]
      split
      · exact kept _
      · rfl }

theorem aloof_touchApplication : Aloof d a w (w.touchApplication a) :=
  (Beside.aloof (beside_clock w.readClock_passes).toBeside d a).trans (aloof_modifyApplication d a _
    (fun application => { application with lastAccess := w.clock.millis }) fun _ => rfl)

theorem aloof_modifyRequest (change : Request → Request) : Aloof d a w (w.modifyRequest d change) := by
  obtain ⟨contexts, same⟩ := w.modifyRequest_eq d change
  have elsewhere : Aloof d a w { (w.modifyRequest d change) with contexts := w.contexts } := by
    rw [same]
    exact .refl d a w
  refine { elsewhere with extends_ := w.extends_modifyRequest d change, kind := fun c _ other => ?_ }
  rw [context_modifyRequest]
  split
  · rw [if_neg (Ne.symm other)]
  · rfl

theorem aloof_addContext (context : Context) : Aloof d a w (w.addContext context).2 :=
  { Aloof.refl d a w with
    extends_ := (w.respects_addContext context).extends_
    kind := fun c issued _ => (w.respects_addContext context).kind c issued }

end

namespace Secluded

variable (secluded : w.Secluded closed name d a)
include secluded

theorem anchored : ∃ request, (w.context d).request? = some request ∧ w.Attends closed name a request ∧
    w.Anchored d a (w.standingOf request) := by
  obtain ⟨request, there, attends⟩ := secluded.at_
  refine ⟨request, there, attends, ?_, attends.node, secluded.issued, attends.wanted, ?_,
    .inl attends.detached⟩
  · rw [standing, there]
    rfl
  · rw [secluded.titled]
    exact attends.named

theorem running (home : w.home c = some d) : w.Running c d a := by
  obtain ⟨request, there, -, anchored⟩ := secluded.anchored
  exact ⟨issued_of_home home, home, _, anchored⟩

theorem home_self : w.home d = some d := by
  obtain ⟨request, there, -, anchored⟩ := secluded.anchored
  exact World.home_self anchored.at_

theorem same (request : (later.context d).request? = (w.context d).request?)
    (nodes : ∀ node, w.nodeApplication node = some a → later.nodeApplication node = some a)
    (applications : later.applications.size = w.applications.size)
    (titled : (later.application a).name = (w.application a).name)
    (shutDown : (later.application a).shutDown = (w.application a).shutDown) : later.Secluded closed name d a where
  at_ := by
    obtain ⟨found, there, attends⟩ := secluded.at_
    refine ⟨found, request.trans there, { attends with node := ?_ }⟩
    obtain ⟨node, spliced, stands⟩ := Option.bind_eq_some_iff.mp attends.node
    exact Option.bind_eq_some_iff.mpr ⟨node, spliced, nodes node stands⟩
  issued := applications ▸ secluded.issued
  titled := titled.trans secluded.titled
  shut := fun is => shutDown.trans (secluded.shut is)

theorem of_contexts (contexts : later.contexts = w.contexts) (applications : later.applications.size = w.applications.size)
    (titled : (later.application a).name = (w.application a).name)
    (shutDown : (later.application a).shutDown = (w.application a).shutDown) : later.Secluded closed name d a := by
  refine secluded.same (by rw [context, contexts, context]) (fun node stands => ?_) applications titled shutDown
  rwa [nodeApplication, context, contexts]

theorem of_rows (contexts : later.contexts = w.contexts) (applications : later.applications = w.applications) :
    later.Secluded closed name d a := by
  have same : later.application a = w.application a := by rw [application, applications, application]
  exact secluded.of_contexts contexts (by rw [applications]) (by rw [same]) (by rw [same])

theorem modifyApplication (change : Application → Application)
    (titled : ∀ application, (change application).name = application.name)
    (shutDown : ∀ application, (change application).shutDown = application.shutDown) :
    (w.modifyApplication a change).Secluded closed name d a :=
  secluded.of_contexts rfl (Table.size_set ..) (application_modify_keeps w a a Application.name titled)
    (application_modify_keeps w a a Application.shutDown shutDown)

theorem touchApplication : (w.touchApplication a).Secluded closed name d a := by
  have read : w.readClock.2.Secluded closed name d a := secluded.of_rows rfl rfl
  exact read.modifyApplication (fun application => { application with lastAccess := w.clock.millis }) (fun _ => rfl) fun _ => rfl

theorem addContext (context : Context) : (w.addContext context).2.Secluded closed name d a := by
  obtain ⟨found, there, -⟩ := secluded.at_
  refine secluded.same ?_ (fun node stands => ?_) rfl rfl rfl
  · rw [context_addContext_of_lt _ _ (issued_of_request there)]
  · rw [nodeApplication, context_addContext_of_lt _ _ (issued_of_node stands)]
    exact stands

theorem modifyRequest (change : Request → Request)
    (attends : ∀ request, w.Attends closed name a request → w.Attends closed name a (change request)) :
    (w.modifyRequest d change).Secluded closed name d a where
  at_ := by
    obtain ⟨request, there, here⟩ := secluded.at_
    have after := attends request here
    refine ⟨change request, ?_, { after with node := ?_ }⟩
    · rw [request?_modifyRequest, if_pos rfl, there]
      rfl
    · rw [show (w.modifyRequest d change).nodeApplication = w.nodeApplication from
        funext fun node => nodeApplication_modifyRequest ..]
      exact after.node
  issued := by
    rw [modifyRequest_applications]
    exact secluded.issued
  titled := by
    rw [modifyRequest_application]
    exact secluded.titled
  shut := fun is => by
    rw [modifyRequest_application]
    exact secluded.shut is

end Secluded

end World

namespace Action

variable {α β : Type} {stuck : Prop} {closed : Bool} {name : Key} {c d : ContextId} {a : ApplicationId} {w : World}

def KeepsAloof (stuck : Prop) (closed : Bool) (name : Key) (d : ContextId) (a : ApplicationId) (c : ContextId) (action : Action α) : Prop :=
  ∀ w : World, w.Secluded closed name d a → w.home c = some d →
    action.Leaves stuck w fun later => Aloof d a w later ∧ later.Secluded closed name d a

theorem keepsAloof_pure (value : α) : KeepsAloof stuck closed name d a c (pure value) :=
  fun w secluded _ => ⟨.refl d a w, secluded⟩

theorem KeepsAloof.bind {first : Action β} {next : β → Action α} (aloof : KeepsAloof stuck closed name d a c first)
    (rest : ∀ b, KeepsAloof stuck closed name d a c (next b)) : KeepsAloof stuck closed name d a c (first >>= next) := by
  intro w secluded home
  refine (aloof w secluded home).bind (fun _ done => done) ?_
  rintro b later ⟨before, still⟩
  have there : later.home c = some d := by rw [before.extends_.home (issued_of_home home), home]
  exact (rest b later still there).mono fun last done => ⟨before.trans done.1, done.2⟩

theorem KeepsAloof.holding {action : Action α} (aloof : KeepsAloof stuck closed name d a c action) (thing : Hold) :
    KeepsAloof stuck closed name d a c (holding thing action) := by
  intro w secluded home
  have held := aloof_holds d a w (thing :: w.holds)
  have there : { w with holds := thing :: w.holds }.home c = some d := by
    rw [held.extends_.home (issued_of_home home), home]
  rw [leaves_holding]
  refine (aloof { w with holds := thing :: w.holds } (secluded.of_rows rfl rfl) there).mono fun later done => ?_
  exact ⟨(held.trans done.1).trans (aloof_holds d a later _), done.2.of_rows rfl rfl⟩

theorem keepsAloof_declares : Declares (fun {_} action => KeepsAloof stuck closed name d a c action) where
  beside := fun beside w secluded _ =>
    ⟨(beside w).aloof d a, secluded.of_rows (beside w).contexts (beside w).applications⟩

theorem keepsAloof_rules : BlockRules (fun {_} action => KeepsAloof stuck closed name d a c action) where
  pure := keepsAloof_pure
  fail := fun _ w secluded _ => ⟨.refl d a w, secluded⟩
  get := fun w secluded _ => ⟨.refl d a w, secluded⟩
  bind := KeepsAloof.bind
  beside := fun aside => keepsAloof_declares.beside fun w => (aside w).toBeside
  attempt := fun aloof w secluded home => (aloof w secluded home).attempt
  holding := fun thing aloof => aloof.holding thing

end Action

section Touches

variable {host : Host} {stuck : Prop} {closed : Bool} {name : Key} {c d : ContextId} {a : ApplicationId} {w : World} {request : Request}

theorem World.Secluded.chooses (secluded : w.Secluded closed name d a) (request : Request) :
    ∃ id chosen, chooseSessionId d request w = (.ok id, chosen) ∧ Aloof d a w chosen ∧ chosen.Secluded closed name d a := by
  cases known : request.sessionId with
  | some id =>
    refine ⟨id, w, ?_, .refl d a w, secluded⟩
    simp only [chooseSessionId, known]
    rfl
  | none =>
    let drawn := w.drawSessionId.2
    refine ⟨w.drawSessionId.1, drawn.modifyRequest d fun request => { request with sessionId := some w.drawSessionId.1 },
      ?_, ?_, ?_⟩
    · simp only [chooseSessionId, known]
      rfl
    · exact (beside_drawSessionId.toBeside.aloof d a).trans (aloof_modifyRequest ..)
    · have still : drawn.Secluded closed name d a := secluded.of_rows rfl rfl
      refine still.modifyRequest _ fun request attends => ?_
      exact { attends with detached := attends.detached }

/-- An application that is shut down has no session for a detached request. -/
theorem fails_claimSession_closed (shut : (w.application a).shutDown = true) (detached : request.detached = true)
    (patient : 0 < host.patience) (id : Key) (again : Action (Option SessionId)) :
    (claimSession host c request a id again).Fails w fun error later =>
      error = .scopeNotFound ScopeName.session.text ∧ later = w := by
  obtain ⟨fuel, patience⟩ := Nat.exists_eq_add_one.mpr patient
  have none : ∀ holds, findOrCreateSession { w with holds } a id = (none, { w with holds }) := by
    intro holds
    rw [findOrCreateSession]
    exact if_pos shut
  have acquires : (acquireSession host c a id request.listener host.patience).Achieves
      { w with holds := .listener request.listener :: .application a :: w.holds } fun acquired later =>
        acquired = .closed ∧ later = { w with holds := .listener request.listener :: .application a :: w.holds } := by
    simp only [patience, acquireSession, achieves_bind, achieves_modifyGet, none, achieves_pure, and_self]
  rw [claimSession, fails_holding, fails_holding]
  refine (acquires.mono ?_).bind_fails
  rintro _ _ ⟨rfl, rfl⟩
  simp only [detached, if_true, fails_fail, and_self]

section

variable (secluded : w.Secluded closed name d a) (home : w.home c = some d)
include secluded home

theorem ensureSession_secluded (patient : 0 < host.patience) : ∃ answer later, ensureSession host c w = (answer, later) ∧
    (answer = .ok none ∨ answer = .error (.failed (.scopeNotFound ScopeName.session.text))) ∧
      Aloof d a w later ∧ later.Secluded closed name d a := by
  obtain ⟨fuel, patience⟩ := Nat.exists_eq_add_one.mpr patient
  obtain ⟨request, found, there⟩ := requestOf_home home
  obtain ⟨request', at_, attends⟩ := secluded.at_
  cases there.symm.trans at_
  cases managed : request.settings.sessionManagement with
  | false =>
    refine ⟨.ok none, w, ?_, .inl rfl, .refl d a w, secluded⟩
    simp only [ensureSession, patience, touchSessionOf, bind_apply, get_apply, found, managed, Bool.not_false, if_true]
    rfl
  | true =>
    have shut : closed = true := by
      cases closed with
      | true => rfl
      | false => cases (attends.unmanaged rfl).symm.trans managed
    have ensures : (ensureApplication host d).Achieves w _ := achieves_ensureApplication (secluded.running secluded.home_self)
    obtain ⟨_, _, ensured, rfl, rfl⟩ := ensures
    have touched := secluded.touchApplication
    obtain ⟨id, chosen, chooses, aloof, still⟩ := touched.chooses request
    have spliced : chosen.splicedSession d = none := by
      obtain ⟨new, here, attends⟩ := still.at_
      rw [splicedSession_eq (requestOf_self here), standingOf, attends.bare]
      rfl
    have looks := ensureSession_eq_claimSession patience found managed ensured there chooses (by simp [spliced])
    rw [unseated, spliced] at looks
    obtain ⟨_, _, fails, rfl, rfl⟩ := fails_claimSession_closed (c := d) (still.shut shut) attends.detached
      patient id (touchSessionOf host d fuel)
    exact ⟨_, _, looks.trans fails, .inr rfl, (aloof_touchApplication d a w).trans aloof, still⟩

theorem leaves_ensureSession (patient : 0 < host.patience) :
    (ensureSession host c).Leaves stuck w fun later => Aloof d a w later ∧ later.Secluded closed name d a := by
  obtain ⟨answer, later, ran, is, done⟩ := ensureSession_secluded secluded home patient
  rcases is with rfl | rfl <;> rw [Leaves, ran] <;> exact done

theorem leaves_ensureApplication :
    (ensureApplication host c).Leaves stuck w fun later => Aloof d a w later ∧ later.Secluded closed name d a := by
  refine Achieves.leaves ((achieves_ensureApplication (secluded.running home)).mono ?_)
  rintro _ _ ⟨-, rfl⟩
  exact ⟨aloof_touchApplication d a w, secluded.touchApplication⟩

end

end Touches

variable {host : Host} {w : World} {stuck : Prop} {closed : Bool} {name : Key} {c d : ContextId} {a : ApplicationId}

theorem keepsAloof_named (patient : 0 < host.patience) {key : Key} {action : Action ScopeId} (asks : AsksScope host c key action) :
    KeepsAloof stuck closed name d a c action := by
  have rules : BlockRules (fun {_} action => KeepsAloof stuck closed name d a d action) := keepsAloof_rules
  intro w secluded home
  refine asks.leaves ⟨.refl d a w, secluded⟩ (fun r at_ => ?_) (fun r at_ => ?_)
  · cases at_.symm.trans home
    exact rules.applicationScope (fun _ => leaves_ensureApplication) key w secluded secluded.home_self
  · cases at_.symm.trans home
    exact rules.sessionScope (fun _ secluded home => leaves_ensureSession secluded home patient) key w secluded
      secluded.home_self

theorem keepsAloof_touches (patient : 0 < host.patience) :
    TouchRules host c (fun {_} action => KeepsAloof stuck closed name d a c action) where
  toScopeRules := keepsAloof_rules.toScopeRules
  declares := keepsAloof_declares
  nearby := fun _ => keepsAloof_named patient .nearby
  global := fun _ => keepsAloof_named patient .global
  application := fun _ => leaves_ensureApplication
  session := fun _ secluded home => leaves_ensureSession secluded home patient

/-- Steps of the lifecycle that an end hook may take in its own request. Settings may change as long as they name the same
application. -/
def Script.LifecycleStep.isOfEnd (name : Key) : LifecycleStep → Bool
  | .ensureApplication _ | .ensureSession _ | .setSessionId _ => true
  | .settings | .listener | .sessionId | .spliced | .keepSpliced _ _ => true
  | .updateSettings wanted => wanted.hasApplication && name == wanted.applicationKey
  | _ => false

theorem keepsAloof_setSessionId (c : ContextId) (id : Key) : KeepsAloof stuck closed name d a c (setSessionId c id) := by
  intro w secluded home
  obtain ⟨request, there, attends⟩ := secluded.at_
  obtain ⟨_, _, ran, rfl⟩ := achieves_setSessionId_bare home there attends.bare id
  rw [Leaves, ran]
  refine ⟨aloof_modifyRequest d a w _, secluded.modifyRequest _ fun request attends => ?_⟩
  exact { attends with detached := attends.detached }

theorem keepsAloof_exciseSession : KeepsAloof stuck closed name d a d (excise d .session) := by
  intro w secluded _
  obtain ⟨request, there, -⟩ := secluded.at_
  change Aloof d a w (w.excise d .session).2 ∧ (w.excise d .session).2.Secluded closed name d a
  rw [excise_session (requestOf_self there)]
  refine ⟨aloof_modifyRequest .., secluded.modifyRequest _ fun request attends => ?_⟩
  exact { attends with
    bare := request.sessionNode_excise_session
    node := (congrArg (·.bind w.nodeApplication) request.applicationNode_excise_session).trans attends.node }

theorem keepsAloof_updateSettings (c : ContextId) {wanted : Settings} (has : wanted.hasApplication = true)
    (named : (name == wanted.applicationKey) = true) : KeepsAloof stuck true name d a c (updateSettings c wanted) := by
  have rules : BlockRules (fun {_} action => KeepsAloof stuck true name d a d action) := keepsAloof_rules
  have ends : KeepsAloof stuck true name d a d (do if !wanted.sessionManagement then let _ ← excise d .session) := by
    split
    · exact rules.bind keepsAloof_exciseSession fun _ => rules.pure _
    · exact rules.pure _
  have applies : KeepsAloof stuck true name d a d (modify (·.modifyApplication a (·.applySettings wanted))) :=
    fun w secluded _ => ⟨aloof_modifyApplication d a w _ fun _ => rfl,
      secluded.modifyApplication _ (fun _ => rfl) fun _ => rfl⟩
  have asks : KeepsAloof stuck true name d a d (modify (·.modifyRequest d fun request => { request with settings := wanted })) := by
    refine fun w secluded _ => ⟨aloof_modifyRequest .., secluded.modifyRequest _ fun request attends => ?_⟩
    exact { attends with wanted := has, named, unmanaged := fun is => by cases is }
  intro w secluded home
  obtain ⟨request, found, -⟩ := requestOf_home home
  have finds : theRequest c w = (.ok (d, request), w) := by
    simp only [theRequest, bind_apply, get_apply, found]
    rfl
  rw [updateSettings, leaves_ok_bind finds]
  refine rules.bind asks (fun _ => ?_) w secluded secluded.home_self
  -- The rest of the action looks at the world, in which it finds the application.
  intro w secluded home
  obtain ⟨request, there, attends⟩ := secluded.at_
  have spliced : w.splicedApplication d = some a :=
    (splicedApplication_eq (requestOf_self there)).trans attends.node
  have fits : (wanted.hasApplication && (w.application a).name == wanted.applicationKey) = true := by
    rw [secluded.titled, has, named]
    rfl
  rw [leaves_get_bind, spliced]
  simp only [fits, if_true]
  exact rules.bind applies (fun _ => ends) w secluded home

theorem keepsAloof_step (patient : 0 < host.patience) {step : LifecycleStep} (allowed : step.isOfEnd name = true) :
    KeepsAloof stuck true name d a c (step.run host c) := by
  have touches : TouchRules host c (fun {_} action => KeepsAloof stuck true name d a c action) := keepsAloof_touches patient
  cases step with
  | settings | listener | sessionId | spliced => exact touches.answer _
  | updateSettings wanted =>
    rw [LifecycleStep.isOfEnd, Bool.and_eq_true] at allowed
    exact touches.bind (keepsAloof_updateSettings c allowed.1 allowed.2) fun _ => touches.pure _
  | setSessionId id => exact touches.bind (keepsAloof_setSessionId c id) fun _ => touches.pure _
  | ensureApplication as => exact touches.applicationTouch as
  | ensureSession as => exact touches.sessionTouch as
  | keepSpliced application session => exact touches.keepSpliced host c application session
  | _ => cases allowed

section Calls

variable {allowed : LifecycleStep → Bool} {fuel : Nat}

/-- A hook whose body consists of allowed steps and does not nest its blocks too deeply, unless that is allowed. -/
structure World.Admits (w : World) (stuck : Prop) (allowed : LifecycleStep → Bool) (fuel : Nat) (l : ListenerId) (hook : Hook) :
    Prop where
  known : ∀ f, (w.listener l).hook hook = some f → f.number < w.functions.size
  allowed : ∀ f, (w.listener l).hook hook = some f → allAllow allowed (w.function f).body = true
  shallow : ∀ f, (w.listener l).hook hook = some f → depthOf (w.function f).body ≤ fuel ∨ stuck

/-- Hooks that only read and write scopes keep to whatever touches are allowed by. -/
theorem World.Sane.admits (sane : w.Sane) (grounded : w.Grounded)
    (touches : ∀ step, LifecycleStep.isTouch step = true → allowed step = true) (l : ListenerId) (hook : Hook)
    (shallow : ∀ f, (w.listener l).hook hook = some f → depthOf (w.function f).body ≤ fuel ∨ stuck) :
    w.Admits stuck allowed fuel l hook where
  known := grounded l hook
  allowed := fun f hooked => allAllow_mono touches _ (sane.hooks l hook f hooked)
  shallow := shallow

theorem World.Admits.carries {later : World} {l : ListenerId} {hook : Hook} (admits : w.Admits stuck allowed fuel l hook)
    (carries : w.Carries later) : later.Admits stuck allowed fuel l hook := by
  refine ⟨fun f hooked => ?_, fun f hooked => ?_, fun f hooked => ?_⟩ <;> rw [carries.listener] at hooked
  · exact Nat.lt_of_lt_of_le (admits.known f hooked) carries.functions
  · rw [carries.function f (admits.known f hooked)]
    exact admits.allowed f hooked
  · rw [carries.function f (admits.known f hooked)]
    exact admits.shallow f hooked

variable (steps : ∀ n c step, allowed step = true →
  KeepsAloof stuck closed name d a c (LifecycleStep.run (hostOf (execute n)) c step))
include steps

theorem keepsAloof_execute (inBody : Bool) {command : Command} (allow : command.allows allowed = true)
    (shallow : command.depth ≤ fuel ∨ stuck) : KeepsAloof stuck closed name d a c (execute fuel inBody c command) := by
  refine keepsAloof_rules.executeWithin fuel (fun n _ => ?_) (fun n _ => steps n c) inBody allow ?_
  · exact (keepsAloof_touches (Nat.succ_pos 999999)).toAccessRules
  · exact shallow.imp_right fun may _ _ _ _ => may

/-- Wherever the hook runs in the request that is set aside, it leaves it so. -/
theorem leaves_callHook {l : ListenerId} {hook : Hook} (secluded : w.Secluded closed name d a)
    (admits : w.Admits stuck allowed fuel l hook) (values : List Value) :
    (callHook (hostOf (execute fuel)) l hook d values).Leaves stuck w fun later =>
      Aloof d a w later ∧ later.Secluded closed name d a := by
  have rules : BlockRules (fun {_} action => KeepsAloof stuck closed name d a d action) := keepsAloof_rules
  rw [callHook, leaves_get_bind]
  cases hooked : (w.listener l).hook hook with
  | none => exact ⟨.refl d a w, secluded⟩
  | some f =>
    refine (rules.bindArguments f _ w secluded secluded.home_self).bind (fun _ done => done) ?_
    rintro arguments bound ⟨binds, still⟩
    obtain ⟨k, opened, called, context, below, plain, rfl, rfl⟩ :=
      achieves_callContext_opens (w := bound) (c := d) f arguments
    rw [leaves_ok_bind called, leaves_get_bind]
    let framed := (bound.addScope (.new ScopeName.locals.key)).2
    have opens : Aloof d a bound (framed.addContext context).2 :=
      ((beside_scopes (Scope.retained_add bound.scopes _)).toBeside.aloof d a).trans (aloof_addContext ..)
    have framing : framed.Secluded closed name d a := still.of_rows rfl rfl
    have there := framing.addContext context
    have home : (framed.addContext context).2.home bound.contexts.next = some d := by
      have known : d.number < framed.contexts.size := issued_of_home (w := bound) still.home_self
      exact (framed.home_addContext below known plain).trans framing.home_self
    have made := binds.trans opens
    have body := made.function f (admits.known f hooked)
    rw [body]
    have runs : KeepsAloof stuck closed name d a bound.contexts.next
        (entering bound.contexts.next ((hostOf (execute fuel)).run (w.function f).body bound.contexts.next)) := by
      refine KeepsAloof.holding (keepsAloof_rules.runBody fun step member => ?_) _
      exact keepsAloof_execute steps true (allows_of_mem (admits.allowed f hooked) member)
        ((admits.shallow f hooked).imp_left fun less => Nat.le_trans (depth_le_of_mem member) less)
    exact (runs _ there home).mono fun last done => ⟨made.trans done.1, done.2⟩

end Calls

namespace World

theorem secluded_newDetached (issued : a.number < w.applications.size) (refound : (w.application a).name.Refound)
    (shut : closed = true → (w.application a).shutDown = true) (parent : ContextId) :
    (w.newDetached parent a).2.Secluded closed (w.application a).name w.contexts.next a := by
  let opened := (w.newRequest parent true).2
  let noded := (opened.addNode (.application a)).2
  let change : Request → Request := (·.detach (w.application a) opened.contexts.next)
  obtain ⟨request, there, detached, -⟩ := w.request_newDetached parent a
  have node : noded.nodeApplication opened.contexts.next = some a := by
    rw [nodeApplication, show noded.context opened.contexts.next = _ from context_addContext_next ..]
  have is : (w.newDetached parent a).2 = noded.modifyRequest w.contexts.next change := rfl
  rw [is]
  refine ⟨⟨change request, ?_, ?_⟩, ?_, ?_, fun closes => ?_⟩
  · rw [request?_modifyRequest, if_pos rfl, there]
    rfl
  · refine ⟨detached, rfl, ?_, refound.1, ?_, fun _ => rfl⟩
    · exact (nodeApplication_modifyRequest ..).trans node
    · rw [BEq.comm]
      exact refound.2
  · rw [modifyRequest_applications]
    exact issued
  · rw [modifyRequest_application]
    rfl
  · rw [modifyRequest_application]
    exact shut closes

end World

end ScopeEngine
