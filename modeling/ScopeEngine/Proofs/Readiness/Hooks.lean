import ScopeEngine.Proofs.Lifecycle
import ScopeEngine.Proofs.Readiness.Calm

/-! Hooks that only read and write scopes run calmly. The request they run in has an application that it finds again, so
nothing they touch starts or ends an application; the session scope may start a session there, with hooks of the same kind, and
neither moves the request, however deep they nest. -/

namespace ScopeEngine

open ScopeEngine.Action World Script

variable {host : Host} {w later : World} {a b : ApplicationId} {s : SessionId} {c r : ContextId} {known : World → Prop}

namespace World

theorem calm_of_same (contexts : later.contexts = w.contexts) (applications : later.applications = w.applications)
    (registry : later.registry = w.registry) (listeners : later.listeners = w.listeners)
    (functions : later.functions = w.functions) (clock : w.clock.nanos ≤ later.clock.nanos) : w.Calm later := by
  refine calm_of_instances contexts (congrArg Table.size applications) (fun a => ?_) registry listeners functions
    (ages_of_same applications clock)
  simp only [marks, application, applications]

section

variable (w : World)

theorem calm_holds (holds : List Hold) : w.Calm { w with holds } := calm_of_same rfl rfl rfl rfl rfl (Int.le_refl _)

theorem calm_modifyApplication (a : ApplicationId) (change : Application → Application)
    (kept : ∀ application, change application = { application with sessions := (change application).sessions }) :
    w.Calm (w.modifyApplication a change) := by
  have keeps : ∀ {β : Type} (f : Application → β), (∀ application sessions, f { application with sessions } = f application) →
      ∀ b, f ((w.modifyApplication a change).application b) = f (w.application b) := fun f blind b =>
    application_modify_keeps w a b f fun application => by rw [kept, blind]
  exact calm_of_instances rfl (Table.size_set ..) (keeps Application.marks fun _ _ => rfl) rfl rfl rfl
    ⟨Int.le_refl _, keeps Application.timeout fun _ _ => rfl, fun b => .inl (keeps Application.lastAccess (fun _ _ => rfl) b)⟩

theorem calm_touchApplication (a : ApplicationId) : w.Calm (w.touchApplication a) := by
  refine calm_of_instances rfl (Table.size_set ..) (fun b => marks_touchApplication w a b) rfl rfl rfl
    ⟨w.readClock_passes, fun b => application_modify_keeps _ a b Application.timeout fun _ => rfl, fun b => ?_⟩
  rw [touchApplication, application_modify]
  split
  · exact .inr ⟨w.clock, Int.le_refl _, w.readClock_passes, rfl⟩
  · exact .inl rfl

theorem calm_touchSession (s : SessionId) : w.Calm (w.touchSession s) := by
  simp only [touchSession]
  split <;> exact calm_of_same rfl rfl rfl rfl rfl w.readClock_passes

theorem calm_takeSession (a : ApplicationId) (id : Key) : w.Calm (w.takeSession a id).2 :=
  w.calm_modifyApplication a (fun application => { application with sessions := application.sessions.erase id })
    fun _ => rfl

theorem calm_dropSession (a : ApplicationId) (s : SessionId) : w.Calm (w.dropSession a s).2 := by
  rcases w.dropSession_cases a s with same | ⟨-, same⟩
  · rw [same]
    exact .refl w
  · rw [same]
    exact w.calm_takeSession a _

theorem calm_insertSession (a : ApplicationId) (id : Key) (stale : Option SessionId) :
    w.Calm (w.insertSession a id stale).2 := by
  let made := (w.newSession id (w.application a).name (w.application a).sessionTimeout.duration).2
  have makes : w.Calm made := calm_of_same rfl rfl rfl rfl rfl w.readClock_passes
  refine makes.trans (made.calm_modifyApplication a (fun application =>
    { application with sessions := application.sessions.insert id w.sessions.next }) fun _ => rfl)

theorem calm_findOrCreateSession (a : ApplicationId) (id : Key) : w.Calm (w.findOrCreateSession a id).2 := by
  simp only [findOrCreateSession, placeSession]
  split
  · exact .refl w
  · split
    next stored _ =>
      split
      · exact w.calm_insertSession a id (some stored)
      · exact .refl w
    next => exact w.calm_insertSession a id none

theorem calm_addContext {context : Context}
    (bare : ∀ request, context.request? = some request → request.applicationNode = none) :
    w.Calm (w.addContext context).2 where
  contexts := Table.size_le_size_add ..
  parent := fun c issued => by rw [context_addContext_of_lt w context issued]
  kind := fun c issued => by rw [context_addContext_of_lt w context issued]
  fresh := by
    intro r request node beyond there spliced
    rw [context_addContext] at there
    split at there
    · cases (bare request there).symm.trans spliced
    · exact (Nat.not_lt_of_le beyond (issued_of_request there)).elim
  applications := rfl
  marks := fun _ => rfl
  registry := rfl
  ages := ages_of_same rfl (Int.le_refl _)
  toCarries := carries_of_same rfl rfl
  declared := .inr rfl

theorem calm_newRequest (parent : ContextId) (detached : Bool) : w.Calm (w.newRequest parent detached).2 := by
  have frames : w.Calm w.framed := calm_of_same rfl rfl rfl rfl rfl (Int.le_refl _)
  refine frames.trans (w.framed.calm_addContext ?_)
  rintro request ⟨⟩
  rfl

theorem calm_modifyRequest (r : ContextId) {change : Request → Request} (kept : ∀ request,
      (ContextKind.request (change request)).withoutSession = (ContextKind.request request).withoutSession) :
    w.Calm (w.modifyRequest r change) := by
  obtain ⟨contexts, same⟩ := w.modifyRequest_eq r change
  have elsewhere : w.Calm { (w.modifyRequest r change) with contexts := w.contexts } := by
    rw [same]
    exact .refl w
  exact {
    elsewhere with
    ages := ⟨elsewhere.ages.clock, elsewhere.ages.limit, elsewhere.ages.visit⟩
    contexts := Nat.le_of_eq (modifyRequest_size ..).symm
    parent := fun c _ => parent_modifyRequest ..
    kind := by
      intro c _
      rw [context_modifyRequest]
      split
      next request there =>
        split
        next here =>
          rw [← here, request?_eq_some.mp there]
          exact kept request
        next => rfl
      next => rfl
    fresh := by
      intro t request node beyond there
      have issued := issued_of_request there
      rw [modifyRequest_size] at issued
      exact (Nat.not_lt_of_le beyond issued).elim }

theorem calm_spliceSession (r node : ContextId) : w.Calm (w.modifyRequest r (·.splice (.session node))) :=
  w.calm_modifyRequest r fun request => congrArg (fun request : Request => ContextKind.request { request with sessionId := none })
    (request.excise_splice (.session node))

theorem calm_excise_session (c : ContextId) : w.Calm (w.excise c .session).2 := by
  simp only [excise]
  cases w.requestOf c with
  | none => exact .refl w
  | some found =>
    exact w.calm_modifyRequest found.1 fun request =>
      congrArg (fun request : Request => ContextKind.request { request with sessionId := none }) (request.excise_excise .session)

end

theorem Anchored.calm {standing : Standing} (anchored : w.Anchored r a standing) (sane : w.Sane) (calm : w.Calm later) :
    ∃ new, later.Anchored r a new := by
  obtain ⟨new, there, settings, detached, application⟩ :=
    Standing.of_seat (calm.seat sane (issued_of_standing anchored.at_)) anchored.at_
  exact ⟨new, {
    at_ := there
    holds := application.trans anchored.holds
    issued := calm.applications ▸ anchored.issued
    wanted := settings ▸ anchored.wanted
    named := by rw [settings, name_eq_of_marks (calm.marks a)]; exact anchored.named
    usable := by rw [detached, isDefunct_eq_of_marks (calm.marks a)]; exact anchored.usable }⟩

theorem Running.calm (running : w.Running c r a) (sane : w.Sane) (calm : w.Calm later) : later.Running c r a := by
  obtain ⟨standing, anchored⟩ := running.anchored
  refine ⟨Nat.lt_of_lt_of_le running.issued calm.contexts, ?_, anchored.calm sane calm⟩
  rw [calm.extends_.home running.issued, running.home]

theorem Calm.modifyFresh {d : ContextId} (calm : w.Calm later) (fresh : w.contexts.size ≤ d.number)
    (change : Request → Request)
    (settled : ∀ request, (later.context d).request? = some request → (change request).detached = true ∧
      ∀ node, (change request).applicationNode = some node → node.number < later.contexts.size ∧
        ∀ a, later.nodeApplication node = some a → a.number < later.applications.size) :
    w.Calm (later.modifyRequest d change) := by
  obtain ⟨contexts, same⟩ := later.modifyRequest_eq d change
  have elsewhere : later.Calm { (later.modifyRequest d change) with contexts := later.contexts } := by
    rw [same]
    exact .refl later
  have older : ∀ t : ContextId, t.number < w.contexts.size →
      (later.modifyRequest d change).context t = later.context t := by
    intro t less
    have different : d ≠ t := by
      rintro rfl
      exact Nat.not_lt_of_le fresh less
    rw [context_modifyRequest]
    split
    · exact if_neg different
    · rfl
  exact {
    calm.trans elsewhere with
    ages := calm.ages.trans ⟨elsewhere.ages.clock, elsewhere.ages.limit, elsewhere.ages.visit⟩
    contexts := by rw [modifyRequest_size]; exact calm.contexts
    parent := fun t less => by rw [older t less]; exact calm.parent t less
    kind := fun t less => by rw [older t less]; exact calm.kind t less
    fresh := by
      intro t request node beyond there spliced
      simp only [modifyRequest_size, nodeApplication_modifyRequest, modifyRequest_applications]
      rw [request?_modifyRequest] at there
      split at there
      · obtain ⟨old, before, rfl⟩ := Option.map_eq_some_iff.mp there
        obtain ⟨detached, nodes⟩ := settled old before
        exact ⟨detached, nodes node spliced⟩
      · exact calm.fresh t request node beyond there spliced }

theorem newDetached_calm (sane : w.Sane) (parent : ContextId) (issued : a.number < w.applications.size) :
    w.Calm (w.newDetached parent a).2 ∧
      (w.newDetached parent a).2.Running (w.newDetached parent a).1 (w.newDetached parent a).1 a := by
  let opened := (w.newRequest parent true).2
  let d := (w.newRequest parent true).1
  let node := opened.contexts.next
  let noded := (opened.addNode (.application a)).2
  let change : Request → Request := (·.detach (noded.application a) node)
  have before : w.Calm noded := (w.calm_newRequest parent true).trans (opened.calm_addContext (by rintro _ ⟨⟩))
  have known : node.number < noded.contexts.size := Table.next_lt_size_add ..
  have known_application : a.number < noded.applications.size := issued
  obtain ⟨request, at_, detached, -⟩ : ∃ request, (noded.context d).request? = some request ∧ _ := w.request_newDetached parent a
  have there : noded.nodeApplication node = some a := by
    rw [nodeApplication, show noded.context node = _ from context_addContext_next ..]
  have refound := (sane.calm before).named a known_application
  have anchored : (noded.modifyRequest d change).Anchored d a (noded.standingOf (change request)) := by
    refine ⟨?_, there, ?_, refound.1, ?_, .inl detached⟩
    · rw [standing_modifyRequest, if_pos rfl, at_]
      rfl
    · rw [modifyRequest_applications]
      exact known_application
    · rw [modifyRequest_application, BEq.comm]
      exact refound.2
  rw [show w.newDetached parent a = (d, noded.modifyRequest d change) from rfl]
  have fresh : w.contexts.size ≤ d.number := Nat.le_refl _
  refine ⟨before.modifyFresh fresh change ?_, anchored.running⟩
  intro found here
  rw [at_] at here
  cases here
  refine ⟨detached, ?_⟩
  rintro place ⟨⟩
  refine ⟨known, fun b holds => ?_⟩
  rw [there] at holds
  cases holds
  exact known_application

end World

namespace Action

variable {α β : Type}

variable {action : Action α} {first : Action β} {next : β → Action α}

/-- A condition on worlds that calm changes keep, and that sane worlds satisfy. -/
structure Steady (known : World → Prop) : Prop where
  sane : ∀ {w : World}, known w → w.Sane
  calm : ∀ {w later : World}, known w → w.Calm later → known later

theorem steady_sane : Steady Sane := ⟨id, Sane.calm⟩

theorem steady_since (start : World) : Steady fun w => w.Sane ∧ start.Calm w :=
  ⟨And.left, fun known calm => ⟨known.1.calm calm, known.2.trans calm⟩⟩

theorem steady_grounded : Steady fun w => w.Sane ∧ w.Grounded :=
  ⟨And.left, fun known calm => ⟨known.1.calm calm, calm.grounded known.2⟩⟩

/-- Where the condition holds, the action is calm whenever code runs at `c` in a request that has the application. -/
abbrev SereneIf (known : World → Prop) (c : ContextId) (a : ApplicationId) (action : Action α) : Prop :=
  ∀ r, Under (fun w => known w ∧ w.Running c r a) Calm Calm action

abbrev Serene (c : ContextId) (a : ApplicationId) (action : Action α) : Prop := SereneIf Sane c a action

theorem after_holding_calm {action : Action α} {ok : α → Prop} {thing : Hold}
    (inside : ∀ held, w.Calm held → action.After held (fun a later => held.Calm later ∧ ok a) (fun _ => held.Calm)) :
    (holding thing action).After w (fun a later => w.Calm later ∧ ok a) (fun _ => w.Calm) := by
  have held := w.calm_holds (thing :: w.holds)
  rw [after_holding]
  exact (inside _ held).mono (fun _ later done => ⟨(held.trans done.1).trans (later.calm_holds _), done.2⟩)
    (fun _ later calm => (held.trans calm).trans (later.calm_holds _))

end Action

/-- What a property of actions has to satisfy so that calm actions have it. -/
structure CalmRules (holds : ∀ {α : Type}, Action α → Prop) : Prop extends ScriptRules holds where
  calm : ∀ {α : Type} {change : World → α × World}, (∀ w : World, w.Calm (change w).2) → holds (modifyGet change)

theorem sereneIf_rules (steady : Steady known) : CalmRules (fun {_} action => SereneIf known c a action) where
  toScriptRules := rules_forall fun _ => Regime.rules (.of (fun _ aside => aside.calm)
    (fun here calm => ⟨steady.calm here.1 calm, here.2.calm (steady.sane here.1) calm⟩) Calm.trans)
  calm := fun calm _ w _ => calm w

theorem serene_rules : CalmRules (fun {_} action => Serene c a action) := sereneIf_rules steady_sane

theorem serene_declares : Declares (fun {_} action => SereneIf (fun w => w.Sane ∧ w.Grounded) c a action) where
  beside := fun beside _ w here => (beside w).calm (.inl here.1.2)

namespace CalmRules

variable {holds : ∀ {α : Type}, Action α → Prop} (rules : CalmRules holds)
include rules

theorem exciseSession (r : ContextId) : holds (excise r .session) :=
  rules.calm fun w => w.calm_excise_session r

theorem modifySessionId (r : ContextId) (id : Key) :
    holds (modify (·.modifyRequest r fun request => { request with sessionId := some id })) :=
  rules.calm fun w => w.calm_modifyRequest r fun _ => rfl

theorem setSessionId (c : ContextId) (id : Key) : holds (setSessionId c id) :=
  rules.toScopeRules.setSessionId rules.exciseSession rules.modifySessionId c id

end CalmRules

/-- Bodies run by the host are calm if they only touch, and if they only read and write scopes where hooks exist. -/
structure Host.Serene (host : Host) : Prop where
  touches : ∀ body c a, body.all Script.Step.isTouch = true → Action.Serene c a (host.run body c)
  accesses : ∀ body c a, Script.areAccesses body = true →
    SereneIf (fun w => w.Sane ∧ w.Grounded) c a (host.run body c)

theorem Host.Serene.hook {l : ListenerId} {hook : Hook} {f : FunctionId} (serene : host.Serene) (sane : w.Sane)
    (hooked : (w.listener l).hook hook = some f) (c : ContextId) (a : ApplicationId) :
    SereneIf (fun later => later.Sane ∧ w.Calm later) c a (host.run (w.function f).body c) := by
  rintro r later ⟨knows, running⟩
  rcases sane.code with grounded | tame
  · exact serene.accesses _ c a (sane.hooks l hook f hooked) r later ⟨⟨knows.1, knows.2.grounded grounded⟩, running⟩
  · exact serene.touches _ c a (tame l hook f hooked) r later ⟨knows.1, running⟩

theorem after_callContext_calm (f : FunctionId) (arguments : ScopeId) (issued : c.number < w.contexts.size) :
    (callContext f c arguments).After w
      (fun d later => w.Calm later ∧ d.number < later.contexts.size ∧ later.home d = w.home c) (fun _ => w.Calm) := by
  refine (after_callContext_opens f arguments).sure (fun d later opens => ?_)
  obtain ⟨context, below, plain, rfl, rfl⟩ := opens
  let framed := (w.addScope (.new ScopeName.locals.key)).2
  have frames : w.Calm framed := calm_of_same rfl rfl rfl rfl rfl (Int.le_refl _)
  have inside : c.number < framed.contexts.size := issued
  rw [← frames.extends_.home issued]
  refine ⟨frames.trans (framed.calm_addContext (by simp [plain])), ?_, framed.home_addContext below inside plain⟩
  exact Table.next_lt_size_add ..

section Hooks

variable (serene : host.Serene)
include serene

theorem serene_callHook (l : ListenerId) (hook : Hook) (values : List Value) :
    Serene c a (callHook host l hook c values) := by
  rintro r w ⟨sane, running⟩
  simp only [callHook, after_bind, after_get]
  cases hooked : (w.listener l).hook hook with
  | none => exact .refl w
  | some f =>
    simp only [invoke, after_bind]
    apply (serene_rules.bindArguments f _ r w ⟨sane, running⟩).mono_ok
    intro scope bound first
    have running_bound := running.calm sane first
    apply (after_callContext_calm f scope running_bound.issued).mono
    · rintro d opened ⟨second, issued, same⟩
      have calm := first.trans second
      have sane_opened := sane.calm calm
      have there : opened.Running d r a := {
        issued := issued
        home := same.trans running_bound.home
        anchored := (running.calm sane calm).anchored }
      have runs := (sereneIf_rules (steady_since w)).holding (.context d) (serene.hook sane hooked d a)
      rw [after_get, calm.hooked hooked]
      exact (runs r opened ⟨⟨sane_opened, calm⟩, there⟩).imp fun _ next => calm.trans next
    · exact fun _ _ second => first.trans second

theorem serene_shutdownSession (s : SessionId) (l : ListenerId) (scope : ScopeId) :
    Serene c a (shutdownSession host s c l scope) :=
  serene_rules.shutdownSession (serene_callHook serene)
    (serene_rules.calm fun _ => calm_of_same rfl rfl rfl rfl rfl (Int.le_refl _)) l scope

theorem serene_retireSession (s : SessionId) : Serene c a (retireSession host c a s) := by
  rintro r w ⟨sane, running⟩
  obtain ⟨standing, anchored⟩ := running.anchored
  simp only [retireSession, after_bind, after_get]
  cases w.nearest c .server with
  | none => exact serene_rules.retire (serene_shutdownSession serene s) _ _ r w ⟨sane, running⟩
  | some server =>
    simp only [after_bind, after_modifyGet]
    obtain ⟨calm, there⟩ := newDetached_calm sane server anchored.issued
    exact (serene_rules.retire (serene_shutdownSession serene s) _ _ _ _ ⟨sane.calm calm, there⟩).imp fun _ next => calm.trans next

theorem serene_close (b : ApplicationId) (l : ListenerId) (report : ShutdownReport) :
    Serene c a (holding (.application b) <| holding (.listener l) <| entering c do
      endApplication host b c l (← drainSessions host b c l host.patience report)) :=
  serene_rules.close (serene_callHook serene) (serene_rules.closeSession
    (fun id => serene_rules.calm fun w => w.calm_takeSession b id) (serene_shutdownSession serene)) l report

end Hooks

theorem serene_spliceSession (r : ContextId) (s : SessionId) : Serene c a (spliceNew r (.session s)) := by
  intro _ w _
  let noded := (w.addNode (.session s)).2
  have adds : w.Calm noded := w.calm_addContext (by rintro _ ⟨⟩)
  rw [After, spliceNew_eq r _ rfl]
  cases noded.requestOf r with
  | none => exact adds
  | some found => exact adds.trans (noded.calm_spliceSession found.1 _)

theorem serene_modifySession (s : SessionId) (change : Session → Session) :
    Serene c a (modify (·.modifySession s change)) :=
  serene_rules.calm fun _ => calm_of_same rfl rfl rfl rfl rfl (Int.le_refl _)

section Sessions

variable (serene : host.Serene)
include serene

theorem serene_adoptSession (b : ApplicationId) (s : SessionId) (l : ListenerId) :
    Serene r a (adoptSession host r b s l) :=
  serene_rules.adoptSession (serene_spliceSession r s)
    (serene_rules.startSession (serene_modifySession s _) (serene_callHook serene) (serene_rules.settleSession
      (serene_modifySession s _) (serene_modifySession s _) (serene_modifySession s _)
      (serene_rules.calm fun w => w.calm_dropSession b s)))
    (serene_rules.calm fun w => w.calm_touchSession s) (serene_rules.exciseSession r) l

/-- The sessions of an application are closed only after the application was shut down. -/
theorem after_acquireSession_calm (sane : w.Sane) (running : w.Running r r a) (id : Key) (l : ListenerId) (fuel : Nat) :
    (acquireSession host r a id l fuel).After w
      (fun got later => w.Calm later ∧ (got = .closed → (w.application a).isDefunct = true)) (fun _ => w.Calm) := by
  induction fuel generalizing w with
  | zero => trivial
  | succ fuel ih =>
    have looks := w.calm_findOrCreateSession a id
    simp only [acquireSession, after_bind, after_modifyGet]
    cases found : (w.findOrCreateSession a id).1 with
    | none =>
      refine ⟨looks, fun _ => ?_⟩
      simp only [findOrCreateSession] at found
      split at found
      next shutDown => rw [Application.isDefunct, shutDown, Bool.or_true]
      next => cases found
    | some placed =>
      have ends : ∀ middle, w.Calm middle →
          (do
            if ← adoptSession host r a placed.session l then pure (Acquired.session placed.session)
            else acquireSession host r a id l fuel).After middle
            (fun got later => w.Calm later ∧ (got = Acquired.closed → (w.application a).isDefunct = true))
            (fun _ => w.Calm) := by
        intro middle calm
        rw [after_bind]
        apply (serene_adoptSession serene a placed.session l r middle ⟨sane.calm calm, running.calm sane calm⟩).mono
        · intro adopted after next
          have all := calm.trans next
          cases adopted with
          | true => exact ⟨all, Acquired.noConfusion⟩
          | false =>
            apply (ih (sane.calm all) (running.calm sane all)).mono
            · rintro got last ⟨rest, closed⟩
              refine ⟨all.trans rest, fun same => ?_⟩
              rw [← isDefunct_eq_of_marks (all.marks a)]
              exact closed same
            · exact fun _ _ rest => all.trans rest
        · exact fun _ _ next => calm.trans next
      dsimp only
      cases stale : placed.stale with
      | none => exact ends _ looks
      | some old =>
        rw [after_bind]
        apply (serene_retireSession serene old r _ ⟨sane.calm looks, running.calm sane looks⟩).mono
        · exact fun _ middle retires => ends middle (looks.trans retires)
        · exact fun _ _ retires => looks.trans retires

/-- A request that has its application keeps it while it looks for a session: the application was not shut down, or the
request is detached and gives up. -/
theorem after_claimSession_calm (sane : w.Sane) (running : w.Running r r a) {request : Request}
    (usable : request.detached = true ∨ (w.application a).isDefunct = false) (id : Key)
    (again : Action (Option SessionId)) :
    (claimSession host r request a id again).After w (fun _ later => w.Calm later ∧ True) (fun _ => w.Calm) := by
  refine after_holding_calm fun outer first => after_holding_calm fun inner second => ?_
  have calm := first.trans second
  rw [after_bind]
  apply (after_acquireSession_calm serene (sane.calm calm) (running.calm sane calm) id _ _).mono_ok
  rintro got later ⟨looks, closed⟩
  cases got with
  | session s => exact ⟨looks, trivial⟩
  | closed =>
    have defunct := closed rfl
    rw [isDefunct_eq_of_marks (calm.marks a)] at defunct
    have detached := usable.resolve_right (by rw [defunct]; exact Bool.noConfusion)
    simp only [detached, if_true]
    exact looks

/-- Once the application is there, the rest of a touch of the session is calm, in whatever way it came to be there. -/
theorem after_touchSessionOf_calm {P : World → Prop} (home : w.home c = some r) (kept : P w)
    (steps : ∀ middle later : World, P middle → middle.Calm later → P later)
    (ensures : (ensureApplication host r).After w
      (fun found later => P later ∧ ∀ a, found = some a → later.Sane ∧ later.Running r r a) (fun _ => P)) (fuel : Nat) :
    (touchSessionOf host c fuel).After w (fun _ => P) (fun _ => P) := by
  cases fuel with
  | zero => trivial
  | succ fuel =>
    obtain ⟨request, found, -⟩ := requestOf_home home
    simp only [touchSessionOf, after_bind, after_get, found]
    split
    · exact kept
    · rw [after_bind]
      apply ensures.mono_ok
      rintro touched ready ⟨reached, known⟩
      cases touched with
      | none => exact reached
      | some a =>
        obtain ⟨sane, running⟩ := known a rfl
        obtain ⟨now, there, usable⟩ := running.usable
        simp only [after_bind, after_get, there, Option.getD_some]
        apply (serene_rules.toScopeRules.chooseSessionId serene_rules.modifySessionId r now r ready ⟨sane, running⟩).mono
        · intro id chosen chooses
          have claims : ∀ middle, ready.Calm middle →
              (claimSession host r now a id (touchSessionOf host r fuel)).After middle (fun _ => P) (fun _ => P) := by
            intro middle calm
            rw [← isDefunct_eq_of_marks (calm.marks a)] at usable
            exact (after_claimSession_calm serene (sane.calm calm) (running.calm sane calm) usable id _).mono
              (fun _ _ done => steps _ _ reached (calm.trans done.1))
              (fun _ _ claims => steps _ _ reached (calm.trans claims))
          cases chosen.splicedSession r with
          | none => exact claims chosen chooses
          | some s =>
            dsimp only
            split
            · exact steps _ _ reached (chooses.trans (chosen.calm_touchSession s))
            · rw [after_bind]
              exact claims _ (chooses.trans (chosen.calm_excise_session r))
        · exact fun _ _ chooses => steps _ _ reached chooses

theorem serene_ensureSession : Serene c a (ensureSession host c) := by
  rintro r w ⟨sane, running⟩
  obtain ⟨standing, anchored⟩ := running.anchored
  have touches := w.calm_touchApplication a
  refine after_touchSessionOf_calm serene running.home (.refl w) (fun _ _ => Calm.trans) ?_ host.patience
  apply (after_ensureApplication_spliced anchored.running).sure
  rintro _ touched ⟨rfl, rfl⟩
  refine ⟨touches, ?_⟩
  rintro _ ⟨⟩
  exact ⟨sane.calm touches, anchored.running.calm sane touches⟩

end Sessions

theorem serene_ensureApplication : Serene c a (ensureApplication host c) := by
  rintro r w ⟨sane, running⟩
  apply (after_ensureApplication_spliced running).sure
  rintro _ later ⟨-, rfl⟩
  exact w.calm_touchApplication a

theorem serene_named (serene : host.Serene) {key : Key} {action : Action ScopeId} (asks : AsksScope host c key action) :
    Serene c a action := by
  rintro r w ⟨sane, running⟩
  obtain ⟨standing, anchored⟩ := running.anchored
  refine asks.after (.refl w) (fun t home => ?_) (fun t home => ?_)
  · cases home.symm.trans running.home
    exact serene_rules.applicationScope serene_ensureApplication key r w ⟨sane, anchored.running⟩
  · cases home.symm.trans running.home
    exact serene_rules.sessionScope (serene_ensureSession serene) key r w ⟨sane, anchored.running⟩

theorem serene_visits (serene : host.Serene) (c : ContextId) (a : ApplicationId) :
    VisitRules host c (fun {_} action => Serene c a action) where
  toScopeRules := serene_rules.toScopeRules
  nearby := fun _ => serene_named serene .nearby
  global := fun _ => serene_named serene .global
  application := serene_ensureApplication
  session := serene_ensureSession serene

theorem Action.SereneIf.grounded {α : Type} {action : Action α} (serene : Serene c a action) :
    SereneIf (fun w => w.Sane ∧ w.Grounded) c a action := fun r w here => serene r w ⟨here.1.1, here.2⟩

/-- Moreover, functions may be declared where hooks exist. -/
theorem serene_touches (serene : host.Serene) (c : ContextId) (a : ApplicationId) :
    TouchRules host c (fun {_} action => SereneIf (fun w => w.Sane ∧ w.Grounded) c a action) where
  toScopeRules := (sereneIf_rules steady_grounded).toScopeRules
  declares := serene_declares
  nearby := fun key => ((serene_visits serene c a).nearby key).grounded
  global := fun key => ((serene_visits serene c a).global key).grounded
  application := serene_ensureApplication.grounded
  session := (serene_ensureSession serene).grounded

/-- However deep hooks may nest, they are calm if they only read and write scopes. -/
theorem serene_execute (fuel : Nat) : (hostOf (execute fuel)).Serene := by
  induction fuel using Nat.strongRecOn with
  | ind fuel ih =>
    constructor
    · intro body c a touches
      refine serene_rules.runBody fun step member => ?_
      exact serene_rules.executeTouch fuel (fun n less => serene_visits (ih n less) c a) true
        (List.all_eq_true.mp touches step member)
    · intro body c a accesses
      have rules := sereneIf_rules (c := c) (a := a) steady_grounded
      refine rules.runBody fun step member => ?_
      exact rules.execute fuel (fun n less => serene_touches (ih n less) c a) true (allows_of_mem accesses member)

end ScopeEngine
