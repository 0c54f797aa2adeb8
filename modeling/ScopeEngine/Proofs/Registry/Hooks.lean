import ScopeEngine.Proofs.Registry.Changes

/-! Hooks keep the files in order. What they do to sessions is done to those of the application of their request; a session
that ends was taken out of its map before, and the hook that ends it cannot put it back. -/

namespace ScopeEngine

open ScopeEngine.Action Script World

variable {α β : Type} {host : Host} {w later last : World} {a b : ApplicationId} {s : SessionId} {c r : ContextId}

namespace World

variable {id : Key} {t : ContextId}

def GoesBy (w : World) (r : ContextId) (id : Key) : Prop :=
  ∃ request, (w.context r).request? = some request ∧ request.sessionId = some id

/-- A calm change that leaves the files in order. -/
structure Moves (w later : World) : Prop extends Loses w none later where
  calm : w.Calm later

structure Orders (w later : World) : Prop extends Moves w later where
  goesBy : ∀ r id, w.GoesBy r id → later.GoesBy r id

/-- Code is at work in a request that has an application, and everything is in order. -/
structure AtWork (w : World) (c r : ContextId) (a : ApplicationId) : Prop where
  sane : w.Sane
  inOrder : w.InOrder
  running : w.Running c r a

theorem Moves.trans (first : w.Moves later) (second : later.Moves last) : w.Moves last :=
  ⟨first.toLoses.trans second.toLoses, first.calm.trans second.calm⟩

theorem Orders.trans (first : w.Orders later) (second : later.Orders last) : w.Orders last :=
  ⟨first.toMoves.trans second.toMoves, fun r id goes => second.goesBy r id (first.goesBy r id goes)⟩

theorem Loses.orders (loses : w.Loses (some s) later) (calm : w.Calm later) (contexts : later.contexts = w.contexts)
    (orders : later.Orders last) (spent : (last.session s).shutDown = true) : w.Orders last := by
  refine ⟨⟨loses.ends orders.toLoses (not_live_of_over spent), calm.trans orders.calm⟩, fun r id goes => ?_⟩
  apply orders.goesBy r id
  rw [GoesBy, context, contexts]
  exact goes

theorem InOrder.orders (inOrder : w.InOrder) : w.Orders w := ⟨⟨inOrder.files, .refl w⟩, fun _ _ goes => goes⟩

theorem Loses.orders_of_contexts (files : w.Files later) (calm : w.Calm later) (contexts : later.contexts = w.contexts) :
    w.Orders later := by
  refine ⟨⟨files, calm⟩, fun r id goes => ?_⟩
  rw [GoesBy, context, contexts]
  exact goes

section

variable (inOrder : w.InOrder)
include inOrder

theorem InOrder.orders_of_rows (calm : w.Calm later) (contexts : later.contexts = w.contexts)
    (applications : later.applications = w.applications) (sessions : later.sessions = w.sessions) : w.Orders later :=
  (inOrder.unfiles (unfiles_of_rows contexts applications sessions calm.registry)).orders_of_contexts calm contexts

theorem InOrder.orders_holds (holds : List Hold) : w.Orders { w with holds } :=
  inOrder.orders_of_rows (w.calm_holds holds) rfl rfl rfl

theorem InOrder.orders_modifySession (s : SessionId) (change : Session → Session)
    (same : ∀ session, (change session).file = session.file) : w.Orders (w.modifySession s change) :=
  (inOrder.unfiles (w.unfiles_modifySession s change same)).orders_of_contexts (calm_of_same rfl rfl rfl rfl rfl (Int.le_refl _)) rfl

theorem InOrder.orders_touchApplication (a : ApplicationId) : w.Orders (w.touchApplication a) :=
  (inOrder.unfiles (w.unfiles_touchApplication a)).orders_of_contexts (w.calm_touchApplication a) rfl

theorem InOrder.orders_touchSession (s : SessionId) : w.Orders (w.touchSession s) :=
  (inOrder.unfiles (w.unfiles_touchSession s)).orders_of_contexts (w.calm_touchSession s)
    (w.unfiles_touchSession s).contexts

end

theorem goesBy_modifyRequest (w : World) (r : ContextId) {change : Request → Request}
    (keeps : ∀ request, (w.context r).request? = some request → request.sessionId = some id → (change request).sessionId = some id)
    (goes : w.GoesBy t id) : (w.modifyRequest r change).GoesBy t id := by
  obtain ⟨request, there, named⟩ := goes
  rw [GoesBy, request?_modifyRequest]
  split
  next same =>
    subst same
    rw [there]
    exact ⟨change request, rfl, keeps request there named⟩
  next => exact ⟨request, there, named⟩

theorem InOrder.orders_excise (inOrder : w.InOrder) (c : ContextId) : w.Orders (w.excise c .session).2 := by
  cases found : w.requestOf c with
  | none =>
    simp only [excise, found]
    exact inOrder.orders
  | some place =>
    refine ⟨⟨?_, w.calm_excise_session c⟩, fun t id goes => ?_⟩
    · rw [excise_session found]
      exact inOrder.dropsSession place.1 _ Request.sessionNode_excise_session
    · rw [excise_session found]
      exact w.goesBy_modifyRequest place.1 (fun _ _ named => named) goes

theorem InOrder.moves_setSessionId (inOrder : w.InOrder) (r : ContextId) (id : Key)
    (named : ∀ request s, (w.context r).request? = some request → (w.standingOf request).session = some s → w.Live s →
      ((w.session s).id == id) = true) :
    w.Moves (w.modifyRequest r fun request => { request with sessionId := some id }) :=
  ⟨inOrder.keepsNodes r (fun request => { request with sessionId := some id }) (fun _ => ⟨rfl, rfl⟩)
    fun request s there held live => ⟨id, rfl, named request s there held live⟩, w.calm_modifyRequest r fun _ => rfl⟩

theorem context_newRequest (w : World) (parent : ContextId) (detached : Bool) (issued : t.number < w.contexts.size) :
    (w.newRequest parent detached).2.context t = w.context t :=
  Table.get_add_of_lt _ _ issued

theorem issued_of_goesBy (goes : w.GoesBy r id) : r.number < w.contexts.size := by
  obtain ⟨request, there, -⟩ := goes
  exact issued_of_request there

theorem InOrder.orders_newRequest (inOrder : w.InOrder) (sane : w.Sane) (parent : ContextId) (detached : Bool) :
    w.Orders (w.newRequest parent detached).2 := by
  have frames : w.Orders w.framed := inOrder.orders_of_rows (calm_of_same rfl rfl rfl rfl rfl (Int.le_refl _)) rfl rfl rfl
  have opens : w.framed.Files (w.newRequest parent detached).2 := by
    apply frames.inOrder.addContext (sane.calm frames.calm)
    intro request there
    cases there
    exact ⟨rfl, rfl⟩
  refine ⟨⟨frames.toLoses.trans opens, w.calm_newRequest parent detached⟩, fun r id goes => ?_⟩
  rw [GoesBy, w.context_newRequest parent detached (issued_of_goesBy goes)]
  exact goes

theorem InOrder.orders_addContext (inOrder : w.InOrder) (sane : w.Sane) {context : Context}
    (plain : context.request? = none) : w.Orders (w.addContext context).2 := by
  refine ⟨⟨inOrder.addContext sane ?_, w.calm_addContext ?_⟩, fun r id goes => ?_⟩
  · intro request there
    cases plain.symm.trans there
  · intro request there
    cases plain.symm.trans there
  · rw [GoesBy, context_addContext_of_lt w context (issued_of_goesBy goes)]
    exact goes

namespace AtWork

section

variable (work : w.AtWork c r a)
include work

theorem moves (moves : w.Moves later) : later.AtWork c r a :=
  ⟨work.sane.calm moves.calm, moves.inOrder, work.running.calm work.sane moves.calm⟩

theorem orders (orders : w.Orders later) : later.AtWork c r a :=
  work.moves orders.toMoves

theorem issued : a.number < w.applications.size := by
  obtain ⟨standing, anchored⟩ := work.running.anchored
  exact anchored.issued

theorem here : w.AtWork r r a := by
  obtain ⟨standing, anchored⟩ := work.running.anchored
  exact ⟨work.sane, work.inOrder, anchored.running⟩

end

theorem newDetached (sane : w.Sane) (inOrder : w.InOrder) (parent : ContextId) (issued : a.number < w.applications.size) :
    w.Orders (w.newDetached parent a).2 ∧
      (w.newDetached parent a).2.AtWork (w.newDetached parent a).1 (w.newDetached parent a).1 a := by
  let opened := (w.newRequest parent true).2
  let d := (w.newRequest parent true).1
  let noded := (opened.addNode (.application a)).2
  have opens := inOrder.orders_newRequest sane parent true
  have adds : opened.Orders noded := opens.inOrder.orders_addContext (sane.calm opens.calm) rfl
  have changes : noded.Files (w.newDetached parent a).2 := by
    apply adds.inOrder.modifyRequest d
    · exact fun _ _ _ spliced => nomatch spliced
    · exact fun _ _ _ held => nomatch held
  obtain ⟨calm, running⟩ := newDetached_calm sane parent issued
  have files := (opens.toLoses.trans adds.toLoses).trans changes
  refine ⟨⟨⟨files, calm⟩, fun t id goes => ?_⟩, sane.calm calm, files.inOrder, running⟩
  exact noded.goesBy_modifyRequest d (fun _ _ named => named) ((opens.trans adds).goesBy t id goes)

end AtWork

end World

namespace Action

variable {action : Action α}

/-- What actions may do to the world one after another. -/
structure Course (leads : World → World → Prop) : Prop where
  moves : ∀ {w later : World}, leads w later → w.Moves later
  trans : ∀ {w later last : World}, leads w later → leads later last → leads w last
  rows : ∀ {w later : World}, w.InOrder → w.Calm later → later.contexts = w.contexts →
    later.applications = w.applications → later.sessions = w.sessions → leads w later

theorem course_orders : Course Orders :=
  ⟨Orders.toMoves, Orders.trans, InOrder.orders_of_rows⟩

theorem course_moves : Course Moves :=
  ⟨fun moves => moves, Moves.trans,
    fun inOrder calm contexts applications sessions =>
      (inOrder.orders_of_rows calm contexts applications sessions).toMoves⟩

def Lasting (leads : World → World → Prop) (known : World → Prop) : Prop :=
  ∀ w later : World, known w → leads w later → known later

/-- Wherever code is at work in a request that has the application, and the condition holds, the action leads on. -/
abbrev LeadsIf (leads : World → World → Prop) (known : World → Prop) (c : ContextId) (a : ApplicationId)
    (action : Action α) : Prop :=
  ∀ r, Under (fun w => w.AtWork c r a ∧ known w) leads leads action

abbrev OrderedIf (known : World → Prop) (c : ContextId) (a : ApplicationId) (action : Action α) : Prop :=
  LeadsIf Orders known c a action

abbrev Ordered (c : ContextId) (a : ApplicationId) (action : Action α) : Prop :=
  OrderedIf (fun _ => True) c a action

variable {known : World → Prop} {leads : World → World → Prop}

theorem lasting_true : Lasting leads fun _ => True := fun _ _ _ _ => trivial

theorem Course.lasting_filedWith (course : Course leads) (owner : Option ApplicationId) (s : SessionId) :
    Lasting leads (·.FiledWith owner s) := fun _ _ filedWith led => filedWith.refiles (course.moves led).refiles

theorem Course.lasting_calm (course : Course leads) (start : World) : Lasting leads start.Calm := fun _ _ calm led =>
  calm.trans (course.moves led).calm

theorem Course.lasting_grounded (course : Course leads) : Lasting leads Grounded := fun _ _ grounded led =>
  (course.moves led).calm.grounded grounded

theorem ordered_modifyGet {change : World → α × World} (orders : ∀ w : World, w.InOrder → w.Orders (change w).2) :
    OrderedIf known c a (modifyGet change) := fun _ w here => orders w here.1.inOrder

theorem ordered_modify {change : World → World} (orders : ∀ w : World, w.InOrder → w.Orders (change w)) :
    OrderedIf known c a (modify change) := fun _ w here => orders w here.1.inOrder

theorem LeadsIf.given {action : Action α} (led : LeadsIf leads (fun _ => True) c a action) :
    LeadsIf leads known c a action := fun r w here => led r w ⟨here.1, trivial⟩

theorem LeadsIf.moves {action : Action α} (ordered : OrderedIf known c a action) : LeadsIf Moves known c a action :=
  fun r w here => (ordered r w here).imp fun _ orders => orders.toMoves

theorem Course.after_holding {ok : α → World → Prop} {failed : World → Prop} {thing : Hold} (course : Course leads)
    (inOrder : w.InOrder) (lasting : ∀ a, Lasting leads (ok a)) (lasts : Lasting leads failed)
    (inside : ∀ held, leads w held → action.After held (fun a later => leads held later ∧ ok a later) (fun _ later => leads held later ∧ failed later)) :
    (holding thing action).After w (fun a later => leads w later ∧ ok a later)
      (fun _ later => leads w later ∧ failed later) := by
  have leaves : ∀ {later : World}, later.InOrder → ∀ holds, leads later { later with holds } := fun inOrder holds =>
    course.rows inOrder (calm_holds _ holds) rfl rfl rfl
  have enters := leaves inOrder (thing :: w.holds)
  rw [Action.after_holding]
  refine (inside _ enters).mono ?_ ?_
  · intro a later done
    have out := leaves (course.moves done.1).inOrder w.holds
    exact ⟨course.trans (course.trans enters done.1) out, lasting a later _ done.2 out⟩
  · intro error later done
    have out := leaves (course.moves done.1).inOrder w.holds
    exact ⟨course.trans (course.trans enters done.1) out, lasts later _ done.2 out⟩

theorem leadsIf_rules (course : Course leads) (lasting : Lasting leads known) :
    ScriptRules (fun {_} action => LeadsIf leads known c a action) :=
  rules_forall fun _ => Regime.rules (.of
    (fun here aside => course.rows here.1.inOrder aside.calm aside.contexts aside.applications aside.sessions)
    (fun here led => ⟨here.1.moves (course.moves led), lasting _ _ here.2 led⟩) course.trans)

theorem ordered_rules : ScriptRules (fun {_} action => Ordered c a action) := leadsIf_rules course_orders lasting_true

end Action

structure Host.Ordered (host : Host) : Prop where
  touches : ∀ body c a, body.all Step.isTouch = true → Action.Ordered c a (host.run body c)
  accesses : ∀ body c a, areAccesses body = true → OrderedIf Grounded c a (host.run body c)

theorem Host.Ordered.hook {l : ListenerId} {hook : Hook} {f : FunctionId} (ordered : host.Ordered) (sane : w.Sane)
    (hooked : (w.listener l).hook hook = some f) (c : ContextId) (a : ApplicationId) :
    OrderedIf w.Calm c a (host.run (w.function f).body c) := by
  rintro r later ⟨work, calm⟩
  rcases sane.code with grounded | tame
  · exact ordered.accesses _ c a (sane.hooks l hook f hooked) r later ⟨work, calm.grounded grounded⟩
  · exact ordered.touches _ c a (tame l hook f hooked) r later ⟨work, trivial⟩

theorem after_callContext_atWork (work : w.AtWork c r a) (f : FunctionId) (arguments : ScopeId) :
    (callContext f c arguments).After w (fun d later => w.Orders later ∧ later.AtWork d r a) (fun _ => w.Orders) := by
  have calls := (after_callContext_calm f arguments work.running.issued).and (after_callContext_opens f arguments)
  refine calls.mono (fun d later done => ?_) (fun _ _ never => never.2.elim)
  obtain ⟨⟨calm, issued, home⟩, context, -, plain, -, same⟩ := done
  let framed := (w.addScope (.new ScopeName.locals.key)).2
  have frames : w.Orders framed := work.inOrder.orders_of_rows (calm_of_same rfl rfl rfl rfl rfl (Int.le_refl _)) rfl rfl rfl
  have opens : framed.Orders later := by
    rw [same]
    exact frames.inOrder.orders_addContext (work.sane.calm frames.calm) plain
  have orders := frames.trans opens
  refine ⟨orders, (work.orders orders).sane, orders.inOrder, issued, home.trans work.running.home, ?_⟩
  exact (work.orders orders).running.anchored

section Hooks

variable (ordered : host.Ordered)
include ordered

theorem ordered_callHook (l : ListenerId) (hook : Hook) (values : List Value) :
    Ordered c a (callHook host l hook c values) := by
  rintro r w ⟨work, knows⟩
  simp only [callHook, after_bind, after_get]
  cases hooked : (w.listener l).hook hook with
  | none => exact work.inOrder.orders
  | some f =>
    simp only [invoke, after_bind]
    refine (ordered_rules.bindArguments f _ r w ⟨work, knows⟩).mono_ok (fun scope bound first => ?_)
    refine (after_callContext_atWork (work.orders first) f scope).mono (fun d opened called => ?_)
      (fun _ _ second => first.trans second)
    have before := first.trans called.1
    have runs := (leadsIf_rules course_orders (course_orders.lasting_calm w)).holding (.context d)
      (ordered.hook work.sane hooked d a)
    rw [after_get, before.calm.hooked hooked]
    exact (runs r opened ⟨called.2, before.calm⟩).imp fun _ next => before.trans next

/-- Only a session that is not on file any more is ended. -/
theorem after_shutdownSession_orders (s : SessionId) (l : ListenerId) (scope : ScopeId) (work : w.AtWork c r a)
    (out : w.FiledWith none s) :
    (shutdownSession host s c l scope).After w (fun _ later => w.Orders later ∧ (later.session s).shutDown = true)
      (fun _ later => w.Orders later ∧ (later.session s).shutDown = true) := by
  have ends : w.Orders (w.endSession s).2 := (work.inOrder.unfiles (w.unfiles_endSession s out)).orders_of_contexts
    (calm_of_same rfl rfl rfl rfl rfl (Int.le_refl _)) rfl
  have spent := shutDown_endSession (w := w) out.issued
  have rest : Ordered c a (do
      let session := (← get).session s
      if !(w.endSession s).1 && session.started then
        let _ ← callHook host l .sessionEnd c [.struct session.scope, .struct scope]) := by
    refine ordered_rules.bind ordered_rules.get fun w => ?_
    dsimp only
    split
    · exact ordered_rules.bind (ordered_callHook ordered l _ _) fun _ => ordered_rules.pure _
    · exact ordered_rules.pure _
  rw [shutdownSession, after_bind, after_modifyGet]
  exact (rest r _ ⟨work.orders ends, trivial⟩).imp fun _ next => ⟨ends.trans next, next.refiles.spent s spent⟩

theorem after_retireSession_orders (work : w.AtWork c r a) (out : w.FiledWith none s) :
    (retireSession host c a s).After w (fun _ later => w.Orders later ∧ (later.session s).shutDown = true)
      (fun _ later => w.Orders later ∧ (later.session s).shutDown = true) := by
  have lasts : Lasting Orders fun later => (later.session s).shutDown = true := fun _ _ spent orders =>
    orders.refiles.spent s spent
  have ends : ∀ (middle : World) (place t : ContextId) l scope, w.Orders middle → middle.AtWork place t a →
      (holding (.listener l) do
        let _ ← attempt (entering place (shutdownSession host s place l scope))).After middle
        (fun _ later => w.Orders later ∧ (later.session s).shutDown = true)
        (fun _ later => w.Orders later ∧ (later.session s).shutDown = true) := by
    intro middle place t l scope before working
    refine (course_orders.after_holding working.inOrder (fun _ => lasts) lasts fun held enters => ?_).imp
      fun _ done => ⟨before.trans done.1, done.2⟩
    rw [after_bind, after_attempt]
    refine course_orders.after_holding (working.orders enters).inOrder (fun _ => lasts) lasts fun inner enters' => ?_
    exact after_shutdownSession_orders ordered s l scope ((working.orders enters).orders enters')
      (out.refiles ((before.trans enters).trans enters').refiles)
  simp only [retireSession, after_bind, after_get]
  cases w.nearest c .server with
  | none => exact ends w c r _ _ work.inOrder.orders work
  | some server =>
    simp only [after_bind, after_modifyGet]
    obtain ⟨opens, working⟩ := AtWork.newDetached work.sane work.inOrder server work.issued
    exact ends _ _ _ _ _ opens working

section

variable (b : ApplicationId) (l : ListenerId) (report : ShutdownReport)

theorem ordered_closeSession (id : Key) : Ordered c a (closeSession host b c l report id) := by
  rintro r w ⟨work, -⟩
  have takes := work.inOrder.loses_takeSession b id
  have calm := w.calm_takeSession b id
  simp only [closeSession, after_bind, after_modifyGet]
  cases found : (w.takeSession b id).1 with
  | none =>
    rw [show (w.application b).sessions.find? id = none from found] at takes
    exact takes.orders_of_contexts calm rfl
  | some s =>
    rw [show (w.application b).sessions.find? id = some s from found] at takes
    have working : (w.takeSession b id).2.AtWork c r a :=
      ⟨work.sane.calm calm, takes.inOrder, work.running.calm work.sane calm⟩
    simp only [after_bind, after_get, after_attempt]
    exact (after_shutdownSession_orders ordered s l _ working (work.inOrder.takeSession found)).imp
      fun _ next => takes.orders calm rfl next.1 next.2

theorem ordered_close :
    Ordered c a (holding (.application b) <| holding (.listener l) <| entering c do
      endApplication host b c l (← drainSessions host b c l host.patience report)) :=
  ordered_rules.close (ordered_callHook ordered) (ordered_closeSession ordered b) l report

end

end Hooks

end ScopeEngine
