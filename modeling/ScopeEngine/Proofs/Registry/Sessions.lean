import ScopeEngine.Proofs.Registry.Hooks

/-! Touching the session of a request that has an application. The session that a touch answers with, like any session that
it splices in on the way, is on file with that application or not at all. So scopes may be read and written in hooks, and
the hooks of sessions may nest. -/

namespace ScopeEngine

open ScopeEngine.Action Script World

variable {α : Type} {host : Host} {w later : World} {a : ApplicationId} {s : SessionId} {c r : ContextId}

/-- The session goes by the id of the request, and no application but that of the request has it in its map. -/
structure World.Own (w : World) (r : ContextId) (a : ApplicationId) (s : SessionId) : Prop where
  issued : s.number < w.sessions.size
  only : ∀ b, w.Mapped b s → b = a
  named : ∃ id, w.GoesBy r id ∧ ((w.session s).id == id) = true

theorem World.Own.filedWith (own : w.Own r a s) : w.FiledWith (some a) s :=
  ⟨own.issued, fun b _ mapped => congrArg some (own.only b mapped).symm⟩

theorem World.Own.orders (own : w.Own r a s) (orders : w.Orders later) : later.Own r a s where
  issued := own.filedWith.refiles orders.refiles |>.issued
  only := fun b mapped => own.only b (orders.refiles.mapped b s own.issued mapped)
  named := by
    obtain ⟨id, goes, same⟩ := own.named
    exact ⟨id, orders.goesBy r id goes, by rw [orders.refiles.label s own.issued]; exact same⟩

theorem lasting_own (r : ContextId) (a : ApplicationId) (s : SessionId) : Lasting Orders (·.Own r a s) :=
  fun _ _ own orders => own.orders orders

theorem ordered_spliceSession (s : SessionId) : OrderedIf (·.Own r a s) r a (spliceNew r (.session s)) := by
  rintro t w ⟨work, own⟩
  obtain ⟨id, ⟨request, there, goes⟩, same⟩ := own.named
  cases (home_self (show w.standing r = some (w.standingOf request) by rw [World.standing, there]; rfl)).symm.trans
    work.running.home
  let noded := (w.addNode (.session s)).2
  let node := w.contexts.next
  have adds : w.Orders noded := work.inOrder.orders_addContext work.sane rfl
  have kind : (noded.context node).kind = .session s := w.kind_addNode _
  have place : noded.nodeSession node = some s := by rw [nodeSession, kind]
  have known : node.number < noded.contexts.size := Table.next_lt_size_add ..
  have running := (work.orders adds).running
  obtain ⟨standing, anchored⟩ := running.anchored
  have there : (noded.context r).request? = some request :=
    (congrArg Context.request? (context_addContext_of_lt w _ (issued_of_request there))).trans there
  have application : (noded.standingOf request).application = some a := by
    have same : noded.standingOf request = standing := by
      simpa only [World.standing, there, Option.map_some, Option.some.injEq] using anchored.at_
    rw [same]
    exact anchored.holds
  rw [After, spliceNew_eq r _ rfl, requestOf_self there]
  refine adds.trans ⟨⟨adds.inOrder.modifyRequest r (·.splice (.session node)) ?_ ?_, noded.calm_spliceSession r node⟩, fun _ _ goes =>
    noded.goesBy_modifyRequest _ (fun _ _ named => named) goes⟩
  · intro now other _ spliced
    cases (now.sessionNode_splice_session node).symm.trans spliced
    exact known
  · intro now t here held
    cases there.symm.trans here
    rw [standingOf_splice_session] at held ⊢
    cases place.symm.trans held
    have owns := own.orders adds
    have filedWith := owns.filedWith
    rw [← application] at filedWith
    refine ⟨filedWith, fun _ => ⟨⟨id, goes, same⟩, fun b mapped => .inl ?_⟩⟩
    rw [owns.only b mapped]
    exact application

theorem ordered_settleSession (s : SessionId) (cause : Option Error) :
    OrderedIf (·.Own r a s) c a (settleSession a s cause) := by
  have rules := leadsIf_rules course_orders (lasting_own r a s) (c := c) (a := a)
  cases cause with
  | none =>
    refine rules.bind (ordered_modify fun w inOrder => ?_) fun _ => rules.bind (ordered_modify fun w inOrder => ?_) fun _ =>
      rules.pure _
    · exact inOrder.orders_modifySession s (fun session => { session with started := true }) fun _ => rfl
    · exact inOrder.orders_modifySession s (fun session => { session with starting := false }) fun _ => rfl
  | some cause =>
    rintro r w ⟨work, own⟩
    have refuses : w.Calm (w.sessionRefused s) := calm_of_same rfl rfl rfl rfl rfl (Int.le_refl _)
    have files := work.inOrder.refuseSession own.filedWith
    have contexts : ((w.sessionRefused s).dropSession a s).2.contexts = w.contexts :=
      ((w.sessionRefused s).thins_dropSession a s).contexts
    have drops := files.orders_of_contexts (refuses.trans (calm_dropSession _ a s)) contexts
    simp only [settleSession, after_bind, after_modify, after_modifyGet, after_get, after_fail]
    exact drops.trans (drops.inOrder.orders_modifySession s (fun session => { session with starting := false }) fun _ => rfl)

theorem ordered_exciseSession : Ordered c a (excise c .session) :=
  ordered_modifyGet fun _ inOrder => inOrder.orders_excise c

theorem after_chooseSessionId_orders {request : Request} (inOrder : w.InOrder)
    (there : (w.context r).request? = some request) :
    (chooseSessionId r request).After w (fun id later => w.Orders later ∧ later.GoesBy r id) (fun _ _ => False) := by
  simp only [chooseSessionId]
  split
  next id named => exact ⟨inOrder.orders, request, there, named⟩
  next unnamed =>
    let drawn := w.drawSessionId.2
    let id := w.drawSessionId.1
    have draws : w.Orders drawn := inOrder.orders_of_rows (calm_of_same rfl rfl rfl rfl rfl (Int.le_refl _)) rfl rfl rfl
    have still : (drawn.context r).request? = some request := there
    have points := draws.inOrder.moves_setSessionId r id fun now s here held live => by
      cases still.symm.trans here
      obtain ⟨⟨id, named, -⟩, -⟩ := draws.inOrder.suits r _ s (by rw [World.standing, still]; rfl) held live
      cases unnamed.symm.trans named
    simp only [after_bind, after_modifyGet, after_modify, after_pure]
    refine ⟨draws.trans ⟨points, fun t key goes => drawn.goesBy_modifyRequest r (fun now here named => ?_) goes⟩, ?_⟩
    · cases still.symm.trans here
      cases unnamed.symm.trans named
    · refine ⟨{ request with sessionId := some id }, ?_, rfl⟩
      rw [request?_modifyRequest, if_pos rfl, still]
      rfl

section Sessions

variable (ordered : host.Ordered)
include ordered

theorem ordered_adoptSession (s : SessionId) (l : ListenerId) :
    OrderedIf (·.Own r a s) r a (adoptSession host r a s l) := by
  have rules := leadsIf_rules course_orders (lasting_own r a s) (c := r) (a := a)
  have begins : OrderedIf (·.Own r a s) r a (modify (·.beginSessionStart s)) := ordered_modify fun _ inOrder =>
    inOrder.orders_modifySession s (fun session => { session with starting := true }) fun _ => rfl
  exact rules.adoptSession (ordered_spliceSession s)
    (rules.startSession begins (fun l _ _ => (ordered_callHook ordered l _ _).given) (ordered_settleSession s))
    (ordered_modify fun _ inOrder => inOrder.orders_touchSession s) ordered_exciseSession.given l

/-- A session that was found is on file with the application that it was looked up in, unless it ended meanwhile. -/
theorem after_acquireSession_orders (work : w.AtWork r r a) {id : Key} (goes : w.GoesBy r id) (l : ListenerId)
    (fuel : Nat) : (acquireSession host r a id l fuel).After w
      (fun got later => w.Orders later ∧ ∀ s, got = .session s → later.FiledWith (some a) s) (fun _ => w.Orders) := by
  induction fuel generalizing w with
  | zero => trivial
  | succ fuel ih =>
    let found := (w.findOrCreateSession a id).2
    obtain ⟨loses, places⟩ := work.inOrder.findOrCreateSession work.issued id
    have calm : w.Calm found := w.calm_findOrCreateSession a id
    have contexts : found.contexts = w.contexts := w.contexts_findOrCreateSession a id
    have working : found.AtWork r r a := ⟨work.sane.calm calm, loses.inOrder, work.running.calm work.sane calm⟩
    simp only [acquireSession, after_bind, after_modifyGet]
    cases looked : (w.findOrCreateSession a id).1 with
    | none =>
      rw [looked] at loses
      exact ⟨loses.orders_of_contexts calm contexts, fun _ closed => by cases closed⟩
    | some placed =>
      rw [looked] at loses
      obtain ⟨mapped, named, out⟩ := places placed looked
      have own : found.Own r a placed.session := by
        refine ⟨loses.inOrder.issued mapped, fun b other => loses.inOrder.alone b a _ other mapped, id, ?_, named⟩
        rw [GoesBy, context, contexts]
        exact goes
      have ends : ∀ middle, w.Orders middle → middle.Own r a placed.session →
          (do
            if ← adoptSession host r a placed.session l then pure (Acquired.session placed.session)
            else acquireSession host r a id l fuel).After middle
            (fun got later => w.Orders later ∧ ∀ s, got = Acquired.session s → later.FiledWith (some a) s)
            (fun _ => w.Orders) := by
        intro middle before own
        have working := work.orders before
        rw [after_bind]
        refine (ordered_adoptSession ordered placed.session l r middle ⟨working, own⟩).mono ?_
          (fun _ _ next => before.trans next)
        intro adopted after adopts
        cases adopted with
        | true =>
          refine ⟨before.trans adopts, fun s same => ?_⟩
          cases same
          exact own.filedWith.refiles adopts.refiles
        | false =>
          have onward := before.trans adopts
          exact (ih (working.orders adopts) (onward.goesBy r id goes)).mono
            (fun _ _ done => ⟨onward.trans done.1, done.2⟩) (fun _ _ next => onward.trans next)
      dsimp only
      cases stale : placed.stale with
      | none =>
        rw [Option.bind_some, stale] at loses
        exact ends _ (loses.orders_of_contexts calm contexts) own
      | some old =>
        rw [Option.bind_some, stale] at loses
        rw [after_bind]
        refine (after_retireSession_orders ordered working (out old stale)).mono ?_
          (fun _ _ retires => loses.orders calm contexts retires.1 retires.2)
        exact fun _ middle retires => ends middle (loses.orders calm contexts retires.1 retires.2) (own.orders retires.1)

variable (serene : host.Serene)
include serene

theorem after_claimSession_orders (work : w.AtWork r r a) {request : Request}
    (usable : request.detached = true ∨ (w.application a).isDefunct = false) {id : Key} (goes : w.GoesBy r id)
    (again : Action (Option SessionId)) : (claimSession host r request a id again).After w
      (fun found later => w.Orders later ∧ ∀ s, found = some s → later.FiledWith (some a) s) (fun _ => w.Orders) := by
  have lasting : ∀ found : Option SessionId, Lasting Orders fun later =>
      ∀ s, found = some s → later.FiledWith (some a) s :=
    fun _ _ _ owns orders s same => (owns s same).refiles orders.refiles
  suffices (claimSession host r request a id again).After w
      (fun found later => w.Orders later ∧ ∀ s, found = some s → later.FiledWith (some a) s)
      (fun _ later => w.Orders later ∧ True) from this.mono (fun _ _ done => done) (fun _ _ done => done.1)
  refine course_orders.after_holding work.inOrder lasting lasting_true fun outer first => ?_
  refine course_orders.after_holding first.inOrder lasting lasting_true fun inner second => ?_
  have before := first.trans second
  have working := work.orders before
  rw [after_bind]
  refine ((after_acquireSession_orders ordered working (before.goesBy r id goes) _ _).and
    (after_acquireSession_calm serene working.sane working.running id _ _)).mono ?_ (fun _ _ done => ⟨done.1, trivial⟩)
  intro got later done
  obtain ⟨⟨looks, owns⟩, -, closed⟩ := done
  cases got with
  | session s =>
    refine ⟨looks, fun t same => ?_⟩
    cases same
    exact owns s rfl
  | closed =>
    have defunct := closed rfl
    rw [isDefunct_eq_of_marks (before.calm.marks a)] at defunct
    have detached := usable.resolve_right (by rw [defunct]; exact Bool.noConfusion)
    simp only [detached, if_true]
    exact ⟨looks, trivial⟩

/-- Once the application is there, the rest of a touch of the session leaves everything in order, in whatever way it came to
be there. -/
theorem after_touchSessionOf_orders {P : World → Prop} (home : w.home c = some r) (kept : P w) (steps : Lasting Orders P)
    (ensures : (ensureApplication host r).After w
      (fun found later => P later ∧ ∀ a, found = some a → later.AtWork r r a) (fun _ => P)) (fuel : Nat) :
    (touchSessionOf host c fuel).After w
      (fun found later => P later ∧ ∀ s, found = some s → ∃ a, later.AtWork r r a ∧ later.FiledWith (some a) s)
      (fun _ => P) := by
  cases fuel with
  | zero => trivial
  | succ fuel =>
    obtain ⟨request, found, -⟩ := requestOf_home home
    have nothing : ∀ middle, P middle → P middle ∧ ∀ s, (none : Option SessionId) = some s →
        ∃ a, middle.AtWork r r a ∧ middle.FiledWith (some a) s := fun _ kept => ⟨kept, fun _ none => by cases none⟩
    simp only [touchSessionOf, after_bind, after_get, found]
    split
    · exact nothing w kept
    · rw [after_bind]
      refine ensures.mono_ok (fun touched ready reached => ?_)
      obtain ⟨reached, known⟩ := reached
      cases touched with
      | none => exact nothing ready reached
      | some a =>
        have work := known a rfl
        obtain ⟨now, there, usable⟩ := work.running.usable
        simp only [after_bind, after_get, there, Option.getD_some]
        refine (after_chooseSessionId_orders work.inOrder there).sure (fun id chosen done => ?_)
        obtain ⟨chooses, goes⟩ := done
        have answers : ∀ middle s, ready.Orders middle → middle.FiledWith (some a) s →
            P middle ∧ ∀ t, some s = some t → ∃ a, middle.AtWork r r a ∧ middle.FiledWith (some a) t := by
          intro middle s orders own
          refine ⟨steps _ _ reached orders, fun t same => ?_⟩
          cases same
          exact ⟨a, work.orders orders, own⟩
        have claims : ∀ middle, ready.Orders middle → middle.GoesBy r id →
            (claimSession host r now a id (touchSessionOf host r fuel)).After middle
              (fun found later => P later ∧ ∀ s, found = some s → ∃ a, later.AtWork r r a ∧ later.FiledWith (some a) s)
              (fun _ => P) := by
          intro middle orders goes
          rw [← isDefunct_eq_of_marks (orders.calm.marks a)] at usable
          refine (after_claimSession_orders ordered serene (work.orders orders) usable goes _).mono ?_
            (fun _ _ claims => steps _ _ reached (orders.trans claims))
          intro found later done
          cases found with
          | none => exact nothing later (steps _ _ reached (orders.trans done.1))
          | some s => exact answers later s (orders.trans done.1) (done.2 s rfl)
        cases spliced : chosen.splicedSession r with
        | none => exact claims chosen chooses goes
        | some s =>
          dsimp only
          split
          · have own : chosen.FiledWith (some a) s := by
              have working := work.orders chooses
              obtain ⟨standing, anchored⟩ := working.running.anchored
              obtain ⟨own, here, rfl⟩ := Option.map_eq_some_iff.mp anchored.at_
              rw [← anchored.holds]
              apply working.inOrder.seated r _ s anchored.at_
              rw [← splicedSession_eq (requestOf_self here)]
              exact spliced
            have visits := chooses.inOrder.orders_touchSession s
            exact answers _ s (chooses.trans visits) (own.refiles visits.refiles)
          · rw [after_bind]
            have excises := chooses.inOrder.orders_excise r
            exact claims _ (chooses.trans excises) (excises.goesBy r id goes)

theorem ordered_ensureSession : Ordered c a (ensureSession host c) := by
  rintro r w ⟨work, -⟩
  have touches := work.inOrder.orders_touchApplication a
  have ensures : (ensureApplication host r).After w
      (fun found later => w.Orders later ∧ ∀ a, found = some a → later.AtWork r r a) (fun _ => w.Orders) := by
    refine (after_ensureApplication_spliced work.here.running).sure ?_
    intro found later done
    obtain ⟨rfl, rfl⟩ := done
    refine ⟨touches, fun b same => ?_⟩
    cases same
    exact work.here.orders touches
  exact (after_touchSessionOf_orders ordered serene work.running.home work.inOrder.orders (fun _ _ => Orders.trans)
    ensures host.patience).mono_ok (fun _ _ done => done.1)

end Sessions

theorem ordered_ensureApplication : Ordered c a (ensureApplication host c) := by
  rintro r w ⟨work, -⟩
  refine (after_ensureApplication_spliced work.running).sure (fun found later done => ?_)
  rw [done.2]
  exact work.inOrder.orders_touchApplication a

section Accesses

variable (ordered : host.Ordered) (serene : host.Serene)
include ordered serene

theorem ordered_named {key : Key} {action : Action ScopeId} (asks : AsksScope host c key action) : Ordered c a action := by
  rintro r w ⟨work, -⟩
  refine asks.after work.inOrder.orders (fun t home => ?_) (fun t home => ?_)
  · cases home.symm.trans work.running.home
    exact ordered_rules.applicationScope ordered_ensureApplication key r w ⟨work.here, trivial⟩
  · cases home.symm.trans work.running.home
    exact ordered_rules.sessionScope (ordered_ensureSession ordered serene) key r w ⟨work.here, trivial⟩

theorem ordered_visits (c : ContextId) (a : ApplicationId) : VisitRules host c (fun {_} action => Ordered c a action) where
  toScopeRules := ordered_rules.toScopeRules
  nearby := fun _ => ordered_named ordered serene .nearby
  global := fun _ => ordered_named ordered serene .global
  application := ordered_ensureApplication
  session := ordered_ensureSession ordered serene

theorem ordered_touches (c : ContextId) (a : ApplicationId) :
    TouchRules host c (fun {_} action => OrderedIf Grounded c a action) where
  toScopeRules := (leadsIf_rules course_orders course_orders.lasting_grounded).toScopeRules
  declares := ⟨fun beside _ w here => here.1.inOrder.orders_of_rows ((beside w).calm (.inl here.2))
    (beside w).contexts (beside w).applications (beside w).sessions⟩
  nearby := fun key => ((ordered_visits ordered serene c a).nearby key).given
  global := fun key => ((ordered_visits ordered serene c a).global key).given
  application := ordered_ensureApplication.given
  session := (ordered_ensureSession ordered serene).given

end Accesses

/-- However deep hooks may nest, they leave everything in order if they only read and write scopes. -/
theorem ordered_execute (fuel : Nat) : (hostOf (execute fuel)).Ordered := by
  induction fuel using Nat.strongRecOn with
  | ind fuel ih =>
    constructor
    · intro body c a touches
      refine ordered_rules.runBody fun step member => ?_
      exact ordered_rules.executeTouch fuel (fun n less => ordered_visits (ih n less) (serene_execute n) c a) true
        (List.all_eq_true.mp touches step member)
    · intro body c a accesses
      have rules := leadsIf_rules (c := c) (a := a) course_orders course_orders.lasting_grounded
      refine rules.runBody fun step member => ?_
      exact rules.execute fuel (fun n less => ordered_touches (ih n less) (serene_execute n) c a) true
        (allows_of_mem accesses member)

end ScopeEngine
