import ScopeEngine.Proofs.Readiness.Hooks
import ScopeEngine.Proofs.SessionsOff.Hooks

/-! Touching applications and sessions, and code that changes its own request. A touch of the session reads the settings of its
request first and starts the application then. If hooks that let the application start leave session management as it is, the
request still asks for a session when one is spliced in; a request that stops asking for sessions loses the one it has. -/

namespace ScopeEngine

open ScopeEngine.Action World Script

variable {α β : Type} {host : Host} {start w later last : World} {a : ApplicationId} {s : SessionId} {c r : ContextId}
  {request : Request}

/-- An application start hook that is entered with session management on and lets the start proceed leaves it on. -/
def Host.Steady (start : World) (host : Host) : Prop :=
  ∀ (l : ListenerId) (r : ContextId) (w later : World) (value : Value), start.Carries w → w.On r →
    callHook host l .applicationStart r [] w = (.ok value, later) → proceeds value = true → later.On r

namespace World

structure Guards (start : World) (r : ContextId) (w later : World) : Prop extends Minds start r w later where
  on : w.On r → later.On r

theorem Guards.trans (first : Guards start r w later) (second : Guards start r later last) : Guards start r w last :=
  { first.toMinds.trans second.toMinds with on := fun before => second.on (first.on before) }

theorem Avoids.guards (avoids : Avoids start w later) (r : ContextId) : Guards start r w later :=
  { avoids.minds r with on := avoids.on }

theorem on_modifyRequest {change : Request → Request} (settings : ∀ request, (change request).settings = request.settings)
    (on : w.On r) : (w.modifyRequest r change).On r := by
  obtain ⟨request, there, wanted⟩ := on
  refine ⟨change request, ?_, by rw [settings]; exact wanted⟩
  rw [request?_modifyRequest, if_pos rfl, there]
  rfl

section Splicing

variable (modest : Modest start w)
include modest

theorem Modest.excise (home : w.home c = some r) (type : ContextType) : Guards start r w (w.excise c type).2 := by
  obtain ⟨request, found, there⟩ := requestOf_home home
  have sheds : request.Sheds (request.excise type) := .excise ⟨.inr rfl, .inr rfl⟩ type
  simp only [World.excise, found]
  exact { modest.sameSettings there rfl sheds with on := on_modifyRequest fun _ => rfl }

theorem Modest.setSessionId (there : (w.context r).request? = some request) (id : Key) :
    Guards start r w (w.modifyRequest r fun request => { request with sessionId := some id }) :=
  { modest.sameSettings there rfl ⟨.inr rfl, .inr rfl⟩ with on := on_modifyRequest fun _ => rfl }

end Splicing

end World

/-- A session is spliced in where the request asks for one, an application where there is a server. -/
theorem after_spliceNew_guards {kind : ContextKind} (modest : start.Modest w) (home : w.home r = some r)
    (fits : (∃ s, kind = .session s ∧ w.On r) ∨ ∃ a, kind = .application a ∧ w.Served r) :
    (spliceNew r kind).After w (fun _ => start.Guards r w) (fun _ _ => False) := by
  let noded := (w.addNode kind).2
  let node := w.contexts.next
  have adds : start.Avoids w noded := by
    refine modest.apart (w.apart_addContext fun request at_ => ?_)
    rcases fits with ⟨s, rfl, _⟩ | ⟨a, rfl, _⟩
    · cases at_
    · cases at_
  have here : noded.context node = _ := context_addContext_next ..
  have known : node.number < noded.contexts.size := Table.next_lt_size_add ..
  obtain ⟨request, found, there⟩ := requestOf_home ((adds.minds r).home home)
  have spliced := spliced_of_request there
  rcases fits with ⟨s, rfl, on⟩ | ⟨a, rfl, served⟩
  · rw [After, spliceNew_eq r _ rfl, found]
    obtain ⟨wanting, at_, wanted⟩ := adds.on on
    cases there.symm.trans at_
    have changes : start.Minds r noded (noded.modifyRequest r fun request =>
        request.splice (.session node)) := by
      apply adds.modest.modifyRequest there
      · intro off
        cases wanted.symm.trans off
      · intro other member
        rw [Request.sessionNode_splice_session, Request.applicationNode_splice_session] at member
        rcases List.mem_append.mp member with new | old
        · cases List.mem_singleton.mp new
          exact known
        · exact adds.modest.nodes r other (spliced ▸ List.mem_append_right _ old)
      · rw [Request.applicationNode_splice_session]
        exact adds.modest.served r request there
    exact (adds.guards r).trans { changes with on := on_modifyRequest fun _ => rfl }
  · rw [After, spliceNew_eq r _ rfl, found]
    have changes : start.Minds r noded (noded.modifyRequest r fun request =>
        request.splice (.application node)) := by
      apply adds.modest.modifyRequest there
      · rw [Request.sessionNode_splice_application]
        exact adds.modest.proper r request there
      · intro other member
        rw [Request.sessionNode_splice_application, Request.applicationNode_splice_application] at member
        rcases List.mem_append.mp member with old | new
        · exact adds.modest.nodes r other (spliced ▸ List.mem_append_left _ old)
        · cases List.mem_singleton.mp new
          exact known
      · exact fun _ => (adds.minds r).served (issued_of_home home) served
    exact (adds.guards r).trans { changes with on := on_modifyRequest fun _ => rfl }

namespace Action

abbrev Guards (start : World) (c r : ContextId) (action : Action α) : Prop :=
  Under (fun w => start.Modest w ∧ w.home c = some r ∧ w.Served r) (start.Guards r) (start.Minds r) action

theorem regime_guards :
    Regime (fun w => start.Modest w ∧ w.home c = some r ∧ w.Served r) (start.Guards r) (start.Minds r) where
  aside := fun here aside => (here.1.beside aside.toBeside).guards r
  keeps := fun here done =>
    ⟨done.modest, done.home here.2.1, done.served (issued_of_home (home_home here.2.1)) here.2.2⟩
  trans := .trans
  falls := fun led done => led.toMinds.trans done
  ends := fun _ done aside => done.trans ((done.modest.beside aside.toBeside).minds r)

theorem Avoids.guards {action : Action α} (avoids : Avoids start action) : Guards start c r action :=
  fun w here => (avoids w here.1).mono (fun _ _ done => done.guards r) (fun _ _ done => done.minds r)

def Fills (start : World) (r : ContextId) (action : Action α) : Prop :=
  ∀ w, start.Modest w → w.home r = some r → w.On r → w.Served r →
    action.After w (fun _ => start.Minds r w) (fun _ => start.Minds r w)

theorem Fills.holding {action : Action α} (fills : Fills start r action) (thing : Hold) :
    Fills start r (holding thing action) := by
  intro w modest home on served
  have holds : ∀ {w : World} holds, start.Modest w → start.Avoids w { w with holds } := fun holds modest =>
    modest.beside (beside_holds holds).toBeside
  have enters := holds (thing :: w.holds) modest
  have near := enters.minds r
  have leaves : ∀ later, start.Minds r _ later → start.Minds r w { later with holds := w.holds } :=
    fun _ done => (near.trans done).trans ((holds _ done.modest).minds r)
  rw [after_holding]
  exact (fills _ enters.modest (near.home home) (enters.on on) (near.served (issued_of_home home) served)).imp leaves

end Action

theorem avoids_modify {change : World → World}
    (same : ∀ w, ((change w).contexts, (change w).listeners, (change w).functions) =
      (w.contexts, w.listeners, w.functions)) : Avoids start (modify change) :=
  avoids_instances same

theorem avoids_findOrCreateApplication (name : Key) (settings : Settings) :
    Avoids start (modifyGet (·.findOrCreateApplication name settings)) := by
  refine avoids_instances fun w => ?_
  simp only [findOrCreateApplication]
  split
  · split <;> rfl
  · rfl

theorem avoids_findOrCreateSession (a : ApplicationId) (id : Key) :
    Avoids start (modifyGet (·.findOrCreateSession a id)) := by
  refine avoids_instances fun w => ?_
  simp only [findOrCreateSession, placeSession]
  split
  · rfl
  · split
    · split <;> rfl
    · rfl

theorem avoids_unregister (a : ApplicationId) : Avoids start (modifyGet (·.unregister a)) := by
  refine avoids_instances fun w => ?_
  simp only [unregister]
  split <;> rfl

theorem avoids_dropSession (a : ApplicationId) (s : SessionId) : Avoids start (modifyGet (·.dropSession a s)) := by
  refine avoids_instances fun w => ?_
  simp only [dropSession]
  split <;> rfl

theorem avoids_touchSession (s : SessionId) : Avoids start (modify (·.touchSession s)) := by
  refine avoids_modify fun w => ?_
  simp only [touchSession]
  split <;> rfl

section

variable (modest : start.Modest w) (a : ApplicationId)
include modest

theorem after_settleApplication_started (l : ListenerId) :
    (settleApplication a l none).After w (fun _ => start.Avoids w) (fun _ _ => False) := by
  simp only [settleApplication, after_bind, after_modify, after_pure]
  exact modest.elsewhere rfl (carries_of_same rfl rfl)

theorem after_settleApplication_refused (l : ListenerId) (cause : Error) :
    (settleApplication a l (some cause)).After w (fun _ _ => False) (fun _ => start.Avoids w) := by
  have refuses : start.Avoids w (w.applicationRefused a) := modest.elsewhere rfl (carries_of_same rfl rfl)
  simp only [settleApplication, after_bind, after_modify, after_get, after_fail]
  refine (avoids_unregister a _ refuses.modest).mono (fun _ _ done => ?_) (fun _ _ done => refuses.trans done)
  exact (refuses.trans done).trans (done.modest.elsewhere rfl (carries_of_same rfl rfl))

theorem after_settleSession_avoids (s : SessionId) (cause : Option Error) :
    (settleSession a s cause).After w (fun started later => started = true ∧ start.Avoids w later)
      (fun _ => start.Avoids w) := by
  cases cause with
  | none => exact ⟨rfl, modest.elsewhere rfl (carries_of_same rfl rfl)⟩
  | some cause =>
    have refuses : start.Avoids w (w.sessionRefused s) := modest.elsewhere rfl (carries_of_same rfl rfl)
    simp only [settleSession, after_bind, after_modify, after_get, after_fail]
    refine (avoids_dropSession a s _ refuses.modest).mono (fun _ _ done => ?_) (fun _ _ done => refuses.trans done)
    exact (refuses.trans done).trans (done.modest.elsewhere rfl (carries_of_same rfl rfl))

end

theorem after_chooseSessionId_guards (modest : start.Modest w) (home : w.home r = some r) (request : Request) :
    (chooseSessionId r request).After w (fun _ => start.Guards r w) (fun _ _ => False) := by
  obtain ⟨_, _, there⟩ := requestOf_home home
  rw [chooseSessionId]
  cases request.sessionId with
  | some id => exact (World.Avoids.refl modest).guards r
  | none =>
    have draws : start.Avoids w w.drawSessionId.2 := modest.elsewhere rfl (carries_of_same rfl rfl)
    have there : (w.drawSessionId.2.context r).request? = some _ := there
    exact (draws.guards r).trans (draws.modest.setSessionId there _)

section Starting

variable (own : start.OwnHooks) (minds : host.Minds start)
include own minds

section Applications

variable (steady : host.Steady start)
include steady

/-- A start hook that lets the start proceed leaves session management on. -/
theorem after_applicationStart (modest : start.Modest w) (home : w.home r = some r) (l : ListenerId) :
    (callHook host l .applicationStart r []).After w
      (fun value later => start.Minds r w later ∧ (proceeds value = true → w.On r → later.On r))
      (fun _ => start.Minds r w) := by
  have runs := minds_callHook own minds l .applicationStart [] w ⟨modest, home⟩
  unfold After at runs ⊢
  split at runs
  next value later ran => exact ⟨runs, fun proceeds on => steady l r w later value modest.carries on ran proceeds⟩
  next => exact runs
  next => trivial

theorem guards_startApplication (a : ApplicationId) (l : ListenerId) :
    Guards start r r (startApplication host a r l) := by
  rintro w ⟨modest, home, -⟩
  simp only [startApplication, after_bind, after_get]
  split
  · exact (World.Avoids.refl modest).guards r
  · exact (World.Avoids.refl modest).guards r
  · trivial
  · have begins : start.Avoids w (w.beginApplicationStart a) := modest.elsewhere rfl (carries_of_same rfl rfl)
    simp only [after_bind, after_modify, after_attempt]
    refine (after_applicationStart own minds steady begins.modest ((begins.minds r).home home) l).mono ?_ ?_
    · intro value middle hooked
      have before := (begins.minds r).trans hooked.1
      simp only [refusal]
      split
      next lets =>
        refine (after_settleApplication_started before.modest a l).sure (fun _ _ done => ?_)
        exact { before.trans (done.minds r) with on := fun on => done.on (hooked.2 lets (begins.on on)) }
      next =>
        exact (after_settleApplication_refused before.modest a l _).mono (fun _ _ never => never.elim)
          (fun _ _ done => before.trans (done.minds r))
    · intro error middle hooked
      have before := (begins.minds r).trans hooked
      exact (after_settleApplication_refused before.modest a l _).mono (fun _ _ never => never.elim)
        (fun _ _ done => before.trans (done.minds r))

theorem guards_adoptApplication (a : ApplicationId) (l : ListenerId) :
    Guards start r r (adoptApplication host r a l) := by
  rintro w ⟨modest, home, served⟩
  have issued := issued_of_home home
  simp only [adoptApplication, after_bind, after_get]
  split
  · -- an expired instance ends below the server
    simp only [after_bind]
    refine (avoids_unregister a w modest).mono (fun gone middle left => ?_) (fun _ _ left => left.minds r)
    have stays := left.guards r
    split
    · split
      next server found =>
        obtain ⟨known, served⟩ := modest.nearest issued found
        simp only [after_bind, after_pure]
        refine (after_shutdownApplication_avoids own minds left.modest (Nat.lt_of_lt_of_le known left.extends_.size)
          ((left.minds r).served known served) a).mono ?_ ?_
        · exact fun _ _ done => stays.trans (done.guards r)
        · exact fun _ _ done => stays.toMinds.trans (done.minds r)
      next => exact stays
    · exact stays
  · have untouched : start.Avoids w (w.touchApplication a) :=
      modest.elsewhere rfl (carries_of_same rfl rfl)
    have touches := untouched.guards r
    simp only [after_bind, after_modify]
    refine (after_spliceNew_guards touches.modest (touches.home home)
      (.inr ⟨a, rfl, touches.served issued served⟩)).sure ?_
    intro _ middle splices
    have before := touches.trans splices
    rw [after_attempt]
    refine (guards_startApplication own minds steady a l middle
      ⟨before.modest, before.home home, before.served issued served⟩).mono ?_ ?_
    · intro started last starts
      have whole := before.trans starts
      cases started with
      | true => exact whole
      | false => exact whole.trans (whole.modest.excise (whole.home home) .application)
    · intro error last starts
      have whole := before.toMinds.trans starts
      exact whole.trans (whole.modest.excise (whole.home home) .application).toMinds

theorem guards_acquireApplication (name : Key) (settings : Settings) (l : ListenerId) (fuel : Nat) :
    Guards start r r (acquireApplication host r name settings l fuel) := by
  induction fuel with
  | zero => exact fun _ _ => trivial
  | succ fuel ih =>
    refine regime_guards.bind (avoids_findOrCreateApplication name settings).guards fun a =>
      regime_guards.bind (regime_guards.holding _ (guards_adoptApplication own minds steady a l)) fun adopted => ?_
    split
    · exact (avoids_rules.pure a).guards
    · exact ih

theorem after_acquire_guards (modest : start.Modest w) (home : w.home r = some r) (request : Request) (name : Key) :
    (ensureApplication.acquire host r request name).After w (fun _ later => start.Guards r w later ∧ later.Served r)
      (fun _ => start.Minds r w) := by
  simp only [ensureApplication.acquire, after_bind, after_get]
  split
  · exact (World.Avoids.refl modest).minds r
  next server =>
    have served : w.Served r := served_of_serverOf (by simpa [Option.isSome_iff_ne_none] using server)
    have acquires : Guards start r r (some <$> acquireApplication host r name request.settings request.listener
        host.patience) := by
      rw [← bind_pure_comp]
      exact regime_guards.bind (guards_acquireApplication own minds steady name _ _ _) fun a =>
        (avoids_rules.pure (some a)).guards
    exact (regime_guards.holding _ acquires w ⟨modest, home, served⟩).mono_ok
      (fun _ _ done => ⟨done, done.served (issued_of_home home) served⟩)

theorem after_ensureApplication_guards (modest : start.Modest w) (home : w.home c = some r) :
    (ensureApplication host c).After w
      (fun found later => start.Guards r w later ∧ (found.isSome = true → later.Served r))
      (fun _ => start.Minds r w) := by
  obtain ⟨request, found, there⟩ := requestOf_home home
  have here := home_home home
  have acquires : ∀ name middle, start.Guards r w middle →
      (ensureApplication.acquire host r request name).After middle
        (fun found later => start.Guards r w later ∧ (found.isSome = true → later.Served r))
        (fun _ => start.Minds r w) := by
    intro name middle before
    exact (after_acquire_guards own minds steady before.modest (before.home here) request name).mono
      (fun _ _ done => ⟨before.trans done.1, fun _ => done.2⟩) (fun _ _ done => before.toMinds.trans done)
  have stays := (World.Avoids.refl modest).guards r
  simp only [ensureApplication, after_bind, after_get, found]
  cases wanted : request.settings.hasApplication with
  | false => exact ⟨stays, fun found => by cases found⟩
  | true =>
    simp only [Bool.not_true, Bool.false_eq_true, if_false, after_bind, after_get]
    cases spliced : w.splicedApplication r with
    | none => exact acquires _ w stays
    | some a =>
      cases usable : ((w.application a).name == request.settings.applicationKey &&
          (request.detached || !(w.application a).isDefunct)) with
      | true =>
        simp only [usable, if_true, after_bind, after_modify, after_pure]
        have touches : start.Avoids w (w.touchApplication a) := modest.elsewhere rfl (carries_of_same rfl rfl)
        refine ⟨touches.guards r, fun _ => (touches.minds r).served (issued_of_home here) ?_⟩
        apply modest.served r request there
        rw [splicedApplication_eq (requestOf_self there)] at spliced
        obtain ⟨node, held, -⟩ := Option.bind_eq_some_iff.mp spliced
        rw [held]
        rfl
      | false =>
        have first := modest.excise here .session
        have second := first.trans (first.modest.excise (first.home here) .application)
        simp only [usable, Bool.false_eq_true, if_false, after_bind, ScopeEngine.excise, after_modifyGet]
        exact acquires _ _ second

end Applications

theorem after_startSession_minds (modest : start.Modest w) (home : w.home r = some r) (a : ApplicationId)
    (s : SessionId) (l : ListenerId) : (startSession host a s r l).After w
      (fun started later => start.Minds r w later ∧ (started = false → w.On r → later.On r))
      (fun _ => start.Minds r w) := by
  have stays := (World.Avoids.refl modest).minds r
  simp only [startSession, after_bind, after_get]
  split
  · exact ⟨stays, fun gone => by cases gone⟩
  · exact ⟨stays, fun _ on => on⟩
  · trivial
  · have begins : start.Avoids w (w.beginSessionStart s) := modest.elsewhere rfl (carries_of_same rfl rfl)
    simp only [after_bind, after_modify, after_attempt]
    have settles : ∀ cause middle, start.Minds r (w.beginSessionStart s) middle →
        (settleSession a s cause).After middle
          (fun started later => start.Minds r w later ∧ (started = false → w.On r → later.On r))
          (fun _ => start.Minds r w) := by
      intro cause middle hooked
      have before := (begins.minds r).trans hooked
      refine (after_settleSession_avoids before.modest a s cause).mono ?_ ?_
      · intro started last done
        exact ⟨before.trans (done.2.minds r), fun gone => by cases done.1.symm.trans gone⟩
      · exact fun _ _ done => before.trans (done.minds r)
    exact (minds_callHook own minds l .sessionStart [] _ ⟨begins.modest, (begins.minds r).home home⟩).mono
      (fun _ => settles _) (fun _ => settles _)

theorem after_adoptSession_minds (modest : start.Modest w) (home : w.home r = some r) (on : w.On r)
    (a : ApplicationId) (s : SessionId) (l : ListenerId) : (adoptSession host r a s l).After w
      (fun adopted later => start.Minds r w later ∧ (adopted = false → later.On r))
      (fun _ => start.Minds r w) := by
  simp only [adoptSession, after_bind]
  refine (after_spliceNew_guards modest home (.inl ⟨s, rfl, on⟩)).sure ?_
  intro _ middle before
  rw [after_attempt]
  refine (after_startSession_minds own minds before.modest (before.home home) a s l).mono ?_ ?_
  · intro started last starts
    have whole := before.toMinds.trans starts.1
    cases started with
    | true =>
      simp only [after_bind, after_pure]
      exact (avoids_touchSession s last whole.modest).mono (fun _ _ done => ⟨whole.trans (done.minds r), fun gone => by cases gone⟩)
        (fun _ _ done => whole.trans (done.minds r))
    | false =>
      have cuts := whole.modest.excise (whole.home home) .session
      exact ⟨whole.trans cuts.toMinds, fun _ => cuts.on (starts.2 rfl (before.on on))⟩
  · intro error last starts
    have whole := before.toMinds.trans starts
    exact whole.trans (whole.modest.excise (whole.home home) .session).toMinds

theorem fills_acquireSession (a : ApplicationId) (id : Key) (l : ListenerId) (fuel : Nat) :
    Fills start r (acquireSession host r a id l fuel) := by
  induction fuel with
  | zero => exact fun _ _ _ _ _ => trivial
  | succ fuel ih =>
    intro w modest home on served
    have issued := issued_of_home home
    simp only [acquireSession, after_bind]
    refine (avoids_findOrCreateSession a id w modest).mono (fun placed middle finds => ?_) (fun _ _ finds => finds.minds r)
    cases placed with
    | none => exact finds.minds r
    | some placed =>
      have adopts : ∀ middle, start.Avoids w middle →
          ((adoptSession host r a placed.session l) >>= fun adopted =>
            if adopted then pure (.session placed.session) else acquireSession host r a id l fuel).After middle
            (fun _ => start.Minds r w) (fun _ => start.Minds r w) := by
        intro middle before
        have near := before.minds r
        rw [after_bind]
        refine (after_adoptSession_minds own minds before.modest (near.home home) (before.on on) a _ l).mono ?_ ?_
        · intro adopted last done
          have whole := near.trans done.1
          cases adopted with
          | true => exact whole
          | false =>
            exact (ih last whole.modest (whole.home home) (done.2 rfl) (whole.served issued served)).imp
              fun _ next => whole.trans next
        · exact fun _ _ done => near.trans done
      cases stale : placed.stale with
      | none =>
        simp only [stale]
        exact adopts middle finds
      | some old =>
        simp only [stale]
        rw [after_bind]
        refine (after_retireSession_avoids own minds finds.modest ((finds.minds r).served issued served)
          (Nat.lt_of_lt_of_le issued finds.extends_.size) a old).mono ?_ ?_
        · exact fun _ later retires => adopts later (finds.trans retires)
        · exact fun _ _ retires => (finds.trans retires).minds r

/-- Before the session is looked up again the settings are read again. -/
theorem fills_claimSession (request : Request) (a : ApplicationId) (id : Key) {again : Action (Option SessionId)}
    (minds_again : Minds start r r again) : Fills start r (claimSession host r request a id again) := by
  refine Fills.holding (Fills.holding ?_ _) _
  intro w modest home on served
  rw [after_bind]
  refine (fills_acquireSession own minds a id _ _ w modest home on served).mono_ok ?_
  intro acquired middle before
  cases acquired with
  | session s => exact before
  | closed =>
    dsimp only
    split
    · exact before
    · have first := before.modest.excise (before.home home) .session
      have second := (first.trans (first.modest.excise (first.home (before.home home)) .application)).toMinds
      have whole := before.trans second
      simp only [ScopeEngine.excise, after_bind, after_modifyGet]
      exact (minds_again _ ⟨whole.modest, whole.home home⟩).imp fun _ done => whole.trans done

theorem minds_touchSessionOf (steady : host.Steady start) (fuel : Nat) : Minds start c r (touchSessionOf host c fuel) := by
  induction fuel generalizing c with
  | zero => exact fun _ _ => trivial
  | succ fuel ih =>
    rintro w ⟨modest, home⟩
    obtain ⟨request, found, there⟩ := requestOf_home home
    have here := home_home home
    have stays := (World.Avoids.refl modest).minds r
    simp only [touchSessionOf, after_bind, after_get, found]
    cases wanted : request.settings.sessionManagement with
    | false => exact stays
    | true =>
      have on : w.On r := ⟨request, there, wanted⟩
      simp only [Bool.not_true, Bool.false_eq_true, if_false, after_bind]
      refine (after_ensureApplication_guards own minds steady modest here).mono_ok ?_
      intro found middle ensures
      obtain ⟨ensures, served⟩ := ensures
      cases found with
      | none => exact ensures.toMinds
      | some a =>
        simp only [after_bind, after_get]
        refine (after_chooseSessionId_guards ensures.modest (ensures.home here) _).sure ?_
        intro id last chooses
        have before := ensures.trans chooses
        have claims : ∀ (request : Request) next, start.Guards r last next →
            (claimSession host r request a id (touchSessionOf host r fuel)).After next (fun _ => start.Minds r w)
              (fun _ => start.Minds r w) := by
          intro request next cuts
          have whole := before.trans cuts
          have below : next.Served r :=
            (chooses.trans cuts).served (issued_of_home (ensures.home here)) (served rfl)
          exact (fills_claimSession own minds request a id ih next whole.modest (whole.home here) (whole.on on) below).imp
            fun _ done => whole.toMinds.trans done
        cases last.splicedSession r with
        | none => exact claims _ last ((World.Avoids.refl before.modest).guards r)
        | some s =>
          dsimp only
          split
          · simp only [after_bind, after_pure]
            exact (avoids_touchSession s last before.modest).imp fun _ done => before.toMinds.trans (done.minds r)
          · simp only [ScopeEngine.excise, after_bind, after_modifyGet]
            exact claims _ _ (before.modest.excise (before.home here) .session)

end Starting

namespace World

theorem contexts_modifyRequest_congr (same : later.contexts = w.contexts) (r : ContextId) (change : Request → Request) :
    (later.modifyRequest r change).contexts = (w.modifyRequest r change).contexts := by
  simp only [modifyRequest, context, same]
  split
  · simp only [setContext, same]
  · exact same

theorem Modest.changed (modest : Modest start w) (change : Request → Request) (there : (w.context r).request? = some request)
    (proper : (change request).settings.sessionManagement = false → (change request).sessionNode = none)
    (sheds : request.Sheds (change request))
    (contexts : later.contexts = (w.modifyRequest r change).contexts) (code : later.code = w.code) :
    Minds start r w later := by
  have changes : Minds start r w (w.modifyRequest r change) := modest.dropNodes there proper sheds
  have same := code.trans (w.modifyRequest_code r change).symm
  refine changes.trans (Avoids.minds ?_ r)
  exact changes.modest.elsewhere contexts (carries_of_same (congrArg Prod.snd same) (congrArg Prod.fst same))

end World

theorem minds_updateSettings (settings : Settings) : Minds start c r (updateSettings c settings) := by
  rintro w ⟨modest, home⟩
  -- whatever else is taken out, the session goes if the settings no longer ask for one
  have finishes : ∀ (request : Request) (change : Request → Request) (middle : World),
      (w.context r).request? = some request → (change request).settings = settings →
      request.Sheds (change request) →
      middle.contexts = (w.modifyRequest r change).contexts → middle.code = w.code →
      (if !settings.sessionManagement then do
        let _ ← excise r .session
      else pure () : Action Unit).After middle (fun _ => start.Minds r w) (fun _ => start.Minds r w) := by
    intro request change middle there new sheds contexts code
    cases wanted : settings.sessionManagement with
    | true =>
      refine modest.changed change there (fun off => ?_) sheds contexts code
      rw [new, wanted] at off
      cases off
    | false =>
      let drop : Request → Request := (·.excise .session)
      have here : (middle.context r).request? = some (change request) := by
        rw [context, contexts, ← context, request?_modifyRequest, if_pos rfl, there]
        rfl
      have drops : (middle.modifyRequest r drop).contexts = (w.modifyRequest r (drop ∘ change)).contexts := by
        rw [contexts_modifyRequest_congr contexts, modifyRequest_modifyRequest there]
      simp only [Bool.not_false, if_true, after_bind, ScopeEngine.excise, after_modifyGet, after_pure]
      rw [excise_session (requestOf_self here)]
      exact modest.changed (drop ∘ change) there (fun _ => Request.sessionNode_excise_session _) (sheds.excise .session) drops
        ((middle.modifyRequest_code r drop).trans code)
  simp only [updateSettings, after_bind]
  refine after_theRequest home fun request there => ?_
  let change : Request → Request := fun request => { request with settings }
  let changed := w.modifyRequest r change
  have code : changed.code = w.code := w.modifyRequest_code r change
  have here : (changed.context r).request? = some (change request) := by
    rw [request?_modifyRequest, if_pos rfl, there]
    rfl
  simp only [after_modify, after_get]
  cases changed.splicedApplication r with
  | none => exact finishes request change changed there rfl ⟨.inr rfl, .inr rfl⟩ rfl code
  | some a =>
    dsimp only
    cases same : (settings.hasApplication && (changed.application a).name == settings.applicationKey) with
    | true =>
      simp only [if_true, after_bind, after_modify]
      exact finishes request change _ there rfl ⟨.inr rfl, .inr rfl⟩ rfl code
    | false =>
      let bare : Request → Request := fun request => ((change request).excise .session).excise .application
      have both : ((changed.excise r .session).2.excise r .application).2 = w.modifyRequest r bare := by
        rw [excise_both (requestOf_self here), modifyRequest_modifyRequest there]
        rfl
      simp only [Bool.false_eq_true, if_false, after_bind, ScopeEngine.excise, after_modifyGet]
      rw [both]
      have sheds : request.Sheds (change request) := ⟨.inr rfl, .inr rfl⟩
      exact finishes request bare _ there rfl ((sheds.excise .session).excise .application) rfl (w.modifyRequest_code r bare)

theorem minds_setListener (l : ListenerId) : Minds start c r (setListener c l) := by
  rintro w ⟨modest, home⟩
  simp only [setListener, after_bind]
  refine after_theRequest home fun request there => ?_
  exact modest.sameSettings there rfl ⟨.inr rfl, .inr rfl⟩

theorem minds_setSessionId (id : Key) : Minds start c r (setSessionId c id) := by
  rintro w ⟨modest, home⟩
  have points : ∀ middle, Guards start r w middle →
      start.Minds r w (middle.modifyRequest r fun request => { request with sessionId := some id }) := by
    intro middle before
    obtain ⟨request, -, there⟩ := requestOf_home (before.home (home_home home))
    exact before.toMinds.trans (before.modest.setSessionId there id).toMinds
  have stays := (Avoids.refl modest).guards r
  simp only [setSessionId, after_bind]
  refine after_theRequest home fun request there => ?_
  simp only [after_get]
  cases w.splicedSession r with
  | none => exact points w stays
  | some s =>
    dsimp only
    split
    · simp only [ScopeEngine.excise, after_bind, after_modifyGet]
      exact points _ (modest.excise (home_home home) .session)
    · exact points w stays

theorem minds_excise (type : ContextType) : Minds start c r (excise c type) := fun _ here =>
  (here.1.excise here.2 type).toMinds

namespace Action

abbrev Serves (start : World) (c r : ContextId) (action : Action α) : Prop :=
  Under (fun w => start.Modest w ∧ w.home c = some r ∧ w.Served r) (start.Minds r) (start.Minds r) action

theorem Minds.serves {action : Action α} (minds : Minds start c r action) : Serves start c r action :=
  fun w here => minds w ⟨here.1, here.2.1⟩

theorem serves_rules : ScriptRules (fun {_} action => Serves start c r action) :=
  Regime.rules (.of (fun here aside => (here.1.beside aside.toBeside).minds r)
    (fun here done => ⟨done.modest, done.home here.2.1, done.served (issued_of_home (home_home here.2.1)) here.2.2⟩) .trans)

end Action

section Switching

variable (own : start.OwnHooks) (minds : host.Minds start)
include own minds

theorem serves_retireSession (a : ApplicationId) (s : SessionId) : Serves start c r (retireSession host c a s) :=
  fun _ here =>
    (after_retireSession_avoids own minds here.1 (here.2.2.below here.2.1) (issued_of_home here.2.1) a s).imp fun _ done => done.minds r

theorem serves_dropThen (a : ApplicationId) (old : Option SessionId) {next : Action SessionId}
    (starts : Minds start c r next) :
    Serves start c r (do
      if let some old := old then
        let _ ← modifyGet (·.dropSession a old)
        retireSession host c a old
      next) := by
  cases old with
  | none => exact starts.serves
  | some old =>
    exact serves_rules.bind (avoids_dropSession a old).minds.serves fun _ =>
      serves_rules.bind (serves_retireSession own minds a old) fun _ => starts.serves

variable (steady : host.Steady start)
include steady

theorem minds_ensureApplication : Minds start c r (ensureApplication host c) := fun _ here =>
  (after_ensureApplication_guards own minds steady here.1 here.2).mono_ok (fun _ _ done => done.1.toMinds)

theorem minds_ensureSession : Minds start c r (ensureSession host c) :=
  minds_touchSessionOf own minds steady host.patience

theorem minds_initializeSession (id : Key) : Minds start c r (initializeSession host c id) :=
  minds_rules.bind (minds_setSessionId id) fun _ => minds_rules.bind (minds_ensureSession own minds steady) fun _ =>
    minds_rules.orSessionsDisabled _

theorem minds_withApplication {next : ApplicationId → Action α} (rest : ∀ a, Serves start c r (next a)) :
    Minds start c r (do next (← orSessionsDisabled (← ensureApplication host c))) := by
  rintro w ⟨modest, home⟩
  simp only [after_bind]
  refine (after_ensureApplication_guards own minds steady modest home).mono_ok (fun found middle done => ?_)
  obtain ⟨before, served⟩ := done
  cases found with
  | none => exact before.toMinds
  | some a =>
    exact (rest a middle ⟨before.modest, before.home home, served rfl⟩).imp fun _ next => before.toMinds.trans next

theorem minds_rotateSession : Minds start c r (rotateSession host c) := by
  refine minds_rules.bind (minds_ensureSession own minds steady) fun _ =>
    minds_rules.bind (minds_rules.orSessionsDisabled _) fun old => ?_
  refine minds_withApplication own minds steady fun a => serves_rules.holding _ ?_
  refine serves_rules.bind serves_rules.drawSessionId fun id =>
    serves_rules.bind (minds_initializeSession own minds steady id).serves fun fresh =>
      serves_rules.bind serves_rules.get fun w => serves_rules.bind (serves_rules.inherit _ _ _) fun _ => ?_
  exact serves_rules.bind (avoids_dropSession a old).minds.serves fun _ =>
    serves_rules.bind (serves_retireSession own minds a old) fun _ => serves_rules.pure fresh

theorem minds_invalidateSession (id : Option Key) : Minds start c r (invalidateSession host c id) := by
  have renews : Minds start c r (do initializeSession host c (← orDrawnId id)) :=
    minds_rules.bind (minds_rules.orDrawnId id) fun id => minds_initializeSession own minds steady id
  have switches := minds_withApplication own minds steady fun a => serves_rules.bind serves_rules.get fun w =>
    serves_rules.bind (minds_excise .session).serves fun _ => serves_rules.holding (.application a)
      (serves_dropThen own minds a ((w.splicedSession c).or do
        let id ← w.sessionIdAt c
        (w.application a).sessions.find? id) renews)
  refine minds_rules.bind minds_rules.get fun w => ?_
  dsimp only
  split
  · exact minds_rules.bind (minds_rules.fail _) fun _ => switches
  · exact switches

theorem minds_named {key : Key} {action : Action ScopeId} (asks : AsksScope host c key action) : Minds start c r action := by
  rintro w ⟨modest, home⟩
  refine asks.after ((Avoids.refl modest).minds r) (fun t at_ => ?_) (fun t at_ => ?_)
  · cases at_.symm.trans home
    exact minds_rules.applicationScope (minds_ensureApplication own minds steady) key w ⟨modest, home_home home⟩
  · cases at_.symm.trans home
    exact minds_rules.sessionScope (minds_ensureSession own minds steady) key w ⟨modest, home_home home⟩

theorem minds_ownRequest (c r : ContextId) : OwnRules host c (fun {_} action => Minds start c r action) where
  toScopeRules := minds_rules.toScopeRules
  declares := ⟨fun beside => (avoids_declares.beside beside).minds⟩
  nearby := fun _ => minds_named own minds steady .nearby
  global := fun _ => minds_named own minds steady .global
  application := minds_ensureApplication own minds steady
  session := minds_ensureSession own minds steady
  settings := minds_updateSettings
  listener := minds_setListener
  sessionId := minds_setSessionId
  initialization := minds_initializeSession own minds steady
  rotation := minds_rotateSession own minds steady
  invalidation := minds_invalidateSession own minds steady

end Switching

/-- However deep hooks nest, they change no other request than their own. -/
theorem minds_execute (own : start.OwnHooks) (fuel : Nat) (steady : ∀ n < fuel, (hostOf (execute n)).Steady start) :
    (hostOf (execute fuel)).Minds start := by
  induction fuel using Nat.strongRecOn with
  | ind fuel ih =>
    intro body c r allowed
    have below := fun n (less : n < fuel) => ih n less fun m lower => steady m (Nat.lt_trans lower less)
    have rules := fun n (less : n < fuel) => minds_ownRequest own (below n less) (steady n less) c r
    refine minds_rules.runBody fun step member => ?_
    exact minds_rules.executeWithin fuel (fun n less => (rules n less).toAccessRules)
      (fun n less step own => (rules n less).lifecycleStep own) true (allows_of_mem allowed member) (.inr minds_rules.exhausted)

end ScopeEngine
