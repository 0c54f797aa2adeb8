import ScopeEngine.Proofs.Readiness.Operations
import ScopeEngine.Proofs.Registry.Sessions

/-! What requests and servers do outside hooks. An application that a request looks up is spliced in before it is started,
and a start hook may file sessions with it. If the start is refused, the application leaves the registry and with it all
these sessions leave the files, so the request may keep the one that it has. -/

namespace ScopeEngine

open ScopeEngine.Action Script World

variable {α β : Type} {host : Host} {w later : World} {a : ApplicationId} {s : SessionId} {c r : ContextId}
  {settings : Settings} {old : Nat}

namespace World

/-- Everything is in order, and no session is missing but some of the old ones. -/
structure Tidy (old : Nat) (w : World) : Prop extends InOrder w where
  found : ∀ s : SessionId, w.Mislaid s → s.number < old

theorem Tidy.files (tidy : w.Tidy old) (files : w.Files later) : later.Tidy old :=
  ⟨files.inOrder, fun s mislaid => (files.mislays s mislaid).elim (fun none => by cases none) (tidy.found s)⟩

theorem Tidy.orders (tidy : w.Tidy old) (orders : w.Orders later) : later.Tidy old := tidy.files orders.toLoses

/-- How the world is found between operations. -/
structure Regular (old : Nat) (w : World) : Prop where
  sane : w.Sane
  tidy : w.Tidy old

theorem Regular.inOrder (regular : w.Regular old) : w.InOrder := regular.tidy.toInOrder

theorem Regular.moves (regular : w.Regular old) (moves : w.Moves later) : later.Regular old :=
  ⟨regular.sane.calm moves.calm, regular.tidy.files moves.toLoses⟩

theorem Regular.orders (regular : w.Regular old) (orders : w.Orders later) : later.Regular old := regular.moves orders.toMoves

theorem InOrder.excisesApplication (inOrder : w.InOrder) (c : ContextId)
    (refused : ∀ r standing a, w.home c = some r → w.standing r = some standing → standing.application = some a →
      (w.application a).discarded = true) : w.Files (w.excise c .application).2 := by
  cases found : w.requestOf c with
  | none =>
    simp only [excise, found]
    exact inOrder.files
  | some place =>
    obtain ⟨r, request⟩ := place
    have there := request?_of_requestOf found
    rw [excise_application found]
    apply inOrder.modifyRequest r
    · intro now node here spliced
      exact inOrder.nodes r now node here (now.sessionNode_excise_application.symm.trans spliced)
    · intro now s here held
      rw [standingOf_excise_application] at held ⊢
      have at_ : w.standing r = some (w.standingOf now) := by rw [standing, here]; rfl
      have gone := fun b => refused r _ b (by rw [home, found]; rfl) at_
      refine ⟨⟨(inOrder.seated r _ s at_ held).issued, fun b registered mapped => ?_⟩, fun live => ?_⟩
      · have own := (inOrder.seated r _ s at_ held).only b registered mapped
        cases (inOrder.kept b registered).symm.trans (gone b own)
      · obtain ⟨named, place⟩ := inOrder.suits r _ s at_ held live
        exact ⟨named, fun b mapped => .inr ((place b mapped).elim (gone b) id)⟩

theorem InOrder.excisesBoth (inOrder : w.InOrder) (c : ContextId) :
    w.Files ((w.excise c .session).2.excise c .application).2 := by
  cases found : w.requestOf c with
  | none =>
    simp only [excise, found]
    exact inOrder.files
  | some place =>
    rw [excise_both found]
    exact inOrder.dropsSession place.1 _ fun request => by simp

end World

namespace Action

abbrev Keeping (known : World → Prop) (action : Action α) : Prop := Under known (fun _ => known) (fun _ => known) action

abbrev Regularly (old : Nat) (action : Action α) : Prop := Keeping (Regular old) action

abbrev RegularlyGrounded (old : Nat) (action : Action α) : Prop :=
  Keeping (fun w => w.Regular old ∧ w.Grounded) action

theorem Settling.regularly {action : Action α} (settling : Settling action)
    (tidy : ∀ w, w.Regular old → action.After w (fun _ => Tidy old) (fun _ => Tidy old)) : Regularly old action :=
  fun w regular => ((settling w regular.sane).and (tidy w regular)).imp fun _ done => ⟨done.1.sane, done.2⟩

theorem Regularly.grounded {action : Action α} (regularly : Regularly old action) (settling : Settling action) :
    RegularlyGrounded old action := fun w known =>
  ((regularly w known.1).and (settling w known.1.sane)).imp fun _ done => ⟨done.1, done.2.grounded known.2⟩

theorem keeping_rules {known : World → Prop} (inOrder : ∀ {w : World}, known w → w.InOrder)
    (orders : ∀ {w later : World}, known w → w.Orders later → known later) :
    ScriptRules (fun {_} action => Keeping known action) :=
  Regime.rules (.of (fun knows aside => orders knows <| (inOrder knows).orders_of_rows aside.calm aside.contexts
    aside.applications aside.sessions) (fun _ done => done) fun _ done => done)

theorem regularly_rules : ScriptRules (fun {_} action => Regularly old action) :=
  keeping_rules Regular.inOrder Regular.orders

theorem regularlyGrounded_rules : ScriptRules (fun {_} action => RegularlyGrounded old action) :=
  keeping_rules (fun known => known.1.inOrder) fun known orders =>
    ⟨known.1.orders orders, orders.calm.grounded known.2⟩

theorem after_holding_tidy {action : Action α} {thing : Hold} (tidy : w.Tidy old)
    (inside : ∀ held, w.Orders held → action.After held (fun _ => Tidy old) (fun _ => Tidy old)) :
    (holding thing action).After w (fun _ => Tidy old) (fun _ => Tidy old) := by
  rw [after_holding]
  exact (inside _ (tidy.orders_holds _)).imp fun _ done => done.orders (done.orders_holds _)

end Action

section Requests

theorem regularly_keepsNodes (r : ContextId) (change : Request → Request)
    (kept : ∀ request, (change request).detached = request.detached ∧ (change request).sessionId = request.sessionId ∧
      (change request).sessionNode = request.sessionNode ∧ (change request).applicationNode = request.applicationNode) :
    Regularly old (modify (·.modifyRequest r change)) := by
  have settles := settling_modifyRequest r change fun request => ⟨(kept request).1, .inl (kept request).2.2.2⟩
  refine settles.regularly fun w regular => regular.tidy.files (regular.inOrder.keepsNodes r change
    (fun request => (kept request).2.2) fun request s there held live => ?_)
  obtain ⟨named, -⟩ := regular.inOrder.suits r _ s (by rw [standing, there]; rfl) held live
  rw [(kept request).2.1]
  exact named

theorem regularly_exciseSession (c : ContextId) : Regularly old (excise c .session) :=
  (settling_excise c .session).regularly fun _ regular => regular.tidy.orders (regular.inOrder.orders_excise c)

theorem regularly_setListener (c : ContextId) (l : ListenerId) : Regularly old (setListener c l) :=
  regularly_rules.bind (regularly_rules.theRequest c) fun found =>
    regularly_keepsNodes found.1 (fun request => { request with listener := l }) fun _ => ⟨rfl, rfl, rfl, rfl⟩

/-- A session that goes by another id is taken out before the request gets the id. -/
theorem after_setSessionId_moves (inOrder : w.InOrder) (c : ContextId) (id : Key) :
    (setSessionId c id).After w (fun _ => w.Moves) (fun _ => w.Moves) := by
  have stays := inOrder.orders.toMoves
  simp only [setSessionId, theRequest, after_bind, after_get]
  cases found : w.requestOf c with
  | none => exact stays
  | some place =>
    obtain ⟨r, request⟩ := place
    have there := request?_of_requestOf found
    have spliced : w.splicedSession r = (w.standingOf request).session :=
      splicedSession_eq (requestOf_self there)
    have excised : ((w.excise r .session).2.context r).request? = some (request.excise .session) := by
      rw [excise_session (requestOf_self there), request?_modifyRequest, if_pos rfl, there]
      rfl
    have points := inOrder.moves_setSessionId r id
    have excises := (inOrder.orders_excise r).toMoves
    simp only [after_pure]
    cases at_ : w.splicedSession r with
    | none =>
      refine points fun now t here held _ => ?_
      cases there.symm.trans here
      cases at_.symm.trans (spliced.trans held)
    | some s =>
      dsimp only
      split
      · simp only [excise, after_bind, after_modifyGet, after_modify]
        refine excises.trans (excises.inOrder.moves_setSessionId r id fun now t here held => ?_)
        cases excised.symm.trans here
        rw [standingOf_excise_session] at held
        cases held
      next same =>
        refine points fun now t here held _ => ?_
        cases there.symm.trans here
        cases at_.symm.trans (spliced.trans held)
        simpa using same

theorem regularly_setSessionId (c : ContextId) (id : Key) : Regularly old (setSessionId c id) := fun _ regular =>
  (after_setSessionId_moves regular.inOrder c id).imp fun _ moves => regular.moves moves

theorem regularly_exciseBoth (c : ContextId) {rest : Action α} (regularly : Regularly old rest) :
    Regularly old (do
      let _ ← excise c .session
      let _ ← excise c .application
      rest) := by
  intro w regular
  have first := regular.sane.settles_excise c .session
  have second := first.trans (first.sane.settles_excise c .application)
  simp only [excise, after_bind, after_modifyGet]
  exact regularly _ ⟨second.sane, regular.tidy.files (regular.inOrder.excisesBoth c)⟩

theorem regularly_updateSettings (c : ContextId) (settings : Settings) : Regularly old (updateSettings c settings) := by
  have ends : ∀ r, Regularly old (do if !settings.sessionManagement then let _ ← excise r .session) := by
    intro r
    split
    · exact regularly_rules.bind (regularly_exciseSession r) fun _ => regularly_rules.pure _
    · exact regularly_rules.pure _
  have applies : ∀ a, Regularly old (modify (·.modifyApplication a (·.applySettings settings))) := by
    intro a w regular
    refine ⟨regular.sane.modifyApplication (·.applySettings settings) (fun _ => rfl) a, ?_⟩
    exact regular.tidy.files
      (regular.inOrder.unfiles (w.unfiles_modifyApplication a (·.applySettings settings) fun _ => rfl))
  refine regularly_rules.bind (regularly_rules.theRequest c) fun found => regularly_rules.bind ?_ fun _ =>
    regularly_rules.bind regularly_rules.get fun w => ?_
  · exact regularly_keepsNodes found.1 (fun request => { request with settings }) fun _ => ⟨rfl, rfl, rfl, rfl⟩
  · dsimp only
    split
    · split
      · exact regularly_rules.bind (applies _) fun _ => ends _
      · exact regularly_exciseBoth _ (ends _)
    · exact ends _

end Requests

section Applications

variable (ordered : host.Ordered)
include ordered

theorem after_shutdownApplication_tidy (regular : w.Regular old) (issued : a.number < w.applications.size)
    (server : ContextId) : (shutdownApplication host a server).After w (fun _ => Tidy old) (fun _ => Tidy old) := by
  let begun := (w.beginShutdown a).2
  have begins : begun.Tidy old := regular.tidy.files (regular.inOrder.unfiles
    (w.unfiles_modifyApplication a (fun application => { application with shutDown := true }) fun _ => rfl))
  have sane : begun.Sane :=
    regular.sane.modifyApplication (fun application => { application with shutDown := true }) (fun _ => rfl) a
  simp only [shutdownApplication, after_bind, after_get, after_modifyGet]
  split
  · exact begins
  · have known : a.number < begun.applications.size := Nat.lt_of_lt_of_eq issued (Table.size_set ..).symm
    obtain ⟨opens, work⟩ := AtWork.newDetached sane begins.toInOrder server known
    simp only [after_bind, after_get, after_modifyGet]
    exact (ordered_close ordered a _ _ _ _ ⟨work, trivial⟩).imp fun _ orders => (begins.orders opens).orders orders

omit ordered in
theorem after_settleApplication_tidy (regular : w.Regular old) (issued : a.number < w.applications.size) (l : ListenerId)
    (cause : Option Error) :
    (settleApplication a l cause).After w (fun started later => later.Tidy old ∧ started = true)
      (fun _ later => later.Tidy old ∧ (later.application a).discarded = true) := by
  have marks : ∀ {middle : World}, middle.Tidy old → ∀ change : Application → Application,
      (∀ application, (change application).file = application.file) → (middle.modifyApplication a change).Tidy old :=
    fun tidy change same => tidy.files (tidy.unfiles (unfiles_modifyApplication _ a change same))
  cases cause with
  | none =>
    have keeps := marks regular.tidy (fun application => { application with listener := some l }) fun _ => rfl
    have starts := marks keeps (fun application => { application with started := true }) fun _ => rfl
    exact ⟨marks starts (fun application => { application with starting := false }) fun _ => rfl, rfl⟩
  | some cause =>
    have refuses := regular.tidy.files (regular.inOrder.refuseApplication regular.sane a).1
    have refused : ((w.applicationRefused a).application a).discarded = true := by
      rw [applicationRefused, application_modify, if_pos ⟨rfl, issued⟩]
    have still : (((w.applicationRefused a).unregister a).2.application a).discarded = true := by
      rw [application, unregister_applications]
      exact refused
    simp only [settleApplication, after_bind, after_modify, after_modifyGet, after_get, after_fail]
    have leaves : ((((w.applicationRefused a).unregister a).2.leaveApplicationStart a).application a).discarded = _ :=
      application_modify_keeps _ a a Application.discarded fun _ => rfl
    exact ⟨marks refuses (fun application => { application with starting := false }) fun _ => rfl, leaves.trans still⟩

omit ordered in
theorem World.discarded_of_gone (gone : (w.application a).startState = .gone) : (w.application a).discarded = true := by
  simp only [Application.startState, startState] at gone
  split at gone
  · cases gone
  · split at gone
    · cases gone
    · split at gone
      next discarded => exact discarded
      next => cases gone

theorem after_startApplication_tidy (work : w.AtWork r r a) (tidy : w.Tidy old) (l : ListenerId) :
    (startApplication host a r l).After w
      (fun started later => later.Tidy old ∧ (started = false → (later.application a).discarded = true))
      (fun _ later => later.Tidy old ∧ (later.application a).discarded = true) := by
  simp only [startApplication, after_bind, after_get]
  cases state : (w.application a).startState with
  | ready => exact ⟨tidy, fun never => by cases never⟩
  | busy => trivial
  | gone => exact ⟨tidy, fun _ => discarded_of_gone state⟩
  | fresh =>
    let change : Application → Application := fun application => { application with starting := true }
    have begins := tidy.files (tidy.unfiles (w.unfiles_modifyApplication a change fun _ => rfl))
    have working : (w.beginApplicationStart a).AtWork r r a := {
      sane := work.sane.modifyApplication change (fun _ => rfl) a
      inOrder := begins.toInOrder
      running := work.running.modifyApplication change (fun _ => rfl) a fun _ => rfl }
    have settles : ∀ cause called, (w.beginApplicationStart a).Orders called → (settleApplication a l cause).After called
        (fun started later => later.Tidy old ∧ (started = false → (later.application a).discarded = true))
        (fun _ later => later.Tidy old ∧ (later.application a).discarded = true) := by
      intro cause called orders
      have still := working.orders orders
      refine (after_settleApplication_tidy ⟨still.sane, begins.orders orders⟩ still.issued l cause).mono_ok ?_
      intro started later done
      refine ⟨done.1, fun refused => ?_⟩
      cases done.2.symm.trans refused
    simp only [after_bind, after_modify, after_attempt]
    exact (ordered_callHook ordered l .applicationStart [] r _ ⟨working, trivial⟩).mono
      (fun _ => settles _) (fun _ => settles _)

omit ordered in
/-- A request that has no application may get one: its session is not on file. -/
theorem after_spliceApplication_tidy (regular : w.Regular old) (seeking : w.Seeking r settings) (a : ApplicationId) :
    (spliceNew r (.application a)).After w (fun _ => Tidy old) (fun _ => Tidy old) := by
  let noded := (w.addNode (.application a)).2
  let node := w.contexts.next
  have adds : w.Orders noded := regular.inOrder.orders_addContext regular.sane rfl
  obtain ⟨standing, at_, -, bare⟩ := seeking.keeps (adds.calm.keeps regular.sane)
  obtain ⟨request, there, rfl⟩ := Option.map_eq_some_iff.mp at_
  rw [After, spliceNew_eq r _ rfl, requestOf_self there]
  refine (regular.tidy.orders adds).files
    (adds.inOrder.modifyRequest r ((·.splice (.application node))) ?_ ?_)
  · intro now other here spliced
    exact adds.inOrder.nodes r now other here ((now.sessionNode_splice_application node).symm.trans spliced)
  · intro now s here held
    cases there.symm.trans here
    rw [standingOf_splice_application] at held ⊢
    have out := adds.inOrder.seated r _ s at_ held
    rw [bare] at out
    refine ⟨out.widen _, fun live => ?_⟩
    obtain ⟨named, place⟩ := adds.inOrder.suits r _ s at_ held live
    rw [bare] at place
    exact ⟨named, fun b mapped => .inr ((place b mapped).resolve_left fun none => by cases none)⟩

variable (serene : host.Serene)
include serene

theorem after_adoptApplication_tidy (regular : w.Regular old) (offered : w.Offered r settings a) (l : ListenerId) :
    (adoptApplication host r a l).After w (fun _ => Tidy old) (fun _ => Tidy old) := by
  simp only [adoptApplication, after_bind, after_get]
  split
  · have leaves := regular.tidy.files (regular.inOrder.unfiles (w.unfiles_unregister a))
    have sane := (regular.sane.keeps_unregister a).sane
    have known : a.number < (w.unregister a).2.applications.size := by
      rw [unregister_applications]
      exact offered.issued
    rw [after_bind, after_modifyGet]
    split
    · cases w.nearest r .server with
      | none => exact leaves
      | some server =>
        dsimp only
        rw [after_bind]
        exact after_shutdownApplication_tidy ordered ⟨sane, leaves⟩ known server
    · exact leaves
  · let touched := w.touchApplication a
    have touches : w.Orders touched := regular.inOrder.orders_touchApplication a
    have still := regular.orders touches
    obtain ⟨⟨standing, at_, rfl, bare⟩, wanted, known, named, usable⟩ := offered.calm regular.sane touches.calm
    simp only [after_bind, after_modify, after_attempt]
    refine ((after_spliceApplication still.sane at_ known).and
      (after_spliceApplication_tidy still ⟨standing, at_, rfl, bare⟩ a)).mono ?_ (fun _ _ never => never.1.elim)
    intro _ spliced done
    obtain ⟨splices, tidy⟩ := done
    obtain ⟨new, anchored, -⟩ := splices.anchored known wanted named usable
    -- the sessions of an instance that is gone are none that the request has to keep to
    have lets_go : ∀ later, spliced.Keeps later → later.Tidy old → (later.application a).discarded = true →
        (later.excise r .application).2.Tidy old := by
      intro later keeps tidy refused
      obtain ⟨last, there, -, -, application⟩ :=
        Standing.of_seat (keeps.seat r (issued_of_standing anchored.at_)) anchored.at_
      refine tidy.files (tidy.excisesApplication r ?_)
      intro t standing b home at_ held
      cases (home_self there).symm.trans home
      cases there.symm.trans at_
      rw [application, anchored.holds] at held
      cases held
      exact refused
    refine ((after_startApplication_decides serene splices.sane anchored.running l).and
      (after_startApplication_tidy ordered ⟨splices.sane, tidy.toInOrder, anchored.running⟩ tidy l)).mono ?_ ?_
    · intro adopted later done
      obtain ⟨⟨⟨keeps, -⟩, -⟩, tidy, refused⟩ := done
      cases adopted with
      | true => exact tidy
      | false => exact lets_go later keeps tidy (refused rfl)
    · intro error later done
      obtain ⟨⟨keeps, -⟩, tidy, refused⟩ := done
      exact lets_go later keeps tidy refused

theorem after_acquireApplication_tidy (regular : w.Regular old) (seeking : w.Seeking r settings)
    (wanted : settings.hasApplication = true) (l : ListenerId) (fuel : Nat) :
    (acquireApplication host r settings.applicationKey settings l fuel).After w (fun _ => Tidy old)
      (fun _ => Tidy old) := by
  induction fuel generalizing w with
  | zero => trivial
  | succ fuel ih =>
    rcases looked : w.findOrCreateApplication settings.applicationKey settings with ⟨a, found⟩
    obtain ⟨keeps, offered⟩ := regular.sane.offers seeking wanted looked
    have tidy : found.Tidy old := by
      have files := regular.inOrder.findOrCreateApplication regular.sane settings.applicationKey settings
      rw [looked] at files
      exact regular.tidy.files files
    have adopts : (holding (.application a) (adoptApplication host r a l)).After found (fun _ => Tidy old)
        (fun _ => Tidy old) := by
      apply after_holding_tidy tidy
      intro held enters
      exact after_adoptApplication_tidy ordered serene ⟨keeps.sane.calm enters.calm, tidy.orders enters⟩
        (offered.calm keeps.sane enters.calm) l
    simp only [acquireApplication, after_bind, after_modifyGet, looked]
    refine ((after_tryApplication_settles serene keeps.sane offered l).and adopts).mono ?_
      (fun _ _ done => done.2)
    intro adopted later done
    obtain ⟨⟨settles, tried⟩, tidy⟩ := done
    cases adopted with
    | true => exact tidy
    | false => exact ih ⟨settles.sane, tidy⟩ tried

theorem after_ensureApplication_tidy (regular : w.Regular old) (c : ContextId) :
    (ensureApplication host c).After w (fun _ => Tidy old) (fun _ => Tidy old) := by
  cases home : w.home c with
  | none =>
    exact (homeless_ensureApplication home).sure (fun _ _ done => done.2 ▸ regular.tidy)
  | some r =>
    apply after_ensureApplication_cases regular.sane home regular.tidy
    · intro a _
      exact regular.tidy.orders (regular.inOrder.orders_touchApplication a)
    · intro request wanted settles seeks
      have tidy : (w.unhosted r).Tidy old := by
        rw [unhosted]
        split
        · exact regular.tidy.files (regular.inOrder.excisesBoth r)
        · exact regular.tidy
      simp only [ensureApplication.acquire, after_bind, after_get]
      split
      · exact tidy
      · apply after_holding_tidy tidy
        intro held enters
        rw [after_map]
        exact after_acquireApplication_tidy ordered serene ⟨settles.sane.calm enters.calm, tidy.orders enters⟩
          (seeks.keeps (enters.calm.keeps settles.sane)) wanted _ _

end Applications

end ScopeEngine
