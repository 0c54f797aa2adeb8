import ScopeEngine.Proofs.Readiness.Runs
import ScopeEngine.Proofs.Registry.Operations

/-! Touching sessions and switching between them outside hooks, and what servers do. A session that a request lets go of is
filed with the application of the request or not at all, so taking it out of that map is enough before it is ended. -/

namespace ScopeEngine

open ScopeEngine.Action Script World

variable {α : Type} {host : Host} {w later : World} {a : ApplicationId} {s : SessionId} {c r : ContextId} {old : Nat}

section Sessions

variable (ordered : host.Ordered) (serene : host.Serene)
include ordered serene

theorem after_ensureApplication_atWork (regular : w.Regular old) (home : w.home c = some r) :
    (ensureApplication host c).After w
      (fun found later => later.Regular old ∧ ∀ a, found = some a → later.AtWork c r a) (fun _ => Regular old) := by
  refine ((after_ensureApplication_settles serene regular.sane c).and
    (after_ensureApplication_tidy ordered serene regular c)).mono ?_ (fun _ _ done => ⟨done.1.sane, done.2⟩)
  intro found later done
  obtain ⟨⟨settles, runs⟩, tidy⟩ := done
  refine ⟨⟨settles.sane, tidy⟩, fun a same => ?_⟩
  obtain ⟨t, running⟩ := runs a same
  have here := (settles.extends_.home (issued_of_home home)).trans home
  cases here.symm.trans running.home
  exact ⟨settles.sane, tidy.toInOrder, running⟩

theorem after_ensureSession_atWork (regular : w.Regular old) (home : w.home c = some r) : (ensureSession host c).After w
      (fun found later => later.Regular old ∧ ∀ s, found = some s → ∃ a, later.AtWork r r a ∧ later.FiledWith (some a) s)
      (fun _ => Regular old) :=
  after_touchSessionOf_orders ordered serene home regular (fun _ _ regular orders => regular.orders orders)
    (after_ensureApplication_atWork ordered serene regular (home_home home)) host.patience

theorem regularly_ensureApplication (c : ContextId) : Regularly old (ensureApplication host c) :=
  (settling_ensureApplication serene c).regularly fun _ regular => after_ensureApplication_tidy ordered serene regular c

theorem regularly_ensureSession (c : ContextId) : Regularly old (ensureSession host c) := by
  intro w regular
  cases home : w.home c with
  | none =>
    exact (homeless_ensureSession home).sure (fun _ _ done => done.2 ▸ regular)
  | some r =>
    exact (after_ensureSession_atWork ordered serene regular home).mono_ok (fun _ _ done => done.1)

theorem regularly_initializeSession (c : ContextId) (id : Key) : Regularly old (initializeSession host c id) :=
  regularly_rules.bind (regularly_setSessionId c id) fun _ =>
    regularly_rules.bind (regularly_ensureSession ordered serene c) fun found => regularly_rules.orSessionsDisabled found

theorem moves_initializeSession (id : Key) : LeadsIf Moves (fun _ => True) c a (initializeSession host c id) := by
  have rules := leadsIf_rules course_moves lasting_true (c := c) (a := a)
  refine rules.bind (fun _ w here => after_setSessionId_moves here.1.inOrder c id) fun _ => ?_
  exact rules.bind (ordered_ensureSession ordered serene).moves fun found => rules.orSessionsDisabled found

omit serene in
/-- A session that is filed with the application leaves the map before it is ended. -/
theorem ordered_dropThenRetire (s : SessionId) :
    OrderedIf (·.FiledWith (some a) s) c a (do
      let _ ← modifyGet (·.dropSession a s)
      retireSession host c a s) := by
  rintro r w ⟨work, own⟩
  have drops := work.inOrder.loses_dropSession a s
  have calm := w.calm_dropSession a s
  have contexts := (w.thins_dropSession a s).contexts
  have working : (w.dropSession a s).2.AtWork c r a :=
    ⟨work.sane.calm calm, drops.inOrder, work.running.calm work.sane calm⟩
  simp only [after_bind, after_modifyGet]
  exact (after_retireSession_orders ordered working (work.inOrder.dropSession own)).imp
    fun _ ends => drops.orders calm contexts ends.1 ends.2

theorem moves_moveSession (old : SessionId) :
    LeadsIf Moves (·.FiledWith (some a) old) c a (holding (.application a) do
      let fresh ← initializeSession host c (← modifyGet (·.drawSessionId))
      let w ← get
      let source := (w.session old).scope
      let target := (w.session fresh).scope
      inherit target (w.scope source).bindings.entries [(source, target)]
      let _ ← modifyGet (·.dropSession a old)
      retireSession host c a old
      pure fresh) := by
  have rules := leadsIf_rules course_moves (course_moves.lasting_filedWith (some a) old) (c := c) (a := a)
  refine rules.holding _ (rules.bind rules.drawSessionId fun id =>
    rules.bind (moves_initializeSession ordered serene id).given fun fresh => rules.bind rules.get fun w =>
      rules.bind (rules.inherit _ _ _) fun _ => ?_)
  have ends := rules.bind (ordered_dropThenRetire ordered old).moves fun _ => rules.pure fresh
  rwa [bind_assoc] at ends

theorem regularly_rotateSession (c : ContextId) : Regularly old (rotateSession host c) := by
  intro w regular
  simp only [rotateSession, after_bind]
  cases home : w.home c with
  | none =>
    refine (homeless_ensureSession home).sure (fun found later done => ?_)
    obtain ⟨rfl, rfl⟩ := done
    exact regular
  | some r =>
    refine ((after_ensureSession_atWork ordered serene regular home).and
      (settling_ensureSession serene c w regular.sane)).mono (fun found touched done => ?_) (fun _ _ done => done.1)
    obtain ⟨⟨still, filed⟩, settles⟩ := done
    cases found with
    | none => exact still
    | some old =>
      obtain ⟨a, work, own⟩ := filed old rfl
      have issued := issued_of_home home
      have here : touched.home c = some r := (settles.extends_.home issued).trans home
      have working : touched.AtWork c r a := ⟨work.sane, work.inOrder,
        Nat.lt_of_lt_of_le issued settles.extends_.size, here, work.running.anchored⟩
      have touches := working.inOrder.orders_touchApplication a
      simp only [orSessionsDisabled, after_pure]
      refine (after_ensureApplication_spliced working.running).sure (fun found second done => ?_)
      obtain ⟨rfl, rfl⟩ := done
      have ready := working.orders touches
      exact (moves_moveSession ordered serene old r _ ⟨ready, own.refiles touches.refiles⟩).imp
        fun _ moves => (still.orders touches).moves moves

omit ordered serene in
/-- The session of a request, or else the one of its session id, is filed with the application of the request or not at
all. -/
theorem World.AtWork.current (work : w.AtWork c r a) {old : SessionId}
    (found : (w.splicedSession c).or (do
      let id ← w.sessionIdAt c
      (w.application a).sessions.find? id) = some old) : w.FiledWith (some a) old := by
  rcases Option.or_eq_some_iff.mp found with spliced | ⟨-, stored⟩
  · obtain ⟨standing, anchored⟩ := work.running.anchored
    obtain ⟨request, place, there⟩ := requestOf_home work.running.home
    have at_ : w.standing r = some (w.standingOf request) := by rw [World.standing, there]; rfl
    cases at_.symm.trans anchored.at_
    rw [← anchored.holds]
    exact work.inOrder.seated r _ old at_ ((splicedSession_eq place).symm.trans spliced)
  · obtain ⟨id, -, mapped⟩ := Option.bind_eq_some_iff.mp stored
    exact work.inOrder.filedWith (Bindings.mem_values_of_find? mapped)

theorem moves_replaceSession (old : Option SessionId) (id : Option Key) :
    LeadsIf Moves (fun w => ∀ s, old = some s → w.FiledWith (some a) s) c a (holding (.application a) do
      if let some old := old then
        let _ ← modifyGet (·.dropSession a old)
        retireSession host c a old
      initializeSession host c (← orDrawnId id)) := by
  have lasting : Lasting Moves fun w => ∀ s, old = some s → w.FiledWith (some a) s := fun _ _ filed moves s same =>
    (filed s same).refiles moves.refiles
  have rules := leadsIf_rules course_moves lasting (c := c) (a := a)
  have renews : LeadsIf Moves (fun w => ∀ s, old = some s → w.FiledWith (some a) s) c a
      (do initializeSession host c (← orDrawnId id)) :=
    rules.bind (rules.orDrawnId id) fun id => (moves_initializeSession ordered serene id).given
  refine rules.holding _ ?_
  cases old with
  | none => exact renews
  | some old =>
    have leaves : LeadsIf Moves (fun w => ∀ s, some old = some s → w.FiledWith (some a) s) c a (do
        let _ ← modifyGet (·.dropSession a old)
        retireSession host c a old) := fun r w here =>
      (ordered_dropThenRetire ordered old).moves r w ⟨here.1, here.2 old rfl⟩
    have ends := rules.bind leaves fun _ => renews
    rwa [bind_assoc] at ends

theorem regularly_invalidateSession (c : ContextId) (id : Option Key) : Regularly old (invalidateSession host c id) := by
  intro w regular
  simp only [invalidateSession, after_bind, after_get]
  split
  · exact regular
  · rw [after_bind]
    cases home : w.home c with
    | none =>
      refine (homeless_ensureApplication home).sure (fun found later done => ?_)
      obtain ⟨rfl, rfl⟩ := done
      exact regular
    | some r =>
      refine (after_ensureApplication_atWork ordered serene regular home).mono_ok (fun found touched done => ?_)
      cases found with
      | none => exact done.1
      | some a =>
        have work := done.2 a rfl
        have excises := work.inOrder.orders_excise c
        have still := done.1.orders excises
        refine (moves_replaceSession ordered serene _ id r _ ⟨work.orders excises, ?_⟩).imp fun _ moves => still.moves moves
        exact fun old found => (work.current found).refiles excises.refiles

theorem regularly_named {key : Key} {action : Action ScopeId} (asks : AsksScope host c key action) : Regularly old action :=
  fun w regular => asks.after regular
    (fun t _ => regularly_rules.applicationScope (regularly_ensureApplication ordered serene t) key w regular)
    (fun t _ => regularly_rules.sessionScope (regularly_ensureSession ordered serene t) key w regular)

theorem regularly_visits (c : ContextId) : VisitRules host c (fun {_} action => Regularly old action) where
  toScopeRules := regularly_rules.toScopeRules
  nearby := fun _ => regularly_named ordered serene .nearby
  global := fun _ => regularly_named ordered serene .global
  application := regularly_ensureApplication ordered serene c
  session := regularly_ensureSession ordered serene c

theorem regularly_touches (c : ContextId) : TouchRules host c (fun {_} action => RegularlyGrounded old action) where
  toScopeRules := regularlyGrounded_rules.toScopeRules
  declares := ⟨fun beside w known => by
    have calm := (beside w).calm (.inl known.2)
    exact ⟨known.1.orders (known.1.inOrder.orders_of_rows calm (beside w).contexts (beside w).applications
      (beside w).sessions), calm.grounded known.2⟩⟩
  nearby := fun key => ((regularly_visits ordered serene c).nearby key).grounded ((settling_visits serene c).nearby key)
  global := fun key => ((regularly_visits ordered serene c).global key).grounded ((settling_visits serene c).global key)
  application := (regularly_ensureApplication ordered serene c).grounded (settling_ensureApplication serene c)
  session := (regularly_ensureSession ordered serene c).grounded (settling_ensureSession serene c)

end Sessions

section Servers

variable (ordered : host.Ordered) (serene : host.Serene)
include ordered serene

theorem after_shutdownApplication_regular (regular : w.Regular old) (issued : a.number < w.applications.size)
    (server : ContextId) : (shutdownApplication host a server).After w (fun _ => Regular old) (fun _ => Regular old) :=
  ((after_shutdownApplication_keeps serene regular.sane issued server).and
    (after_shutdownApplication_tidy ordered regular issued server)).imp fun _ done => ⟨done.1.sane, done.2⟩

omit ordered serene in
theorem World.Regular.reopen (regular : w.Regular old) (a : ApplicationId) (server : ContextId) :
    (w.reopenApplication a).Regular old := by
  let cleared := w.setScope (w.application a).scope
    (seedApplication (w.application a).name (w.scope (w.application a).scope).clear)
  have clears : cleared.Tidy old := regular.tidy.orders
    (regular.inOrder.orders_of_rows (calm_of_same rfl rfl rfl rfl rfl (Int.le_refl _)) rfl rfl rfl)
  have reopens := clears.files (clears.unfiles (cleared.unfiles_modifyApplication a
    (fun application => { application with listener := none, started := false, shutDown := false }) fun _ => rfl))
  exact ⟨(passes_reopen regular.sane a server).sane, reopens.orders (reopens.orders_touchApplication a)⟩

theorem after_restartApplication_regular (regular : w.Regular old) (issued : a.number < w.applications.size)
    (server : ContextId) :
    (restartApplication host a server).After w (fun _ => Regular old) (fun _ => Regular old) := by
  simp only [restartApplication, after_bind]
  refine (after_shutdownApplication_regular ordered serene regular issued server).mono_ok (fun report ended done => ?_)
  rw [after_get]
  split
  · trivial
  · exact done.reopen a server

theorem regularly_shutdownNamed (name : Key) (server : ContextId) : Regularly old (shutdownNamed host name server) := by
  intro w regular
  simp only [shutdownNamed, after_bind, after_get]
  cases found : w.registry.find? name with
  | none => exact regular
  | some a =>
    obtain ⟨entry, member, -, rfl⟩ := Bindings.mem_entries_of_find? found
    have removes : Regular old { w with registry := w.registry.erase name } :=
      ⟨(regular.sane.keeps_erase name).sane, regular.tidy.files (regular.inOrder.unfiles (w.unfiles_erase name))⟩
    simp only [after_bind, after_modify, after_map]
    exact after_shutdownApplication_regular ordered serene removes (regular.sane.registered entry member).1 server

theorem regularly_shutdownAll (server : ContextId) : Regularly old (shutdownAll host server) :=
  regularly_rules.toScopeRules.shutdownAll fun name => regularly_shutdownNamed ordered serene name server

end Servers

end ScopeEngine
