import ScopeEngine.Proofs.Readiness.Touches

/-! What requests and servers do outside hooks. Whatever they do, except for a restart, requests come to hold only
applications whose start is decided. A restart opens the start of its application again and leaves all requests where
they are. -/

namespace ScopeEngine

open ScopeEngine.Action Script World

variable {α β : Type} {host : Host} {w later : World} {a b : ApplicationId} {c r : ContextId} {known : World → Prop}

namespace Action

structure Settled (known : World → Prop) : Prop extends Steady known where
  settles : ∀ {w later : World}, known w → w.Settles later → known later

theorem settled_sane : Settled Sane := ⟨steady_sane, fun _ settles => settles.sane⟩

theorem settled_grounded : Settled fun w => w.Sane ∧ w.Grounded :=
  ⟨steady_grounded, fun knows settles => ⟨settles.sane, settles.grounded knows.2⟩⟩

/-- However the action ends, requests have come to hold only applications whose start is decided. -/
abbrev SettlingIf (known : World → Prop) (action : Action α) : Prop := Under known Settles Settles action

abbrev Settling (action : Action α) : Prop := SettlingIf Sane action

end Action

theorem settlingIf_rules (settled : Settled known) : CalmRules (fun {_} action => SettlingIf known action) where
  toScriptRules := Regime.rules (.of (fun knows aside => (aside.calm.keeps (settled.sane knows)).settles) settled.settles
    Settles.trans)
  calm := fun calm w knows => ((calm w).keeps (settled.sane knows)).settles

theorem settling_rules : CalmRules (fun {_} action => Settling action) := settlingIf_rules settled_sane

theorem settling_modifyRequest (r : ContextId) (change : Request → Request)
    (kept : ∀ request, (change request).detached = request.detached ∧
      ((change request).applicationNode = request.applicationNode ∨ (change request).applicationNode = none)) :
    Settling (modify (·.modifyRequest r change)) := fun _ sane => sane.settles_modifyRequest r change kept

theorem settling_excise (c : ContextId) (type : ContextType) : Settling (excise c type) := fun _ sane =>
  sane.settles_excise c type

theorem settling_setListener (c : ContextId) (l : ListenerId) : Settling (setListener c l) :=
  settling_rules.bind (settling_rules.theRequest c) fun found =>
    settling_modifyRequest found.1 (fun request => { request with listener := l }) fun _ => ⟨rfl, .inl rfl⟩

theorem settling_updateSettings (c : ContextId) (settings : Settings) : Settling (updateSettings c settings) := by
  refine settling_rules.bind (settling_rules.theRequest c) fun found => settling_rules.bind ?_ fun _ =>
    settling_rules.bind settling_rules.get fun w => ?_
  · exact settling_modifyRequest found.1 (fun request => { request with settings }) fun _ => ⟨rfl, .inl rfl⟩
  · have ends : Settling (if !settings.sessionManagement then do
        let _ ← excise found.1 .session
        pure PUnit.unit else pure PUnit.unit) := by
      split
      · exact settling_rules.bind (settling_excise found.1 .session) fun _ => settling_rules.pure _
      · exact settling_rules.pure _
    have applies : ∀ a, Settling (modify (·.modifyApplication a (·.applySettings settings))) := fun a _ sane =>
      (sane.keeps_modifyApplication (·.applySettings settings) (fun _ => rfl) a fun _ done => done).settles
    dsimp only
    split
    · split
      · exact settling_rules.bind (applies _) fun _ => ends
      · exact settling_rules.bind (settling_excise found.1 .session) fun _ =>
          settling_rules.bind (settling_excise found.1 .application) fun _ => ends
    · exact ends

section Hooks

variable (serene : host.Serene)
include serene

theorem settling_ensureApplication (c : ContextId) : Settling (ensureApplication host c) := fun _ sane =>
  (after_ensureApplication_settles serene sane c).mono_ok (fun _ _ done => done.1)

theorem settling_ensureSession (c : ContextId) : Settling (ensureSession host c) := by
  intro w sane
  cases home : w.home c with
  | none =>
    exact (homeless_ensureSession home).sure (fun _ _ done => done.2 ▸ sane.keeps.settles)
  | some r =>
    refine after_touchSessionOf_calm serene home sane.keeps.settles ?_ ?_ host.patience
    · exact fun _ _ settles calm => settles.trans (calm.keeps settles.sane).settles
    · apply (after_ensureApplication_settles serene sane r).mono
      · intro found later ⟨settles, runs⟩
        refine ⟨settles, fun a same => ⟨settles.sane, ?_⟩⟩
        obtain ⟨t, running⟩ := runs a same
        have here : later.home r = some r := by
          rw [settles.extends_.home (issued_of_home (home_home home)), home_home home]
        cases here.symm.trans running.home
        exact running
      · exact fun _ _ settles => settles

theorem settling_named {key : Key} {action : Action ScopeId} (asks : AsksScope host c key action) : Settling action :=
  fun w sane => asks.after sane.keeps.settles
    (fun t _ => settling_rules.applicationScope (settling_ensureApplication serene t) key w sane)
    (fun t _ => settling_rules.sessionScope (settling_ensureSession serene t) key w sane)

theorem settling_visits (c : ContextId) : VisitRules host c (fun {_} action => Settling action) where
  toScopeRules := settling_rules.toScopeRules
  nearby := fun _ => settling_named serene .nearby
  global := fun _ => settling_named serene .global
  application := settling_ensureApplication serene c
  session := settling_ensureSession serene c

theorem settling_touches (c : ContextId) :
    TouchRules host c (fun {_} action => SettlingIf (fun w => w.Sane ∧ w.Grounded) action) where
  toScopeRules := (settlingIf_rules settled_grounded).toScopeRules
  declares := ⟨fun beside w knows => (((beside w).calm (.inl knows.2)).keeps knows.1).settles⟩
  nearby := fun key w knows => (settling_visits serene c).nearby key w knows.1
  global := fun key w knows => (settling_visits serene c).global key w knows.1
  application := fun w knows => settling_ensureApplication serene c w knows.1
  session := fun w knows => settling_ensureSession serene c w knows.1

theorem settling_initializeSession (c : ContextId) (id : Key) : Settling (initializeSession host c id) :=
  settling_rules.bind (settling_rules.setSessionId c id) fun _ => settling_rules.bind (settling_ensureSession serene c) fun found =>
    settling_rules.orSessionsDisabled found

theorem serene_initializeSession (id : Key) : Serene c a (initializeSession host c id) :=
  serene_rules.bind (serene_rules.setSessionId c id) fun _ => serene_rules.bind (serene_ensureSession serene) fun found =>
    serene_rules.orSessionsDisabled found

theorem settling_withApplication (c : ContextId) {next : ApplicationId → Action α}
    (rest : ∀ a, Serene c a (next a)) :
    Settling (do next (← orSessionsDisabled (← ensureApplication host c))) := by
  intro w sane
  rw [after_bind]
  apply (after_ensureApplication_settles serene sane c).mono_ok
  intro found ready ⟨settles, runs⟩
  cases found with
  | none => exact settles
  | some a =>
    obtain ⟨r, running⟩ := runs a rfl
    exact (rest a r ready ⟨settles.sane, running⟩).imp fun _ calm => settles.trans (calm.keeps settles.sane).settles

theorem settling_rotateSession (c : ContextId) : Settling (rotateSession host c) := by
  refine settling_rules.bind (settling_ensureSession serene c) fun touched =>
    settling_rules.bind (settling_rules.orSessionsDisabled touched) fun old => ?_
  apply settling_withApplication serene c
  intro a
  have drops : Serene c a (modifyGet (·.dropSession a old)) := serene_rules.calm fun w => w.calm_dropSession a old
  refine serene_rules.holding _ (serene_rules.bind serene_rules.drawSessionId fun id => ?_)
  refine serene_rules.bind (serene_initializeSession serene id) fun fresh => serene_rules.bind serene_rules.get fun w => ?_
  exact serene_rules.bind (serene_rules.inherit _ _ _) fun _ => serene_rules.bind drops fun _ =>
    serene_rules.bind (serene_retireSession serene old) fun _ => serene_rules.pure fresh

theorem settling_invalidateSession (c : ContextId) (id : Option Key) : Settling (invalidateSession host c id) := by
  refine settling_rules.bind settling_rules.get fun w => ?_
  dsimp only
  split
  · exact settling_rules.fail _
  · apply settling_withApplication serene c
    intro a
    have drops : ∀ s, Serene c a (modifyGet (·.dropSession a s)) := fun s =>
      serene_rules.calm fun w => w.calm_dropSession a s
    have renews : Serene c a (do initializeSession host c (← orDrawnId id)) :=
      serene_rules.bind (serene_rules.orDrawnId id) fun id => serene_initializeSession serene id
    refine serene_rules.bind serene_rules.get fun w => serene_rules.bind (serene_rules.exciseSession c) fun _ =>
      serene_rules.holding _ ?_
    split
    next old _ =>
      exact serene_rules.bind (drops old) fun _ => serene_rules.bind (serene_retireSession serene old) fun _ => renews
    next => exact renews

theorem settling_shutdownNamed (name : Key) (server : ContextId) : Settling (shutdownNamed host name server) := by
  intro w sane
  simp only [shutdownNamed, after_bind, after_get]
  cases found : w.registry.find? name with
  | none => exact sane.keeps.settles
  | some a =>
    obtain ⟨entry, member, -, rfl⟩ := Bindings.mem_entries_of_find? found
    have removes := sane.keeps_erase name
    simp only [after_bind, after_modify, after_map]
    have issued := (sane.registered entry member).1
    exact (after_shutdownApplication_keeps serene removes.sane issued server).imp fun _ keeps => (removes.trans keeps).settles

theorem settling_shutdownAll (server : ContextId) : Settling (shutdownAll host server) :=
  settling_rules.toScopeRules.shutdownAll fun name => settling_shutdownNamed serene name server

end Hooks

end ScopeEngine
