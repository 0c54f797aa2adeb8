import ScopeEngine.Proofs.Traces

/-! Draining: a shutdown lists the session map part by part while others may still be placing sessions. Who places a
session holds its part of the map since before the application was seen open, so a whole listing that finds nothing
means that the map is empty and stays empty. -/

namespace ScopeEngine.Interleaving

variable {after shared : Shared} {closing : Closing} {scenario : Scenario} {worker : Nat}

theorem Scenario.shard_le (scenario : Scenario) (id : Key) : scenario.shard id ≤ scenario.lastShard := by
  have below := Nat.mod_lt (scenario.spread id.folded) (Nat.succ_pos scenario.lastShard)
  exact Nat.lt_succ_iff.mp below

namespace Stage

variable {scenario : Scenario} {worker : Nat} {shared after : Shared} {stage : Stage} {a : ApplicationId} {id : Key}

theorem AtRest.not_placing {w : World} : ¬ (Stage.opening a id .placing).AtRest w := by
  intro rest
  cases rest

theorem Step.placing (step : stage.Step scenario worker shared (.opening a id .placing) after) :
    (shared.world.application a).shutDown = false := by
  cases step with
  | idle quiet rest | asked goes kept rest | attempted goes quiet rest | finished goes rest | closed goes rest =>
    exact absurd rest AtRest.not_placing
  | asking goes =>
    cases goes with
    | admits unshut => exact unshut

theorem Step.to_closing {later : Closing} (step : stage.Step scenario worker shared (.closing later) after) :
    later.phase = .flagging ∨
      ∃ closing, stage = .closing closing ∧ closing.Goes scenario worker shared (some later) after := by
  cases step with
  | closing goes => exact .inr ⟨_, rfl, goes⟩
  | idle quiet rest | asked goes kept rest | attempted goes quiet rest | finished goes rest | closed goes rest =>
    exact .inl rest

theorem Step.of_closing {closing : Closing} {next : Stage}
    (step : (Stage.closing closing).Step scenario worker shared next after) :
    (∃ later, next = .closing later ∧ closing.Goes scenario worker shared (some later) after) ∨
      closing.Goes scenario worker shared none after := by
  cases step with
  | closing goes => exact .inl ⟨_, rfl, goes⟩
  | closed goes rest => exact .inr goes

end Stage

theorem Closing.Goes.onward {later : Closing} (goes : closing.Goes scenario worker shared (some later) after) :
    later.application = closing.application ∧ later.phase ≠ .flagging := by
  cases goes with
  | @books s phase ids error after here goes => cases error <;> exact ⟨rfl, nofun⟩
  | _ => exact ⟨rfl, nofun⟩

/-- A shutdown is over at once if there was one before, and else only after a listing that found nothing. -/
theorem Closing.Goes.last (goes : closing.Goes scenario worker shared none after) :
    (closing.phase = .flagging ∧ (shared.world.application closing.application).shutDown = true) ∨
      closing.phase = .weighing ∨ closing.phase = .calling := by
  cases goes with
  | repeats here shut => exact .inl ⟨here, shut⟩
  | forgets here => exact .inr (.inl here)
  | calls here => exact .inr (.inr here)

namespace Machine

variable {other : Nat} {phase : ClosePhase} {w : World}

/-- Nobody holds a part of a session map that somebody else holds. -/
structure Exclusive (m : Machine) : Prop where
  held : ∀ worker lock, (m.stage worker).holds m.scenario = some lock → lock ∈ m.shared.held
  alone : ∀ worker other lock, (m.stage worker).holds m.scenario = some lock →
    (m.stage other).holds m.scenario = some lock → worker = other

/-- The application is closed, its map is empty, and nobody is about to place a session there. -/
structure Sealed (m : Machine) (a : ApplicationId) : Prop where
  shut : (m.shared.world.application a).shutDown = true
  empty : (m.shared.world.application a).sessions.keys = []
  nobody : ∀ worker id, m.stage worker ≠ .opening a id .placing

/-- What a shutdown can rely on in each of its phases. -/
def Secured (m : Machine) (a : ApplicationId) : ClosePhase → Prop
  | .flagging => True
  | .fetching | .draining _ | .ending .. => (m.shared.world.application a).shutDown = true
  | .listing shard ids => (m.shared.world.application a).shutDown = true ∧
    (∀ key ∈ (m.shared.world.application a).sessions.keys, m.scenario.shard key < shard → key ∈ ids) ∧
    ∀ worker id, m.stage worker = .opening a id .placing → shard ≤ m.scenario.shard id
  | .weighing | .calling => m.Sealed a

/-- An application that is closed is sealed or in the hands of a shutdown. -/
structure Draining (m : Machine) (a : ApplicationId) : Prop where
  issued : a.number < m.shared.world.applications.size
  secured : ∀ worker closing, m.stage worker = .closing closing → closing.application = a → m.Secured a closing.phase
  drained : (m.shared.world.application a).shutDown = true → m.Sealed a ∨
    ∃ worker closing, m.stage worker = .closing closing ∧ closing.application = a ∧ closing.phase ≠ .flagging

variable {m next : Machine} {worker : Nat} {a : ApplicationId}

theorem Moves.holds (moves : m.Moves worker next) (different : other ≠ worker) :
    (next.stage other).holds next.scenario = (m.stage other).holds m.scenario := by
  rw [moves.others other different, moves.scenario]

theorem Exclusive.moves (exclusive : m.Exclusive) (moves : m.Moves worker next) : next.Exclusive := by
  have scenario := moves.scenario
  rcases moves.step.held with ⟨same, held⟩ | ⟨lock, before, now, free, held⟩ | ⟨lock, before, now, held⟩
  · have every : ∀ other, (next.stage other).holds next.scenario = (m.stage other).holds m.scenario := by
      intro other
      by_cases own : other = worker
      · rw [own, scenario, same]
      · exact moves.holds own
    refine ⟨?_, ?_⟩
    · intro other lock has
      rw [held]
      exact exclusive.held other lock (every other ▸ has)
    · intro other third lock has too
      exact exclusive.alone other third lock (every other ▸ has) (every third ▸ too)
  · rw [← scenario] at now
    have older : ∀ other, other ≠ worker → ∀ taken, (next.stage other).holds next.scenario = some taken →
        taken ∈ m.shared.held := by
      intro other different taken has
      exact exclusive.held other taken (moves.holds different ▸ has)
    refine ⟨?_, ?_⟩
    · intro other taken has
      rw [held]
      by_cases own : other = worker
      · subst other
        cases now.symm.trans has
        exact List.mem_cons_self
      · exact List.mem_cons_of_mem _ (older other own taken has)
    · intro other third taken has too
      by_cases own : other = worker
      · subst other
        cases now.symm.trans has
        by_cases same : third = worker
        · exact same.symm
        · exact absurd (older third same _ too) free
      · by_cases same : third = worker
        · subst third
          cases now.symm.trans too
          exact absurd (older other own _ has) free
        · exact exclusive.alone other third taken (moves.holds own ▸ has) (moves.holds same ▸ too)
  · rw [← scenario] at now
    have apart : ∀ other taken, (next.stage other).holds next.scenario = some taken → other ≠ worker := by
      intro other taken has own
      subst other
      cases now.symm.trans has
    refine ⟨?_, ?_⟩
    · intro other taken has
      have different := apart other taken has
      have old := moves.holds different ▸ has
      rw [held]
      refine (List.mem_erase_of_ne ?_).mpr (exclusive.held other taken old)
      intro same
      subst same
      exact different (exclusive.alone other worker taken old before)
    · intro other third taken has too
      exact exclusive.alone other third taken (moves.holds (apart other taken has) ▸ has)
        (moves.holds (apart third taken too) ▸ too)

theorem Moves.placing (moves : m.Moves worker next) (shut : (m.shared.world.application a).shutDown = true) {id : Key}
    (here : next.stage other = .opening a id .placing) : m.stage other = .opening a id .placing := by
  by_cases own : other = worker
  · subst other
    have step := moves.step
    rw [here] at step
    cases shut.symm.trans step.placing
  · exact moves.others other own ▸ here

theorem Sealed.moves (sealed : m.Sealed a) (moves : m.Moves worker next) : next.Sealed a := by
  refine ⟨moves.turns.shutDown_mono sealed.shut, ?_, ?_⟩
  · refine List.eq_nil_iff_forall_not_mem.mpr ?_
    intro key member
    rcases moves.turns.keys member with old | here
    · rw [sealed.empty] at old
      cases old
    · exact sealed.nobody worker key here
  · intro other id here
    exact sealed.nobody other id (moves.placing sealed.shut here)

theorem Sealed.vacant (sealed : m.Sealed a) (s : SessionId) : s ∉ (m.shared.world.application a).sessions.values := by
  have empty := sealed.empty
  simp only [Bindings.keys, List.map_eq_nil_iff] at empty
  simp [Bindings.values, empty]

theorem Secured.moves (secured : m.Secured a phase) (moves : m.Moves worker next) : next.Secured a phase := by
  cases phase with
  | flagging => trivial
  | fetching | draining ids | ending s phase ids => exact moves.turns.shutDown_mono secured
  | listing shard ids =>
    obtain ⟨shut, listed, ahead⟩ := secured
    refine ⟨moves.turns.shutDown_mono shut, ?_, ?_⟩
    · intro key member below
      rw [moves.scenario] at below
      rcases moves.turns.keys member with old | here
      · exact listed key old below
      · exact absurd (ahead worker key here) (Nat.not_le.mpr below)
    · intro other id here
      rw [moves.scenario]
      exact ahead other id (moves.placing shut here)
  | weighing | calling => exact Sealed.moves secured moves

theorem Secured.shut (secured : m.Secured a phase) (past : phase ≠ .flagging) :
    (m.shared.world.application a).shutDown = true := by
  cases phase with
  | flagging => exact absurd rfl past
  | fetching | draining | ending => exact secured
  | listing => exact secured.1
  | weighing | calling => exact Sealed.shut secured

/-- Each phase of a shutdown secures what the next one relies on. -/
theorem Secured.goes {closing later : Closing} (secured : m.Secured a closing.phase) (own : closing.application = a)
    (issued : a.number < m.shared.world.applications.size) (exclusive : next.Exclusive) (moves : m.Moves worker next)
    (goes : closing.Goes m.scenario worker m.shared (some later) next.shared) : next.Secured a later.phase := by
  subst own
  have kept := secured.moves moves
  have scenario := moves.scenario
  generalize final : next.shared = after at goes
  cases goes with
  | flags here unshut =>
    have flagged : (next.shared.world.application closing.application).shutDown = true := by
      rw [final, World.shutDown_beginShutdown, if_pos ⟨rfl, issued⟩]
    exact flagged
  | fetches here | relists here =>
    rw [here] at kept
    exact ⟨kept, by simp, by simp⟩
  | @lists shard ids here within free =>
    rw [here] at kept
    obtain ⟨shut, listed, ahead⟩ := kept
    refine ⟨shut, ?_, ?_⟩
    · intro key member below
      refine List.mem_append.mpr ?_
      by_cases lower : next.scenario.shard key < shard
      · exact .inl (listed key member lower)
      · have last : m.scenario.shard key = shard := by
          rw [scenario] at below lower
          omega
        exact .inr (List.mem_filter.mpr ⟨final ▸ member, by simp [last]⟩)
    · -- Whoever places a session in the part just listed would hold that part.
      intro other id here
      have ahead := ahead other id here
      have different : next.scenario.shard id ≠ shard := by
        intro same
        have holds : (next.stage other).holds next.scenario = some (closing.application, shard) := by
          simp [here, Stage.holds, same]
        have held := exclusive.held other _ holds
        simp [final, Shared.isHeld] at held free
        exact free held
      omega
  | @lacks shard here beyond =>
    rw [here] at kept
    obtain ⟨shut, listed, ahead⟩ := kept
    have within := next.scenario.shard_le
    rw [← scenario] at beyond
    refine ⟨shut, List.eq_nil_iff_forall_not_mem.mpr ?_, ?_⟩
    · intro key member
      cases listed key member (Nat.lt_of_le_of_lt (within key) beyond)
    · intro other id here
      have ahead := ahead other id here
      have below := within id
      omega
  | drains here beyond found =>
    rw [here] at kept
    exact kept.1
  | takes here free there | misses here missing | ends here goes | books here goes | dares here =>
    rw [here] at kept
    exact kept

theorem Draining.moves (draining : m.Draining a) (exclusive : next.Exclusive) (moves : m.Moves worker next) :
    next.Draining a := by
  have step := moves.step
  refine ⟨Nat.lt_of_lt_of_le draining.issued moves.turns.sizes.2, ?_, ?_⟩
  · intro other later here own
    by_cases acting : other = worker
    · subst other
      rw [here] at step
      rcases step.to_closing with first | ⟨closing, before, goes⟩
      · rw [first]
        trivial
      · have same : closing.application = a := goes.onward.1.symm.trans own
        exact (draining.secured worker closing before same).goes same draining.issued exclusive moves goes
    · exact (draining.secured other later (moves.others other acting ▸ here) own).moves moves
  · intro shut
    cases already : (m.shared.world.application a).shutDown with
    | false =>
      -- The flag has just been set.
      rcases moves.turns.shutDown_new shut with shut | ⟨closing, before, own, first⟩
      · cases already.symm.trans shut
      · rw [before] at step
        rcases step.of_closing with ⟨later, here, goes⟩ | ends
        · exact .inr ⟨worker, later, here, goes.onward.1.trans own, goes.onward.2⟩
        · rcases ends.last with ⟨-, shut⟩ | here | here
          · rw [own, already] at shut
            cases shut
          · cases first.symm.trans here
          · cases first.symm.trans here
    | true =>
      rcases draining.drained already with sealed | ⟨other, closing, before, own, past⟩
      · exact .inl (sealed.moves moves)
      · by_cases acting : other = worker
        · subst other
          have secured := draining.secured worker closing before own
          rw [before] at step
          rcases step.of_closing with ⟨later, here, goes⟩ | ends
          · exact .inr ⟨worker, later, here, goes.onward.1.trans own, goes.onward.2⟩
          · rcases ends.last with ⟨here, -⟩ | here | here
            · exact absurd here past
            · rw [here] at secured
              exact .inl (Sealed.moves secured moves)
            · rw [here] at secured
              exact .inl (Sealed.moves secured moves)
        · exact .inr ⟨other, closing, (moves.others other acting).trans before, own, past⟩

theorem exclusive_of_rest (rest : ∀ worker, (m.stage worker).AtRest w) : m.Exclusive := by
  refine ⟨?_, ?_⟩
  · intro worker lock has
    cases (rest worker).holds.symm.trans has
  · intro worker other lock has
    cases (rest worker).holds.symm.trans has

theorem draining_of_rest (rest : ∀ worker, (m.stage worker).AtRest w)
    (issued : a.number < m.shared.world.applications.size) (unshut : (m.shared.world.application a).shutDown = false) :
    m.Draining a := by
  refine ⟨issued, ?_, ?_⟩
  · intro worker closing here _
    have first := rest worker
    rw [here] at first
    have first : closing.phase = .flagging := first
    rw [first]
    trivial
  · intro shut
    cases unshut.symm.trans shut

end Machine

end ScopeEngine.Interleaving
