import ScopeEngine.Proofs.Turns

/-! What the turns of workers leave behind: the locks they hold, the events they note, and where they get to with the
end of a session. Machines whose tasks are all at rest stay orderly, so what every turn keeps holds after every
schedule. -/

namespace ScopeEngine.Interleaving

variable {scenario : Scenario} {worker : Nat} {shared after : Shared}

variable {a : ApplicationId} {listener : Option ListenerId} {phase : EndPhase}
    {progress : Progress EndPhase (Option Error)} {s : SessionId}

theorem StartPhase.Goes.held {phase : StartPhase} {subject : Instance} {progress : Progress StartPhase StartResult}
    (goes : phase.Goes scenario worker subject shared progress after) : after.held = shared.held := by
  cases goes <;> rfl

theorem EndPhase.Goes.held (goes : phase.Goes worker listener a s shared progress after) :
    after.held = shared.held := by
  cases goes <;> rfl

/-- The first step of an end, whoever takes it, leaves the session ended. -/
theorem EndPhase.Goes.flagged (goes : phase.Goes worker listener a s shared progress after)
    (first : phase = .flagging) (issued : s.number < shared.world.sessions.size) :
    (after.world.session s).shutDown = true := by
  cases goes with
  | repeats | flags => exact World.shutDown_endSession issued
  | dares | forgets | calls => cases first

theorem Closing.Goes.held {closing : Closing} {left : Option Closing}
    (goes : closing.Goes scenario worker shared left after) : after.held = shared.held := by
  cases goes with
  | ends here goes | books here goes => exact goes.held
  | _ => rfl

namespace Stage

variable {stage next : Stage} {w : World}

variable {event : Event} {middle : Shared}

def holds (scenario : Scenario) : Stage → Option (ApplicationId × Nat)
  | .opening a id .checking | .opening a id .placing => some (a, scenario.shard id)
  | _ => none

/-- Events that a turn from the stage may note. -/
inductive Notes (worker : Nat) (w : World) : Stage → Event → Prop
  | placed {a : ApplicationId} {id : Key} :
      Notes worker w (.opening a id .placing) (.placed worker a w.sessions.next)
  | declined {a : ApplicationId} {id : Key} : Notes worker w (.opening a id .checking) (.declined worker a)
  | called {subject : Instance} {answer : Answer} :
      Notes worker w (.starting subject .calling) (.called worker subject.startHook subject answer)
  | attempted {subject : Instance} {phase : StartPhase} {result : StartResult} :
      Notes worker w (.starting subject phase) (.attempted worker subject result)
  | ended {stage : Stage} {ending : Ending} {answer : Answer} (here : stage.ending? = some ending)
      (last : ending.phase = .calling) :
      Notes worker w stage (.called worker .sessionEnd (.session ending.application ending.session) answer)
  | farewell {closing : Closing} {a : ApplicationId} {answer : Answer} :
      Notes worker w (.closing closing) (.called worker .applicationEnd (.application a) answer)
  | closed {closing : Closing} {a : ApplicationId} {report : ShutdownReport} {requested : Bool} :
      Notes worker w (.closing closing) (.closed worker a report requested)
  | visited {stage : Stage} {visitor turn : Nat} {result : VisitResult} :
      Notes worker w stage (.visited visitor turn result)

def Noted (worker : Nat) (stage : Stage) (shared after : Shared) : Prop :=
  ∃ events, after.log = events ++ shared.log ∧ ∀ event ∈ events, stage.Notes worker shared.world event

theorem noted_none (same : after.log = shared.log) : stage.Noted worker shared after := ⟨[], same, by simp⟩

theorem Noted.more (noted : stage.Noted worker shared middle) (notes : stage.Notes worker shared.world event)
    (log : after.log = event :: middle.log) : stage.Noted worker shared after := by
  obtain ⟨events, grown, all⟩ := noted
  exact ⟨event :: events, by rw [log, grown, List.cons_append], by simpa using ⟨notes, all⟩⟩

theorem noted_one (notes : stage.Notes worker shared.world event) (log : after.log = event :: shared.log) :
    stage.Noted worker shared after :=
  (noted_none rfl).more notes log

theorem Noted.quiet (noted : stage.Noted worker shared middle) (quiet : middle.Quiet after) :
    stage.Noted worker shared after := by
  rcases quiet.log with same | ⟨visitor, turn, result, grown⟩
  · obtain ⟨events, log, all⟩ := noted
    exact ⟨events, same.trans log, all⟩
  · exact noted.more .visited grown

namespace AtRest

theorem holds (rest : stage.AtRest w) : stage.holds scenario = none := by
  cases stage with
  | opening a id phase =>
    cases rest
    rfl
  | idle | starting | finishing | closing => rfl

theorem ending? (rest : stage.AtRest w) : stage.ending? = none := by
  cases stage with
  | finishing a s listener phase => exact absurd rest id
  | closing current =>
    have first : current.phase = .flagging := rest
    simp [Stage.ending?, first]
  | idle | opening | starting => rfl

theorem mono {later : World} (rest : stage.AtRest w) (grows : w.sessions.size ≤ later.sessions.size) :
    stage.AtRest later := by
  cases stage with
  | starting subject phase =>
    refine ⟨rest.1, ?_⟩
    cases subject with
    | application a => trivial
    | session a s => exact Nat.lt_of_lt_of_le rest.2 grows
  | idle | opening | finishing | closing => exact rest

theorem known (rest : stage.AtRest w) : stage.Known w := by
  intro s here
  cases stage with
  | starting subject phase =>
    cases subject with
    | application a => cases here
    | session a t =>
      cases here
      exact rest.2
  | finishing a t listener phase => exact absurd rest id
  | closing current =>
    have first : current.phase = .flagging := rest
    simp [session?, first] at here
  | idle | opening => cases here

end AtRest

namespace Step

section

variable (step : stage.Step scenario worker shared next after)
include step

theorem held : (next.holds scenario = stage.holds scenario ∧ after.held = shared.held) ∨
    (∃ lock, stage.holds scenario = none ∧ next.holds scenario = some lock ∧ lock ∉ shared.held ∧
      after.held = lock :: shared.held) ∨
    ∃ lock, stage.holds scenario = some lock ∧ next.holds scenario = none ∧ after.held = shared.held.erase lock := by
  cases step with
  | idle quiet rest => exact .inl ⟨rest.holds, quiet.held⟩
  | asking goes =>
    cases goes with
    | reserves free => exact .inr (.inl ⟨_, rfl, rfl, by simpa [Shared.isHeld] using free, rfl⟩)
    | admits unshut => exact .inl ⟨rfl, rfl⟩
  | asked goes kept rest =>
    cases goes with
    | declines | finds | places => exact .inr (.inr ⟨_, rfl, rest.holds, rfl⟩)
  | replaced goes left =>
    cases goes with
    | declines | finds | places => exact .inr (.inr ⟨_, rfl, rfl, rfl⟩)
  | starting goes | finishing goes | closing goes => exact .inl ⟨rfl, goes.held⟩
  | attempted goes quiet rest => exact .inl ⟨rest.holds, quiet.held.trans goes.held⟩
  | finished goes rest | closed goes rest => exact .inl ⟨rest.holds, goes.held⟩

/-- The end of a session goes on by the steps of its phases, in a shutdown as on its own. -/
theorem ending {ending : Ending}
    (here : stage.ending? = some ending) :
    ∃ progress, ending.phase.Goes worker ending.listener ending.application ending.session shared progress after ∧
      next.ending? = match progress with
        | .more later => some { ending with phase := later }
        | .done _ => none := by
  cases step with
  | finishing goes =>
    cases here
    exact ⟨_, goes, rfl⟩
  | finished goes rest =>
    cases here
    exact ⟨_, goes, rest.ending?⟩
  | @closing current later after goes =>
    cases phase : current.phase with
    | ending s first ids =>
      simp only [Stage.ending?, phase, Option.some.injEq] at here
      subst here
      cases goes with
      | ends same goes | books same goes =>
        cases same.symm.trans phase
        exact ⟨_, goes, rfl⟩
      | flags same | fetches same | lists same | lacks same | drains same | relists same | takes same | misses same
      | dares same => cases same.symm.trans phase
    | _ => simp [Stage.ending?, phase] at here
  | @closed current stage after goes rest =>
    cases goes with
    | repeats same | forgets same | calls same => simp [Stage.ending?, same] at here
  | idle | asking | asked | replaced | starting | attempted => cases here

/-- The end of a session begins with its first phase: for a session that was replaced, or for one that a shutdown took
out of the map. -/
theorem ending_new (outside : stage.ending? = none) {ending : Ending} (here : next.ending? = some ending) :
    ending.phase = .flagging ∧
      ((∃ a id, stage = .opening a id .placing ∧ ending.listener.isSome = true ∧
        ending.session ∈ (shared.world.application a).sessions.values) ∨
      ∃ closing ids, stage = .closing closing ∧ closing.phase = .draining ids ∧
        ending.listener = closing.listener ∧
        ending.session ∈ (shared.world.application closing.application).sessions.values) := by
  cases step with
  | idle quiet rest | asked goes kept rest | attempted goes quiet rest | closed goes rest =>
    cases rest.ending?.symm.trans here
  | replaced goes left =>
    cases here
    cases goes with
    | places there defunct =>
      cases left
      exact ⟨rfl, .inl ⟨_, _, rfl, rfl, Bindings.mem_values_of_find? there⟩⟩
    | declines | finds => cases left
  | finishing | finished => cases outside
  | closing goes =>
    cases goes with
    | takes same free there =>
      cases here
      exact ⟨rfl, .inr ⟨_, _, rfl, same, rfl, Bindings.mem_values_of_find? there⟩⟩
    | ends same | books same => simp [Stage.ending?, same] at outside
    | flags | fetches | lists | lacks | drains | relists | misses | dares => cases here
  | asking | starting => cases here

end

theorem noted_of_open {a : ApplicationId} {id : Key} {phase : OpenPhase}
    {progress : Progress OpenPhase (Option World.Placed)}
    (goes : phase.Goes scenario worker a id shared progress after) :
    (Stage.opening a id phase).Noted worker shared after := by
  cases goes with
  | reserves | admits | finds => exact noted_none rfl
  | declines => exact noted_one .declined rfl
  | places => exact noted_one .placed rfl

theorem noted_of_start {subject : Instance} {phase : StartPhase} {progress : Progress StartPhase StartResult}
    (goes : phase.Goes scenario worker subject shared progress after) :
    (Stage.starting subject phase).Noted worker shared after := by
  cases goes with
  | waits | locks | finds | misses | dares | records | marks | discards | removes => exact noted_none rfl
  | proceeds | refuses => exact noted_one .called rfl
  | glances | leaves => exact noted_one .attempted rfl

theorem noted_of_end {ending : Ending} {progress : Progress EndPhase (Option Error)}
    (goes : ending.phase.Goes worker ending.listener ending.application ending.session shared progress after)
    (here : stage.ending? = some ending) : stage.Noted worker shared after := by
  obtain ⟨a, s, listener, phase⟩ := ending
  cases goes with
  | repeats | flags | dares | forgets => exact noted_none rfl
  | calls => exact noted_one (.ended here rfl) rfl

theorem noted_of_close {closing : Closing} {left : Option Closing}
    (goes : closing.Goes scenario worker shared left after) : (Stage.closing closing).Noted worker shared after := by
  cases goes with
  | flags | fetches | lists | lacks | drains | relists | takes | misses | dares => exact noted_none rfl
  | repeats | forgets => exact noted_one .closed rfl
  | @ends s phase next ids after here goes | @books s phase ids error after here goes =>
    have ending : (Stage.closing closing).ending? = some ⟨closing.application, s, closing.listener, phase⟩ := by
      simp [ending?, here]
    exact noted_of_end goes ending
  | @calls report answer here =>
    have farewell : (Stage.closing closing).Noted worker shared
        (shared.note (.called worker .applicationEnd (.application closing.application) answer)) :=
      noted_one .farewell rfl
    exact farewell.more .closed rfl

theorem noted (step : stage.Step scenario worker shared next after) : stage.Noted worker shared after := by
  cases step with
  | idle quiet rest => exact (noted_none rfl).quiet quiet
  | asking goes | asked goes kept rest | replaced goes left => exact noted_of_open goes
  | starting goes => exact noted_of_start goes
  | attempted goes quiet rest => exact (noted_of_start goes).quiet quiet
  | @finishing a s listener phase later after goes | @finished a s listener phase error next after goes rest =>
    have ending : (Stage.finishing a s listener phase).ending? = some ⟨a, s, listener, phase⟩ := rfl
    exact noted_of_end goes ending
  | closing goes | closed goes rest => exact noted_of_close goes

theorem known (step : stage.Step scenario worker shared next after) (maps : shared.world.MapsIssued)
    (known : stage.Known shared.world) : next.Known after.world := by
  have grows := (step.turns known).sizes.1
  cases step with
  | idle quiet rest | asked goes kept rest | attempted goes quiet rest | finished goes rest | closed goes rest =>
    exact rest.known
  | asking goes =>
    intro s here
    cases here
  | replaced goes left =>
    cases goes with
    | places there defunct =>
      intro s here
      cases here
      cases left
      exact Nat.lt_of_lt_of_le (maps _ _ (Bindings.mem_values_of_find? there)) grows
    | declines | finds => cases left
  | @starting subject phase later after goes =>
    intro s here
    refine Nat.lt_of_lt_of_le (known s ?_) grows
    cases subject <;> exact here
  | finishing goes =>
    intro s here
    exact Nat.lt_of_lt_of_le (known s here) grows
  | closing goes =>
    intro s here
    cases goes with
    | takes same free there =>
      cases here
      exact Nat.lt_of_lt_of_le (maps _ _ (Bindings.mem_values_of_find? there)) grows
    | ends same goes =>
      cases here
      exact Nat.lt_of_lt_of_le (known _ (by simp [session?, same])) grows
    | flags | fetches | lists | lacks | drains | relists | misses | books | dares => cases here

end Step

end Stage

namespace Machine

variable {task : Task} {tasks : List Task}

/-- Whoever works on a session works on one that has been issued, and tasks that wait for their turn are at rest. -/
structure Orderly (m : Machine) : Prop where
  maps : m.shared.world.MapsIssued
  known : ∀ worker, (m.stage worker).Known m.shared.world
  tails : ∀ (worker : Nat) task tasks, m.workers[worker]? = some (task :: tasks) →
    ∀ other ∈ tasks, other.stage.AtRest m.shared.world

/-- What one step of a worker means for the stages of all. -/
structure Moves (m : Machine) (worker : Nat) (next : Machine) : Prop where
  step : (m.stage worker).Step m.scenario worker m.shared (next.stage worker) next.shared
  turns : (m.stage worker).Turns m.shared.world (next.stage worker) next.shared.world
  others : ∀ other, other ≠ worker → next.stage other = m.stage other
  scenario : next.scenario = m.scenario

variable {m next : Machine}

theorem stage_of_tasks (has : m.workers[worker]? = some (task :: tasks)) : m.stage worker = task.stage := by
  simp [stage, has]

theorem stage_of_none (has : m.workers[worker]? = some []) : m.stage worker = .idle := by
  simp [stage, has]

/-- Every task has still to begin. -/
def AtRest (m : Machine) : Prop :=
  ∀ (worker : Nat) tasks, m.workers[worker]? = some tasks → ∀ task ∈ tasks, task.stage.AtRest m.shared.world

theorem AtRest.stage (rest : m.AtRest) (worker : Nat) : (m.stage worker).AtRest m.shared.world := by
  cases has : m.workers[worker]? with
  | none => simp [Machine.stage, has, Stage.AtRest]
  | some tasks =>
    cases tasks with
    | nil =>
      rw [stage_of_none has]
      trivial
    | cons task tasks =>
      rw [stage_of_tasks has]
      exact rest worker _ has task (by simp)

theorem orderly_of_rest (maps : m.shared.world.MapsIssued) (rest : m.AtRest) : m.Orderly := by
  refine ⟨maps, fun worker => (rest.stage worker).known, ?_⟩
  intro worker task tasks has other member
  exact rest worker _ has other (by simp [member])

/-- A worker whose tasks rest in a way that its step leaves alone goes on from stage to stage, and its tasks still rest. -/
theorem Stepped.goes {rests : World → Stage → Prop} {left : List Task} (stepped : m.Stepped worker next task tasks left)
    (leaves : Left rests m.scenario worker m.shared task.stage next.shared left)
    (idle : rests next.shared.world .idle) (waits : ∀ other ∈ tasks, rests next.shared.world other.stage) :
    (m.stage worker).Goes rests m.scenario worker m.shared (next.stage worker) next.shared ∧
      ∀ first rest, next.workers[worker]? = some (first :: rest) → ∀ other ∈ rest, rests next.shared.world other.stage := by
  have has := stepped.has
  rw [stage_of_tasks stepped.had]
  cases leaves with
  | nothing last =>
    refine ⟨last _ ?_, fun first rest there other member => ?_⟩
    · cases tasks with
      | nil => exact stage_of_none has ▸ idle
      | cons other rest => exact stage_of_tasks has ▸ waits other (by simp)
    · cases has.symm.trans there
      exact waits other (by simp [member])
  | more goes behind =>
    refine ⟨stage_of_tasks has ▸ goes, fun first rest there other member => ?_⟩
    cases has.symm.trans there
    exact (List.mem_append.mp member).elim (behind other) (waits other)

theorem Orderly.turn (orderly : m.Orderly) (step : m.step worker = some next) : m.Moves worker next ∧
    ∀ first rest, next.workers[worker]? = some (first :: rest) → ∀ other ∈ rest, other.stage.AtRest next.shared.world := by
  obtain ⟨task, tasks, left, stepped⟩ := stepped_of_step step
  have leaves : Left Stage.AtRest m.scenario worker m.shared task.stage next.shared left :=
    left_of_step id (fun opened => ⟨rfl, opened.answer_issued orderly.maps⟩) stepped.did
  have grows : m.shared.world.sessions.size ≤ next.shared.world.sessions.size := by
    have known := stage_of_tasks stepped.had ▸ orderly.known worker
    cases leaves with
    | nothing last => exact (Stage.Step.turns (last .idle trivial) known).sizes.1
    | more goes => exact (Stage.Step.turns goes known).sizes.1
  obtain ⟨goes, rest⟩ := stepped.goes leaves trivial fun other member =>
    (orderly.tails worker _ _ stepped.had other member).mono grows
  refine ⟨⟨goes, Stage.Step.turns goes (orderly.known worker), fun other different => ?_, stepped.scenario⟩, rest⟩
  simp only [stage, stepped.others other different]

theorem Orderly.moves (orderly : m.Orderly) (step : m.step worker = some next) : m.Moves worker next :=
  (orderly.turn step).1

theorem Orderly.step (orderly : m.Orderly) (step : m.step worker = some next) : next.Orderly := by
  obtain ⟨moves, rests⟩ := orderly.turn step
  have grows := moves.turns.sizes.1
  obtain ⟨task, tasks, left, stepped⟩ := stepped_of_step step
  refine ⟨moves.turns.mapsIssued orderly.maps, ?_, ?_⟩
  · intro other
    by_cases same : other = worker
    · subst other
      exact moves.step.known orderly.maps (orderly.known worker)
    · rw [moves.others other same]
      intro s here
      exact Nat.lt_of_lt_of_le (orderly.known other s here) grows
  · intro other first rest has
    by_cases same : other = worker
    · subst other
      exact rests first rest has
    · intro task member
      rw [stepped.others other same] at has
      exact (orderly.tails other first rest has task member).mono grows

/-- What every turn keeps holds after every run of an orderly machine. -/
theorem run_moves {P : Machine → Prop} (m : Machine) (schedule : List Nat) (orderly : m.Orderly) (start : P m)
    (kept : ∀ current worker next, current.Orderly → P current → current.Moves worker next → P next) :
    P (m.run schedule) := by
  have both : (m.run schedule).Orderly ∧ P (m.run schedule) := by
    refine run_preserves (P := fun current => current.Orderly ∧ P current) m schedule ⟨orderly, start⟩ ?_
    intro current worker next held step
    exact ⟨held.1.step step, kept current worker next held.1 held.2 (held.1.moves step)⟩
  exact both.2

/-- When everything is finished, everybody is idle. -/
theorem stage_of_finished (finished : m.isFinished = true) (worker : Nat) : m.stage worker = .idle := by
  cases has : m.workers[worker]? with
  | none => simp [stage, has]
  | some tasks =>
    rw [finished_of_isFinished finished has] at has
    exact stage_of_none has

end Machine

end ScopeEngine.Interleaving
