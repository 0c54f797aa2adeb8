import ScopeEngine.Proofs.Marks
import ScopeEngine.Proofs.Phases

/-! Stages: what a worker is in the middle of, whichever kind of task brought it there. Requests and calls from outside ask for
sessions, start them and end them in the same way, so what holds of sessions under every schedule is stated of the stages of
the workers. A turn of one worker leaves what all others have to do alone, and a worker that turns to its next task is at rest:
it holds no lock and has set no mark. -/

namespace ScopeEngine.Interleaving.Machine

variable {P : Machine → Prop} {m next : Machine} {worker : Nat}

structure Stepped (m : Machine) (worker : Nat) (next : Machine) (task : Task) (tasks left : List Task) : Prop where
  had : m.workers[worker]? = some (task :: tasks)
  did : task.step m.scenario worker m.shared = some (left, next.shared)
  has : next.workers[worker]? = some (left ++ tasks)
  others : ∀ other, other ≠ worker → next.workers[other]? = m.workers[other]?
  scenario : next.scenario = m.scenario
  size : next.workers.size = m.workers.size

theorem stepped_of_step (step : m.step worker = some next) :
    ∃ task tasks left, Stepped m worker next task tasks left := by
  simp only [Machine.step] at step
  split at step
  next task tasks had =>
    split at step
    next left shared did =>
      cases step
      obtain ⟨inside, -⟩ := Array.getElem?_eq_some_iff.mp had
      refine ⟨task, tasks, left, had, did, ?_, ?_, rfl, ?_⟩
      · simp [inside]
      · intro other different
        simp [Ne.symm different]
      · simp
    next => cases step
  next => cases step

theorem run_append (m : Machine) (first second : List Nat) : m.run (first ++ second) = (m.run first).run second :=
  List.foldl_append

theorem turn_of_step (step : m.step worker = some next) : m.turn worker = next := by
  simp [turn, step]

theorem turn_of_wait (wait : m.step worker = none) : m.turn worker = m := by
  simp [turn, wait]

/-- What every step keeps holds after the run, where steps into a state outside `Q` need not be considered if the run
never gets there. -/
theorem run_keeps {Q : Machine → Prop} (m : Machine) (schedule : List Nat) (start : P m)
    (within : ∀ n, Q (m.run (schedule.take n)))
    (kept : ∀ current worker next, P current → Q next → current.step worker = some next → P next) :
    P (m.run schedule) := by
  have prefixes : ∀ n, P (m.run (schedule.take n)) := by
    intro n
    induction n with
    | zero => exact start
    | succ n ih =>
      have later := within (n + 1)
      rw [List.take_add_one] at later ⊢
      cases due : schedule[n]? with
      | none => simpa [due] using ih
      | some worker =>
        have split : m.run (schedule.take n ++ [worker]) = (m.run (schedule.take n)).turn worker :=
          run_append m (schedule.take n) [worker]
        simp only [due, Option.toList_some, split] at later ⊢
        cases step : (m.run (schedule.take n)).step worker with
        | none => simpa only [turn_of_wait step] using ih
        | some next =>
          rw [turn_of_step step] at later ⊢
          exact kept _ worker next ih later step
  simpa using prefixes schedule.length

/-- What every step keeps holds after every run. -/
theorem run_preserves (m : Machine) (schedule : List Nat) (start : P m)
    (kept : ∀ current worker next, P current → current.step worker = some next → P next) : P (m.run schedule) :=
  run_keeps (Q := fun _ => True) m schedule start (fun _ => trivial)
    fun current worker next held _ step => kept current worker next held step

@[simp] theorem run_size (m : Machine) (schedule : List Nat) : (m.run schedule).workers.size = m.workers.size := by
  refine run_preserves (P := fun current => current.workers.size = m.workers.size) m schedule rfl ?_
  intro current worker next same step
  obtain ⟨task, tasks, left, stepped⟩ := stepped_of_step step
  rw [stepped.size, same]

theorem finished_of_isFinished (finished : m.isFinished = true) {tasks : List Task}
    (had : m.workers[worker]? = some tasks) : tasks = [] := by
  have empty := Array.all_eq_true'.mp finished tasks (Array.mem_of_getElem? had)
  simpa using empty

end ScopeEngine.Interleaving.Machine

namespace ScopeEngine

open World

def Session.marks (session : Session) : Marks :=
  ⟨session.id, session.started, session.discarded, session.shutDown, session.starting⟩

namespace World

/-- The maps of sessions are as they were, and no session came in. -/
structure KeepsMaps (w later : World) : Prop where
  maps : ∀ b, (later.application b).sessions = (w.application b).sessions
  flags : ∀ b, (later.application b).shutDown = (w.application b).shutDown
  listeners : ∀ b, (w.application b).listener.isSome = true → (later.application b).listener.isSome = true
  applications : w.applications.size ≤ later.applications.size
  issued : later.sessions.size = w.sessions.size

/-- The change leaves alone what sessions and their maps depend on. -/
structure Still (w later : World) : Prop extends w.KeepsMaps later where
  sessions : ∀ s, (later.session s).marks = (w.session s).marks

variable {w later last : World}

theorem KeepsMaps.trans (first : w.KeepsMaps later) (second : later.KeepsMaps last) : w.KeepsMaps last where
  maps b := (second.maps b).trans (first.maps b)
  flags b := (second.flags b).trans (first.flags b)
  listeners b some := second.listeners b (first.listeners b some)
  applications := Nat.le_trans first.applications second.applications
  issued := second.issued.trans first.issued

theorem Still.trans (first : w.Still later) (second : later.Still last) : w.Still last :=
  ⟨first.toKeepsMaps.trans second.toKeepsMaps, fun s => (second.sessions s).trans (first.sessions s)⟩

theorem still_of_same (applications : later.applications = w.applications) (sessions : later.sessions = w.sessions) :
    w.Still later := by
  refine ⟨⟨?_, ?_, ?_, ?_, ?_⟩, ?_⟩
  · simp [application, applications]
  · simp [application, applications]
  · simp [application, applications]
  · simp [applications]
  · simp [sessions]
  · simp [session, sessions]

section

variable (w : World)
variable (s : SessionId) (a : ApplicationId) (name : Key) (settings : Settings)

theorem Still.refl : w.Still w := still_of_same rfl rfl

theorem still_modifyApplication (change : Application → Application)
    (maps : ∀ application, (change application).sessions = application.sessions)
    (flags : ∀ application, (change application).shutDown = application.shutDown)
    (listeners : ∀ application, application.listener.isSome = true → (change application).listener.isSome = true) :
    w.Still (w.modifyApplication a change) where
  maps b := application_modify_keeps w a b Application.sessions maps
  flags b := application_modify_keeps w a b Application.shutDown flags
  listeners b some := by
    rw [application_modify]
    split
    next same =>
      rw [← same.1] at some
      exact listeners _ some
    next => exact some
  applications := Nat.le_of_eq (Table.size_set ..).symm
  issued := rfl
  sessions _ := rfl

theorem still_modifySession (change : Session → Session)
    (marks : ∀ session, (change session).marks = session.marks) : w.Still (w.modifySession s change) where
  maps _ := rfl
  flags _ := rfl
  listeners _ some := some
  applications := Nat.le_refl _
  issued := Table.size_set ..
  sessions t := session_modify_keeps w s t Session.marks marks

theorem still_touchApplication : w.Still (w.touchApplication a) := by
  have read : w.Still w.readClock.2 := still_of_same rfl rfl
  exact read.trans (still_modifyApplication _ a (fun application => { application with lastAccess := w.clock.millis })
    (fun _ => rfl) (fun _ => rfl) fun _ some => some)

theorem still_touchSession : w.Still (w.touchSession s) := by
  have read : w.Still w.readClock.2 := still_of_same rfl rfl
  have visited := read.trans (still_modifySession _ s (fun session => { session with lastVisit := w.clock.millis })
    fun _ => rfl)
  simp only [touchSession]
  split
  · exact visited.trans (still_of_same rfl rfl)
  · exact visited

theorem still_unregister : w.Still (w.unregister a).2 := by
  simp only [unregister]
  split
  · exact still_of_same rfl rfl
  · exact .refl w

theorem still_newApplication : w.Still (w.newApplication name settings).2 := by
  have read : ∀ b, (w.newApplication name settings).2.application b = if b = w.applications.next then _ else _ :=
    fun b => Table.get_add w.applications b _
  -- An identity that is not issued yet reads as an application without sessions.
  have unissued : w.application w.applications.next = default := by
    simp [application, Table.get, Table.get?, Table.next]
  refine ⟨⟨?_, ?_, ?_, ?_, rfl⟩, fun _ => rfl⟩
  · intro b
    rw [read]
    split
    next new => rw [new, unissued]; rfl
    next => rfl
  · intro b
    rw [read]
    split
    next new => rw [new, unissued]; rfl
    next => rfl
  · intro b some
    rw [read]
    split
    next new =>
      rw [new, unissued] at some
      cases some
    next => exact some
  · exact Nat.le_trans (Nat.le_succ _) (Nat.le_of_eq (Table.size_add ..).symm)

theorem still_findOrCreateApplication :
    w.Still (w.findOrCreateApplication name settings).2 := by
  let added := (w.newApplication name settings).2
  have registered : added.Still { added with registry := added.registry.insert name w.applications.next } :=
    still_of_same rfl rfl
  have made := (still_newApplication w name settings).trans registered
  simp only [findOrCreateApplication]
  split
  · split
    · exact made
    · exact .refl w
  · exact made

end

def MapsIssued (w : World) : Prop :=
  ∀ b, ∀ s ∈ (w.application b).sessions.values, s.number < w.sessions.size

end World

namespace Interleaving

/-- What is shared changes at most by a request that ended, and in nothing that sessions depend on. -/
structure Shared.Quiet (shared after : Shared) : Prop where
  world : shared.world.Still after.world
  marks : ∀ a : ApplicationId, a.number < shared.world.applications.size → after.world.marks a = shared.world.marks a
  held : after.held = shared.held
  log : after.log = shared.log ∨ ∃ worker turn result, after.log = .visited worker turn result :: shared.log

theorem Shared.quiet_of_still {shared : Shared} {world : World} (still : shared.world.Still world)
    (marks : ∀ a : ApplicationId, a.number < shared.world.applications.size → world.marks a = shared.world.marks a) :
    shared.Quiet { shared with world } :=
  ⟨still, marks, rfl, .inl rfl⟩

theorem Shared.Quiet.refl (shared : Shared) : shared.Quiet shared := quiet_of_still (.refl _) fun _ _ => rfl

theorem Shared.quiet_touchApplication (shared : Shared) (a : ApplicationId) :
    shared.Quiet { shared with world := shared.world.touchApplication a } :=
  quiet_of_still (still_touchApplication ..) (by simp)

theorem Shared.quiet_touchSession (shared : Shared) (s : SessionId) :
    shared.Quiet { shared with world := shared.world.touchSession s } :=
  quiet_of_still (still_touchSession ..) fun _ _ => by
    simp only [touchSession]
    split <;> rfl

theorem Shared.quiet_visited (shared : Shared) (worker turn : Nat) (result : VisitResult) :
    shared.Quiet (shared.note (.visited worker turn result)) :=
  ⟨.refl _, fun _ _ => rfl, rfl, .inr ⟨worker, turn, result, rfl⟩⟩

inductive Stage where
  | idle
  | opening (a : ApplicationId) (id : Key) (phase : OpenPhase)
  | starting (subject : Instance) (phase : StartPhase)
  | finishing (a : ApplicationId) (s : SessionId) (listener : Option ListenerId) (phase : EndPhase)
  | closing (closing : Closing)

def Task.stage : Task → Stage
  | .visit current =>
    match current.phase with
    | .starting subject phase => .starting subject phase
    | .opening a phase => .opening a current.client phase
    | .ready | .seeking | .weighing _ | .expiring _ => .idle
  | .open a id _ phase => .opening a id phase
  | .start subject phase => .starting subject phase
  | .finish a s listener phase => .finishing a s listener phase
  | .close current => .closing current
  | .closeNamed _ | .closeAll | .wait _ => .idle

def Machine.stage (m : Machine) (worker : Nat) : Stage :=
  match m.workers[worker]? with
  | some (task :: _) => task.stage
  | _ => .idle

def Instance.IsIssued (w : World) : Instance → Prop
  | .application _ => True
  | .session _ s => s.number < w.sessions.size

def Stage.AtRest (w : World) : Stage → Prop
  | .idle => True
  | .opening _ _ phase => phase = .reserving
  | .starting subject phase => phase = .glancing ∧ subject.IsIssued w
  | .finishing .. => False
  | .closing current => current.phase = .flagging

def Stage.session? : Stage → Option SessionId
  | .starting (.session _ s) _ => some s
  | .finishing _ s _ _ => some s
  | .closing current =>
    match current.phase with
    | .ending s _ _ => some s
    | _ => none
  | _ => none

/-- What one step of a worker does: the stage it gets to, and what is shared then. A worker that turns to another task gets
to a stage that rests. -/
inductive Stage.Goes (rests : World → Stage → Prop) (scenario : Scenario) (worker : Nat) (shared : Shared) :
    Stage → Stage → Shared → Prop
  | idle {stage : Stage} {after : Shared} (quiet : shared.Quiet after) (rest : rests after.world stage) :
      Goes rests scenario worker shared .idle stage after
  | asking {a : ApplicationId} {id : Key} {phase later : OpenPhase} {after : Shared}
      (goes : phase.Goes scenario worker a id shared (.more later) after) :
      Goes rests scenario worker shared (.opening a id phase) (.opening a id later) after
  | asked {a : ApplicationId} {id : Key} {phase : OpenPhase} {answer : Option Placed} {stage : Stage}
      {after : Shared} (goes : phase.Goes scenario worker a id shared (.done answer) after)
      (kept : answer.bind (·.stale) = none) (rest : rests after.world stage) :
      Goes rests scenario worker shared (.opening a id phase) stage after
  /-- The session that a new one replaced has to be ended. -/
  | replaced {a : ApplicationId} {id : Key} {phase : OpenPhase} {answer : Option Placed} {stale : SessionId}
      {listener : ListenerId} {after : Shared}
      (goes : phase.Goes scenario worker a id shared (.done answer) after) (left : answer.bind (·.stale) = some stale) :
      Goes rests scenario worker shared (.opening a id phase) (.finishing a stale (some listener) .flagging) after
  | starting {subject : Instance} {phase later : StartPhase} {after : Shared}
      (goes : phase.Goes scenario worker subject shared (.more later) after) :
      Goes rests scenario worker shared (.starting subject phase) (.starting subject later) after
  | attempted {subject : Instance} {phase : StartPhase} {result : StartResult} {stage : Stage} {middle after : Shared}
      (goes : phase.Goes scenario worker subject shared (.done result) middle) (quiet : middle.Quiet after)
      (rest : rests after.world stage) :
      Goes rests scenario worker shared (.starting subject phase) stage after
  | finishing {a : ApplicationId} {s : SessionId} {listener : Option ListenerId} {phase later : EndPhase}
      {after : Shared} (goes : phase.Goes worker listener a s shared (.more later) after) :
      Goes rests scenario worker shared (.finishing a s listener phase) (.finishing a s listener later) after
  | finished {a : ApplicationId} {s : SessionId} {listener : Option ListenerId} {phase : EndPhase}
      {error : Option Error} {stage : Stage} {after : Shared}
      (goes : phase.Goes worker listener a s shared (.done error) after) (rest : rests after.world stage) :
      Goes rests scenario worker shared (.finishing a s listener phase) stage after
  | closing {closing later : Closing} {after : Shared}
      (goes : closing.Goes scenario worker shared (some later) after) :
      Goes rests scenario worker shared (.closing closing) (.closing later) after
  | closed {closing : Closing} {stage : Stage} {after : Shared}
      (goes : closing.Goes scenario worker shared none after) (rest : rests after.world stage) :
      Goes rests scenario worker shared (.closing closing) stage after

theorem Stage.Goes.mono {rests weaker : World → Stage → Prop} {scenario : Scenario} {worker : Nat}
    {shared after : Shared} {stage next : Stage} (goes : stage.Goes rests scenario worker shared next after)
    (weaken : rests after.world next → weaker after.world next) : stage.Goes weaker scenario worker shared next after := by
  cases goes with
  | idle quiet rest => exact .idle quiet (weaken rest)
  | asking goes => exact .asking goes
  | asked goes kept rest => exact .asked goes kept (weaken rest)
  | replaced goes left => exact .replaced goes left
  | starting goes => exact .starting goes
  | attempted goes quiet rest => exact .attempted goes quiet (weaken rest)
  | finishing goes => exact .finishing goes
  | finished goes rest => exact .finished goes (weaken rest)
  | closing goes => exact .closing goes
  | closed goes rest => exact .closed goes (weaken rest)

abbrev Stage.Step (scenario : Scenario) (worker : Nat) (shared : Shared) (stage next : Stage) (after : Shared) : Prop :=
  stage.Goes AtRest scenario worker shared next after

/-- How a visit goes on after a step in which it had no business with sessions. -/
def Move.AtRest (w : World) : Move → Prop
  | .stay visit | .close _ visit => (Task.visit visit).stage.AtRest w
  | .retire .. => False
  | .finished => True

namespace Visit

variable {visit : Visit} {worker : Nat} {shared after : Shared} {move : Move}

theorem finish_quiet {result : VisitResult} (did : visit.finish worker shared result = some (move, after)) :
    shared.Quiet after ∧ move.AtRest after.world := by
  cases did
  exact ⟨Shared.quiet_visited .., trivial⟩

theorem countIn_quiet {scope : ScopeId} (did : visit.countIn worker shared scope = some (move, after))
    (ready : visit.phase = .ready) : shared.Quiet after ∧ move.AtRest after.world := by
  simp only [countIn] at did
  split at did
  · cases did
    refine ⟨Shared.quiet_of_still (still_of_same rfl rfl) fun _ _ => rfl, ?_⟩
    simp [Move.AtRest, Task.stage, ready, Stage.AtRest]
  · exact finish_quiet did

theorem begin_quiet (ready : visit.phase = .ready) (did : visit.begin worker shared = some (move, after)) :
    shared.Quiet after ∧ move.AtRest after.world := by
  have idle : ∀ errands w, (Task.visit { visit with errands }).stage.AtRest w := by
    simp [Task.stage, ready, Stage.AtRest]
  simp only [begin] at did
  split at did
  · exact finish_quiet did
  next errand errands _ =>
    split at did
    case h_1 =>
      split at did
      · split at did
        · split at did
          · cases did
            exact ⟨Shared.quiet_touchApplication .., idle ..⟩
          · cases did
            exact ⟨.refl _, trivial⟩
        · cases did
          exact ⟨.refl _, trivial⟩
      · cases did
        exact ⟨.refl _, idle ..⟩
    case h_2 =>
      split at did
      · cases did
        exact ⟨.refl _, idle ..⟩
      · cases did
        exact ⟨.refl _, idle ..⟩
    case h_3 =>
      split at did
      · split at did
        · cases did
          exact ⟨Shared.quiet_touchSession .., idle ..⟩
        · cases did
          exact ⟨.refl _, rfl⟩
      · cases did
        exact ⟨.refl _, rfl⟩
      · cases did
        exact ⟨.refl _, idle ..⟩
    case h_4 =>
      split at did
      · exact countIn_quiet did ready
      · exact finish_quiet did
    case h_5 =>
      split at did
      · exact countIn_quiet did ready
      · exact finish_quiet did

theorem afterStart_quiet {subject : Instance} {result : StartResult}
    (did : visit.afterStart worker shared subject result = some (move, after)) :
    shared.Quiet after ∧ move.AtRest after.world := by
  cases result with
  | started =>
    cases subject with
    | application a =>
      cases did
      exact ⟨.refl _, trivial⟩
    | session a s =>
      cases did
      exact ⟨Shared.quiet_touchSession .., trivial⟩
  | gone =>
    cases subject with
    | application a =>
      cases did
      exact ⟨.refl _, trivial⟩
    | session a s =>
      cases did
      exact ⟨.refl _, rfl⟩
  | failed error =>
    simp only [afterStart] at did
    exact finish_quiet did

theorem step_cases {scenario : Scenario} (did : visit.step scenario worker shared = some (move, after)) :
    ((Task.visit visit).stage = .idle ∧ shared.Quiet after ∧ move.AtRest after.world) ∨
    (∃ subject phase, visit.phase = .starting subject phase ∧
      ((∃ later, phase.Goes scenario worker subject shared (.more later) after ∧
        move = .stay { visit with phase := .starting subject later }) ∨
      ∃ result middle, phase.Goes scenario worker subject shared (.done result) middle ∧ middle.Quiet after ∧
        move.AtRest after.world)) ∨
    ∃ a phase, visit.phase = .opening a phase ∧
      ((∃ later, phase.Goes scenario worker a visit.client shared (.more later) after ∧
        move = .stay { visit with phase := .opening a later }) ∨
      ∃ answer, phase.Goes scenario worker a visit.client shared (.done answer) after ∧
        visit.afterOpen after a answer = some (move, after)) := by
  simp only [step] at did
  cases here : visit.phase with
  | ready =>
    simp only [here] at did
    exact .inl ⟨by simp [Task.stage, here], begin_quiet here did⟩
  | seeking =>
    simp only [here] at did
    cases did
    exact .inl ⟨by simp [Task.stage, here], Shared.quiet_of_still (still_findOrCreateApplication ..)
      (shared.world.marks_findOrCreateApplication _ _), trivial⟩
  | weighing a =>
    refine .inl ⟨by simp [Task.stage, here], ?_⟩
    simp only [here] at did
    split at did
    · cases did
      exact ⟨.refl _, trivial⟩
    · cases did
      exact ⟨Shared.quiet_touchApplication .., rfl, trivial⟩
  | expiring a =>
    refine .inl ⟨by simp [Task.stage, here], ?_⟩
    simp only [here] at did
    cases did
    refine ⟨Shared.quiet_of_still (still_unregister ..) (by simp), ?_⟩
    split <;> trivial
  | starting subject phase =>
    refine .inr (.inl ⟨subject, phase, rfl, ?_⟩)
    simp only [here] at did
    split at did
    next => cases did
    next later middle started =>
      cases did
      exact .inl ⟨later, StartPhase.goes_of_step started, rfl⟩
    next result middle started =>
      exact .inr ⟨result, middle, StartPhase.goes_of_step started, afterStart_quiet did⟩
  | opening a phase =>
    refine .inr (.inr ⟨a, phase, rfl, ?_⟩)
    simp only [here] at did
    split at did
    next => cases did
    next later middle opened =>
      cases did
      exact .inl ⟨later, OpenPhase.goes_of_step opened, rfl⟩
    next answer middle opened =>
      have same : after = middle := by
        cases answer with
        | none => cases did; rfl
        | some placed =>
          simp only [afterOpen] at did
          split at did <;> (cases did; rfl)
      subst same
      exact .inr ⟨answer, OpenPhase.goes_of_step opened, did⟩

end Visit

variable {scenario : Scenario} {worker : Nat} {shared after : Shared}

theorem OpenPhase.Goes.answer_issued {a : ApplicationId} {id : Key} {phase : OpenPhase} {placed : Placed}
    (goes : phase.Goes scenario worker a id shared (.done (some placed)) after) (maps : shared.world.MapsIssued) :
    placed.session.number < after.world.sessions.size := by
  cases goes with
  | finds there live => exact maps a _ (Bindings.mem_values_of_find? there)
  | @places stale there defunct =>
    have within : shared.world.sessions.size < (shared.world.insertSession a id stale).2.sessions.size := by
      rw [size_insertSession]
      omega
    exact within

/-- What a step leaves of a task: nothing, so that the worker turns to another task, or the task with which it goes on,
before others that rest. -/
inductive Left (rests : World → Stage → Prop) (scenario : Scenario) (worker : Nat) (shared : Shared) (stage : Stage)
    (after : Shared) : List Task → Prop
  | nothing (last : ∀ next : Stage, rests after.world next → stage.Goes rests scenario worker shared next after) :
      Left rests scenario worker shared stage after []
  | more {task : Task} {tasks : List Task} (goes : stage.Goes rests scenario worker shared task.stage after)
      (rest : ∀ other ∈ tasks, rests after.world other.stage) :
      Left rests scenario worker shared stage after (task :: tasks)

def Move.left (scenario : Scenario) (shared : Shared) : Move → List Task
  | .stay next => [.visit next]
  | .close a next => [.close { application := a, requested := false }, .visit next]
  | .retire a stale next => [Task.retire scenario shared a stale, .visit next]
  | .finished => []

theorem Visit.step_of_task {visit : Visit} {left : List Task}
    (did : (Task.visit visit).step scenario worker shared = some (left, after)) :
    ∃ move, visit.step scenario worker shared = some (move, after) ∧ left = move.left scenario after := by
  simp only [Task.step] at did
  split at did
  next => cases did
  next move middle stepped =>
    cases move <;> (cases did; exact ⟨_, stepped, rfl⟩)

section Left

variable {rests : World → Stage → Prop} (resting : ∀ {w : World} {stage : Stage}, stage.AtRest w → rests w stage)
variable {left : List Task}
include resting

theorem left_of_rest {stage : Stage} {move : Move}
    (goes : ∀ next, rests after.world next → stage.Goes rests scenario worker shared next after)
    (rest : move.AtRest after.world) : Left rests scenario worker shared stage after (move.left scenario after) := by
  cases move with
  | stay next => exact .more (goes _ (resting rest)) (by simp)
  | close a next => exact .more (goes _ (resting (by exact rfl))) (by simpa using resting rest)
  | retire a stale next => exact absurd rest id
  | finished => exact .nothing goes

variable (placing : ∀ {a id placed} {phase : OpenPhase}, phase.Goes scenario worker a id shared (.done (some placed)) after →
  rests after.world (.starting (.session a placed.session) .glancing))
include placing

theorem left_of_visit {visit : Visit}
    (did : (Task.visit visit).step scenario worker shared = some (left, after)) :
    Left rests scenario worker shared (Task.visit visit).stage after left := by
  obtain ⟨move, stepped, rfl⟩ := Visit.step_of_task did
  rcases Visit.step_cases stepped with ⟨stage, quiet, rest⟩ | ⟨subject, phase, here, how⟩ | ⟨a, phase, here, how⟩
  · rw [stage]
    exact left_of_rest resting (fun _ rest => .idle quiet rest) rest
  · have stage : (Task.visit visit).stage = .starting subject phase := by simp [Task.stage, here]
    rw [stage]
    rcases how with ⟨later, started, rfl⟩ | ⟨result, between, started, quiet, rest⟩
    · exact .more (.starting started) (by simp)
    · exact left_of_rest resting (fun _ rest => .attempted started quiet rest) rest
  · have stage : (Task.visit visit).stage = .opening a visit.client phase := by simp [Task.stage, here]
    rw [stage]
    rcases how with ⟨later, opened, rfl⟩ | ⟨answer, opened, goes⟩
    · exact .more (.asking opened) (by simp)
    · cases answer with
      | none =>
        cases goes
        exact .more (.asked opened rfl (resting trivial)) (by simp)
      | some placed =>
        simp only [Visit.afterOpen] at goes
        split at goes
        next kept =>
          cases goes
          exact .more (.asked opened kept (placing opened)) (by simp)
        next stale replaced =>
          cases goes
          exact .more (.replaced opened replaced) (by simpa [Task.stage] using placing opened)

/-- Every step of a task is a step of its stage. -/
theorem left_of_step {task : Task} (did : task.step scenario worker shared = some (left, after)) :
    Left rests scenario worker shared task.stage after left := by
  cases task with
  | visit visit => exact left_of_visit resting placing did
  | «open» a id starts phase =>
    simp only [Task.step] at did
    split at did
    next => cases did
    next later middle opened =>
      cases did
      exact .more (.asking (OpenPhase.goes_of_step opened)) (by simp)
    next middle opened =>
      cases did
      exact .nothing fun next rest => .asked (OpenPhase.goes_of_step opened) rfl rest
    next placed middle opened =>
      cases did
      have goes := OpenPhase.goes_of_step opened
      cases stale : placed.stale with
      | none =>
        cases starts with
        | false => exact .nothing fun next rest => .asked goes stale rest
        | true => exact .more (.asked goes stale (placing goes)) (by simp)
      | some s => exact .more (.replaced goes stale) (by cases starts <;> simp [Task.stage, placing goes])
  | start subject phase =>
    simp only [Task.step] at did
    split at did
    next => cases did
    next later middle started =>
      cases did
      exact .more (.starting (StartPhase.goes_of_step started)) (by simp)
    next result middle started =>
      cases did
      exact .nothing fun next rest => .attempted (StartPhase.goes_of_step started) (.refl _) rest
  | finish a s listener phase =>
    simp only [Task.step] at did
    split at did
    next later middle ended =>
      cases did
      exact .more (.finishing (EndPhase.goes_of_step ended)) (by simp)
    next error middle ended =>
      cases did
      exact .nothing fun next rest => .finished (EndPhase.goes_of_step ended) rest
  | close closing =>
    simp only [Task.step] at did
    split at did
    next => cases did
    next later middle closed =>
      cases did
      exact .more (.closing (Closing.goes_of_step closed)) (by simp)
    next middle closed =>
      cases did
      exact .nothing fun next rest => .closed (Closing.goes_of_step closed) rest
  | closeNamed name =>
    simp only [Task.step] at did
    split at did
    next =>
      cases did
      exact .nothing fun next rest => .idle (.refl _) rest
    next a found =>
      cases did
      exact .more (.idle (Shared.quiet_of_still (still_of_same rfl rfl) fun _ _ => rfl) (resting (by exact rfl))) (by simp)
  | closeAll =>
    simp only [Task.step] at did
    cases did
    cases shared.world.registry.keys with
    | nil => exact .nothing fun next rest => .idle (.refl _) rest
    | cons name names =>
      refine .more (.idle (.refl _) (resting trivial)) ?_
      intro other member
      obtain ⟨name, -, rfl⟩ := List.mem_map.mp member
      exact resting trivial
  | wait ms =>
    cases did
    exact .nothing fun next rest => .idle (Shared.quiet_of_still (still_of_same rfl rfl) fun _ _ => rfl) rest

end Left

end Interleaving

end ScopeEngine
