import ScopeEngine.Proofs.Shutdown.Whereabouts

/-! Calls that ask an application for sessions, side by side with its shutdown, while time passes. When the shutdown has
returned, the map is empty and stays so, and every call that sees the flag after it was set is declined. Whatever the
calls placed is out of the map, but not all of it is ended: a session that failed to start is only discarded, and one that
expired is ended by the call that replaced it, however late that call goes on. -/

namespace ScopeEngine.Interleaving

/-- Asking the application for a session, starting it, ending one that was replaced in answer, or letting time pass. -/
def Task.Asks (a : ApplicationId) : Task → Prop
  | .open b _ _ _ | .start (.session b _) _ | .finish b _ _ _ => b = a
  | .wait _ => True
  | _ => False

def Task.Closes : Task → Prop
  | .close _ => True
  | _ => False

def Task.isUnseeing : Task → Bool
  | .open _ _ _ .reserving | .open _ _ _ .checking => true
  | _ => false

def Task.isPlacing : Task → Bool
  | .open _ _ _ .placing => true
  | _ => false

namespace Shared

def declinesOf (shared : Shared) (worker : Nat) : Nat :=
  shared.log.countP fun
    | .declined caller _ => caller == worker
    | _ => false

def placesOf (shared : Shared) (worker : Nat) : Nat :=
  shared.log.countP fun
    | .placed caller _ _ => caller == worker
    | _ => false

end Shared

namespace Machine

variable {m next : Machine} {worker closer : Nat} {a : ApplicationId} {s : SessionId}

variable {after shared : Shared} {left : List Task} {scenario : Scenario} {task : Task}

/-- One worker only shuts down, all others ask the application for sessions or wait. -/
def Asking (m : Machine) (a : ApplicationId) (closer : Nat) : Prop :=
  ∀ (worker : Nat) tasks, m.workers[worker]? = some tasks → ∀ task ∈ tasks,
    if worker = closer then task.Closes else task.Asks a

def tasksOf (m : Machine) (worker : Nat) : List Task := m.workers[worker]?.getD []

theorem left_closes (closes : task.Closes) (did : task.step scenario worker shared = some (left, after)) :
    ∀ other ∈ left, other.Closes := by
  cases task with
  | close closing =>
    simp only [Task.step] at did
    split at did
    · cases did
    · cases did
      simp [Task.Closes]
    · cases did
      simp
  | _ => exact absurd closes id

theorem left_asks (asks : task.Asks a) (did : task.step scenario worker shared = some (left, after)) :
    ∀ other ∈ left, other.Asks a := by
  cases task with
  | «open» b id starts phase =>
    simp only [Task.step] at did
    split at did
    · cases did
    · cases did
      simpa [Task.Asks] using asks
    · cases did
      simp
    · cases did
      intro other member
      rcases List.mem_append.mp member with ends | begins
      · obtain ⟨stale, -, rfl⟩ := Option.map_eq_some_iff.mp (Option.mem_toList.mp ends)
        exact asks
      · cases starts with
        | false => cases begins
        | true =>
          cases List.mem_singleton.mp begins
          exact asks
  | start subject phase =>
    cases subject with
    | application b => exact absurd asks id
    | session b s =>
      simp only [Task.step] at did
      split at did
      · cases did
      · cases did
        simpa [Task.Asks] using asks
      · cases did
        simp
  | finish b s listener phase =>
    simp only [Task.step] at did
    split at did
    · cases did
      simpa [Task.Asks] using asks
    · cases did
      simp
  | wait ms =>
    cases did
    simp
  | visit | close | closeNamed | closeAll => exact absurd asks id

theorem Asking.step (asking : m.Asking a closer) (step : m.step worker = some next) : next.Asking a closer := by
  obtain ⟨task, tasks, left, stepped⟩ := stepped_of_step step
  intro other rest has first member
  by_cases acting : other = worker
  · subst other
    cases stepped.has.symm.trans has
    have before := asking worker _ stepped.had
    rcases List.mem_append.mp member with new | old
    · have own := before task (by simp)
      by_cases same : worker = closer
      · rw [if_pos same] at own ⊢
        exact left_closes own stepped.did first new
      · rw [if_neg same] at own ⊢
        exact left_asks own stepped.did first new
    · exact before first (by simp [old])
  · rw [stepped.others other acting] at has
    exact asking other rest has first member

theorem Asking.stage (asking : m.Asking a closer) (worker : Nat) :
    worker = closer ∨ m.stage worker = .idle ∨ ∃ task : Task, task.Asks a ∧ m.stage worker = task.stage := by
  cases has : m.workers[worker]? with
  | none => exact .inr (.inl (by simp [Machine.stage, has]))
  | some tasks =>
    cases tasks with
    | nil => exact .inr (.inl (stage_of_none has))
    | cons task tasks =>
      have own := asking worker _ has task (by simp)
      split at own
      next same => exact .inl same
      next => exact .inr (.inr ⟨task, own, stage_of_tasks has⟩)

theorem Asking.closing {closing : Closing} (asking : m.Asking a closer) (here : m.stage worker = .closing closing) :
    worker = closer := by
  rcases asking.stage worker with same | idle | ⟨task, asks, stage⟩
  · exact same
  · cases idle.symm.trans here
  · have there := stage.symm.trans here
    cases task with
    | «open» | start | finish | wait => cases there
    | visit | close | closeNamed | closeAll => exact absurd asks id

/-- Only the worker that shuts down ends sessions that nobody replaced. -/
theorem Asking.ending {ending : Ending} (asking : m.Asking a closer) (here : (m.stage worker).ending? = some ending) :
    worker = closer ∨ m.stage worker = .finishing a ending.session ending.listener ending.phase := by
  rcases asking.stage worker with same | idle | ⟨task, asks, stage⟩
  · exact .inl same
  · rw [idle] at here
    cases here
  · rw [stage] at here ⊢
    cases task with
    | finish b s listener phase =>
      cases asks
      cases here
      exact .inr rfl
    | «open» | start | wait => cases here
    | visit | close | closeNamed | closeAll => exact absurd asks id

/-- What a worker has had of answers and has still to ask, for an application that is shut down. -/
structure Accounts (m : Machine) (worker : Nat) (before : Machine) : Prop where
  declined : m.shared.declinesOf worker + (m.tasksOf worker).countP Task.isUnseeing =
    before.shared.declinesOf worker + (before.tasksOf worker).countP Task.isUnseeing
  placed : m.shared.placesOf worker + (m.tasksOf worker).countP Task.isPlacing ≤
    before.shared.placesOf worker + (before.tasksOf worker).countP Task.isPlacing

theorem Accounts.trans {last : Machine} (second : last.Accounts worker next) (first : next.Accounts worker m) :
    last.Accounts worker m :=
  ⟨second.declined.trans first.declined, Nat.le_trans second.placed first.placed⟩

end Machine

namespace Stage

variable {worker other : Nat} {shared after : Shared} {stage : Stage}

theorem Step.to_finishing {scenario : Scenario} {a : ApplicationId} {s : SessionId} {listener : Option ListenerId}
    (step : stage.Step scenario worker shared (.finishing a s listener .flagging) after) :
    ∃ id, (shared.world.application a).sessions.find? id = some s ∧
      (shared.world.session s).isDefunctAt shared.world.clock = true := by
  cases step with
  | replaced goes left =>
    cases goes with
    | places there defunct =>
      cases left
      exact ⟨_, there, defunct s rfl⟩
    | declines | finds => cases left
  | finishing goes => cases goes
  | idle quiet rest | asked goes kept rest | attempted goes quiet rest | finished goes rest | closed goes rest =>
    exact absurd rest id

/-- Only the worker itself notes its answers, and only while it asks. -/
theorem Noted.answers (noted : stage.Noted worker shared after)
    (silent : other = worker → ∀ a id phase, stage ≠ .opening a id phase) :
    after.declinesOf other = shared.declinesOf other ∧ after.placesOf other = shared.placesOf other := by
  obtain ⟨events, log, notes⟩ := noted
  simp only [Shared.declinesOf, Shared.placesOf, log, List.countP_append, Nat.add_eq_right, List.countP_eq_zero]
  refine ⟨?_, ?_⟩
  · intro event member
    cases notes event member with
    | declined => simpa using fun same => silent same.symm _ _ _ rfl
    | _ => simp
  · intro event member
    cases notes event member with
    | placed => simpa using fun same => silent same.symm _ _ _ rfl
    | _ => simp

end Stage

namespace Machine

variable {m next : Machine} {worker closer : Nat} {a : ApplicationId} {s : SessionId}

variable {after shared : Shared} {left : List Task} {scenario : Scenario}

theorem tasksOf_of_some {tasks : List Task} (has : m.workers[worker]? = some tasks) : m.tasksOf worker = tasks := by
  simp [tasksOf, has]

/-- What a call answers when the application is shut down: it is declined, or it had seen the application open. -/
theorem accounts_of_open {id : Key} {starts : Bool} {phase : OpenPhase}
    (shut : (shared.world.application a).shutDown = true)
    (did : (Task.open a id starts phase).step scenario worker shared = some (left, after)) :
    after.declinesOf worker + left.countP Task.isUnseeing =
        shared.declinesOf worker + (if (Task.open a id starts phase).isUnseeing then 1 else 0) ∧
      after.placesOf worker + left.countP Task.isPlacing ≤
        shared.placesOf worker + (if (Task.open a id starts phase).isPlacing then 1 else 0) := by
  have silent : ∀ (placed : World.Placed) (final : Shared) (asks : Task → Bool),
      (∀ s listener, asks (.finish a s listener .flagging) = false) →
      (∀ s, asks (.start (.session a s) .glancing) = false) →
      ((placed.stale.map (Task.retire scenario final a)).toList ++
        (if starts then [Task.start (.session a placed.session) .glancing] else [])).countP asks = 0 := by
    intro placed final asks ends begins
    cases placed.stale <;> cases starts <;> simp [Task.retire, ends, begins]
  simp only [Task.step] at did
  split at did
  next => cases did
  next later middle opened =>
    cases did
    cases OpenPhase.goes_of_step opened with
    | reserves free => exact ⟨rfl, Nat.le_refl _⟩
    | admits unshut => cases shut.symm.trans unshut
  next middle opened =>
    cases did
    cases OpenPhase.goes_of_step opened with
    | declines shut =>
      simp [Shared.declinesOf, Shared.placesOf, Shared.note, Shared.release, Task.isUnseeing]
  next placed middle opened =>
    cases did
    rw [silent _ _ _ (fun _ _ => rfl) fun _ => rfl, silent _ _ _ (fun _ _ => rfl) fun _ => rfl]
    cases OpenPhase.goes_of_step opened with
    | finds there live =>
      simp [Shared.declinesOf, Shared.placesOf, Shared.release, Task.isUnseeing]
    | places there defunct =>
      simp [Shared.declinesOf, Shared.placesOf, Shared.note, Shared.release, Task.isUnseeing, Task.isPlacing]

theorem unasking {task : Task} (silent : ∀ b id starts phase, task ≠ .open b id starts phase)
    (asks : task.Asks a ∨ task.Closes)
    (did : task.step scenario worker shared = some (left, after)) :
    left.countP Task.isUnseeing = 0 ∧ left.countP Task.isPlacing = 0 ∧ task.isUnseeing = false ∧
      task.isPlacing = false ∧ ∀ b id phase, task.stage ≠ .opening b id phase := by
  cases task with
  | finish b s listener phase =>
    simp only [Task.step] at did
    split at did <;> (cases did; simp [Task.isUnseeing, Task.isPlacing, Task.stage])
  | start | close =>
    simp only [Task.step] at did
    split at did
    · cases did
    · cases did
      simp [Task.isUnseeing, Task.isPlacing, Task.stage]
    · cases did
      simp [Task.isUnseeing, Task.isPlacing, Task.stage]
  | wait ms =>
    cases did
    simp [Task.isUnseeing, Task.isPlacing, Task.stage]
  | «open» b id starts phase => exact absurd rfl (silent b id starts phase)
  | visit | closeNamed | closeAll => exact (asks.elim id id).elim

theorem Asking.accounts (asking : m.Asking a closer) (orderly : m.Orderly)
    (shut : (m.shared.world.application a).shutDown = true) (step : m.step worker = some next) (other : Nat) :
    next.Accounts other m := by
  have moves := orderly.moves step
  obtain ⟨task, tasks, left, stepped⟩ := stepped_of_step step
  by_cases acting : other = worker
  · subst other
    have asks : task.Asks a ∨ task.Closes := by
      have own := asking worker _ stepped.had task (by simp)
      split at own
      · exact .inr own
      · exact .inl own
    have accounts : next.shared.declinesOf worker + left.countP Task.isUnseeing =
          m.shared.declinesOf worker + (if task.isUnseeing then 1 else 0) ∧
        next.shared.placesOf worker + left.countP Task.isPlacing ≤
          m.shared.placesOf worker + (if task.isPlacing then 1 else 0) := by
      by_cases opens : ∃ b id starts phase, task = .open b id starts phase
      · obtain ⟨b, key, starts, phase, rfl⟩ := opens
        cases asks.resolve_right id
        exact accounts_of_open shut stepped.did
      · obtain ⟨unseeing, placing, notUnseeing, notPlacing, silent⟩ :=
          unasking (fun b id starts phase same => opens ⟨b, id, starts, phase, same⟩) asks stepped.did
        rw [← stage_of_tasks stepped.had] at silent
        obtain ⟨declines, places⟩ : next.shared.declinesOf worker = _ ∧ next.shared.placesOf worker = _ :=
          moves.step.noted.answers fun _ => silent
        simp [unseeing, placing, notUnseeing, notPlacing, declines, places]
    refine ⟨?_, ?_⟩
    · rw [tasksOf_of_some stepped.had, tasksOf_of_some stepped.has, List.countP_append, List.countP_cons]
      omega
    · rw [tasksOf_of_some stepped.had, tasksOf_of_some stepped.has, List.countP_append, List.countP_cons]
      omega
  · obtain ⟨declines, places⟩ := moves.step.noted.answers fun same => absurd same acting
    have same : next.tasksOf other = m.tasksOf other := by simp only [tasksOf, stepped.others other acting]
    exact ⟨by rw [declines, same], Nat.le_of_eq (by rw [places, same])⟩

/-- What holds at every moment of a run in which one worker shuts the application down and all others ask it for
sessions. -/
structure Serving (m : Machine) (a : ApplicationId) (closer : Nat) : Prop where
  orderly : m.Orderly
  asking : m.Asking a closer
  supervised : ∀ s, ∃ lost, m.Supervised a closer s False [] lost

section

variable (serving : m.Serving a closer)
include serving

theorem Serving.step (step : m.step worker = some next) : next.Serving a closer := by
  have orderly := serving.orderly
  refine ⟨orderly.step step, serving.asking.step step, fun s => ?_⟩
  obtain ⟨lost, supervised⟩ := serving.supervised s
  exact ⟨_, supervised.moves orderly (orderly.moves step)⟩

theorem Serving.run (schedule : List Nat) : (m.run schedule).Serving a closer := by
  refine run_preserves (P := fun current => current.Serving a closer) m schedule serving ?_
  intro current worker next held step
  exact held.step step

/-- Once the flag is set, the accounts of every worker hold, whatever happens. -/
theorem Serving.accounts (shut : (m.shared.world.application a).shutDown = true) (schedule : List Nat) (worker : Nat) :
    (m.run schedule).Accounts worker m := by
  have all : (m.run schedule).Serving a closer ∧ ((m.run schedule).shared.world.application a).shutDown = true ∧
      (m.run schedule).Accounts worker m := by
    refine run_preserves (P := fun current => current.Serving a closer ∧
      (current.shared.world.application a).shutDown = true ∧ current.Accounts worker m) m schedule
      ⟨serving, shut, rfl, Nat.le_refl _⟩ ?_
    intro current acting next held step
    obtain ⟨serving, shut, accounts⟩ := held
    have moves := serving.orderly.moves step
    exact ⟨serving.step step, moves.turns.shutDown_mono shut,
      (serving.asking.accounts serving.orderly shut step worker).trans accounts⟩
  exact all.2.2

theorem Serving.sealed (returned : m.workers[closer]? = some []) : m.Sealed a := by
  have idle := stage_of_none returned
  obtain ⟨lost, supervised⟩ := serving.supervised default
  have shut : (m.shared.world.application a).shutDown = true := by
    rcases supervised.begun with ⟨closing, here, -⟩ | shut
    · cases idle.symm.trans here
    · exact shut
  rcases supervised.draining.drained shut with sealed | ⟨worker, closing, here, -⟩
  · exact sealed
  · cases serving.asking.closing here
    cases idle.symm.trans here

/-- What was placed is ended then, or it was discarded, or it is in the hands of the call that replaced it. -/
theorem Serving.ended (returned : m.workers[closer]? = some []) (placed : m.shared.Placed a s) :
    ((m.shared.world.session s).shutDown = true ∨ (m.shared.world.session s).discarded = true) ∨
      ∃ worker listener, m.stage worker = .finishing a s listener .flagging := by
  obtain ⟨lost, supervised⟩ := serving.supervised s
  rcases supervised.whereabouts.accounted (.inr placed) with
    stored | ended | ⟨worker, ending, here, theirs, first⟩ | discarded
  · exact absurd stored ((serving.sealed returned).vacant s)
  · exact .inl (.inl ended)
  · rcases serving.asking.ending here with rfl | stage
    · rw [stage_of_none returned] at here
      cases here
    · rw [theirs, first] at stage
      exact .inr ⟨worker, _, stage⟩
  · exact .inl (.inr discarded)

end

def Lapsed (m : Machine) (s : SessionId) : Prop :=
  (m.shared.world.session s).isExpiredAt m.shared.world.clock = true

/-- Nobody is about to end the session because it expired. -/
def Tidy (m : Machine) (a : ApplicationId) (s : SessionId) : Prop :=
  ∀ worker listener, m.stage worker = .finishing a s listener .flagging →
    (m.shared.world.session s).shutDown = true ∨ (m.shared.world.session s).discarded = true

theorem Tidy.moves (tidy : m.Tidy a s) (fresh : ¬ m.Lapsed s) (moves : m.Moves worker next) : next.Tidy a s := by
  intro other listener here
  by_cases acting : other = worker
  · subst other
    have step := moves.step
    rw [here] at step
    obtain ⟨id, there, defunct⟩ := step.to_finishing
    simp only [Session.isDefunctAt, Bool.or_eq_true] at defunct
    rcases defunct with (ended | discarded) | lapsed
    · exact .inl (moves.turns.ended_mono ended)
    · exact .inr (moves.turns.discarded_mono discarded)
    · exact absurd lapsed fresh
  · rw [moves.others other acting] at here
    rcases tidy other listener here with ended | discarded
    · exact .inl (moves.turns.ended_mono ended)
    · exact .inr (moves.turns.discarded_mono discarded)

theorem Orderly.tidy (orderly : m.Orderly) (tidy : m.Tidy a s) (schedule : List Nat)
    (fresh : ∀ n, ¬ (m.run (schedule.take n)).Lapsed s) : (m.run schedule).Tidy a s := by
  have all : (m.run schedule).Orderly ∧ ¬ (m.run schedule).Lapsed s ∧ (m.run schedule).Tidy a s := by
    refine run_keeps (P := fun current => current.Orderly ∧ ¬ current.Lapsed s ∧ current.Tidy a s)
      (Q := fun current => ¬ current.Lapsed s) m schedule ⟨orderly, fresh 0, tidy⟩ fresh ?_
    intro current worker next held later step
    obtain ⟨orderly, fresh, tidy⟩ := held
    exact ⟨orderly.step step, later, tidy.moves fresh (orderly.moves step)⟩
  exact all.2.2

theorem returned_run (returned : m.workers[closer]? = some []) (schedule : List Nat) :
    (m.run schedule).workers[closer]? = some [] := by
  refine run_preserves (P := fun current => current.workers[closer]? = some []) m schedule returned ?_
  intro current worker next held step
  obtain ⟨task, tasks, left, stepped⟩ := stepped_of_step step
  by_cases acting : closer = worker
  · subst acting
    cases held.symm.trans stepped.had
  · rw [stepped.others closer acting, held]

def Visited (m : Machine) (a : ApplicationId) (closer : Nat) : Prop :=
  ∀ (worker : Nat) tasks, m.workers[worker]? = some tasks → worker ≠ closer →
    ∀ task ∈ tasks, (∃ id starts, task = .open a id starts .reserving) ∨ ∃ ms, task = .wait ms

section

variable (visited : m.Visited a closer) (closes : m.workers[closer]? = some [Task.shutdown a])
include visited closes

theorem poised_of_visited (log : m.shared.log = []) (maps : m.shared.world.MapsIssued)
    (issued : a.number < m.shared.world.applications.size)
    (unshut : (m.shared.world.application a).shutDown = false) : m.Poised a := by
  refine ⟨?_, log, maps, issued, unshut⟩
  intro worker tasks has task member
  by_cases own : worker = closer
  · subst own
    cases closes.symm.trans has
    cases List.mem_singleton.mp member
    rfl
  · rcases visited worker tasks has own task member with ⟨id, starts, rfl⟩ | ⟨ms, rfl⟩
    · rfl
    · trivial

theorem asking_of_visited : m.Asking a closer := by
  intro worker tasks has task member
  split
  next own =>
    subst own
    cases closes.symm.trans has
    cases List.mem_singleton.mp member
    trivial
  next other =>
    rcases visited worker tasks has other task member with ⟨id, starts, rfl⟩ | ⟨ms, rfl⟩
    · rfl
    · trivial

end

theorem Poised.serving (poised : m.Poised a) (asking : m.Asking a closer)
    (closes : m.workers[closer]? = some [Task.shutdown a]) : m.Serving a closer :=
  ⟨poised.orderly, asking, fun _ => ⟨False, poised.supervised closes False.elim False.elim fun _ => rfl⟩⟩

theorem Poised.tidy (poised : m.Poised a) : m.Tidy a s := by
  intro worker listener here
  have rest := poised.rest.stage worker
  rw [here] at rest
  exact absurd rest id

end Machine

/-- Four workers ask for sessions while a fifth shuts the application down. The second comes an hour later, and the third
starts its session, in vain. -/
def rush : Machine where
  scenario := { plan := fun hook _ => if hook = .sessionStart then .refuse else .proceed }
  shared := { world := openShop }
  workers := #[[.open ⟨0⟩ (.of "alice") false .reserving],
    [.wait 3600000, .open ⟨0⟩ (.of "alice") false .reserving], [.open ⟨0⟩ (.of "bob") true .reserving],
    [.open ⟨0⟩ (.of "carol") false .reserving, .open ⟨0⟩ (.of "alice") false .reserving], [Task.shutdown ⟨0⟩]]

/-- The second call replaces the session of the first and goes no further. The last one but one sees the application open
before the shutdown begins, and places its session when the listing has begun. -/
def rushHour : List Nat :=
  List.replicate 3 0 ++ List.replicate 4 1 ++ List.replicate 10 2 ++ List.replicate 2 3 ++ List.replicate 3 4 ++
    List.replicate 3 3 ++ List.replicate 18 4

theorem rush_returned : (rush.run rushHour).workers[4]? = some [] := by
  have returned : (rush.run rushHour).workers[4]?.map List.isEmpty = some true := by decide +kernel
  obtain ⟨tasks, has, none⟩ := Option.map_eq_some_iff.mp returned
  rw [has, List.isEmpty_iff.mp none]

end ScopeEngine.Interleaving
