import ScopeEngine.Proofs.Shutdown.Whereabouts

/-! The hooks of an instance under every schedule. Whoever has it started or ended, and in whatever order their steps
come: its start hook runs at most once, its end hook at most once and only after the start hook let it proceed. If the
start hook does not let it proceed, one attempt fails and all others find the instance gone. -/

namespace ScopeEngine.Interleaving

namespace Machine

def Unbegun (m : Machine) (x : Instance) : Prop :=
  ∀ (worker : Nat) tasks, m.workers[worker]? = some tasks → ∀ task ∈ tasks, (task.stage.role x).isAtRest = true

def Waits (m : Machine) (x : Instance) : Prop :=
  ∀ (worker : Nat) task tasks, m.workers[worker]? = some (task :: tasks) →
    ∀ other ∈ tasks, (other.stage.role x).isAtRest = true

structure Courses (m : Machine) (x : Instance) : Prop where
  waits : m.Waits x
  course : ∃ lost, m.Course x [] lost

variable {m next : Machine} {x : Instance} {worker : Nat}

theorem role_of_rest (rest : m.Unbegun x) (worker : Nat) : (m.role x worker).isAtRest = true := by
  cases has : m.workers[worker]? with
  | none => simp [role, stage, has, Stage.role, Role.isAtRest]
  | some tasks =>
    cases tasks with
    | nil =>
      rw [role, stage_of_none has]
      rfl
    | cons task tasks =>
      rw [role, stage_of_tasks has]
      exact rest worker _ has task (by simp)

theorem role_of_idle {task : Task} {tasks : List Task} (has : m.workers[worker]? = some (task :: tasks))
    (idle : task.stage = .idle) (x : Instance) : m.role x worker = .absent := by
  rw [role, stage_of_tasks has, idle]
  rfl

theorem Waits.acts (waits : m.Waits x) (step : m.step worker = some next) :
    (x.Exists m.shared.world → (m.role x worker).Acts x m.shared (next.role x worker) next.shared) ∧ next.Waits x ∧
      ∀ other, other ≠ worker → next.role x other = m.role x other := by
  obtain ⟨task, tasks, left, stepped⟩ := stepped_of_step step
  have leaves : Left (fun _ stage => (stage.role x).isAtRest = true) m.scenario worker m.shared task.stage next.shared left := by
    refine left_of_step Stage.AtRest.role (fun _ => ?_) stepped.did
    rw [Stage.role]
    split <;> rfl
  obtain ⟨goes, rests⟩ := stepped.goes leaves rfl (waits worker task tasks stepped.had)
  refine ⟨goes.acts, fun other first rest theirs => ?_, fun other acting => ?_⟩
  · by_cases acting : other = worker
    · subst other
      exact rests first rest theirs
    · rw [stepped.others other acting] at theirs
      exact waits other first rest theirs
  · simp only [role, stage, stepped.others other acting]

theorem Courses.step (courses : m.Courses x) (step : m.step worker = some next) : next.Courses x := by
  obtain ⟨acts, waits, others⟩ := courses.waits.acts step
  obtain ⟨lost, course⟩ := courses.course
  exact ⟨waits, _, course.acts others (acts course.there)⟩

theorem Courses.run (courses : m.Courses x) (schedule : List Nat) : (m.run schedule).Courses x := by
  refine run_preserves (P := fun current => current.Courses x) m schedule courses ?_
  intro current worker next held step
  exact held.step step

end Machine

/-- What can be told of an instance that is started and ended once. -/
structure OneShot (story : List Happening) : Prop where
  begun_once : story.countP Happening.isBegun ≤ 1
  ended_once : story.countP Happening.isEnded ≤ 1
  failed_once : story.countP Happening.isFailure ≤ 1
  /-- The end hook runs only after the start hook let the instance proceed. -/
  ended_late : ∀ before answer after, story = before ++ .ended answer :: after → .begun .proceed ∈ before
  /-- Whoever is told that the instance is started is told so after the start hook let it proceed. -/
  started_late : ∀ before after, story = before ++ .attempted .started :: after → .begun .proceed ∈ before
  /-- An attempt fails only after the start hook did not let the instance proceed, and it is the first to end. -/
  failed_late : ∀ before error after, story = before ++ .attempted (.failed error) :: after →
    (∃ answer, answer ≠ .proceed ∧ .begun answer ∈ before) ∧ ∀ result, .attempted result ∉ before
  /-- Whoever is told that the instance is gone is told so after the attempt that failed. -/
  gone_late : ∀ before after, story = before ++ .attempted .gone :: after →
    ∃ error, .attempted (.failed error) ∈ before
  /-- After an attempt has failed, all others find the instance gone. -/
  gone_after : ∀ before error after, story = before ++ .attempted (.failed error) :: after →
    ∀ result, .attempted result ∈ after → result = .gone

/-- The stories that an instance can have, from the first call of its start hook on. -/
inductive Tale : List Happening → Prop
  | untried : Tale []
  | proceeded {later : List Happening} (late : ∀ happening ∈ later, happening.IsLate) :
      Tale (.begun .proceed :: later)
  /-- The attempt that called the start hook has still to end. -/
  | refusing {answer : Answer} (refused : answer ≠ .proceed) : Tale [.begun answer]
  | refused {answer : Answer} {error : Error} {later : List Happening} (refused : answer ≠ .proceed)
      (gone : ∀ happening ∈ later, happening = .attempted .gone) :
      Tale (.begun answer :: .attempted (.failed error) :: later)

section Stories

variable {started discarded : Bool} {marks : Marks} {story : List Happening} {roles : Nat → Role}

variable {after before : List Happening} {answer : Answer}

theorem Settled.tale (settled : Settled started discarded story) : Tale story := by
  cases settled with
  | untried untried =>
    rw [untried.story]
    exact .untried
  | running running =>
    obtain ⟨later, same, late⟩ := running.story
    rw [same]
    exact .proceeded late
  | gone gone =>
    obtain ⟨answer, error, later, refused, same, all⟩ := gone.story
    rw [same]
    exact .refused refused all

theorem Answered.tale {flag : Bool} {permits : Answer → Prop}
    (answered : Answered started discarded story flag permits) : Tale story := by
  obtain ⟨answer, -, same⟩ := answered.story
  rw [same]
  by_cases proceeds : answer = .proceed
  · subst proceeds
    exact .proceeded (by simp)
  · exact .refusing proceeds

theorem OneStart.tale (one : OneStart marks story roles) : Tale story := by
  cases one with
  | free _ settled => exact settled.tale
  | held _ phase _ locked _ _ stands =>
    cases phase with
    | glancing | waiting => cases locked
    | inspecting => exact Settled.tale stands
    | calling => exact (Settled.untried stands).tale
    | recording | marking | discarding | removing => exact Answered.tale stands
    | leaving result =>
      cases result with
      | started => exact (Settled.running stands).tale
      | gone => exact (Settled.gone stands).tale
      | failed error => exact Answered.tale stands

theorem eq_cons_of_split {first happening : Happening} {later : List Happening}
    (same : first :: later = before ++ happening :: after) (different : happening ≠ first) :
    ∃ rest, before = first :: rest ∧ later = rest ++ happening :: after := by
  cases before with
  | nil =>
    cases same
    exact absurd rfl different
  | cons head rest =>
    cases same
    exact ⟨rest, rfl, rfl⟩

/-- Calls of the start hook and attempts that fail come at the beginning of a story, each at most once. -/
theorem Tale.countP_le_one (tale : Tale story) {p : Happening → Bool}
    (late : ∀ happening, happening.IsLate → p happening = false) (gone : p (.attempted .gone) = false)
    (apart : ∀ answer error, (p (.begun answer) && p (.attempted (.failed error))) = false) : story.countP p ≤ 1 := by
  have few : ∀ happening rest, rest.countP p = 0 → (happening :: rest).countP p ≤ 1 := by
    intro happening rest none
    rw [List.countP_cons, none]
    split <;> simp
  cases tale with
  | untried => exact Nat.zero_le _
  | @proceeded later all =>
    apply few
    apply List.countP_eq_zero.mpr
    intro happening member
    simp [late happening (all happening member)]
  | refusing refused => exact few _ [] rfl
  | @refused answer error later refused all =>
    have none : later.countP p = 0 := by
      apply List.countP_eq_zero.mpr
      intro happening member
      simp [all happening member, gone]
    cases begun : p (.begun answer) with
    | false =>
      rw [List.countP_cons_of_neg (by simp [begun])]
      exact few _ later none
    | true =>
      have unfailed : p (.attempted (.failed error)) = false := by simpa [begun] using apart answer error
      apply few
      rw [List.countP_cons_of_neg (by simp [unfailed]), none]

theorem Tale.begun_of_late {happening : Happening} (tale : Tale story) (isLate : happening.IsLate)
    (same : story = before ++ happening :: after) : .begun .proceed ∈ before := by
  have unbegun : ∀ answer, happening ≠ .begun answer := by
    rintro answer rfl
    rcases isLate with equal | ⟨_, equal⟩ <;> cases equal
  have unfailed : ∀ result, result ≠ .started → happening ≠ .attempted result := by
    rintro result other rfl
    rcases isLate with equal | ⟨_, equal⟩ <;> cases equal
    exact other rfl
  cases tale with
  | untried => simp at same
  | proceeded late =>
    obtain ⟨rest, rfl, -⟩ := eq_cons_of_split same (unbegun _)
    simp
  | refusing refused =>
    obtain ⟨rest, -, none⟩ := eq_cons_of_split same (unbegun _)
    simp at none
  | refused refused gone =>
    obtain ⟨rest, -, split⟩ := eq_cons_of_split same (unbegun _)
    obtain ⟨others, -, later⟩ := eq_cons_of_split split (unfailed _ (by simp))
    exact absurd (gone happening (by simp [later])) (unfailed _ (by simp))

/-- The attempt that fails is the one that called the start hook. -/
theorem Tale.failed (tale : Tale story) {error : Error} (same : story = before ++ .attempted (.failed error) :: after) :
    ∃ answer, answer ≠ .proceed ∧ before = [.begun answer] ∧ ∀ happening ∈ after, happening = .attempted .gone := by
  cases tale with
  | untried => simp at same
  | proceeded late =>
    obtain ⟨rest, -, later⟩ := eq_cons_of_split same nofun
    rcases late (.attempted (.failed error)) (by simp [later]) with equal | ⟨answer, equal⟩ <;> cases equal
  | refusing refused =>
    obtain ⟨rest, -, none⟩ := eq_cons_of_split same nofun
    simp at none
  | @refused answer first later refused gone =>
    obtain ⟨rest, rfl, split⟩ := eq_cons_of_split same nofun
    cases rest with
    | nil =>
      cases split
      exact ⟨answer, refused, rfl, gone⟩
    | cons head others =>
      cases split
      cases gone (.attempted (.failed error)) (by simp)

theorem Tale.gone_late (tale : Tale story) (same : story = before ++ .attempted .gone :: after) :
    ∃ error, .attempted (.failed error) ∈ before := by
  cases tale with
  | untried => simp at same
  | proceeded late =>
    obtain ⟨rest, -, later⟩ := eq_cons_of_split same nofun
    rcases late (.attempted .gone) (by simp [later]) with equal | ⟨answer, equal⟩ <;> cases equal
  | refusing refused =>
    obtain ⟨rest, -, none⟩ := eq_cons_of_split same nofun
    simp at none
  | @refused answer error later refused gone =>
    obtain ⟨rest, rfl, split⟩ := eq_cons_of_split same nofun
    obtain ⟨others, rfl, -⟩ := eq_cons_of_split split nofun
    exact ⟨error, by simp⟩

theorem Tale.oneShot (tale : Tale story) (ended : story.countP Happening.isEnded ≤ 1) : OneShot story where
  begun_once := by
    refine tale.countP_le_one ?_ rfl fun _ _ => rfl
    intro happening late
    rcases late with rfl | ⟨answer, rfl⟩ <;> rfl
  ended_once := ended
  failed_once := by
    refine tale.countP_le_one ?_ rfl fun _ _ => rfl
    intro happening late
    rcases late with rfl | ⟨answer, rfl⟩ <;> rfl
  ended_late := fun _ _ _ same => tale.begun_of_late (.inr ⟨_, rfl⟩) same
  started_late := fun _ _ same => tale.begun_of_late (.inl rfl) same
  failed_late := by
    intro before error after same
    obtain ⟨answer, refused, rfl, -⟩ := tale.failed same
    exact ⟨⟨answer, refused, by simp⟩, by simp⟩
  gone_late := fun _ _ same => tale.gone_late same
  gone_after := by
    intro before error after same result member
    obtain ⟨answer, -, -, gone⟩ := tale.failed same
    cases gone _ member
    rfl

theorem Settled.failure (settled : Settled started discarded story) (refused : answer ≠ .proceed)
    (called : .begun answer ∈ story) : story.countP Happening.isFailure = 1 := by
  have tale := settled.tale
  cases settled with
  | untried untried => simp [untried.story] at called
  | running running =>
    obtain ⟨later, same, late⟩ := running.story
    rw [same] at called
    rcases List.mem_cons.mp called with equal | member
    · cases equal
      exact absurd rfl refused
    · rcases late _ member with equal | ⟨answer, equal⟩ <;> cases equal
  | gone gone =>
    obtain ⟨first, error, later, -, same, all⟩ := gone.story
    have none : later.countP Happening.isFailure = 0 := by
      apply List.countP_eq_zero.mpr
      intro happening member
      simp [all happening member, Happening.isFailure]
    rw [same, List.countP_cons_of_neg (by simp [Happening.isFailure]), List.countP_cons_of_pos rfl, none]

end Stories

/-- Instances are started and ended once, whoever wants them started or ended, and whatever their hooks answer. -/
theorem hooks_run_once (m : Machine) (schedule : List Nat) (x : Instance) (there : x.Exists m.shared.world)
    (fresh : ∃ name, x.marks m.shared.world = { name }) (untold : m.shared.story x = []) (unbegun : m.Unbegun x) :
    OneShot ((m.run schedule).shared.story x) ∧
      ((m.run schedule).isFinished = true → ∀ answer, answer ≠ .proceed →
        .begun answer ∈ (m.run schedule).shared.story x →
        ((m.run schedule).shared.story x).countP Happening.isFailure = 1) := by
  have begins : m.Courses x := by
    obtain ⟨name, marks⟩ := fresh
    obtain ⟨starts, ends⟩ := course_of_fresh name (Machine.role_of_rest unbegun)
    rw [← marks, ← untold] at starts ends
    refine ⟨?_, False, there, starts, ends⟩
    intro worker task tasks has other member
    exact unbegun worker _ has other (by simp [member])
  obtain ⟨lost, course⟩ := (begins.run schedule).course
  refine ⟨course.starts.tale.oneShot course.ends.once, ?_⟩
  intro finished answer refused called
  cases course.starts with
  | free _ settled => exact settled.failure refused called
  | held i phase here =>
    rw [Machine.role, Machine.stage_of_finished finished] at here
    cases here

/-- Two workers want a session started and a third wants it ended; its start hook refuses. -/
def contest : Machine where
  scenario := { plan := fun hook _ => if hook = .sessionStart then .refuse else .proceed }
  shared := { world := (openShop.placeSession ⟨0⟩ (.of "alice")).2 }
  workers := #[[.start (.session ⟨0⟩ ⟨0⟩) .glancing], [.start (.session ⟨0⟩ ⟨0⟩) .glancing],
    [.finish ⟨0⟩ ⟨0⟩ (some ⟨0⟩) .flagging]]

theorem contest_unbegun : contest.Unbegun (.session ⟨0⟩ ⟨0⟩) := by
  intro worker tasks has task member
  match worker with
  | 0 | 1 | 2 =>
    cases has
    cases List.mem_singleton.mp member
    rfl
  | worker + 3 => cases has

def crowding : List Nat := [0, 1, 1, 0, 2, 1, 0, 1, 2, 1, 1, 1, 0, 0, 0]

theorem hooks_run_once_contested :
    (contest.run crowding).shared.story (.session ⟨0⟩ ⟨0⟩) =
      [.begun .refuse, .attempted (.failed (.startFailed .sessionStart "alice" (.startAborted .sessionStart))),
        .attempted .gone] ∧
      OneShot ((contest.run crowding).shared.story (.session ⟨0⟩ ⟨0⟩)) ∧
      ((contest.run crowding).shared.story (.session ⟨0⟩ ⟨0⟩)).countP Happening.isFailure = 1 := by
  have story : (contest.run crowding).shared.story (.session ⟨0⟩ ⟨0⟩) =
      [.begun .refuse, .attempted (.failed (.startFailed .sessionStart "alice" (.startAborted .sessionStart))),
        .attempted .gone] := by decide +kernel
  have there : (Instance.session ⟨0⟩ ⟨0⟩).Exists contest.shared.world := by
    show 0 < contest.shared.world.sessions.size
    decide +kernel
  have once := hooks_run_once contest crowding (.session ⟨0⟩ ⟨0⟩) there ⟨.of "alice", rfl⟩ rfl contest_unbegun
  exact ⟨story, once.1, once.2 (by decide +kernel) .refuse nofun (by simp [story])⟩

end ScopeEngine.Interleaving
