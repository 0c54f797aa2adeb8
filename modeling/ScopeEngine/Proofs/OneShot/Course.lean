import ScopeEngine.Proofs.OneShot.Stories

/-! The course of an instance. Whoever holds the start lock knows how far the start has got, and while nobody holds it the
start is settled: nobody has tried it, it succeeded, or it failed for good. The end is in the hands of the first who flags it.
Both hold whatever the other workers do in between. -/

namespace ScopeEngine.Interleaving

inductive Guarded {P : Type} (busy : P → Bool) (phases : Nat → Option P) (taken : Bool) (settled : Prop)
    (stands : P → Prop) : Prop
  | free (nobody : ∀ i phase, phases i = some phase → busy phase = false) (settled : settled)
  | held (holder : Nat) (phase : P) (here : phases holder = some phase) (within : busy phase = true)
      (alone : ∀ i, i ≠ holder → ∀ second, phases i = some second → busy second = false) (taken : taken = true)
      (stands : stands phase)

namespace Guarded

variable {P : Type} {busy : P → Bool} {phases after : Nat → Option P} {taken later : Bool} {settled next : Prop}
  {stands onward : P → Prop} {worker : Nat} {phase : P}

theorem own (guarded : Guarded busy phases taken settled stands) (here : phases worker = some phase)
    (within : busy phase = true) : taken = true ∧ stands phase ∧
      ∀ i, i ≠ worker → ∀ second, phases i = some second → busy second = false := by
  cases guarded with
  | free nobody => cases (nobody worker phase here).symm.trans within
  | held holder first there _ alone taken stands =>
    by_cases same : worker = holder
    · subst same
      cases there.symm.trans here
      exact ⟨taken, stands, alone⟩
    · cases (alone worker same phase here).symm.trans within

theorem of_free (guarded : Guarded busy phases taken settled stands) (free : taken = false) :
    (∀ i phase, phases i = some phase → busy phase = false) ∧ settled := by
  cases guarded with
  | free nobody settled => exact ⟨nobody, settled⟩
  | held _ _ _ _ _ taken => cases free.symm.trans taken

variable (others : ∀ i, i ≠ worker → after i = phases i)
include others

theorem aside (guarded : Guarded busy phases taken settled stands)
    (before : ∀ phase, phases worker = some phase → busy phase = false)
    (now : ∀ phase, after worker = some phase → busy phase = false) (same : taken = true → later = true)
    (settles : settled → next) (stand : ∀ phase, stands phase → onward phase) :
    Guarded busy after later next onward := by
  have unchanged : ∀ i second, (i ≠ worker → ∀ first, phases i = some first → busy first = false) →
      after i = some second → busy second = false := by
    intro i second known here
    by_cases acting : i = worker
    · subst acting
      exact now second here
    · rw [others i acting] at here
      exact known acting second here
  cases guarded with
  | free nobody settled => exact .free (fun i second => unchanged i second fun _ => nobody i) (settles settled)
  | held holder first here within alone taken stands =>
    have acting : holder ≠ worker := by
      rintro rfl
      cases (before first here).symm.trans within
    refine .held holder first ((others holder acting).trans here) within ?_ (same taken) (stand first stands)
    exact fun i different second => unchanged i second fun _ => alone i different

variable (alone : ∀ i, i ≠ worker → ∀ second, phases i = some second → busy second = false)
include alone

theorem hold (here : after worker = some phase) (within : busy phase = true) (taken : later = true)
    (stands : onward phase) : Guarded busy after later next onward := by
  refine .held worker phase here within (fun i acting second there => ?_) taken stands
  rw [others i acting] at there
  exact alone i acting second there

theorem release (now : ∀ phase, after worker = some phase → busy phase = false) (settled : next) :
    Guarded busy after later next onward := by
  refine .free (fun i second here => ?_) settled
  by_cases acting : i = worker
  · subst acting
    exact now second here
  · rw [others i acting] at here
    exact alone i acting second here

end Guarded

def Happening.isBegun : Happening → Bool
  | .begun _ => true
  | _ => false

def Happening.isEnded : Happening → Bool
  | .ended _ => true
  | _ => false

def Happening.isFailure : Happening → Bool
  | .attempted (.failed _) => true
  | _ => false

def Happening.IsLate (happening : Happening) : Prop :=
  happening = .attempted .started ∨ ∃ answer, happening = .ended answer

structure Untried (started discarded : Bool) (story : List Happening) : Prop where
  unstarted : started = false
  there : discarded = false
  story : story = []

/-- The start hook let the instance proceed, and it is marked as started. -/
structure Running (started discarded : Bool) (story : List Happening) : Prop where
  started : started = true
  there : discarded = false
  story : ∃ later, story = .begun .proceed :: later ∧ ∀ happening ∈ later, happening.IsLate

structure Gone (started discarded : Bool) (story : List Happening) : Prop where
  unstarted : started = false
  discarded : discarded = true
  story : ∃ answer error later, answer ≠ .proceed ∧
    story = .begun answer :: .attempted (.failed error) :: later ∧ ∀ happening ∈ later, happening = .attempted .gone

/-- How a start can stand that nobody is busy with. -/
inductive Settled (started discarded : Bool) (story : List Happening) : Prop
  | untried (untried : Untried started discarded story)
  | running (running : Running started discarded story)
  | gone (gone : Gone started discarded story)

structure Answered (started discarded : Bool) (story : List Happening) (flag : Bool) (permits : Answer → Prop) : Prop where
  unstarted : started = false
  discarded : discarded = flag
  story : ∃ answer, permits answer ∧ story = [.begun answer]

/-- How a start stands while a worker is in a phase of it. -/
def StartPhase.Stands (started discarded : Bool) (story : List Happening) : StartPhase → Prop
  | .glancing | .waiting => True
  | .inspecting => Settled started discarded story
  | .calling => Untried started discarded story
  | .recording | .marking => Answered started discarded story false (· = .proceed)
  | .discarding _ => Answered started discarded story false (· ≠ .proceed)
  | .removing _ | .leaving (.failed _) => Answered started discarded story true (· ≠ .proceed)
  | .leaving .started => Running started discarded story
  | .leaving .gone => Gone started discarded story

variable {started discarded : Bool} {marks later : Marks} {story : List Happening} {happening : Happening}
  {phase : StartPhase}

theorem Running.tell (running : Running started discarded story) (late : happening.IsLate) :
    Running started discarded (story ++ [happening]) := by
  obtain ⟨before, same, all⟩ := running.story
  refine ⟨running.started, running.there, before ++ [happening], by rw [same]; rfl, ?_⟩
  intro other member
  rcases List.mem_append.mp member with old | new
  · exact all other old
  · cases List.mem_singleton.mp new
    exact late

theorem Gone.tell (gone : Gone started discarded story) : Gone started discarded (story ++ [.attempted .gone]) := by
  obtain ⟨answer, error, before, refused, told, all⟩ := gone.story
  refine ⟨gone.unstarted, gone.discarded, answer, error, before ++ [.attempted .gone], refused, by rw [told]; rfl, ?_⟩
  intro happening member
  rcases List.mem_append.mp member with old | new
  · exact all happening old
  · exact List.mem_singleton.mp new

theorem Settled.running_of_started (settled : Settled true discarded story) : Running true discarded story := by
  cases settled with
  | untried untried => cases untried.unstarted
  | running running => exact running
  | gone gone => cases gone.unstarted

/-- A start that was let proceed is never discarded. -/
theorem Settled.there_of_proceed (settled : Settled started discarded story) (proceeded : .begun .proceed ∈ story) :
    discarded = false := by
  cases settled with
  | untried untried => exact untried.there
  | running running => exact running.there
  | gone gone =>
    obtain ⟨answer, error, later, refused, same, all⟩ := gone.story
    rw [same] at proceeded
    rcases List.mem_cons.mp proceeded with same | member
    · cases same
      exact absurd rfl refused
    · rcases List.mem_cons.mp member with same | member
      · cases same
      · cases all _ member

theorem Settled.tell (settled : Settled true discarded story) (late : happening.IsLate) :
    Settled true discarded (story ++ [happening]) :=
  .running (settled.running_of_started.tell late)

theorem StartPhase.Stands.tell (stands : phase.Stands true discarded story) (late : happening.IsLate) :
    phase.Stands true discarded (story ++ [happening]) := by
  cases phase with
  | glancing | waiting => trivial
  | inspecting => exact Settled.tell stands late
  | calling => cases Untried.unstarted stands
  | recording | marking | discarding | removing => cases Answered.unstarted stands
  | leaving result =>
    cases result with
    | started => exact Running.tell stands late
    | gone => cases Gone.unstarted stands
    | failed error => cases Answered.unstarted stands

def Role.start? : Role → Option StartPhase
  | .starting phase => some phase
  | .absent | .ending _ => none

def Role.end? : Role → Option EndPhase
  | .ending phase => some phase
  | .absent | .starting _ => none

/-- Only one at a time is busy with the start, and that one is right about how it stands. -/
def OneStart (marks : Marks) (story : List Happening) (roles : Nat → Role) : Prop :=
  Guarded StartPhase.isLocked (fun i => (roles i).start?) marks.starting
    (Settled marks.started marks.discarded story) (·.Stands marks.started marks.discarded story)

def Role.Forgets (role next : Role) : Prop := role = .ending .weighing ∧ next.isAtRest = true

/-- How the books of an end stand while nobody sees to it; `lost` says that the end has been forgotten. -/
structure Booked (ended : Bool) (story : List Happening) (lost : Prop) : Prop where
  alive : ended = false → story.countP Happening.isEnded = 0 ∧ ¬ lost
  shut : ended = true → story.countP Happening.isEnded = 1 ∧ ¬ lost ∨ story.countP Happening.isEnded = 0 ∧ lost

/-- Only who flagged the end sees to the end hook, and only of an instance that was started. -/
def OneEnd (marks : Marks) (story : List Happening) (roles : Nat → Role) (lost : Prop) : Prop :=
  Guarded EndPhase.isPast (fun i => (roles i).end?) marks.shutDown (Booked marks.shutDown story lost)
    fun phase => (story.countP Happening.isEnded = 0 ∧ ¬ lost) ∧ (phase = .calling → marks.started = true)

variable {roles after : Nat → Role} {worker : Nat} {news : List Happening} {lost : Prop}

theorem Role.unlocked_of_rest {role : Role} (rest : role.isAtRest = true) (here : role.start? = some phase) :
    phase.isLocked = false := by
  cases role with
  | absent | ending => cases here
  | starting first =>
    cases here
    cases phase with
    | glancing => rfl
    | waiting | inspecting | calling | recording | marking | discarding | removing | leaving => cases rest

theorem Role.unflagged_of_rest {role : Role} {phase : EndPhase} (rest : role.isAtRest = true)
    (here : role.end? = some phase) : phase.isPast = false := by
  cases role with
  | absent | starting => cases here
  | ending first =>
    cases here
    cases phase with
    | flagging => rfl
    | weighing | calling => cases rest

theorem OneStart.step (one : OneStart marks story roles) (ends : OneEnd marks story roles lost)
    (others : ∀ i, i ≠ worker → after i = roles i)
    (goes : (roles worker).Goes marks (after worker) later news) : OneStart later (story ++ news) after := by
  have same : ∀ i, i ≠ worker → (after i).start? = (roles i).start? := fun i acting => congrArg Role.start? (others i acting)
  -- Who holds the lock goes on to a phase in which it holds it still.
  have onward : ∀ {phase second}, roles worker = .starting phase → phase.isLocked = true →
      after worker = .starting second → second.isLocked = true → later.starting = marks.starting →
      (phase.Stands marks.started marks.discarded story →
        second.Stands later.started later.discarded (story ++ news)) → OneStart later (story ++ news) after := by
    intro phase second own held on holds starting stands
    obtain ⟨taken, stood, alone⟩ := one.own (congrArg Role.start? own) held
    exact .hold same alone (congrArg Role.start? on) holds (starting.trans taken) (stands stood)
  -- Who does not hold the lock leaves the start alone, and tells at most what leaves it as it stands.
  have apart : (∀ phase, (roles worker).start? = some phase → phase.isLocked = false) →
      (∀ phase, (after worker).start? = some phase → phase.isLocked = false) → later.starting = marks.starting →
      (∀ phase : StartPhase, phase.Stands marks.started marks.discarded story →
        phase.Stands later.started later.discarded (story ++ news)) →
      (Settled marks.started marks.discarded story → Settled later.started later.discarded (story ++ news)) →
      OneStart later (story ++ news) after := by
    intro before now starting stands settled
    exact one.aside same before now starting.trans settled stands
  generalize own : roles worker = role at goes
  generalize on : after worker = next at goes
  have resting : next.isAtRest = true → ∀ phase, (after worker).start? = some phase → phase.isLocked = false :=
    fun rest phase here => Role.unlocked_of_rest rest (on ▸ here)
  cases goes with
  | rests rest | repeats _ rest | forgets rest =>
    exact apart (by simp [own, Role.start?]) (resting rest) rfl (by simp) (by simp)
  | flags | lingers | owes => exact apart (by simp [own, Role.start?]) (by simp [on, Role.start?]) rfl (by simp) (by simp)
  | @calls answer next rest =>
    obtain ⟨-, ⟨-, started⟩, -⟩ := ends.own (congrArg Role.end? own) rfl
    have late : (Happening.ended answer).IsLate := .inr ⟨answer, rfl⟩
    rw [started rfl] at apart
    exact apart (by simp [own, Role.start?]) (resting rest) rfl (fun _ stands => stands.tell late)
      fun settled => settled.tell late
  | glances started rest =>
    have late : (Happening.attempted .started).IsLate := .inl rfl
    rw [started] at apart
    exact apart (by simp [own, Role.start?, StartPhase.isLocked]) (resting rest) rfl (fun _ stands => stands.tell late)
      fun settled => settled.tell late
  | waits =>
    exact apart (by simp [own, Role.start?, StartPhase.isLocked]) (by simp [on, Role.start?, StartPhase.isLocked]) rfl
      (by simp) (by simp)
  | locks free =>
    obtain ⟨nobody, settled⟩ := one.of_free free
    rw [List.append_nil]
    exact .hold same (fun i _ => nobody i) (congrArg Role.start? on) rfl rfl settled
  | finds started =>
    refine onward own rfl on rfl rfl fun settled => ?_
    rw [List.append_nil]
    rw [started] at settled ⊢
    exact Settled.running_of_started settled
  | misses unstarted gone =>
    refine onward own rfl on rfl rfl fun settled => ?_
    rw [List.append_nil]
    cases settled with
    | untried untried => cases gone.symm.trans untried.there
    | running running => cases gone.symm.trans running.there
    | gone settled => exact settled
  | dares unstarted there =>
    refine onward own rfl on rfl rfl fun settled => ?_
    rw [List.append_nil]
    cases settled with
    | untried untried => exact untried
    | running running => cases unstarted.symm.trans running.started
    | gone gone => cases there.symm.trans gone.discarded
  | proceeds =>
    refine onward own rfl on rfl rfl fun untried => ?_
    obtain ⟨unstarted, there, rfl⟩ := untried
    exact ⟨unstarted, there, .proceed, rfl, rfl⟩
  | @refuses answer cause refused =>
    refine onward own rfl on rfl rfl fun untried => ?_
    obtain ⟨unstarted, there, rfl⟩ := untried
    exact ⟨unstarted, there, answer, refused, rfl⟩
  | records | removes =>
    refine onward own rfl on rfl rfl fun answered => ?_
    rw [List.append_nil]
    exact answered
  | marks =>
    refine onward own rfl on rfl rfl fun answered => ?_
    rw [List.append_nil]
    obtain ⟨answer, rfl, told⟩ := Answered.story answered
    exact ⟨rfl, Answered.discarded answered, [], told, by simp⟩
  | discards =>
    refine onward own rfl on rfl rfl fun answered => ?_
    rw [List.append_nil]
    exact ⟨Answered.unstarted answered, rfl, Answered.story answered⟩
  | @leaves result next rest =>
    obtain ⟨-, stands, alone⟩ := one.own (congrArg Role.start? own) rfl
    refine .release same alone (resting rest) ?_
    cases result with
    | started => exact .running (Running.tell stands (.inl rfl))
    | gone => exact .gone (Gone.tell stands)
    | failed error =>
      obtain ⟨unstarted, discarded, answer, refused, rfl⟩ := stands
      exact .gone ⟨unstarted, discarded, answer, error, [], refused, rfl, by simp⟩

theorem Role.Goes.started_mono {role next : Role} (goes : role.Goes marks next later news)
    (started : marks.started = true) : later.started = true := by
  cases goes <;> first | exact started | rfl

theorem OneEnd.step (one : OneEnd marks story roles lost) (others : ∀ i, i ≠ worker → after i = roles i)
    (goes : (roles worker).Goes marks (after worker) later news) :
    OneEnd later (story ++ news) after (lost ∨ (roles worker).Forgets (after worker)) := by
  have same : ∀ i, i ≠ worker → (after i).end? = (roles i).end? := fun i acting => congrArg Role.end? (others i acting)
  have started := goes.started_mono
  have kept : ∀ {P Q : Prop}, ¬ P → ¬ Q → ¬ (P ∨ Q) := fun none other => not_or.mpr ⟨none, other⟩
  -- Who has not flagged the end, before or after, leaves it to others.
  have apart : (∀ phase, (roles worker).end? = some phase → phase.isPast = false) →
      (∀ phase, (after worker).end? = some phase → phase.isPast = false) → later.shutDown = marks.shutDown →
      news.countP Happening.isEnded = 0 →
      OneEnd later (story ++ news) after (lost ∨ (roles worker).Forgets (after worker)) := by
    intro before now ended told
    have counted : (story ++ news).countP Happening.isEnded = story.countP Happening.isEnded := by
      rw [List.countP_append, told, Nat.add_zero]
    have minded : ¬ (roles worker).Forgets (after worker) := fun forgets => by
      cases before .weighing (congrArg Role.end? forgets.1)
    rw [propext (or_iff_left minded)]
    unfold OneEnd
    rw [counted, ended]
    refine one.aside same before now id (fun books => ⟨?_, ?_⟩) fun phase stands => ⟨?_, started ∘ stands.2⟩
    · rw [counted]
      exact books.alive
    · rw [counted]
      exact books.shut
    · exact stands.1
  generalize own : roles worker = role at goes apart ⊢
  generalize on : after worker = next at goes apart ⊢
  have resting : next.isAtRest = true → ∀ phase, next.end? = some phase → phase.isPast = false :=
    fun rest phase here => Role.unflagged_of_rest rest here
  cases goes with
  | rests rest | glances _ rest | leaves rest | repeats _ rest =>
    exact apart (by simp [Role.end?, EndPhase.isPast]) (resting rest) rfl rfl
  | waits | locks | finds | misses | dares | proceeds | refuses | records | marks | discards | removes =>
    exact apart (by simp [Role.end?]) (by simp [Role.end?]) rfl rfl
  | flags unended =>
    obtain ⟨nobody, books⟩ := one.of_free unended
    obtain ⟨none, minded⟩ := books.alive unended
    rw [List.append_nil]
    exact .hold same (fun i _ => nobody i) (congrArg Role.end? on) rfl rfl ⟨⟨none, kept minded (by simp [Role.Forgets])⟩, nofun⟩
  | lingers =>
    obtain ⟨ended, ⟨⟨none, minded⟩, -⟩, alone⟩ := one.own (congrArg Role.end? own) rfl
    rw [List.append_nil]
    exact .hold same alone (congrArg Role.end? on) rfl ended
      ⟨⟨none, kept minded (by simp [Role.Forgets, Role.isAtRest])⟩, nofun⟩
  | owes marked =>
    obtain ⟨ended, ⟨⟨none, minded⟩, -⟩, alone⟩ := one.own (congrArg Role.end? own) rfl
    rw [List.append_nil]
    exact .hold same alone (congrArg Role.end? on) rfl ended
      ⟨⟨none, kept minded (by simp [Role.Forgets, Role.isAtRest])⟩, fun _ => marked⟩
  | forgets rest =>
    obtain ⟨ended, ⟨⟨none, minded⟩, -⟩, alone⟩ := one.own (congrArg Role.end? own) rfl
    rw [List.append_nil]
    refine .release same alone (on ▸ resting rest) ⟨fun unended => ?_, fun _ => .inr ⟨none, .inr ⟨rfl, rest⟩⟩⟩
    cases unended.symm.trans ended
  | calls rest =>
    obtain ⟨ended, ⟨⟨none, minded⟩, -⟩, alone⟩ := one.own (congrArg Role.end? own) rfl
    refine .release same alone (on ▸ resting rest) ⟨fun unended => ?_, fun _ => .inl ⟨?_, kept minded (by simp [Role.Forgets])⟩⟩
    · cases unended.symm.trans ended
    · simp [List.countP_append, none, Happening.isEnded]

theorem OneEnd.once (one : OneEnd marks story roles lost) : story.countP Happening.isEnded ≤ 1 := by
  cases one with
  | free _ books =>
    cases ended : marks.shutDown with
    | false => rw [(books.alive ended).1]; exact Nat.zero_le 1
    | true => rcases books.shut ended with ⟨once, -⟩ | ⟨none, -⟩ <;> omega
  | held _ _ _ _ _ _ stands =>
    have none := stands.1.1
    omega

theorem course_of_fresh (name : Key) (rest : ∀ i, (roles i).isAtRest = true) :
    OneStart { name } [] roles ∧ OneEnd { name } [] roles False :=
  ⟨.free (fun i _ here => Role.unlocked_of_rest (rest i) here) (.untried ⟨rfl, rfl, rfl⟩),
    .free (fun i _ here => Role.unflagged_of_rest (rest i) here) ⟨fun _ => ⟨rfl, id⟩, fun ended => by cases ended⟩⟩

end ScopeEngine.Interleaving
