import Mathlib.Algebra.BigOperators.Group.Finset.Piecewise
import ScopeEngine.Proofs.OneShot.Runs

/-! Requests that touch an application at the same time, while its name is not registered: what holds after every step,
whichever way the steps interleave and the start hooks end. Each instance runs its course; what is added here is where the
instances are registered, and what each worker has noted of its own starts. -/

namespace ScopeEngine.Interleaving

open World

def Event.worker : Event → Nat
  | .called worker .. | .attempted worker .. | .placed worker .. | .declined worker .. | .visited worker ..
  | .closed worker .. => worker

namespace Shared

def startsBy (shared : Shared) (worker : Nat) : List (Instance × Answer) :=
  shared.log.filterMap fun
    | .called caller .applicationStart subject answer => if caller = worker then some (subject, answer) else none
    | _ => none

def resultsOf (shared : Shared) (worker : Nat) : List VisitResult :=
  shared.log.filterMap fun
    | .visited visitor _ result => if visitor = worker then some result else none
    | _ => none

variable (shared : Shared) (worker other turn : Nat)

@[simp] theorem startsBy_visited (result : VisitResult) :
    (shared.note (.visited other turn result)).startsBy worker = shared.startsBy worker := rfl

/-- What a worker notes is not among the starts and the results of another. -/
theorem others_of_own {shared after : Shared} {worker other : Nat} {events : List Event}
    (log : after.log = events ++ shared.log) (own : ∀ event ∈ events, event.worker = worker) (different : other ≠ worker) :
    after.startsBy other = shared.startsBy other ∧ after.resultsOf other = shared.resultsOf other := by
  simp only [startsBy, resultsOf, log, List.filterMap_append]
  constructor <;>
  · refine List.append_left_eq_self.mpr (List.filterMap_eq_nil_iff.mpr fun event member => ?_)
    have here := own event member
    split
    next => exact if_neg fun same => different (same.symm.trans here)
    next => rfl

theorem startsBy_called (subject : Instance) (answer : Answer) :
    (shared.note (.called other .applicationStart subject answer)).startsBy worker =
      if other = worker then (subject, answer) :: shared.startsBy worker else shared.startsBy worker := by
  simp only [startsBy, note, List.filterMap_cons]
  split <;> simp_all

theorem resultsOf_visited (result : VisitResult) :
    (shared.note (.visited other turn result)).resultsOf worker =
      if other = worker then result :: shared.resultsOf worker else shared.resultsOf worker := by
  simp only [resultsOf, note, List.filterMap_cons]
  split <;> simp_all

theorem countP_by_worker {log : List Event} {p : Event → Bool} {workers : Nat}
    (known : ∀ event ∈ log, p event = true → event.worker < workers) :
    log.countP p = ∑ worker ∈ Finset.range workers, log.countP fun event => p event && event.worker == worker := by
  induction log with
  | nil => simp
  | cons event rest ih =>
    have here : (if p event = true then 1 else 0) =
        ∑ worker ∈ Finset.range workers, if (p event && event.worker == worker) = true then 1 else 0 := by
      cases counts : p event with
      | false => simp
      | true => simp [known event (by simp) counts]
    simp only [List.countP_cons, Finset.sum_add_distrib, ← here]
    rw [ih fun event member => known event (List.mem_cons_of_mem _ member)]

def isStart (p : Instance × Answer → Bool) : Event → Bool
  | .called _ .applicationStart subject answer => p (subject, answer)
  | _ => false

theorem countP_startsBy (p : Instance × Answer → Bool) :
    (shared.startsBy worker).countP p = shared.log.countP fun event => isStart p event && event.worker == worker := by
  rw [startsBy, List.countP_filterMap]
  refine List.countP_congr fun event _ => ?_
  cases event with
  | called caller hook subject answer =>
    cases hook <;> by_cases same : caller = worker <;> simp [isStart, Event.worker, same]
  | _ => simp [isStart]

def isResult (p : VisitResult → Bool) : Event → Bool
  | .visited _ _ result => p result
  | _ => false

theorem countP_resultsOf (p : VisitResult → Bool) : (shared.resultsOf worker).countP p =
      shared.log.countP fun event => isResult p event && event.worker == worker := by
  rw [resultsOf, List.countP_filterMap]
  refine List.countP_congr fun event _ => ?_
  cases event with
  | visited visitor turn result => by_cases same : visitor = worker <;> simp [isResult, Event.worker, same]
  | _ => simp [isResult]

end Shared

theorem Machine.mem_visitResults {m : Machine} {result : VisitResult} :
    result ∈ m.visitResults ↔ ∃ worker, result ∈ m.shared.resultsOf worker := by
  simp only [visitResults, Shared.resultsOf, List.mem_filterMap, List.mem_reverse]
  constructor
  · rintro ⟨event, member, given⟩
    cases event with
    | visited worker turn ended => exact ⟨worker, _, member, by simpa using given⟩
    | _ => cases given
  · rintro ⟨worker, event, member, given⟩
    cases event with
    | visited visitor turn ended =>
      refine ⟨_, member, ?_⟩
      by_cases same : visitor = worker <;> simp_all
    | _ => cases given

theorem Machine.countP_visitResults (m : Machine) (p : VisitResult → Bool) :
    m.visitResults.countP p = m.shared.log.countP (Shared.isResult p) := by
  rw [visitResults, List.countP_filterMap, List.countP_reverse]
  refine List.countP_congr fun event _ => ?_
  cases event <;> simp [Shared.isResult]

/-- Whoever is not ending the instance keeps its name and its end, and whoever discards it goes on to take it out of its
place. -/
theorem Role.Goes.lasts {role next : Role} {marks later : Marks} {news : List Happening}
    (goes : role.Goes marks next later news) (other : ∀ phase, role ≠ .ending phase) :
    later.name = marks.name ∧ later.shutDown = marks.shutDown ∧
      (later.discarded = marks.discarded ∨ later.discarded = true ∧ ∃ cause, next = .starting (.removing cause)) := by
  cases goes with
  | flags => exact absurd rfl (other _)
  | discards => exact ⟨rfl, rfl, .inr ⟨rfl, _, rfl⟩⟩
  | _ => exact ⟨rfl, rfl, .inl rfl⟩

/-- A start that proceeded is not discarded. -/
theorem OneStart.there {marks : Marks} {story : List Happening} {roles : Nat → Role} (one : OneStart marks story roles)
    (started : marks.started = true) : marks.discarded = false := by
  have settled : ∀ {started discarded : Bool} {story : List Happening}, Settled started discarded story →
      started = true → discarded = false := by
    rintro _ _ _ (untried | running | gone) on
    · exact untried.there
    · exact running.there
    · cases gone.unstarted.symm.trans on
  cases one with
  | free _ free => exact settled free started
  | held _ phase _ locked _ _ stands =>
    cases phase with
    | glancing | waiting => cases locked
    | inspecting => exact settled stands started
    | calling => exact Untried.there stands
    | recording | marking | discarding | removing => cases (Answered.unstarted stands).symm.trans started
    | leaving result =>
      cases result with
      | started => exact Running.there stands
      | gone => cases (Gone.unstarted stands).symm.trans started
      | failed error => cases (Answered.unstarted stands).symm.trans started

/-- The only step of a start that changes where applications are registered is the one that takes the instance out. -/
theorem StartPhase.Goes.registry {scenario : Scenario} {worker : Nat} {a : ApplicationId} {shared after : Shared}
    {phase : StartPhase} {progress : Progress StartPhase StartResult}
    (goes : phase.Goes scenario worker (.application a) shared progress after) :
    after.world.applications.size = shared.world.applications.size ∧
      (after.world.registry = shared.world.registry ∧ (∀ cause, phase ≠ .removing cause) ∨
        ∃ cause, phase = .removing cause ∧ after.world.registry = (shared.world.unregister a).2.registry) := by
  cases goes with
  | removes => exact ⟨congrArg Table.size unregister_applications, .inr ⟨_, rfl, rfl⟩⟩
  | glances | waits | finds | misses | dares | proceeds | refuses => exact ⟨rfl, .inl ⟨rfl, by simp⟩⟩
  | locks | records | marks | discards | leaves => exact ⟨Table.size_set .., .inl ⟨rfl, by simp⟩⟩

namespace FirstTouch

variable (before : World) (name : Key)

variable {w later : World} {a : ApplicationId} {m next : Machine} {worker : Nat}

def Recent (w : World) (a : ApplicationId) : Prop :=
  before.applications.size ≤ a.number ∧ a.number < w.applications.size

/-- The instances made since `before`. One that is not discarded is the one registered under the name. -/
structure Rooted (w : World) : Prop where
  grown : before.applications.size ≤ w.applications.size
  named : ∀ a, Recent before w a → ((w.marks a).name == name) = true
  running : ∀ a, Recent before w a → (w.marks a).shutDown = false
  current : ∀ a, Recent before w a → (w.marks a).discarded = false → w.registry.find? name = some a
  recent : ∀ a, w.registry.find? name = some a → Recent before w a
  single : w.registry.Single name
  spared : ∀ a, a.number < before.applications.size → (w.marks a).discarded = (before.marks a).discarded
  others : ∀ key, (key == name) = false → w.registry.find? key = before.registry.find? key

def Refused (starts : List (Instance × Answer)) (a : ApplicationId) (cause : Error) : Prop :=
  ∃ answer, starts = [(.application a, answer)] ∧ answer.refusal .applicationStart = some cause

def Proceeded (starts : List (Instance × Answer)) (a : ApplicationId) : Prop :=
  starts = [] ∨ starts = [(.application a, .proceed)]

/-- Which start hooks a worker ran by the time it is in a phase of a start. -/
def Underway (w : World) (starts : List (Instance × Answer)) (a : ApplicationId) : StartPhase → Prop
  | .glancing | .waiting | .inspecting | .calling | .leaving .gone => starts = []
  | .recording | .marking => starts = [(.application a, .proceed)]
  | .discarding cause | .removing cause => Refused starts a cause
  | .leaving .started => Proceeded starts a
  | .leaving (.failed error) => ∃ cause, Refused starts a cause ∧
      error = .startFailed .applicationStart (w.marks a).name.name cause

/-- What holds of the answer that a worker got. -/
def Answered (w : World) (starts : List (Instance × Answer)) : VisitResult → Prop
  | .served application _ => ∃ a, application = some a ∧ Recent before w a ∧ (w.marks a).started = true ∧
      Proceeded starts a
  | .failed error => ∃ a cause, Recent before w a ∧ Refused starts a cause ∧
      error = .startFailed .applicationStart (w.marks a).name.name cause

def Bound (visit : Visit) : Prop :=
  visit.settings.hasApplication = true ∧ (visit.settings.applicationKey == name) = true

/-- Where a worker stands that has to touch the application once. -/
inductive Stand (w : World) (starts : List (Instance × Answer)) : List VisitResult → List Task → Prop where
  | waiting {visit : Visit} (bound : Bound name visit) (phase : visit.phase = .ready)
      (errands : visit.errands = [.touchApplication]) (fresh : visit.application = none) (idle : starts = []) :
      Stand w starts [] [.visit visit]
  | seeking {visit : Visit} (bound : Bound name visit) (phase : visit.phase = .seeking) (errands : visit.errands = [])
      (idle : starts = []) : Stand w starts [] [.visit visit]
  | weighing {visit : Visit} {a : ApplicationId} (bound : Bound name visit) (phase : visit.phase = .weighing a)
      (errands : visit.errands = []) (recent : Recent before w a) (idle : starts = []) : Stand w starts [] [.visit visit]
  | starting {visit : Visit} {a : ApplicationId} {phase : StartPhase} (bound : Bound name visit)
      (at_ : visit.phase = .starting (.application a) phase) (errands : visit.errands = [])
      (holds : visit.application = some a) (recent : Recent before w a) (underway : Underway w starts a phase) :
      Stand w starts [] [.visit visit]
  | served {visit : Visit} (phase : visit.phase = .ready) (errands : visit.errands = [])
      (answered : Answered before w starts (.served visit.application visit.session)) : Stand w starts [] [.visit visit]
  | departed {result : VisitResult} (answered : Answered before w starts result) : Stand w starts [result] []

def Fits (w : World) (workers : Nat) : Event → Prop
  | .called worker hook subject _ =>
    worker < workers ∧ hook = .applicationStart ∧ ∃ a, subject = .application a ∧ Recent before w a
  | .attempted _ subject _ => ∃ a, subject = .application a ∧ Recent before w a
  | .visited worker _ _ => worker < workers
  | .placed .. | .declined .. | .closed .. => False

/-- What every step of the touches keeps. -/
structure Touching (m : Machine) : Prop where
  rooted : Rooted before name m.shared.world
  stands : ∀ (worker : Nat) tasks, m.workers[worker]? = some tasks →
    Stand before name m.shared.world (m.shared.startsBy worker) (m.shared.resultsOf worker) tasks
  courses : ∀ a, Recent before m.shared.world a → m.Courses (.application a)
  removed : ∀ a, m.shared.world.registry.find? name = some a → (m.shared.world.marks a).discarded = true →
    ∃ worker cause, m.role (.application a) worker = .starting (.removing cause)
  told : ∀ event ∈ m.shared.log, Fits before m.shared.world m.workers.size event

def Notes (m : Machine) (worker : Nat) (after : Shared) : Prop :=
  ∃ events, after.log = events ++ m.shared.log ∧
    ∀ event ∈ events, event.worker = worker ∧ Fits before after.world m.workers.size event

structure Lasts (m : Machine) (worker : Nat) (next : Machine) (a : ApplicationId) : Prop where
  there : a.number < next.shared.world.applications.size
  name : (next.shared.world.marks a).name = (m.shared.world.marks a).name
  shutDown : (next.shared.world.marks a).shutDown = (m.shared.world.marks a).shutDown
  started : (m.shared.world.marks a).started = true → (next.shared.world.marks a).started = true
  discarded : (next.shared.world.marks a).discarded = (m.shared.world.marks a).discarded ∨
    (next.shared.world.marks a).discarded = true ∧ ∃ cause, next.role (.application a) worker = .starting (.removing cause)

variable {before name}

theorem Recent.grow (recent : Recent before w a) (grown : w.applications.size ≤ later.applications.size) :
    Recent before later a :=
  ⟨recent.1, Nat.lt_of_lt_of_le recent.2 grown⟩

theorem Rooted.step (rooted : Rooted before name m.shared.world)
    (lasts : ∀ a, a.number < m.shared.world.applications.size → Lasts m worker next a)
    (spared : ∀ a, a.number < before.applications.size →
      (next.shared.world.marks a).discarded = (m.shared.world.marks a).discarded)
    (grown : m.shared.world.applications.size ≤ next.shared.world.applications.size)
    (fresh : ∀ a, Recent before next.shared.world a → Recent before m.shared.world a ∨
      ((next.shared.world.marks a).name == name) = true ∧ (next.shared.world.marks a).shutDown = false ∧
        next.shared.world.registry.find? name = some a)
    (kept : ∀ a, Recent before m.shared.world a → (m.shared.world.marks a).discarded = false →
      m.shared.world.registry.find? name = some a → next.shared.world.registry.find? name = some a)
    (found : ∀ a, next.shared.world.registry.find? name = some a →
      m.shared.world.registry.find? name = some a ∨ Recent before next.shared.world a)
    (single : next.shared.world.registry.Single name)
    (others : ∀ key, (key == name) = false → next.shared.world.registry.find? key = m.shared.world.registry.find? key) :
    Rooted before name next.shared.world where
  grown := Nat.le_trans rooted.grown grown
  named := by
    intro a recent
    rcases fresh a recent with old | ⟨named, -, -⟩
    · rw [(lasts a old.2).name]
      exact rooted.named a old
    · exact named
  running := by
    intro a recent
    rcases fresh a recent with old | ⟨-, running, -⟩
    · rw [(lasts a old.2).shutDown]
      exact rooted.running a old
    · exact running
  current := by
    intro a recent live
    rcases fresh a recent with old | ⟨-, -, registered⟩
    · have before : (m.shared.world.marks a).discarded = false := by
        rcases (lasts a old.2).discarded with same | ⟨gone, -⟩
        · exact same.symm.trans live
        · cases gone.symm.trans live
      exact kept a old before (rooted.current a old before)
    · exact registered
  recent := fun a registered => (found a registered).elim (fun old => (rooted.recent a old).grow grown) id
  single := single
  spared := fun a old => (spared a old).trans (rooted.spared a old)
  others := fun key different => (others key different).trans (rooted.others key different)

section

variable {starts : List (Instance × Answer)} {results : List VisitResult} {tasks : List Task}
include starts

theorem Stand.role (stand : Stand before name w starts results tasks) (has : m.workers[worker]? = some tasks) (b : ApplicationId) :
    m.role (.application b) worker = .absent ∨
      Recent before w b ∧ ∃ phase, m.role (.application b) worker = .starting phase := by
  cases stand with
  | waiting _ phase | seeking _ phase | weighing _ phase | served phase =>
    left
    rw [Machine.role, Machine.stage_of_tasks has, Task.stage, phase]
    rfl
  | @starting visit a phase _ at_ _ _ recent =>
    rw [Machine.role, Machine.stage_of_tasks has, Task.stage, at_]
    by_cases same : a = b
    · subst same
      exact .inr ⟨recent, phase, by simp [Stage.role, Instance.isSame]⟩
    · exact .inl (by simp [Stage.role, Instance.isSame, same])
  | departed =>
    left
    rw [Machine.role, Machine.stage_of_none has]
    rfl

theorem Stand.lasts (stand : Stand before name m.shared.world starts results tasks)
    (lasts : ∀ a, a.number < m.shared.world.applications.size → Lasts m worker next a) :
    Stand before name next.shared.world starts results tasks := by
  have grows : ∀ {a}, Recent before m.shared.world a → Recent before next.shared.world a := fun recent =>
    ⟨recent.1, (lasts _ recent.2).there⟩
  have answers : ∀ result, Answered before m.shared.world starts result → Answered before next.shared.world starts result := by
    intro result answered
    cases result with
    | served application session =>
      obtain ⟨a, same, recent, started, proceeded⟩ := answered
      exact ⟨a, same, grows recent, (lasts a recent.2).started started, proceeded⟩
    | failed error =>
      obtain ⟨a, cause, recent, refused, told⟩ := answered
      exact ⟨a, cause, grows recent, refused, by rw [(lasts a recent.2).name]; exact told⟩
  cases stand with
  | waiting bound phase errands fresh idle => exact .waiting bound phase errands fresh idle
  | seeking bound phase errands idle => exact .seeking bound phase errands idle
  | weighing bound phase errands recent idle => exact .weighing bound phase errands (grows recent) idle
  | @starting visit a phase bound at_ errands holds recent underway =>
    refine .starting bound at_ errands holds (grows recent) ?_
    unfold Underway at underway ⊢
    rw [(lasts a recent.2).name]
    exact underway
  | served phase errands answered => exact .served phase errands (answers _ answered)
  | departed answered => exact .departed (answers _ answered)

end

theorem waits_of_stands (stands : ∀ (worker : Nat) tasks, m.workers[worker]? = some tasks →
    Stand before name m.shared.world (m.shared.startsBy worker) (m.shared.resultsOf worker) tasks) (x : Instance) :
    m.Waits x := by
  intro worker task tasks has other member
  have stand := stands worker _ has
  generalize m.shared.resultsOf worker = results at stand
  cases stand <;> cases member

theorem Fits.grow {workers : Nat} {event : Event} (fits : Fits before w workers event)
    (grown : w.applications.size ≤ later.applications.size) : Fits before later workers event := by
  cases event with
  | called _ _ subject _ =>
    obtain ⟨known, start, a, is, recent⟩ := fits
    exact ⟨known, start, a, is, recent.grow grown⟩
  | attempted _ subject _ =>
    obtain ⟨a, is, recent⟩ := fits
    exact ⟨a, is, recent.grow grown⟩
  | _ => exact fits

namespace Touching

variable {task : Task} {tasks left : List Task} (touching : Touching before name m)
include touching

theorem role (worker : Nat) (b : ApplicationId) : m.role (.application b) worker = .absent ∨
    Recent before m.shared.world b ∧ ∃ phase, m.role (.application b) worker = .starting phase := by
  cases has : m.workers[worker]? with
  | none =>
    left
    simp [Machine.role, Machine.stage, has, Stage.role]
  | some tasks => exact (touching.stands worker tasks has).role has b

theorem lasts (step : m.step worker = some next) (a : ApplicationId) (there : a.number < m.shared.world.applications.size) :
    Lasts m worker next a := by
  obtain ⟨acts, -, -⟩ := (waits_of_stands touching.stands (.application a)).acts step
  obtain ⟨still, news, -, goes⟩ := acts there
  have other : ∀ phase, m.role (.application a) worker ≠ .ending phase := by
    intro phase is
    rcases touching.role worker a with absent | ⟨-, first, starting⟩
    · cases absent.symm.trans is
    · cases starting.symm.trans is
  obtain ⟨name, shutDown, discarded⟩ := goes.lasts other
  exact ⟨still, name, shutDown, goes.started_mono, discarded⟩

theorem marks_of_absent (step : m.step worker = some next) (there : a.number < m.shared.world.applications.size)
    (absent : m.role (.application a) worker = .absent) : next.shared.world.marks a = m.shared.world.marks a := by
  obtain ⟨acts, -, -⟩ := (waits_of_stands touching.stands (.application a)).acts step
  obtain ⟨-, news, -, goes⟩ := acts there
  rw [absent] at goes
  generalize same : (Instance.application a).marks next.shared.world = marks at goes
  cases goes
  exact same

/-- Nothing is told of an instance that is not made yet. -/
theorem untold (unissued : ¬ a.number < m.shared.world.applications.size) : m.shared.story (.application a) = [] := by
  have apart : ∀ subject : Instance, (∃ b, subject = .application b ∧ Recent before m.shared.world b) →
      subject.isSame (.application a) = false := by
    rintro _ ⟨b, rfl, recent⟩
    refine beq_false_of_ne fun same => unissued ?_
    rw [← same]
    exact recent.2
  refine List.filterMap_eq_nil_iff.mpr fun event member => ?_
  have fits := touching.told event (List.mem_reverse.mp member)
  cases event with
  | called _ _ subject _ => simp [Event.about, apart subject fits.2.2]
  | attempted _ subject _ => simp [Event.about, apart subject fits]
  | _ => rfl

/-- A step keeps the invariant if the worker stands right after it, notes only events of its own, and accounts for what it
registers and creates. -/
theorem advance (step : m.step worker = some next) (stepped : m.Stepped worker next task tasks left)
    (rooted : Rooted before name next.shared.world)
    (mine : Stand before name next.shared.world (next.shared.startsBy worker) (next.shared.resultsOf worker) (left ++ tasks))
    (news : Notes before m worker next.shared)
    (created : ∀ a, Recent before next.shared.world a → ¬ a.number < m.shared.world.applications.size →
      next.shared.log = m.shared.log ∧ (next.role (.application a) worker).isAtRest = true ∧
        ∃ key, next.shared.world.marks a = { name := key })
    (registered : ∀ a, a.number < m.shared.world.applications.size → next.shared.world.registry.find? name = some a →
      m.shared.world.registry.find? name = some a ∧ ∀ cause, m.role (.application a) worker ≠ .starting (.removing cause)) :
    Touching before name next := by
  have lasts := touching.lasts step
  obtain ⟨events, log, own⟩ := news
  have grown : m.shared.world.applications.size ≤ next.shared.world.applications.size :=
    Nat.le_of_not_lt fun less => Nat.lt_irrefl _ (lasts ⟨next.shared.world.applications.size⟩ less).there
  have others : ∀ x other, other ≠ worker → next.role x other = m.role x other := by
    intro x other different
    simp only [Machine.role, Machine.stage, stepped.others other different]
  have stands : ∀ (other : Nat) tasks, next.workers[other]? = some tasks →
      Stand before name next.shared.world (next.shared.startsBy other) (next.shared.resultsOf other) tasks := by
    intro other theirs has
    by_cases same : other = worker
    · subst other
      cases stepped.has.symm.trans has
      exact mine
    · rw [stepped.others other same] at has
      obtain ⟨starts, results⟩ := Shared.others_of_own log (fun event member => (own event member).1) same
      rw [starts, results]
      exact (touching.stands other theirs has).lasts lasts
  exact {
    rooted
    stands
    courses := by
      intro a recent
      by_cases old : a.number < m.shared.world.applications.size
      · exact (touching.courses a ⟨recent.1, old⟩).step step
      · obtain ⟨silent, rest, key, marks⟩ := created a recent old
        have roles : ∀ other, (next.role (.application a) other).isAtRest = true := by
          intro other
          by_cases same : other = worker
          · subst other
            exact rest
          · rw [others _ other same]
            rcases touching.role other a with absent | ⟨⟨-, there⟩, -⟩
            · rw [absent]
              rfl
            · exact absurd there old
        obtain ⟨starts, ends⟩ := course_of_fresh key roles
        have untold : next.shared.story (.application a) = [] := by
          rw [Shared.story, silent]
          exact touching.untold old
        rw [← marks, ← untold] at starts ends
        exact ⟨waits_of_stands stands _, False, recent.2, starts, ends⟩
    removed := by
      intro a found gone
      by_cases old : a.number < m.shared.world.applications.size
      · obtain ⟨found, staying⟩ := registered a old found
        rcases (lasts a old).discarded with same | ⟨-, removing⟩
        · obtain ⟨other, cause, removing⟩ := touching.removed a found (same.symm.trans gone)
          refine ⟨other, cause, (others _ other ?_).trans removing⟩
          rintro rfl
          exact staying cause removing
        · exact ⟨worker, removing⟩
      · obtain ⟨-, -, key, marks⟩ := created a (rooted.recent a found) old
        rw [marks] at gone
        cases gone
    told := by
      intro event member
      rw [log, List.mem_append] at member
      rw [stepped.size]
      exact member.elim (fun new => (own event new).2) fun old => (touching.told event old).grow grown }

end Touching

end FirstTouch

end ScopeEngine.Interleaving
