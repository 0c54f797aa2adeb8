import ScopeEngine.Proofs.FirstTouch.Invariant

/-! The steps of a touch keep what holds while requests touch an application for the first time. -/

namespace ScopeEngine.Interleaving.FirstTouch

open World

variable {before : World} {name : Key} {m next : Machine} {worker : Nat} {left : List Task} {visit : Visit}
  {a : ApplicationId} {phase : StartPhase} {scenario : Scenario} {shared after : Shared}

/-- How a request goes on with a step of an attempt. -/
inductive Goes (scenario : Scenario) (worker : Nat) (visit : Visit) (a : ApplicationId) (phase : StartPhase)
    (shared : Shared) : List Task → Shared → Prop
  | more {later : StartPhase} {after : Shared}
      (goes : phase.Goes scenario worker (.application a) shared (.more later) after) :
      Goes scenario worker visit a phase shared [.visit { visit with phase := .starting (.application a) later }] after
  | started {after : Shared} (goes : phase.Goes scenario worker (.application a) shared (.done .started) after) :
      Goes scenario worker visit a phase shared [.visit { visit with phase := .ready }] after
  | gone {after : Shared} (goes : phase.Goes scenario worker (.application a) shared (.done .gone) after) :
      Goes scenario worker visit a phase shared [.visit { visit with application := none, phase := .seeking }] after
  | failed {error : Error} {after : Shared}
      (goes : phase.Goes scenario worker (.application a) shared (.done (.failed error)) after) :
      Goes scenario worker visit a phase shared [] (after.note (.visited worker visit.turn (.failed error)))

theorem goes_of_step (at_ : visit.phase = .starting (.application a) phase)
    (did : Task.step scenario worker shared (.visit visit) = some (left, after)) :
    Goes scenario worker visit a phase shared left after := by
  simp only [Task.step, Visit.step, at_] at did
  cases made : phase.step scenario worker (.application a) shared with
  | none => simp [made] at did
  | some result =>
    obtain ⟨progress, middle⟩ := result
    have goes := StartPhase.goes_of_step made
    cases progress with
    | more later =>
      simp only [made] at did
      cases did
      exact .more goes
    | done result =>
      cases result <;> simp only [made, Visit.afterStart, Visit.finish] at did <;> cases did
      · exact .started goes
      · exact .gone goes
      · exact .failed goes

/-- What an attempt notes of itself. -/
theorem Goes.notes {workers : Nat} (goes : Goes scenario worker visit a phase shared left after)
    (recent : Recent before shared.world a) (known : worker < workers) : ∃ events, after.log = events ++ shared.log ∧
      ∀ event ∈ events, event.worker = worker ∧ Fits before shared.world workers event := by
  have starts : ∀ {progress after}, phase.Goes scenario worker (.application a) shared progress after →
      ∃ events, after.log = events ++ shared.log ∧
        ∀ event ∈ events, event.worker = worker ∧ Fits before shared.world workers event := by
    intro progress after goes
    cases goes with
    | glances | leaves => exact ⟨[_], rfl, by simpa [Event.worker, Fits] using recent⟩
    | proceeds | refuses => exact ⟨[_], rfl, by simpa [Event.worker, Fits, Instance.startHook] using ⟨known, recent⟩⟩
    | _ => exact ⟨[], rfl, by simp⟩
  cases goes with
  | more goes | started goes | gone goes => exact starts goes
  | failed goes =>
    obtain ⟨events, log, own⟩ := starts goes
    exact ⟨_ :: events, congrArg (_ :: ·) log, by simpa [Event.worker, Fits, known] using own⟩

theorem Goes.start (goes : Goes scenario worker visit a phase shared left after) : ∃ progress middle,
    phase.Goes scenario worker (.application a) shared progress middle ∧ middle.world = after.world := by
  cases goes with
  | more goes | started goes | gone goes | failed goes => exact ⟨_, _, goes, rfl⟩

/-- A phase of an attempt leads to one in which the starts of the worker are as they have to be. -/
theorem Underway.onward {later : StartPhase} (goes : phase.Goes scenario worker (.application a) shared (.more later) after)
    (underway : Underway shared.world (shared.startsBy worker) a phase)
    (named : (after.world.marks a).name = (shared.world.marks a).name) :
    Underway after.world (after.startsBy worker) a later := by
  cases goes with
  | waits | locks | misses | dares | records | discards => exact underway
  | finds => exact .inl underway
  | marks => exact .inr underway
  | proceeds =>
    have idle : shared.startsBy worker = [] := underway
    exact (Shared.startsBy_called ..).trans (by rw [if_pos rfl, idle])
  | @refuses answer cause refusal =>
    have idle : shared.startsBy worker = [] := underway
    exact ⟨answer, (Shared.startsBy_called ..).trans (by rw [if_pos rfl, idle]), refusal⟩
  | @removes cause => exact ⟨cause, underway, by rw [named]; rfl⟩

theorem Underway.last {result : StartResult} (goes : phase.Goes scenario worker (.application a) shared (.done result) after)
    (underway : Underway shared.world (shared.startsBy worker) a phase) :
    Underway shared.world (shared.startsBy worker) a (.leaving result) ∧
      after.startsBy worker = shared.startsBy worker ∧ after.resultsOf worker = shared.resultsOf worker := by
  cases goes with
  | glances => exact ⟨.inl underway, rfl, rfl⟩
  | leaves => exact ⟨underway, rfl, rfl⟩

namespace Touching

variable {task : Task} {tasks : List Task} (touching : Touching before name m) (step : m.step worker = some next)
include touching step

theorem spared (a : ApplicationId) (old : a.number < before.applications.size) :
    (next.shared.world.marks a).discarded = (m.shared.world.marks a).discarded := by
  have there := Nat.lt_of_lt_of_le old touching.rooted.grown
  rcases touching.role worker a with absent | ⟨recent, -⟩
  · rw [touching.marks_of_absent step there absent]
  · exact absurd old (Nat.not_lt_of_le recent.1)

variable (stepped : m.Stepped worker next task tasks left)
include stepped

/-- A step that neither creates an instance nor changes what is registered. -/
theorem level (size : next.shared.world.applications.size = m.shared.world.applications.size)
    (registry : next.shared.world.registry = m.shared.world.registry)
    (staying : ∀ a cause, m.role (.application a) worker ≠ .starting (.removing cause))
    (mine : Stand before name next.shared.world (next.shared.startsBy worker) (next.shared.resultsOf worker) (left ++ tasks))
    (news : Notes before m worker next.shared) : Touching before name next := by
  have rooted := touching.rooted
  refine touching.advance step stepped ?_ mine news ?_ ?_
  · refine rooted.step (touching.lasts step) (touching.spared step) (Nat.le_of_eq size.symm) ?_ ?_ ?_ ?_ ?_
    · exact fun a recent => .inl ⟨recent.1, size ▸ recent.2⟩
    · exact fun a _ _ found => registry ▸ found
    · exact fun a found => .inl (registry ▸ found)
    · exact registry ▸ rooted.single
    · exact fun key _ => by rw [registry]
  · exact fun a recent old => absurd (size ▸ recent.2) old
  · exact fun a _ found => ⟨registry ▸ found, staying a⟩

end Touching

/-- Unregistering an instance leaves the name to whoever took its place. -/
theorem Rooted.unregister {w : World} (rooted : Rooted before name w) (recent : Recent before w a) :
    (∀ b, (w.unregister a).2.registry.find? name = some b ↔ w.registry.find? name = some b ∧ b ≠ a) ∧
      (w.unregister a).2.registry.Single name ∧
      ∀ key, (key == name) = false → (w.unregister a).2.registry.find? key = w.registry.find? key := by
  have named : ((w.application a).name == name) = true := rooted.named a recent
  by_cases found : w.registry.find? (w.application a).name = some a
  · rw [unregister_registered found]
    refine ⟨?_, rooted.single.erase _, ?_⟩
    · intro b
      rw [← Bindings.find?_congr _ named, ← Bindings.find?_congr _ named, found,
        (rooted.single.congr (BEq.symm named)).find?_erase]
      simp only [reduceCtorEq, Option.some.injEq, false_iff, not_and]
      exact fun same different => different same.symm
    · intro key different
      refine Bindings.find?_erase_of_ne _ ?_
      rwa [BEq.comm, BEq.congr_right named]
  · rw [unregister_replaced found]
    refine ⟨fun b => ⟨fun there => ⟨there, ?_⟩, And.left⟩, rooted.single, fun _ _ => rfl⟩
    rintro rfl
    exact found ((Bindings.find?_congr _ named).trans there)

/-- A worker that is having the application started. -/
structure Attempt (before : World) (name : Key) (m : Machine) (worker : Nat) (visit : Visit) (a : ApplicationId)
    (phase : StartPhase) : Prop where
  had : m.workers[worker]? = some [.visit visit]
  bound : Bound name visit
  at_ : visit.phase = .starting (.application a) phase
  errands : visit.errands = []
  holds : visit.application = some a
  recent : Recent before m.shared.world a
  open_ : m.shared.resultsOf worker = []
  underway : Underway m.shared.world (m.shared.startsBy worker) a phase

namespace Attempt

variable (attempt : Attempt before name m worker visit a phase)
include attempt

theorem role (b : ApplicationId) : m.role (.application b) worker = if a = b then .starting phase else .absent := by
  rw [Machine.role, Machine.stage_of_tasks attempt.had, Task.stage, attempt.at_]
  simp [Stage.role, Instance.isSame]

variable (touching : Touching before name m)
include touching

/-- Whoever has a part in the start knows how it stands. -/
theorem stands (locked : phase.isLocked = true) :
    phase.Stands (m.shared.world.marks a).started (m.shared.world.marks a).discarded (m.shared.story (.application a)) := by
  obtain ⟨lost, course⟩ := (touching.courses a attempt.recent).course
  have own : (m.role (.application a) worker).start? = some phase := by
    rw [attempt.role, if_pos rfl]
    rfl
  exact (course.starts.own own locked).2.1

theorem stand (lasts : Lasts m worker next a) (goes : Goes m.scenario worker visit a phase m.shared left next.shared) :
    Stand before name next.shared.world (next.shared.startsBy worker) (next.shared.resultsOf worker) left := by
  have recent : Recent before next.shared.world a := ⟨attempt.recent.1, lasts.there⟩
  have results : ∀ {progress after}, phase.Goes m.scenario worker (.application a) m.shared progress after →
      after.resultsOf worker = [] := by
    intro progress after goes
    rw [← attempt.open_]
    cases goes <;> rfl
  have named := lasts.name
  have on := lasts.started
  generalize next.shared = after at goes recent named on ⊢
  cases goes with
  | more goes =>
    rw [results goes]
    exact .starting attempt.bound rfl attempt.errands attempt.holds recent (attempt.underway.onward goes named)
  | started goes =>
    have started : (m.shared.world.marks a).started = true := by
      cases goes with
      | glances started => exact started
      | leaves => exact Running.started (attempt.stands touching rfl)
    obtain ⟨underway, starts, -⟩ := attempt.underway.last goes
    rw [results goes, starts]
    exact .served rfl attempt.errands ⟨a, attempt.holds, recent, on started, underway⟩
  | gone goes =>
    obtain ⟨underway, starts, -⟩ := attempt.underway.last goes
    rw [results goes, starts]
    exact .seeking attempt.bound rfl attempt.errands underway
  | @failed error after goes =>
    obtain ⟨⟨cause, refused, told⟩, starts, -⟩ := attempt.underway.last goes
    rw [Shared.resultsOf_visited, if_pos rfl, results goes, Shared.startsBy_visited, starts]
    refine .departed ⟨a, cause, recent, refused, ?_⟩
    rw [named]
    exact told

end Attempt

theorem Touching.attempt (touching : Touching before name m) (step : m.step worker = some next)
    (stepped : m.Stepped worker next (.visit visit) [] left) (attempt : Attempt before name m worker visit a phase) :
    Touching before name next := by
  have rooted := touching.rooted
  have goes := goes_of_step attempt.at_ stepped.did
  have lasts := touching.lasts step
  have mine := attempt.stand touching (lasts a attempt.recent.2) goes
  rw [← List.append_nil left] at mine
  obtain ⟨_, _, start, world⟩ := goes.start
  obtain ⟨size, registry⟩ := world ▸ start.registry
  have news : Notes before m worker next.shared := by
    obtain ⟨events, log, own⟩ := goes.notes attempt.recent (Array.getElem?_eq_some_iff.mp stepped.had).1
    exact ⟨events, log, fun event member => ⟨(own event member).1, (own event member).2.grow (Nat.le_of_eq size.symm)⟩⟩
  rcases registry with ⟨same, staying⟩ | ⟨cause, rfl, same⟩
  · refine touching.level step stepped size same (fun b cause removing => ?_) mine news
    rw [attempt.role] at removing
    split at removing <;> cases removing
    exact staying cause rfl
  · -- The instance is discarded, so that it is not the one that counts.
    have gone : (m.shared.world.marks a).discarded = true := Answered.discarded (attempt.stands touching rfl)
    obtain ⟨registry, single, others⟩ := rooted.unregister attempt.recent
    rw [← same] at registry single others
    refine touching.advance step stepped ?_ mine news (fun b recent old => absurd (size ▸ recent.2) old) ?_
    · refine rooted.step lasts (touching.spared step) (Nat.le_of_eq size.symm) ?_ ?_ ?_ single others
      · exact fun b recent => .inl ⟨recent.1, size ▸ recent.2⟩
      · intro b _ live found
        refine (registry b).mpr ⟨found, ?_⟩
        rintro rfl
        cases gone.symm.trans live
      · exact fun b found => .inl ((registry b).mp found).1
    · intro b _ found
      obtain ⟨found, different⟩ := (registry b).mp found
      refine ⟨found, fun cause removing => ?_⟩
      rw [attempt.role, if_neg (Ne.symm different)] at removing
      cases removing

end ScopeEngine.Interleaving.FirstTouch
