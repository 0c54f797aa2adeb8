import ScopeEngine.Proofs.FirstTouch.Attempts

/-! Requests that touch an application at the same time, while its name is not registered. Once all have their answers,
those that are served share one started instance, and every other one ran a start hook of its own that failed. -/

namespace ScopeEngine.Interleaving

def Machine.isExpiring (m : Machine) : Bool :=
  m.workers.any fun
    | .visit visit :: _ => match visit.phase with
      | .expiring _ => true
      | _ => false
    | _ => false

def Machine.visiting (scenario : Scenario) (world : World) (visits : List Visit) : Machine :=
  { scenario, shared := { world }, workers := (visits.map fun visit => [Task.visit visit]).toArray }

def VisitResult.isFailure : VisitResult → Bool
  | .served _ _ => false
  | .failed _ => true

theorem Machine.isExpiring_of_phase {m : Machine} {worker : Nat} {visit : Visit} {tasks : List Task}
    {a : ApplicationId} (has : m.workers[worker]? = some (.visit visit :: tasks)) (phase : visit.phase = .expiring a) :
    m.isExpiring = true := by
  refine Array.any_eq_true'.mpr ⟨_, Array.mem_of_getElem? has, ?_⟩
  simp [phase]

namespace FirstTouch

variable {before : World} {name : Key} {m next : Machine} {worker : Nat} {left : List Task} {visit : Visit}
  {a : ApplicationId}

section Steps

variable (touching : Touching before name m) (step : m.step worker = some next)
  (stepped : m.Stepped worker next (.visit visit) [] left)
include touching step stepped

/-- A step outside an attempt that neither creates an instance nor changes what is registered. -/
theorem Touching.aside (idle : (Task.visit visit).stage = .idle)
    (size : next.shared.world.applications.size = m.shared.world.applications.size)
    (registry : next.shared.world.registry = m.shared.world.registry)
    (mine : Stand before name next.shared.world (next.shared.startsBy worker) (next.shared.resultsOf worker) left)
    (news : Notes before m worker next.shared) : Touching before name next := by
  refine touching.level step stepped size registry (fun a cause => ?_) (by rwa [List.append_nil]) news
  rw [Machine.role_of_idle stepped.had idle]
  simp

variable (bound : Bound name visit)

section

variable (open_ : m.shared.resultsOf worker = []) (idle : m.shared.startsBy worker = [])
include bound open_ idle

theorem Touching.begin (phase : visit.phase = .ready) (errands : visit.errands = [.touchApplication])
    (fresh : visit.application = none) : Touching before name next := by
  have made := stepped.did
  simp only [Task.step, Visit.step, phase, Visit.begin, errands, bound.1, fresh, if_true, Option.some.injEq,
    Prod.mk.injEq] at made
  obtain ⟨rfl, same⟩ := made
  refine touching.aside step stepped (by simp [Task.stage, phase]) (by rw [← same]) (by rw [← same]) ?_
    ⟨[], by rw [← same]; rfl, by simp⟩
  rw [← same, open_, idle]
  exact .seeking bound rfl rfl rfl

/-- A lookup that finds no live instance registers a new one, which is the one that counts from then on. -/
theorem Touching.seek (phase : visit.phase = .seeking) (errands : visit.errands = []) : Touching before name next := by
  have rooted := touching.rooted
  have rests : (Task.visit visit).stage = .idle := by simp [Task.stage, phase]
  have made := stepped.did
  simp only [Task.step, Visit.step, phase, Option.some.injEq, Prod.mk.injEq] at made
  obtain ⟨rfl, same⟩ := made
  have log : next.shared.log = m.shared.log := by rw [← same]
  have mine : ∀ {b}, Recent before next.shared.world b →
      Stand before name next.shared.world (next.shared.startsBy worker) (next.shared.resultsOf worker)
        [.visit { visit with phase := .weighing b }] := by
    intro b recent
    rw [Shared.startsBy, Shared.resultsOf, log]
    rw [Shared.startsBy] at idle
    rw [Shared.resultsOf] at open_
    rw [open_, idle]
    exact .weighing bound rfl errands recent rfl
  rcases m.shared.world.findOrCreateApplication_cases visit.settings.applicationKey visit.settings with
    ⟨b, found, registered, -⟩ | ⟨grown, created, replaced, registry, size, marks⟩
  · rw [found] at stepped same
    have world : next.shared.world = m.shared.world := by rw [← same]
    refine touching.aside step stepped rests (by rw [world]) (by rw [world]) (mine ?_) ⟨[], log, by simp⟩
    rw [Bindings.find?_congr _ bound.2] at registered
    rw [world]
    exact rooted.recent b registered
  · rw [created] at stepped same
    have world : next.shared.world = grown := by rw [← same]
    rw [← world] at registry size marks
    have found : next.shared.world.registry.find? name = some m.shared.world.applications.next := by
      rw [registry, Bindings.find?_insert, if_pos bound.2]
    have new : ∀ b, Recent before next.shared.world b → ¬ b.number < m.shared.world.applications.size →
        b = m.shared.world.applications.next := by
      intro b recent old
      have inside := recent.2
      rw [size] at inside
      exact congrArg Id.mk (Nat.le_antisymm (Nat.le_of_lt_succ inside) (Nat.le_of_not_lt old))
    have fresh : next.shared.world.marks m.shared.world.applications.next = { name := visit.settings.applicationKey } :=
      (marks _).trans (if_pos rfl)
    have inside : Recent before next.shared.world m.shared.world.applications.next :=
      ⟨rooted.grown, size ▸ Nat.lt_succ_self _⟩
    refine touching.advance step stepped ?_ (mine inside) ⟨[], log, by simp⟩ ?_ ?_
    · refine rooted.step (touching.lasts step) (touching.spared step) (size ▸ Nat.le_succ _) ?_ ?_ ?_ ?_ ?_
      · intro b recent
        by_cases old : b.number < m.shared.world.applications.size
        · exact .inl ⟨recent.1, old⟩
        · rw [new b recent old, fresh]
          exact .inr ⟨bound.2, rfl, found⟩
      · intro b recent live registered
        have gone := replaced b ((Bindings.find?_congr _ bound.2).trans registered)
        simp [live, rooted.running b recent] at gone
      · intro b registered
        cases found.symm.trans registered
        exact .inr inside
      · rw [registry]
        exact rooted.single.insert ..
      · intro other different
        have apart : (visit.settings.applicationKey == other) = false := by
          rw [BEq.congr_left bound.2, BEq.comm, different]
        rw [registry, Bindings.find?_insert, apart]
        rfl
    · intro b recent old
      rw [new b recent old, Machine.role_of_idle stepped.has rfl]
      exact ⟨log, rfl, _, fresh⟩
    · intro b old registered
      cases found.symm.trans registered
      exact absurd old (Nat.lt_irrefl _)

theorem Touching.weigh (phase : visit.phase = .weighing a) (errands : visit.errands = [])
    (recent : Recent before m.shared.world a) (calm : next.isExpiring = false) : Touching before name next := by
  have made := stepped.did
  simp only [Task.step, Visit.step, phase] at made
  split at made
  next => cases made
  next move shared moved =>
    split at moved
    next =>
      cases moved
      simp only [Option.some.injEq, Prod.mk.injEq] at made
      obtain ⟨rfl, -⟩ := made
      rw [Machine.isExpiring_of_phase stepped.has rfl] at calm
      cases calm
    next =>
      cases moved
      simp only [Option.some.injEq, Prod.mk.injEq] at made
      obtain ⟨rfl, same⟩ := made
      have size : next.shared.world.applications.size = m.shared.world.applications.size := by
        rw [← same]
        exact Table.size_set ..
      refine touching.aside step stepped (by simp [Task.stage, phase]) size (by rw [← same]; rfl) ?_
        ⟨[], by rw [← same]; rfl, by simp⟩
      have results : next.shared.resultsOf worker = [] := by
        rw [← same]
        exact open_
      rw [results]
      refine .starting bound rfl errands rfl (recent.grow (Nat.le_of_eq size.symm)) ?_
      rw [← same]
      exact idle

end

theorem Touching.answer (open_ : m.shared.resultsOf worker = []) (phase : visit.phase = .ready)
    (errands : visit.errands = [])
    (answered : Answered before m.shared.world (m.shared.startsBy worker) (.served visit.application visit.session)) :
    Touching before name next := by
  have made := stepped.did
  simp only [Task.step, Visit.step, phase, Visit.begin, errands, Visit.finish, Option.some.injEq, Prod.mk.injEq] at made
  obtain ⟨rfl, same⟩ := made
  have known := (Array.getElem?_eq_some_iff.mp stepped.had).1
  refine touching.aside step stepped (by simp [Task.stage, phase]) (by rw [← same]; rfl) (by rw [← same]; rfl) ?_
    ⟨[_], by rw [← same]; rfl, by simpa [Event.worker, Fits] using known⟩
  rw [← same, Shared.resultsOf_visited, if_pos rfl, open_]
  exact .departed answered

end Steps

/-- Every step keeps the invariant, unless it finds the application expired. -/
theorem Touching.step (touching : Touching before name m) (calm : next.isExpiring = false)
    (step : m.step worker = some next) : Touching before name next := by
  obtain ⟨task, tasks, left, stepped⟩ := Machine.stepped_of_step step
  have stand := touching.stands worker _ stepped.had
  generalize open_ : m.shared.resultsOf worker = results at stand
  cases stand with
  | waiting bound phase errands fresh idle => exact touching.begin step stepped bound open_ idle phase errands fresh
  | seeking bound phase errands idle => exact touching.seek step stepped bound open_ idle phase errands
  | weighing bound phase errands recent idle => exact touching.weigh step stepped bound open_ idle phase errands recent calm
  | starting bound at_ errands holds recent underway =>
    exact touching.attempt step stepped ⟨stepped.had, bound, at_, errands, holds, recent, open_, underway⟩
  | served phase errands answered => exact touching.answer step stepped open_ phase errands answered

variable {scenario : Scenario} {visits : List Visit}

structure Caller (name : Key) (visit : Visit) : Prop where
  bound : Bound name visit
  ready : visit.phase = .ready
  errands : visit.errands = [.touchApplication]
  fresh : visit.application = none

theorem touching_visiting (callers : ∀ visit ∈ visits, Caller name visit)
    (unregistered : before.registry.find? name = none) : Touching before name (.visiting scenario before visits) := by
  have none_recent : ∀ a, ¬ Recent before before a := fun a recent => Nat.not_lt_of_le recent.1 recent.2
  have calls : ∀ {worker : Nat} {tasks : List Task}, (Machine.visiting scenario before visits).workers[worker]? = some tasks →
      ∃ visit, tasks = [.visit visit] ∧ Caller name visit := by
    intro worker tasks had
    simp only [Machine.visiting, List.getElem?_toArray, List.getElem?_map, Option.map_eq_some_iff] at had
    obtain ⟨visit, there, rfl⟩ := had
    exact ⟨visit, rfl, callers visit (List.mem_of_getElem? there)⟩
  exact {
    rooted := {
      grown := Nat.le_refl _
      named := fun a recent => (none_recent a recent).elim
      running := fun a recent => (none_recent a recent).elim
      current := fun a recent => (none_recent a recent).elim
      recent := fun a found => nomatch unregistered.symm.trans found
      single := Bindings.single_of_unbound unregistered
      spared := fun _ _ => rfl
      others := fun _ _ => rfl }
    stands := by
      intro worker tasks had
      obtain ⟨visit, rfl, caller⟩ := calls had
      exact .waiting caller.bound caller.ready caller.errands caller.fresh rfl
    courses := fun a recent => (none_recent a recent).elim
    removed := fun a found => nomatch unregistered.symm.trans found
    told := by simp [Machine.visiting] }

theorem Touching.registered (touching : Touching before name m) (recent : Recent before m.shared.world a)
    (started : (m.shared.world.marks a).started = true) : m.shared.world.registry.find? name = some a := by
  obtain ⟨lost, course⟩ := (touching.courses a recent).course
  exact touching.rooted.current a recent (course.starts.there started)

theorem Touching.sum_starts (touching : Touching before name m) (p : Instance × Answer → Bool) :
    (∑ caller ∈ Finset.range m.workers.size, (m.shared.startsBy caller).countP p) =
      m.shared.log.countP (Shared.isStart p) := by
  have known : ∀ event ∈ m.shared.log, Shared.isStart p event = true → event.worker < m.workers.size := by
    intro event member start
    have fits := touching.told event member
    cases event with
    | called => exact fits.1
    | _ => cases start
  simp only [Shared.countP_by_worker known, Shared.countP_startsBy]

section Finished

variable (touching : Touching before name m) (finished : m.isFinished = true)
include touching finished

theorem Touching.over_of_lt {caller : Nat} (inside : caller < m.workers.size) :
    ∃ result, m.shared.resultsOf caller = [result] ∧ Answered before m.shared.world (m.shared.startsBy caller) result := by
  have had : m.workers[caller]? = some m.workers[caller] := Array.getElem?_eq_getElem inside
  rw [Machine.finished_of_isFinished finished had] at had
  have stand := touching.stands caller [] had
  generalize only : m.shared.resultsOf caller = results at stand
  cases stand with
  | departed answered => exact ⟨_, rfl, answered⟩

theorem Touching.answered_of_mem {caller : Nat} {result : VisitResult} (member : result ∈ m.shared.resultsOf caller) :
    Answered before m.shared.world (m.shared.startsBy caller) result := by
  have inside : caller < m.workers.size := by
    obtain ⟨event, told, given⟩ := List.mem_filterMap.mp member
    have fits := touching.told event told
    split at given
    next => split at given <;> cases given; simp_all [Fits]
    next => cases given
  obtain ⟨only, same, answered⟩ := touching.over_of_lt finished inside
  rw [same, List.mem_singleton] at member
  exact member ▸ answered

theorem Touching.settled (recent : Recent before m.shared.world a) :
    Interleaving.Settled (m.shared.world.marks a).started (m.shared.world.marks a).discarded
      (m.shared.story (.application a)) := by
  obtain ⟨lost, course⟩ := (touching.courses a recent).course
  cases course.starts with
  | free _ settled => exact settled
  | held i phase here =>
    rw [Machine.role, Machine.stage_of_finished finished] at here
    cases here

/-- Every hook that a caller ran failed and gave it its answer, or it let the instance start. -/
theorem Touching.starts_of_caller {caller : Nat} (inside : caller < m.workers.size) :
    (m.shared.startsBy caller).length =
      (m.shared.resultsOf caller).countP (·.isFailure) + (m.shared.startsBy caller).countP (·.2 == .proceed) := by
  obtain ⟨result, only, answered⟩ := touching.over_of_lt finished inside
  cases result with
  | served application session =>
    obtain ⟨a, -, -, -, none | proceeded⟩ := answered
    · simp [only, none, VisitResult.isFailure]
    · simp [only, proceeded, VisitResult.isFailure]
  | failed error =>
    obtain ⟨a, cause, -, ⟨answer, ran, refusal⟩, -⟩ := answered
    have stopped : answer ≠ .proceed := by
      rintro rfl
      cases refusal
    simp [only, ran, stopped, VisitResult.isFailure]

/-- Only the instance that is registered was let start, and once. -/
theorem Touching.proceeds_le_one (found : m.shared.world.registry.find? name = some a) :
    m.shared.log.countP (Shared.isStart (·.2 == .proceed)) ≤ 1 := by
  obtain ⟨lost, course⟩ := (touching.courses a (touching.rooted.recent a found)).course
  refine Nat.le_trans ?_ (course.starts.tale.oneShot course.ends.once).begun_once
  rw [List.nil_append, Shared.story, List.countP_filterMap, List.countP_reverse]
  refine List.countP_mono_left fun event member start => ?_
  have fits := touching.told event member
  cases event with
  | called worker hook subject answer =>
    obtain ⟨-, rfl, b, rfl, recent⟩ := fits
    obtain rfl : answer = .proceed := by simpa [Shared.isStart] using start
    have begun : .begun .proceed ∈ m.shared.story (.application b) :=
      List.mem_filterMap.mpr ⟨_, List.mem_reverse.mpr member, by simp [Event.about, Instance.isSame]⟩
    have live := (touching.settled finished recent).there_of_proceed begun
    cases found.symm.trans (touching.rooted.current b recent live)
    simp [Event.about, Instance.isSame, Happening.isBegun]
  | _ => cases start

/-- An instance that is started was let start by a hook. -/
theorem Touching.proceeds_pos (recent : Recent before m.shared.world a)
    (started : (m.shared.world.marks a).started = true) :
    0 < m.shared.log.countP (Shared.isStart (·.2 == .proceed)) := by
  have settled := touching.settled finished recent
  rw [started] at settled
  obtain ⟨later, same, -⟩ := settled.running_of_started.story
  have begun : .begun .proceed ∈ m.shared.story (.application a) := by simp [same]
  obtain ⟨event, member, about⟩ := List.mem_filterMap.mp begun
  rw [List.mem_reverse] at member
  refine List.countP_pos_iff.mpr ⟨event, member, ?_⟩
  have fits := touching.told event member
  cases event with
  | called worker hook subject answer =>
    obtain ⟨-, rfl, b, rfl, -⟩ := fits
    simp only [Event.about] at about
    split at about <;> cases about
    rfl
  | attempted worker subject result =>
    simp only [Event.about] at about
    split at about <;> cases about
  | _ => cases about

/-- One hook let an instance start if somebody is served, and none did otherwise. -/
theorem Touching.proceeds_eq : m.shared.log.countP (Shared.isStart (·.2 == .proceed)) =
    if m.visitResults.any (!·.isFailure) then 1 else 0 := by
  split
  next any =>
    obtain ⟨result, given, served⟩ := List.any_eq_true.mp any
    obtain ⟨caller, given⟩ := Machine.mem_visitResults.mp given
    have answered := touching.answered_of_mem finished given
    cases result with
    | served application session =>
      obtain ⟨a, -, recent, started, -⟩ := answered
      exact Nat.le_antisymm (touching.proceeds_le_one finished (touching.registered recent started))
        (touching.proceeds_pos finished recent started)
    | failed error => cases served
  next none =>
    rw [← touching.sum_starts]
    refine Finset.sum_eq_zero fun caller known => ?_
    obtain ⟨result, only, answered⟩ := touching.over_of_lt finished (Finset.mem_range.mp known)
    cases result with
    | served application session =>
      have given : .served application session ∈ m.visitResults :=
        Machine.mem_visitResults.mpr ⟨caller, by simp [only]⟩
      exact absurd (List.any_eq_true.mpr ⟨_, given, rfl⟩) none
    | failed error =>
      have failed := touching.starts_of_caller finished (Finset.mem_range.mp known)
      obtain ⟨a, cause, -, ⟨answer, ran, -⟩, -⟩ := answered
      rw [only, ran] at failed
      rw [ran]
      exact Nat.succ.inj ((Nat.add_comm ..).trans failed.symm)

theorem Touching.calls_eq :
    m.shared.calls .applicationStart =
      m.visitResults.countP (·.isFailure) + if m.visitResults.any (!·.isFailure) then 1 else 0 := by
  have visitors : ∀ event ∈ m.shared.log, Shared.isResult VisitResult.isFailure event = true →
      event.worker < m.workers.size := by
    intro event member failure
    have fits := touching.told event member
    cases event with
    | visited => exact fits
    | _ => cases failure
  calc m.shared.calls .applicationStart
      = ∑ caller ∈ Finset.range m.workers.size, (m.shared.startsBy caller).countP fun _ => true := by
        rw [touching.sum_starts]
        refine List.countP_congr fun event _ => ?_
        cases event with
        | called worker hook => cases hook <;> simp [Shared.isCallOf, Shared.isStart]
        | _ => simp [Shared.isCallOf, Shared.isStart]
    _ = ∑ caller ∈ Finset.range m.workers.size,
          ((m.shared.resultsOf caller).countP (·.isFailure) + (m.shared.startsBy caller).countP (·.2 == .proceed)) := by
        refine Finset.sum_congr rfl fun caller known => ?_
        rw [List.countP_true, touching.starts_of_caller finished (Finset.mem_range.mp known)]
    _ = m.visitResults.countP (·.isFailure) + if m.visitResults.any (!·.isFailure) then 1 else 0 := by
        rw [Finset.sum_add_distrib, touching.sum_starts, touching.proceeds_eq finished, Machine.countP_visitResults,
          Shared.countP_by_worker visitors]
        simp only [Shared.countP_resultsOf]

theorem Touching.registered_live (intact : ∀ key a, before.registry.find? key = some a →
      a.number < before.applications.size ∧ (before.application a).discarded = false)
    (key : Key) (a : ApplicationId) (found : m.shared.world.registry.find? key = some a) :
    (m.shared.world.application a).discarded = false := by
  cases same : key == name with
  | true =>
    rw [Bindings.find?_congr _ same] at found
    by_contra discarded
    obtain ⟨worker, cause, removing⟩ := touching.removed a found ((Bool.not_eq_false _).mp discarded)
    rw [Machine.role, Machine.stage_of_finished finished] at removing
    cases removing
  | false =>
    rw [touching.rooted.others key same] at found
    obtain ⟨issued, live⟩ := intact key a found
    exact (touching.rooted.spared a issued).trans live

end Finished

/-- What holds once all callers have their answers. -/
structure Settled (name : Key) (callers : Nat) (m : Machine) : Prop where
  answered : ∀ caller, caller < callers → ∃ result, m.shared.resultsOf caller = [result]
  /-- Whoever is served has the one instance that is registered under the name, and it is started. -/
  served : ∀ caller application session, .served application session ∈ m.shared.resultsOf caller →
    ∃ a, application = some a ∧ m.shared.world.registry.find? name = some a ∧
      (m.shared.world.application a).started = true
  /-- Whoever failed ran one hook, and the failure of that hook is its error. -/
  failed : ∀ caller error, .failed error ∈ m.shared.resultsOf caller →
    ∃ a answer cause, m.shared.startsBy caller = [(.application a, answer)] ∧
      answer.refusal .applicationStart = some cause ∧
      error = .startFailed .applicationStart (m.shared.world.application a).name.name cause
  calls : m.shared.calls .applicationStart =
    m.visitResults.countP (·.isFailure) + if m.visitResults.any (!·.isFailure) then 1 else 0
  live : ∀ key a, m.shared.world.registry.find? key = some a → (m.shared.world.application a).discarded = false

theorem first_touches_settle (scenario : Scenario) (before : World) (name : Key) (visits : List Visit)
    (schedule : List Nat) (callers : ∀ visit ∈ visits, Caller name visit)
    (unregistered : before.registry.find? name = none)
    (intact : ∀ key a, before.registry.find? key = some a →
      a.number < before.applications.size ∧ (before.application a).discarded = false)
    (calm : ∀ n ≤ schedule.length,
      ((Machine.visiting scenario before visits).run (schedule.take n)).isExpiring = false)
    (finished : ((Machine.visiting scenario before visits).run schedule).isFinished = true) :
    Settled name visits.length ((Machine.visiting scenario before visits).run schedule) := by
  have within : ∀ n, ((Machine.visiting scenario before visits).run (schedule.take n)).isExpiring = false := by
    intro n
    rcases Nat.le_total n schedule.length with inside | beyond
    · exact calm n inside
    · rw [List.take_of_length_le beyond]
      simpa using calm schedule.length (Nat.le_refl _)
  have touching : Touching before name ((Machine.visiting scenario before visits).run schedule) :=
    Machine.run_keeps _ schedule (touching_visiting callers unregistered) within
      fun current worker next held calm step => held.step calm step
  refine ⟨?_, ?_, ?_, touching.calls_eq finished, touching.registered_live finished intact⟩
  · intro caller inside
    have known : caller < ((Machine.visiting scenario before visits).run schedule).workers.size := by
      simpa [Machine.visiting] using inside
    obtain ⟨result, only, -⟩ := touching.over_of_lt finished known
    exact ⟨result, only⟩
  · intro caller application session given
    obtain ⟨a, same, recent, started, -⟩ := touching.answered_of_mem finished given
    exact ⟨a, same, touching.registered recent started, started⟩
  · intro caller error given
    obtain ⟨a, cause, -, ⟨answer, ran, refusal⟩, same⟩ := touching.answered_of_mem finished given
    exact ⟨a, answer, cause, ran, refusal, same⟩

/-- Three callers; the first start hook refuses. -/
def rivals : Machine :=
  .visiting { plan := fun _ calls => if calls = 0 then .refuse else .proceed } {}
    (List.replicate 3 { turn := 0, settings := .named "shop", client := .of "", errands := [.touchApplication] })

/-- The first caller's start fails while the second one waits for it, and the third one replaces the instance before it
is unregistered. -/
def overtaking : List Nat :=
  List.replicate 6 0 ++ List.replicate 4 1 ++ [0, 0] ++ List.replicate 8 2 ++ [0, 0] ++ List.replicate 7 1 ++
    List.replicate 3 2 ++ List.replicate 4 1

theorem first_touches_settle_overtaken :
    (rivals.run overtaking).isFinished = true ∧ (rivals.run overtaking).shared.calls .applicationStart = 2 ∧
      Settled (.of "shop") 3 (rivals.run overtaking) := by
  have finished : (rivals.run overtaking).isFinished = true := by decide +kernel
  refine ⟨finished, by decide +kernel, ?_⟩
  refine first_touches_settle _ {} (.of "shop") (List.replicate 3 _) overtaking ?_ rfl ?_ (by decide +kernel) finished
  · intro visit member
    rw [List.eq_of_mem_replicate member]
    exact ⟨⟨by decide +kernel, by decide +kernel⟩, rfl, rfl, rfl⟩
  · intro key a found
    cases found

end FirstTouch

end ScopeEngine.Interleaving
