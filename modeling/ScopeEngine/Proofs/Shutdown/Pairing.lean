import ScopeEngine.Proofs.Shutdown.Whereabouts

/-! Starts and ends of sessions side by side with a shutdown of their application. The first who flags a session as ended owes
it the end hook, which is called once, unless the shutdown came upon the session while its start was under way: then it is
flagged as ended before it is marked as started, and its end hook never runs. -/

namespace ScopeEngine.Interleaving

def Event.isEndOf (s : SessionId) : Event → Bool
  | .called _ .sessionEnd (.session _ t) _ => t == s
  | _ => false

def Shared.endsOf (shared : Shared) (s : SessionId) : Nat :=
  shared.log.countP (Event.isEndOf s)

def Shared.Proceeded (shared : Shared) (s : SessionId) : Prop :=
  ∃ worker a, .called worker .sessionStart (.session a s) .proceed ∈ shared.log

theorem Shared.Proceeded.told {shared : Shared} {s : SessionId} (proceeded : shared.Proceeded s) (a : ApplicationId) :
    .begun .proceed ∈ shared.story (.session a s) := by
  obtain ⟨worker, b, member⟩ := proceeded
  exact List.mem_filterMap.mpr ⟨_, List.mem_reverse.mpr member, by simp [Event.about, Instance.isSame]⟩

def ClosePhase.hasListener : ClosePhase → Bool
  | .flagging | .fetching => false
  | _ => true

theorem Closing.Goes.listener {scenario : Scenario} {worker : Nat} {shared after : Shared} {closing later : Closing}
    (goes : closing.Goes scenario worker shared (some later) after)
    (application : (shared.world.application closing.application).listener.isSome = true)
    (before : closing.phase.hasListener = true → closing.listener.isSome = true)
    (now : later.phase.hasListener = true) : later.listener.isSome = true := by
  cases goes with
  | flags => cases now
  | fetches => exact application
  | @books s phase ids error after here goes =>
    have same := before (by rw [here]; rfl)
    cases error <;> exact same
  | lists here | lacks here | drains here | relists here | takes here | misses here | ends here | dares here =>
    exact before (by rw [here]; rfl)

theorem Stage.role_eq_ending {stage : Stage} {a : ApplicationId} {s : SessionId} {phase : EndPhase} :
    stage.role (.session a s) = .ending phase ↔
      ∃ ending, stage.ending? = some ending ∧ ending.session = s ∧ ending.phase = phase := by
  cases stage with
  | idle | opening => simp [role, ending?]
  | starting subject first =>
    simp only [role, ending?]
    split <;> simp
  | finishing b t listener first => by_cases same : t = s <;> simp [role, ending?, Instance.isSame, same]
  | closing current =>
    cases here : current.phase with
    | ending t first ids =>
      by_cases same : t = s <;> simp [role, Closing.role, ending?, Instance.isSame, here, same]
    | _ => simp [role, Closing.role, ending?, Instance.isSame, here]

namespace Machine

variable {m next : Machine} {worker : Nat} {a : ApplicationId} {s : SessionId} {before : Prop}

/-- Who ends the session calls the hooks of a listener: its application has one, and so does every shutdown of it. -/
structure Attended (m : Machine) (a : ApplicationId) (s : SessionId) (before : Prop) : Prop where
  listener : (m.shared.world.application a).listener.isSome = true
  closers : ∀ worker closing, m.stage worker = .closing closing → closing.application = a →
    closing.phase.hasListener = true → closing.listener.isSome = true
  home : m.Resident a s before → ∀ b, s ∈ (m.shared.world.application b).sessions.values → b = a
  endings : m.Resident a s before → ∀ worker ending, (m.stage worker).ending? = some ending → ending.session = s →
    ending.listener.isSome = true

theorem Attended.moves (attended : m.Attended a s before) (whereabouts : m.Whereabouts a s before)
    (orderly : m.Orderly) (moves : m.Moves worker next) : next.Attended a s before := by
  -- A session that has just come into the map is one that nobody can have known before.
  have resident : next.Resident a s before → m.Resident a s before ∨
      (¬ s.number < m.shared.world.sessions.size ∧ ∃ id, m.stage worker = .opening a id .placing) := by
    intro resident
    rcases resident with before | placed
    · exact .inl (.inl before)
    · rcases moves.step.noted.placed placed with old | ⟨rfl, placing⟩
      · exact .inl (.inr old)
      · exact .inr ⟨Nat.lt_irrefl _, placing⟩
  have known : ∀ other ending, (m.stage other).ending? = some ending →
      ending.session.number < m.shared.world.sessions.size := by
    intro other ending here
    exact orderly.known other _ (Stage.session?_of_ending? here)
  refine ⟨(moves.turns.flags _).1 attended.listener, ?_, ?_, ?_⟩
  · intro other later here own fetched
    by_cases acting : other = worker
    · subst other
      have step := moves.step
      rw [here] at step
      rcases step.to_closing with first | ⟨closing, earlier, goes⟩
      · rw [first] at fetched
        cases fetched
      · have same : closing.application = a := goes.onward.1.symm.trans own
        refine goes.listener ?_ (attended.closers worker closing earlier same) fetched
        rw [same]
        exact attended.listener
    · rw [moves.others other acting] at here
      exact attended.closers other later here own fetched
  · intro now b stored
    rcases moves.turns.values_new stored with old | ⟨rfl, -, id, placing⟩
    · rcases resident now with resident | ⟨unissued, -⟩
      · exact attended.home resident b old
      · exact absurd (orderly.maps b s old) unissued
    · rcases resident now with resident | ⟨-, other, here⟩
      · exact absurd (whereabouts.issued resident) (Nat.lt_irrefl _)
      · cases placing.symm.trans here
        rfl
  · intro now other ending here theirs
    by_cases acting : other = worker
    · subst other
      cases earlier : (m.stage worker).ending? with
      | some first =>
        obtain ⟨progress, -, on⟩ := moves.step.ending earlier
        cases progress with
        | more later =>
          cases on.symm.trans here
          rcases resident now with resident | ⟨unissued, -⟩
          · exact attended.endings resident worker first earlier theirs
          · exact absurd (theirs ▸ known worker first earlier) unissued
        | done error => cases on.symm.trans here
      | none =>
        obtain ⟨-, ⟨b, id, -, some, -⟩ | ⟨closing, ids, stage, draining, same, stored⟩⟩ :=
          moves.step.ending_new earlier here
        · exact some
        · rcases resident now with resident | ⟨unissued, -⟩
          · rw [same]
            refine attended.closers worker closing stage ?_ (by rw [draining]; rfl)
            exact attended.home resident _ (theirs ▸ stored)
          · exact absurd (orderly.maps _ s (theirs ▸ stored)) unissued
    · rw [moves.others other acting] at here
      rcases resident now with resident | ⟨unissued, -⟩
      · exact attended.endings resident other ending here theirs
      · exact absurd (theirs ▸ known other ending here) unissued

def Forgets (m : Machine) (worker : Nat) (s : SessionId) : Prop :=
  ∃ ending, (m.stage worker).ending? = some ending ∧ ending.session = s ∧ ending.phase = .weighing ∧
    (m.shared.world.session s).started = false

theorem Moves.forgets_iff (moves : m.Moves worker next) (orderly : m.Orderly)
    (attended : ∀ ending, (m.stage worker).ending? = some ending → ending.session = s → ending.listener.isSome = true) :
    (m.role (.session a s) worker).Forgets (next.role (.session a s) worker) ↔ m.Forgets worker s := by
  constructor
  · rintro ⟨weighs, rest⟩
    obtain ⟨ending, here, theirs, weighing⟩ := Stage.role_eq_ending.mp weighs
    obtain ⟨progress, goes, on⟩ := moves.step.ending here
    have listener := attended ending here theirs
    rw [weighing] at goes
    generalize next.shared = after at goes
    refine ⟨ending, here, theirs, weighing, ?_⟩
    cases goes with
    | dares due =>
      have calls : next.role (.session a s) worker = .ending .calling := Stage.role_eq_ending.mpr ⟨_, on, theirs, rfl⟩
      rw [calls] at rest
      cases rest
    | forgets undue => simpa [listener, theirs] using undue
  · rintro ⟨ending, here, theirs, weighing, unstarted⟩
    have weighs : m.role (.session a s) worker = .ending .weighing := Stage.role_eq_ending.mpr ⟨ending, here, theirs, weighing⟩
    have there : (Instance.session a s).Exists m.shared.world :=
      theirs ▸ orderly.known worker _ (Stage.session?_of_ending? here)
    obtain ⟨progress, goes, on⟩ := moves.step.ending here
    obtain ⟨news, -, acts⟩ := (moves.acts there).goes
    rw [weighing] at goes
    generalize next.shared = after at goes acts
    refine ⟨weighs, ?_⟩
    have leaves : (next.stage worker).ending? = none := by
      cases goes with
      | dares due => simp [theirs, unstarted] at due
      | forgets undue => exact on
    have outside : ∀ phase, next.role (.session a s) worker ≠ .ending phase := by
      intro phase ends
      obtain ⟨later, there, -⟩ := Stage.role_eq_ending.mp ends
      cases leaves.symm.trans there
    rw [weighs] at acts
    generalize next.role (.session a s) worker = role at acts outside ⊢
    generalize (Instance.session a s).marks after.world = marks at acts
    cases acts with
    | lingers | owes => exact absurd rfl (outside _)
    | forgets rest => exact rest

/-- The log tells of every end of the session. -/
theorem endsOf_run (orderly : m.Orderly) (log : m.shared.log = []) (schedule : List Nat) (a : ApplicationId) :
    (m.run schedule).shared.endsOf s = ((m.run schedule).shared.story (.session a s)).countP Happening.isEnded := by
  have told : ∀ event ∈ (m.run schedule).shared.log,
      event.isEndOf s = ((event.about (.session a s)).map Happening.isEnded).getD false := by
    refine run_moves (P := fun current => ∀ event ∈ current.shared.log,
      event.isEndOf s = ((event.about (.session a s)).map Happening.isEnded).getD false) m schedule orderly (by simp [log]) ?_
    intro current worker next _ known moves event member
    obtain ⟨events, grown, notes⟩ := moves.step.noted
    rw [grown] at member
    rcases List.mem_append.mp member with new | old
    · generalize current.stage worker = stage at notes
      cases notes event new with
      | @called subject answer =>
        cases subject with
        | application b => rfl
        | session b t => by_cases same : t = s <;> simp [Event.isEndOf, Event.about, Instance.isSame, Instance.startHook, same, Happening.isEnded]
      | @attempted subject phase result =>
        cases subject with
        | application b => rfl
        | session b t => by_cases same : t = s <;> simp [Event.isEndOf, Event.about, Instance.isSame, same, Happening.isEnded]
      | @ended stage ending answer here last =>
        by_cases same : ending.session = s <;> simp [Event.isEndOf, Event.about, Instance.isSame, same, Happening.isEnded]
      | farewell | placed | declined | closed | visited => rfl
    · exact known event old
  rw [Shared.endsOf, Shared.story, List.countP_filterMap, List.countP_reverse]
  exact List.countP_congr fun event member => by simp [told event member]

variable {closer : Nat} {here lost : Prop} {past : List Happening}

/-- Somewhere in the run, somebody weighed the end of the session before it was marked as started. -/
def Forgotten (m : Machine) (schedule : List Nat) (s : SessionId) : Prop :=
  ∃ first worker rest, schedule = first ++ worker :: rest ∧ (m.run first).Forgets worker s

theorem forgotten_cons {schedule : List Nat} :
    m.Forgotten (worker :: schedule) s ↔ m.Forgets worker s ∨ (m.turn worker).Forgotten schedule s := by
  constructor
  · intro forgotten
    obtain ⟨first, other, rest, split, forgets⟩ := forgotten
    cases first with
    | nil =>
      cases split
      exact .inl forgets
    | cons head first =>
      cases split
      exact .inr ⟨first, other, rest, rfl, forgets⟩
  · intro forgotten
    rcases forgotten with forgets | ⟨first, other, rest, rfl, forgets⟩
    · exact ⟨[], worker, schedule, rfl, forgets⟩
    · exact ⟨worker :: first, other, rest, rfl, forgets⟩

theorem Forgets.steps (forgets : m.Forgets worker s) : m.step worker ≠ none := by
  obtain ⟨ending, here, -, weighing, -⟩ := forgets
  cases has : m.workers[worker]? with
  | none => simp [stage, has, Stage.ending?] at here
  | some tasks =>
    cases tasks with
    | nil => simp [stage, has, Stage.ending?] at here
    | cons task tasks =>
      rw [stage_of_tasks has] at here
      cases task with
      | finish b t listener phase =>
        cases here
        cases weighing
        cases due : (m.shared.world.session t).started && listener.isSome <;>
          simp [Machine.step, has, Task.step, EndPhase.step, due]
      | close closing =>
        cases phase : closing.phase with
        | ending t step ids =>
          simp only [Task.stage, Stage.ending?, phase, Option.some.injEq] at here
          subst here
          cases weighing
          cases due : (m.shared.world.session t).started && closing.listener.isSome <;>
            simp [Machine.step, has, Task.step, Closing.step, phase, EndPhase.step, due]
        | _ => simp [Task.stage, Stage.ending?, phase] at here
      | visit visit =>
        simp only [Task.stage] at here
        split at here <;> cases here
      | _ => cases here

theorem placed_of_run (orderly : m.Orderly) (schedule : List Nat) (issued : s.number < m.shared.world.sessions.size)
    (placed : (m.run schedule).shared.Placed a s) : m.shared.Placed a s := by
  have both : s.number < (m.run schedule).shared.world.sessions.size ∧
      ((m.run schedule).shared.Placed a s → m.shared.Placed a s) := by
    refine run_moves (P := fun current => s.number < current.shared.world.sessions.size ∧
      (current.shared.Placed a s → m.shared.Placed a s)) m schedule orderly ⟨issued, id⟩ ?_
    intro current worker next _ held moves
    refine ⟨Nat.lt_of_lt_of_le held.1 moves.turns.sizes.1, ?_⟩
    intro placed
    rcases moves.step.noted.placed placed with old | ⟨rfl, -⟩
    · exact held.2 old
    · exact absurd held.1 (Nat.lt_irrefl _)
  exact both.2 placed

theorem supervised_run (schedule : List Nat) (orderly : m.Orderly) (attended : m.Attended a s here)
    (resident : (m.run schedule).Resident a s here) (supervised : m.Supervised a closer s here past lost) :
    (m.run schedule).Supervised a closer s here past (lost ∨ m.Forgotten schedule s) := by
  induction schedule generalizing m lost with
  | nil =>
    have never : ¬ m.Forgotten [] s := by
      rintro ⟨first, worker, rest, split, -⟩
      simp at split
    rwa [propext (or_iff_left never)]
  | cons worker schedule ih =>
    have next_run : m.run (worker :: schedule) = (m.turn worker).run schedule := rfl
    rw [forgotten_cons, ← or_assoc]
    rw [next_run] at resident ⊢
    cases step : m.step worker with
    | none =>
      rw [turn_of_wait step] at resident ⊢
      refine ih orderly attended resident ?_
      rwa [propext (or_iff_left fun forgets : m.Forgets worker s => forgets.steps step)]
    | some next =>
      have moves := orderly.moves step
      rw [turn_of_step step] at resident ⊢
      -- Who ends a session knows it, and a session that is known is not placed later.
      have attends : ∀ ending, (m.stage worker).ending? = some ending → ending.session = s →
          ending.listener.isSome = true := by
        intro ending ends theirs
        have issued := orderly.known worker _ (Stage.session?_of_ending? ends)
        refine attended.endings ?_ worker ending ends theirs
        refine resident.imp_right fun placed => ?_
        refine placed_of_run orderly (worker :: schedule) (theirs ▸ issued) ?_
        rwa [next_run, turn_of_step step]
      have supervises := supervised.moves orderly moves
      rw [propext (moves.forgets_iff orderly attends)] at supervises
      exact ih (orderly.step step) (attended.moves supervised.whereabouts orderly moves) resident supervises

/-- A session that somebody else placed was not known before. -/
theorem Poised.unissued (poised : m.Poised a) (schedule : List Nat) (placed : (m.run schedule).shared.Placed a s) :
    ¬ s.number < m.shared.world.sessions.size := by
  intro issued
  have already := placed_of_run poised.orderly schedule issued placed
  simp [Shared.Placed, poised.log] at already

def Tenanted (m : Machine) (a : ApplicationId) : Prop :=
  ∀ s ∈ (m.shared.world.application a).sessions.values, (m.shared.world.session s).shutDown = false ∧
    (m.shared.world.session s).discarded = false ∧
    ∀ b, s ∈ (m.shared.world.application b).sessions.values → b = a

theorem started_sessions_end_unless_forgotten (m : Machine) (schedule : List Nat) (a : ApplicationId) (closer : Nat)
    (tasks : List Task) (s : SessionId) (poised : m.Poised a) (tenanted : m.Tenanted a)
    (listener : (m.shared.world.application a).listener.isSome = true)
    (closes : m.workers[closer]? = some (Task.shutdown a :: tasks))
    (finished : (m.run schedule).isFinished = true)
    (theirs : s ∈ (m.shared.world.application a).sessions.values ∨ (m.run schedule).shared.Placed a s)
    (started : (m.shared.world.session s).started = true ∨ (m.run schedule).shared.Proceeded s) :
    ((m.run schedule).shared.world.session s).shutDown = true ∧ (m.run schedule).shared.endsOf s ≤ 1 ∧
      ((m.run schedule).shared.endsOf s = 1 ↔ ¬ m.Forgotten schedule s) := by
  have fresh : (m.shared.world.session s).shutDown = false ∧ (m.shared.world.session s).discarded = false := by
    rcases theirs with stored | placed
    · exact ⟨(tenanted s stored).1, (tenanted s stored).2.1⟩
    · rw [m.shared.world.session_of_unissued (poised.unissued schedule placed)]
      exact ⟨rfl, rfl⟩
  have orderly := poised.orderly
  let past : List Happening := if (m.shared.world.session s).started then [.begun .proceed] else []
  have supervised : m.Supervised a closer s (s ∈ (m.shared.world.application a).sessions.values) past False := by
    refine poised.supervised closes id (fun _ => ?_) fun unissued => ?_
    · cases began : (m.shared.world.session s).started with
      | false => exact ⟨.untried ⟨rfl, fresh.2, by simp [past, began]⟩, fresh.1, by simp [past, began]⟩
      | true =>
        exact ⟨.running ⟨rfl, fresh.2, [], by simp [past, began], by simp⟩, fresh.1, by simp [past, began, Happening.isEnded]⟩
    · simp only [past, m.shared.world.session_of_unissued unissued]
      rfl
  have unending : ∀ worker, (m.stage worker).ending? = none := fun worker => (poised.rest.stage worker).ending?
  have attended : m.Attended a s (s ∈ (m.shared.world.application a).sessions.values) := by
    refine ⟨listener, ?_, ?_, ?_⟩
    · intro worker closing here _ fetched
      have first := poised.rest.stage worker
      rw [here] at first
      have first : closing.phase = .flagging := first
      rw [first] at fetched
      cases fetched
    · intro resident
      refine (tenanted s (resident.resolve_right ?_)).2.2
      simp [Shared.Placed, poised.log]
    · intro _ worker ending here
      cases (unending worker).symm.trans here
  have supervision := supervised_run schedule orderly attended theirs supervised
  have idle : ∀ worker, (m.run schedule).role (.session a s) worker = .absent := fun worker => by
    rw [role, stage_of_finished finished]
    rfl
  have course := supervision.course theirs
  obtain ⟨-, ended | discarded⟩ := supervision.finished finished theirs
  · refine ⟨ended, ?_⟩
    have counted : (past ++ (m.run schedule).shared.story (.session a s)).countP Happening.isEnded =
        (m.run schedule).shared.endsOf s := by
      rw [endsOf_run orderly poised.log schedule a, List.countP_append, Nat.add_eq_right]
      by_cases began : (m.shared.world.session s).started = true <;> simp [past, began, Happening.isEnded]
    cases course.ends with
    | held settler phase there =>
      rw [idle] at there
      cases there
    | free _ books =>
      rw [false_or] at books
      rcases books.shut ended with ⟨once, kept⟩ | ⟨none, lost⟩
      · rw [← counted, once]
        exact ⟨Nat.le_refl _, iff_of_true rfl kept⟩
      · rw [← counted, none]
        exact ⟨Nat.zero_le _, iff_of_false Nat.zero_ne_one fun kept => kept lost⟩
  · have proceeded : .begun .proceed ∈ past ++ (m.run schedule).shared.story (.session a s) := by
      refine List.mem_append.mpr (started.imp (fun began => ?_) fun proceeded => proceeded.told a)
      simp [past, began]
    cases course.starts with
    | held starter phase there =>
      rw [idle] at there
      cases there
    | free _ settled => cases (settled.there_of_proceed proceeded).symm.trans discarded

end Machine

/-- A request touches its session while its application is being shut down. -/
def meeting : Machine where
  scenario := { plan := fun _ _ => .proceed }
  shared := { world := openShop }
  workers := #[[.visit { turn := 0, settings := shopping, client := .of "alice", errands := [.touchSession] }],
    [Task.shutdown ⟨0⟩]]

theorem poised_meeting : meeting.Poised ⟨0⟩ where
  rest := by
    intro worker tasks has task member
    match worker with
    | 0 =>
      cases has
      cases List.mem_singleton.mp member
      trivial
    | 1 =>
      cases has
      cases List.mem_singleton.mp member
      rfl
    | worker + 2 => cases has
  log := rfl
  maps := openShop_mapsIssued
  issued := by decide +kernel
  unshut := by decide +kernel

/-- The request is let in before the shutdown begins and starts its session before the shutdown finds it. -/
def orderlyMeeting : List Nat :=
  List.replicate 8 0 ++ List.replicate 3 1 ++ List.replicate 8 0 ++ List.replicate 17 1 ++ [0]

theorem started_sessions_end_unless_forgotten_meeting :
    (meeting.run orderlyMeeting).shared.endsOf ⟨0⟩ = 1 ∧ ¬ meeting.Forgotten orderlyMeeting ⟨0⟩ := by
  have ends : (meeting.run orderlyMeeting).shared.endsOf ⟨0⟩ = 1 := by decide +kernel
  have tenanted : meeting.Tenanted ⟨0⟩ := by
    intro s member
    have none : s ∈ (openShop.application ⟨0⟩).sessions.values := member
    rw [openShop_vacant] at none
    cases none
  have paired := Machine.started_sessions_end_unless_forgotten meeting orderlyMeeting ⟨0⟩ 1 [] ⟨0⟩ poised_meeting
    tenanted (by decide +kernel) rfl (by decide +kernel) (Or.inr ⟨0, by decide +kernel⟩)
    (Or.inr ⟨0, ⟨0⟩, by decide +kernel⟩)
  exact ⟨ends, paired.2.2.mp ends⟩

def hastyMeeting : List Nat :=
  List.replicate 13 0 ++ List.replicate 18 1 ++ List.replicate 4 0

/-- Everybody has finished, the session is started, and its end hook never ran. -/
theorem hasty_shutdown_forgets_end :
    (meeting.run hastyMeeting).isFinished = true ∧ (meeting.run hastyMeeting).shared.Placed ⟨0⟩ ⟨0⟩ ∧
      (meeting.run hastyMeeting).shared.Proceeded ⟨0⟩ ∧
      ((meeting.run hastyMeeting).shared.world.session ⟨0⟩).started = true ∧
      (meeting.run hastyMeeting).shared.endsOf ⟨0⟩ = 0 :=
  ⟨by decide +kernel, ⟨0, by decide +kernel⟩, ⟨0, ⟨0⟩, by decide +kernel⟩, by decide +kernel, by decide +kernel⟩

end ScopeEngine.Interleaving
