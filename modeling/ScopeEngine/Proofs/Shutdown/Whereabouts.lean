import ScopeEngine.Proofs.OneShot.Roles

/-! Where the sessions of an application are: in its map, in the hands of a worker that is about to end them, ended, or
discarded by a start that failed. None gets lost on the way from one to the next. -/

namespace ScopeEngine.Interleaving

open World

def Shared.Placed (shared : Shared) (a : ApplicationId) (s : SessionId) : Prop :=
  ∃ worker, .placed worker a s ∈ shared.log

namespace Stage

variable {scenario : Scenario} {worker : Nat} {shared after : Shared} {stage next : Stage} {a : ApplicationId}
  {s : SessionId}

theorem Noted.placed (noted : stage.Noted worker shared after) (placed : after.Placed a s) :
    shared.Placed a s ∨ (s = shared.world.sessions.next ∧ ∃ id, stage = .opening a id .placing) := by
  obtain ⟨placer, member⟩ := placed
  obtain ⟨events, log, notes⟩ := noted
  rw [log] at member
  rcases List.mem_append.mp member with new | old
  · generalize happened : Event.placed placer a s = event at new
    cases notes event new with
    | placed =>
      cases happened
      exact .inr ⟨rfl, _, rfl⟩
    | declined | called | attempted | ended | farewell | closed | visited => cases happened
  · exact .inl ⟨placer, old⟩

theorem Step.placed (step : stage.Step scenario worker shared next after) (placed : after.Placed a s)
    (issued : a.number < shared.world.applications.size) :
    shared.Placed a s ∨ (s = shared.world.sessions.next ∧ s.number < after.world.sessions.size ∧
      s ∈ (after.world.application a).sessions.values) := by
  rcases step.noted.placed placed with old | ⟨rfl, id, rfl⟩
  · exact .inl old
  · have stored : ∀ stale, shared.world.sessions.next.number < (shared.world.insertSession a id stale).2.sessions.size ∧
        shared.world.sessions.next ∈ ((shared.world.insertSession a id stale).2.application a).sessions.values := by
      intro stale
      refine ⟨?_, ?_⟩
      · rw [size_insertSession]
        exact Nat.lt_succ_self _
      · rw [sessions_insertSession, if_pos ⟨rfl, issued⟩]
        exact Bindings.mem_values_of_find? (Bindings.find?_insert_self ..)
    cases step with
    | asking goes => cases goes
    | asked goes kept rest | replaced goes left =>
      cases goes with
      | finds => exact .inl placed
      | @places stale => exact .inr ⟨rfl, stored stale⟩

theorem session?_of_ending? {ending : Ending} (here : stage.ending? = some ending) :
    stage.session? = some ending.session := by
  cases stage with
  | finishing a t listener phase =>
    cases here
    rfl
  | closing current =>
    cases phase : current.phase with
    | ending t step ids =>
      simp only [ending?, phase, Option.some.injEq] at here
      subst here
      simp [session?, phase]
    | _ => simp [ending?, phase] at here
  | idle | opening | starting => cases here

theorem role_of_session (apart : stage.session? ≠ some s) : stage.role (.session a s) = .absent := by
  cases stage with
  | idle | opening => rfl
  | starting subject phase =>
    cases subject with
    | application b => rfl
    | session b t => simpa [role, Instance.isSame, session?] using apart
  | finishing b t listener phase => simpa [role, Instance.isSame, session?] using apart
  | closing current =>
    cases phase : current.phase with
    | ending t step ids => simpa [role, Closing.role, Instance.isSame, session?, phase] using apart
    | _ => simp [role, Closing.role, Instance.isSame, phase]

/-- The log tells nothing of a session that is not issued yet. -/
theorem Noted.untold (noted : stage.Noted worker shared after) (known : stage.Known shared.world)
    (unissued : ¬ s.number < shared.world.sessions.size) : after.story (.session a s) = shared.story (.session a s) := by
  have apart : ∀ t, stage.session? = some t → t ≠ s := by
    rintro t here rfl
    exact unissued (known t here)
  obtain ⟨events, log, notes⟩ := noted
  have silent : events.filterMap (Event.about (.session a s)) = [] := by
    refine List.filterMap_eq_nil_iff.mpr fun event member => ?_
    cases notes event member with
    | @called subject answer | @attempted subject phase result =>
      cases subject with
      | application b => rfl
      | session b t => simp [Event.about, Instance.isSame, apart t rfl]
    | ended here last => simp [Event.about, Instance.isSame, apart _ (session?_of_ending? here)]
    | farewell | placed | declined | closed | visited => rfl
  simp [Shared.story, log, silent]

end Stage

namespace Machine

/-- The session belongs to the application: it was in its map before the run, or came into it since. -/
def Resident (m : Machine) (a : ApplicationId) (s : SessionId) (before : Prop) : Prop :=
  before ∨ m.shared.Placed a s

/-- Where a session can be. -/
def Accounted (m : Machine) (a : ApplicationId) (s : SessionId) : Prop :=
  s ∈ (m.shared.world.application a).sessions.values ∨ (m.shared.world.session s).shutDown = true ∨
    (∃ worker ending, (m.stage worker).ending? = some ending ∧ ending.session = s ∧ ending.phase = .flagging) ∨
    (m.shared.world.session s).discarded = true

structure Whereabouts (m : Machine) (a : ApplicationId) (s : SessionId) (before : Prop) : Prop where
  issued : m.Resident a s before → s.number < m.shared.world.sessions.size
  accounted : m.Resident a s before → m.Accounted a s

variable {m next : Machine} {worker : Nat} {a : ApplicationId} {s : SessionId} {before : Prop}
  {past : List Happening} {lost : Prop}

theorem Accounted.moves (accounted : m.Accounted a s) (issued : s.number < m.shared.world.sessions.size)
    (course : m.Course (.session a s) past lost) (moves : m.Moves worker next) : next.Accounted a s := by
  rcases accounted with stored | ended | ⟨other, ending, here, theirs, first⟩ | discarded
  · rcases moves.turns.values stored with kept | ⟨ending, here, theirs, first⟩ | ⟨cause, here⟩
    · exact .inl kept
    · exact .inr (.inr (.inl ⟨worker, ending, here, theirs, first⟩))
    · have removing : (m.role (.session a s) worker).start? = some (.removing cause) := by
        simp [role, here, Stage.role, Instance.isSame, Role.start?]
      obtain ⟨-, answered, -⟩ := course.starts.own removing rfl
      exact .inr (.inr (.inr (moves.turns.discarded_mono (Answered.discarded answered))))
  · exact .inr (.inl (moves.turns.ended_mono ended))
  · by_cases acting : other = worker
    · subst other
      subst theirs
      obtain ⟨progress, goes, -⟩ := moves.step.ending here
      exact .inr (.inl (goes.flagged first issued))
    · exact .inr (.inr (.inl ⟨other, ending, (moves.others other acting).symm ▸ here, theirs, first⟩))
  · exact .inr (.inr (.inr (moves.turns.discarded_mono discarded)))

theorem Whereabouts.moves (whereabouts : m.Whereabouts a s before)
    (course : m.Resident a s before → m.Course (.session a s) past lost) (issued : a.number < m.shared.world.applications.size) (moves : m.Moves worker next) :
    next.Whereabouts a s before := by
  have known : next.Resident a s before → m.Resident a s before ∨
      (s.number < next.shared.world.sessions.size ∧ s ∈ (next.shared.world.application a).sessions.values) := by
    intro resident
    rcases resident with before | placed
    · exact .inl (.inl before)
    · rcases moves.step.placed placed issued with old | ⟨-, inside, stored⟩
      · exact .inl (.inr old)
      · exact .inr ⟨inside, stored⟩
  refine ⟨?_, ?_⟩
  · intro resident
    rcases known resident with old | ⟨inside, -⟩
    · exact Nat.lt_of_lt_of_le (whereabouts.issued old) moves.turns.sizes.1
    · exact inside
  · intro resident
    rcases known resident with old | ⟨-, stored⟩
    · exact (whereabouts.accounted old).moves (whereabouts.issued old) (course old) moves
    · exact .inl stored

/-- A session that has just come into the map has still to be started and ended. -/
theorem Orderly.course_of_placed (orderly : m.Orderly) (moves : m.Moves worker next) {id : Key}
    (placing : m.stage worker = .opening a id .placing) (unissued : ¬ s.number < m.shared.world.sessions.size)
    (issued : s.number < next.shared.world.sessions.size) (untold : next.shared.story (.session a s) = []) :
    next.Course (.session a s) [] False := by
  have rest : ∀ other, (next.role (.session a s) other).isAtRest = true := by
    intro other
    by_cases acting : other = worker
    · have step := moves.step
      rw [acting, role]
      rw [placing] at step
      generalize next.stage worker = stage at step ⊢
      cases step with
      | asking goes => cases goes
      | asked goes kept rest => exact rest.role
      | replaced goes left =>
        rw [Stage.role]
        split <;> rfl
    · rw [role, moves.others other acting, Stage.role_of_session]
      · rfl
      · exact fun here => unissued (orderly.known other s here)
  obtain ⟨name, marks⟩ := moves.turns.marks_new unissued
  have marks : (Instance.session a s).marks next.shared.world = { name } := marks
  obtain ⟨starts, ends⟩ := course_of_fresh name rest
  rw [← marks, ← untold] at starts ends
  exact ⟨issued, starts, ends⟩

/-- What holds at every moment of a run in which a worker shuts the application down, for one of the sessions. -/
structure Supervised (m : Machine) (a : ApplicationId) (closer : Nat) (s : SessionId) (here : Prop)
    (past : List Happening) (lost : Prop) : Prop where
  exclusive : m.Exclusive
  draining : m.Draining a
  course : m.Resident a s here → m.Course (.session a s) past lost
  unheard : ¬ s.number < m.shared.world.sessions.size → past ++ m.shared.story (.session a s) = [] ∧ ¬ lost
  whereabouts : m.Whereabouts a s here
  begun : (∃ closing, m.stage closer = .closing closing ∧ closing.application = a ∧ closing.phase = .flagging) ∨
    (m.shared.world.application a).shutDown = true

variable {closer : Nat} {here : Prop}

theorem Supervised.moves (supervised : m.Supervised a closer s here past lost) (orderly : m.Orderly)
    (moves : m.Moves worker next) : next.Supervised a closer s here past
      (lost ∨ (m.role (.session a s) worker).Forgets (next.role (.session a s) worker)) := by
  have exclusive := supervised.exclusive.moves moves
  have draining := supervised.draining.moves exclusive moves
  -- Of a session that is not issued yet nothing is heard, and nobody forgets it.
  have unheard : ¬ s.number < m.shared.world.sessions.size → past ++ next.shared.story (.session a s) = [] ∧
      ¬ (lost ∨ (m.role (.session a s) worker).Forgets (next.role (.session a s) worker)) := by
    intro unissued
    obtain ⟨silent, minded⟩ := supervised.unheard unissued
    refine ⟨by rw [moves.step.noted.untold (orderly.known worker) unissued, silent], not_or.mpr ⟨minded, ?_⟩⟩
    rw [role, Stage.role_of_session fun known => unissued (orderly.known worker s known)]
    exact fun forgets => by cases forgets.1
  refine ⟨exclusive, draining, fun resident => ?_, fun unissued => ?_,
    supervised.whereabouts.moves supervised.course supervised.draining.issued moves, ?_⟩
  · have old : ∀ known : m.Resident a s here, next.Course (.session a s) past _ := fun known =>
      (supervised.course known).moves moves
    rcases resident with before | placed
    · exact old (.inl before)
    · rcases moves.step.noted.placed placed with known | ⟨rfl, id, placing⟩
      · exact old (.inr known)
      · obtain ⟨-, issued, -⟩ := (moves.step.placed placed supervised.draining.issued).resolve_left fun known =>
          Nat.lt_irrefl _ (supervised.whereabouts.issued (.inr known))
        obtain ⟨silent, minded⟩ := unheard (Nat.lt_irrefl _)
        obtain ⟨rfl, untold⟩ := List.append_eq_nil_iff.mp silent
        rw [propext (iff_false_intro minded)]
        exact orderly.course_of_placed moves placing (Nat.lt_irrefl _) issued untold
  · exact unheard fun issued => unissued (Nat.lt_of_lt_of_le issued moves.turns.sizes.1)
  rcases supervised.begun with ⟨closing, before, own, first⟩ | shut
  · by_cases acting : closer = worker
    · subst closer
      have step := moves.step
      rw [before] at step
      rcases step.of_closing with ⟨later, now, goes⟩ | goes
      · have secured := draining.secured worker later now (goes.onward.1.trans own)
        exact .inr (secured.shut goes.onward.2)
      · rcases goes.last with ⟨-, shut⟩ | past | past
        · exact .inr (moves.turns.shutDown_mono (own ▸ shut))
        · cases first.symm.trans past
        · cases first.symm.trans past
    · exact .inl ⟨closing, (moves.others closer acting).trans before, own, first⟩
  · exact .inr (moves.turns.shutDown_mono shut)

/-- Nothing has happened yet: every task has still to begin, and the application is open. -/
structure Poised (m : Machine) (a : ApplicationId) : Prop where
  rest : m.AtRest
  log : m.shared.log = []
  maps : m.shared.world.MapsIssued
  issued : a.number < m.shared.world.applications.size
  unshut : (m.shared.world.application a).shutDown = false

theorem Poised.orderly (poised : m.Poised a) : m.Orderly := orderly_of_rest poised.maps poised.rest

theorem Poised.supervised {tasks : List Task} (poised : m.Poised a)
    (closes : m.workers[closer]? = some (Task.shutdown a :: tasks))
    (stored : here → s ∈ (m.shared.world.application a).sessions.values)
    (settled : here → Settled (m.shared.world.session s).started (m.shared.world.session s).discarded past ∧
      (m.shared.world.session s).shutDown = false ∧ past.countP Happening.isEnded = 0)
    (unissued : ¬ s.number < m.shared.world.sessions.size → past = []) : m.Supervised a closer s here past False := by
  have rest := poised.rest
  have unplaced : ¬ m.shared.Placed a s := by simp [Shared.Placed, poised.log]
  have untold : past ++ m.shared.story (.session a s) = past := by simp [Shared.story, poised.log]
  have roles : ∀ worker, (m.role (.session a s) worker).isAtRest = true := fun worker => (rest.stage worker).role
  refine ⟨exclusive_of_rest rest.stage, draining_of_rest rest.stage poised.issued poised.unshut, fun resident => ?_,
    fun unknown => ⟨untold.trans (unissued unknown), id⟩, ⟨fun resident => ?_, fun resident => ?_⟩,
    .inl ⟨_, stage_of_tasks closes, rfl, rfl⟩⟩
  · have here := resident.resolve_right unplaced
    obtain ⟨settled, unended, none⟩ := settled here
    refine ⟨poised.maps a s (stored here), ?_, ?_⟩
    · rw [untold]
      exact .free (fun worker _ => Role.unlocked_of_rest (roles worker)) settled
    · rw [untold]
      exact .free (fun worker _ => Role.unflagged_of_rest (roles worker)) ⟨fun _ => ⟨none, id⟩,
        fun ended => by cases unended.symm.trans ended⟩
  · exact poised.maps a s (stored (resident.resolve_right unplaced))
  · exact .inl (stored (resident.resolve_right unplaced))

/-- When everybody has finished, the application is sealed, and its sessions are ended or discarded. -/
theorem Supervised.finished (supervised : m.Supervised a closer s here past lost) (finished : m.isFinished = true)
    (resident : m.Resident a s here) :
    m.Sealed a ∧ ((m.shared.world.session s).shutDown = true ∨ (m.shared.world.session s).discarded = true) := by
  have idle := stage_of_finished finished
  have shut : (m.shared.world.application a).shutDown = true := by
    rcases supervised.begun with ⟨closing, here, -⟩ | shut
    · cases (idle closer).symm.trans here
    · exact shut
  have sealed : m.Sealed a := by
    rcases supervised.draining.drained shut with sealed | ⟨worker, closing, here, -⟩
    · exact sealed
    · cases (idle worker).symm.trans here
  refine ⟨sealed, ?_⟩
  rcases supervised.whereabouts.accounted resident with stored | ended | ⟨worker, ending, here, -⟩ | discarded
  · exact absurd stored (sealed.vacant s)
  · exact .inl ended
  · rw [idle] at here
    cases here
  · exact .inr discarded

end Machine

def shopping : Settings := { name := "shop", sessionManagement := true }

def openShop : World :=
  ((({} : World).findOrCreateApplication (.of "shop") shopping).2.keepListener ⟨0⟩ ⟨0⟩).applicationStarted ⟨0⟩

theorem openShop_vacant (b : ApplicationId) : (openShop.application b).sessions = .empty := by
  have registered := still_findOrCreateApplication {} (.of "shop") shopping
  have listening := registered.trans (still_modifyApplication _ ⟨0⟩
    (fun application => { application with listener := some ⟨0⟩ }) (fun _ => rfl) (fun _ => rfl) fun _ _ => rfl)
  have started := listening.trans (still_modifyApplication _ ⟨0⟩
    (fun application => { application with started := true }) (fun _ => rfl) (fun _ => rfl) fun _ some => some)
  exact started.maps b

theorem openShop_mapsIssued : openShop.MapsIssued := by
  intro b s member
  rw [openShop_vacant] at member
  cases member

end ScopeEngine.Interleaving
