import ScopeEngine.Proofs.Stages

/-! What a turn of a worker does to the world, stage by stage. Every turn leaves sessions alone, or it places one, marks
one, takes one out of its map, or closes an application to new ones; the stage of the worker tells which. -/

namespace ScopeEngine

open World

def Interleaving.StartPhase.mark : Interleaving.StartPhase → Marks → Marks
  | .waiting, marks => { marks with starting := true }
  | .marking, marks => { marks with started := true }
  | .discarding _, marks => { marks with discarded := true }
  | .leaving _, marks => { marks with starting := false }
  | .glancing, marks | .inspecting, marks | .calling, marks | .recording, marks | .removing _, marks => marks

namespace World

variable {a b : ApplicationId} {id : Key} {s : SessionId}

structure Marked (w : World) (s : SessionId) (mark : Marks → Marks) (later : World) : Prop extends w.KeepsMaps later where
  sessions : ∀ t, (later.session t).marks = if s = t then mark (w.session t).marks else (w.session t).marks

variable {w later last : World} {s : SessionId} {mark : Marks → Marks}

theorem Marked.still (marked : w.Marked s mark later) (still : later.Still last) : w.Marked s mark last :=
  ⟨marked.toKeepsMaps.trans still.toKeepsMaps, fun t => (still.sessions t).trans (marked.sessions t)⟩

theorem marked_of_same (s : SessionId) : w.Marked s (fun marks => marks) w :=
  ⟨(Still.refl w).toKeepsMaps, fun _ => (ite_self _).symm⟩

theorem marked_modifySession (issued : s.number < w.sessions.size) (change : Session → Session) (mark : Marks → Marks)
    (marks : ∀ session, (change session).marks = mark session.marks) : w.Marked s mark (w.modifySession s change) := by
  refine ⟨⟨fun _ => rfl, fun _ => rfl, fun _ some => some, Nat.le_refl _, Table.size_set ..⟩, ?_⟩
  intro t
  simp only [session_modify, issued, and_true]
  split
  next same => rw [marks, same]
  next => rfl

theorem session_of_unissued (w : World) (unissued : ¬ s.number < w.sessions.size) : w.session s = default := by
  have missing : w.sessions.rows[s.number]? = none := Array.getElem?_eq_none (Nat.le_of_not_lt unissued)
  simp [session, Table.get, Table.get?, missing]

theorem issued_of_mark (w : World) (mark : Session → Bool) (off : mark default = false)
    (on : mark (w.session s) = true) : s.number < w.sessions.size := by
  refine Decidable.byContradiction fun unissued => ?_
  rw [w.session_of_unissued unissued, off] at on
  cases on

end World

namespace Interleaving

variable {scenario : Scenario} {worker : Nat} {shared after : Shared}

variable {a : ApplicationId} {phase : StartPhase} {progress : Progress StartPhase StartResult}

theorem StartPhase.Goes.application (goes : phase.Goes scenario worker (.application a) shared progress after) :
    shared.world.Still after.world := by
  have marked : ∀ change : Application → Application,
      (∀ application, (change application).sessions = application.sessions) →
      (∀ application, (change application).shutDown = application.shutDown) →
      (∀ application, application.listener.isSome = true → (change application).listener.isSome = true) →
      shared.world.Still (shared.world.modifyApplication a change) := still_modifyApplication shared.world a
  cases goes with
  | glances | waits | finds | misses | dares | proceeds | refuses => exact .refl _
  | locks => exact marked (fun application => { application with starting := true }) (fun _ => rfl) (fun _ => rfl) fun _ some => some
  | records =>
    exact marked (fun application => { application with listener := some scenario.listener }) (fun _ => rfl)
      (fun _ => rfl) fun _ _ => rfl
  | marks => exact marked (fun application => { application with started := true }) (fun _ => rfl) (fun _ => rfl) fun _ some => some
  | discards => exact marked (fun application => { application with discarded := true }) (fun _ => rfl) (fun _ => rfl) fun _ some => some
  | removes => exact still_unregister ..
  | leaves => exact marked (fun application => { application with starting := false }) (fun _ => rfl) (fun _ => rfl) fun _ some => some

/-- Having a session started marks it, until it has to be taken out of its map. -/
theorem StartPhase.Goes.session {s : SessionId} (goes : phase.Goes scenario worker (.session a s) shared progress after)
    (issued : s.number < shared.world.sessions.size) : shared.world.Marked s phase.mark after.world ∨
      ∃ cause next, phase = .removing cause ∧ progress = .more next ∧
        after.world = (shared.world.dropSession a s).2 := by
  have marked := marked_modifySession issued
  cases goes with
  | glances | waits | finds | misses | dares | proceeds | refuses | records => exact .inl (marked_of_same s)
  | locks => exact .inl (marked (fun session => { session with starting := true }) _ fun _ => rfl)
  | marks => exact .inl (marked (fun session => { session with started := true }) _ fun _ => rfl)
  | discards => exact .inl (marked (fun session => { session with discarded := true }) _ fun _ => rfl)
  | removes => exact .inr ⟨_, _, rfl, rfl, rfl⟩
  | leaves => exact .inl (marked (fun session => { session with starting := false }) _ fun _ => rfl)

structure Ending where
  application : ApplicationId
  session : SessionId
  listener : Option ListenerId
  phase : EndPhase

/-- The end of a session that the worker is in the middle of, in a shutdown or on its own. -/
def Stage.ending? : Stage → Option Ending
  | .finishing a s listener phase => some ⟨a, s, listener, phase⟩
  | .closing current =>
    match current.phase with
    | .ending s phase _ => some ⟨current.application, s, current.listener, phase⟩
    | _ => none
  | _ => none

/-- What a turn from one stage to the next does to the world. -/
inductive Stage.Turns (w : World) : Stage → Stage → World → Prop
  | still {stage next : Stage} {later : World} (still : w.Still later) : Turns w stage next later
  | placed {a : ApplicationId} {id : Key} {next : Stage}
      (stale : ∀ s, (w.application a).sessions.find? id = some s →
        ∃ ending, next.ending? = some ending ∧ ending.session = s ∧ ending.phase = .flagging) :
      Turns w (.opening a id .placing) next (w.insertSession a id ((w.application a).sessions.find? id)).2
  | marked {a : ApplicationId} {s : SessionId} {phase : StartPhase} {next : Stage} {later : World}
      (issued : s.number < w.sessions.size) (marked : w.Marked s phase.mark later) :
      Turns w (.starting (.session a s) phase) next later
  | dropped {a : ApplicationId} {s : SessionId} {cause : Error} {next : Stage} :
      Turns w (.starting (.session a s) (.removing cause)) next (w.dropSession a s).2
  | ended {stage next : Stage} {ending : Ending} (here : stage.ending? = some ending)
      (first : ending.phase = .flagging) : Turns w stage next (w.endSession ending.session).2
  | taken {closing : Closing} {next : Stage} {id : Key} {ids : List Key} (here : closing.phase = .draining (id :: ids))
      (gives : ∀ s, (w.application closing.application).sessions.find? id = some s →
        ∃ ending, next.ending? = some ending ∧ ending.session = s ∧ ending.phase = .flagging) :
      Turns w (.closing closing) next (w.takeSession closing.application id).2
  | shut {closing : Closing} {next : Stage} (here : closing.phase = .flagging) :
      Turns w (.closing closing) next (w.beginShutdown closing.application).2

namespace Stage

variable {stage next : Stage} {w later : World}

variable {a : ApplicationId} {phase : StartPhase} {subject : Instance}

/-- Sessions that the stage has to do with have been issued. -/
def Known (w : World) (stage : Stage) : Prop := ∀ s, stage.session? = some s → s.number < w.sessions.size

theorem turns_of_end {phase : EndPhase} {s : SessionId} {listener : Option ListenerId}
    {progress : Progress EndPhase (Option Error)} (goes : phase.Goes worker listener a s shared progress after)
    (here : stage.ending? = some ⟨a, s, listener, phase⟩) : stage.Turns shared.world next after.world := by
  cases goes with
  | repeats | flags => exact .ended here rfl
  | dares | forgets | calls => exact .still (.refl _)

theorem turns_of_close {closing : Closing} {left : Option Closing}
    (goes : closing.Goes scenario worker shared left after) (on : ∀ later, left = some later → next = .closing later) :
    (Stage.closing closing).Turns shared.world next after.world := by
  cases goes with
  | repeats here | flags here => exact .shut here
  | fetches | lists | lacks | drains | relists | dares | forgets | calls => exact .still (.refl _)
  | takes here free there =>
    refine .taken here ?_
    intro s found
    cases there.symm.trans found
    rw [on _ rfl]
    exact ⟨_, rfl, rfl, rfl⟩
  | misses here missing =>
    refine .taken here ?_
    intro s found
    cases missing.symm.trans found
  | ends here goes | books here goes => exact turns_of_end goes (by simp [ending?, here])

theorem turns_of_open {id : Key} {phase : OpenPhase} {progress : Progress OpenPhase (Option Placed)}
    (goes : phase.Goes scenario worker a id shared progress after)
    (replaced : ∀ s stale, progress = .done (some (.created s (some stale))) → ∃ ending, next.ending? = some ending ∧ ending.session = stale ∧ ending.phase = .flagging) :
    (Stage.opening a id phase).Turns shared.world next after.world := by
  cases goes with
  | reserves | declines | admits | finds => exact .still (.refl _)
  | places there defunct =>
    subst there
    refine .placed ?_
    intro stale there
    exact replaced _ stale (by rw [there])

theorem turns_of_start {progress : Progress StartPhase StartResult}
    (goes : phase.Goes scenario worker subject shared progress after)
    (known : (Stage.starting subject phase).Known shared.world) :
    (Stage.starting subject phase).Turns shared.world next after.world := by
  cases subject with
  | application a => exact .still goes.application
  | session a s =>
    rcases goes.session (known s rfl) with marked | ⟨cause, later, rfl, -, same⟩
    · exact .marked (known s rfl) marked
    · rw [same]
      exact .dropped

/-- No attempt ends with the step that takes the instance out of its place. -/
theorem turns_of_attempt {result : StartResult} (goes : phase.Goes scenario worker subject shared (.done result) after)
    (known : (Stage.starting subject phase).Known shared.world) (still : after.world.Still later) :
    (Stage.starting subject phase).Turns shared.world next later := by
  cases subject with
  | application a => exact .still (goes.application.trans still)
  | session a s =>
    rcases goes.session (known s rfl) with marked | ⟨cause, later, -, same, -⟩
    · exact .marked (known s rfl) (marked.still still)
    · cases same

theorem Step.turns (step : stage.Step scenario worker shared next after) (known : stage.Known shared.world) :
    stage.Turns shared.world next after.world := by
  cases step with
  | idle quiet rest => exact .still quiet.world
  | asking goes => exact turns_of_open goes (by simp)
  | asked goes kept rest =>
    refine turns_of_open goes ?_
    intro s stale same
    cases same
    cases kept
  | replaced goes left =>
    refine turns_of_open goes ?_
    intro s stale same
    cases same
    cases left
    exact ⟨_, rfl, rfl, rfl⟩
  | starting goes => exact turns_of_start goes known
  | attempted goes quiet rest => exact turns_of_attempt goes known quiet.world
  | finishing goes | finished goes rest => exact turns_of_end goes rfl
  | closing goes | closed goes rest => exact turns_of_close goes (by simp)

namespace Turns

variable {a : ApplicationId} {s : SessionId}

section

variable (turns : stage.Turns w next later)
include turns

theorem sizes : w.sessions.size ≤ later.sessions.size ∧ w.applications.size ≤ later.applications.size := by
  cases turns with
  | still still => exact ⟨Nat.le_of_eq still.issued.symm, still.applications⟩
  | placed stale => exact ⟨by rw [size_insertSession]; omega, Nat.le_of_eq (Table.size_set ..).symm⟩
  | marked issued marked => exact ⟨Nat.le_of_eq marked.issued.symm, marked.applications⟩
  | @dropped b t =>
    rcases dropSession_cases w b t with same | ⟨-, same⟩
    · rw [same]
      exact ⟨Nat.le_refl _, Nat.le_refl _⟩
    · rw [same]
      exact ⟨Nat.le_refl _, Nat.le_of_eq (Table.size_set ..).symm⟩
  | ended here first => exact ⟨Nat.le_of_eq (Table.size_set ..).symm, Nat.le_refl _⟩
  | taken here gives | shut here => exact ⟨Nat.le_refl _, Nat.le_of_eq (Table.size_set ..).symm⟩

/-- How a turn changes the map of an application: not at all, or a session is placed or taken out. One that leaves the map
passes into the hands of a worker that ends it, unless its start failed. -/
theorem maps (a : ApplicationId) : (later.application a).sessions = (w.application a).sessions ∨ ∃ id,
    (stage = .opening a id .placing ∧ later.sessions.size = w.sessions.size + 1 ∧
        (later.application a).sessions = (w.application a).sessions.insert id w.sessions.next ∨
      (later.application a).sessions = (w.application a).sessions.erase id) ∧
    ∀ s, (w.application a).sessions.find? id = some s →
      (∃ ending, next.ending? = some ending ∧ ending.session = s ∧ ending.phase = .flagging) ∨
        ∃ cause, stage = .starting (.session a s) (.removing cause) := by
  cases turns with
  | still still => exact .inl (still.maps a)
  | @placed b id next stale =>
    rw [sessions_insertSession]
    split
    next same =>
      obtain ⟨rfl, -⟩ := same
      exact .inr ⟨id, .inl ⟨rfl, size_insertSession .., rfl⟩, fun s there => .inl (stale s there)⟩
    next => exact .inl rfl
  | marked issued marked => exact .inl (marked.maps a)
  | @dropped b t cause =>
    rcases dropSession_cases w b t with same | ⟨found, same⟩
    · exact .inl (by rw [same])
    · rw [same, sessions_takeSession]
      split
      next here =>
        obtain ⟨rfl, -⟩ := here
        refine .inr ⟨_, .inr rfl, fun s there => .inr ⟨cause, ?_⟩⟩
        cases found.symm.trans there
        rfl
      next => exact .inl rfl
  | ended here first => exact .inl rfl
  | @taken closing next id ids here gives =>
    rw [sessions_takeSession]
    split
    next same =>
      obtain ⟨rfl, -⟩ := same
      exact .inr ⟨id, .inr rfl, fun s there => .inl (gives s there)⟩
    next => exact .inl rfl
  | shut here => exact .inl (sessions_beginShutdown w _ a)

theorem keys {key : Key} (member : key ∈ (later.application a).sessions.keys) :
    key ∈ (w.application a).sessions.keys ∨ stage = .opening a key .placing := by
  rcases turns.maps a with same | ⟨id, ⟨here, -, same⟩ | same, -⟩ <;> rw [same] at member
  · exact .inl member
  · rcases Bindings.mem_keys_insert member with rfl | old
    · exact .inr here
    · exact .inl old
  · exact .inl (Bindings.mem_keys_of_erase member)

theorem values_new (member : s ∈ (later.application a).sessions.values) : s ∈ (w.application a).sessions.values ∨
      (s = w.sessions.next ∧ later.sessions.size = w.sessions.size + 1 ∧ ∃ id, stage = .opening a id .placing) := by
  rcases turns.maps a with same | ⟨id, ⟨here, size, same⟩ | same, -⟩ <;> rw [same] at member
  · exact .inl member
  · rcases Bindings.mem_values_of_insert member with rfl | old
    · exact .inr ⟨rfl, size, id, here⟩
    · exact .inl old
  · exact .inl (Bindings.mem_values_of_erase member)

theorem mapsIssued (maps : w.MapsIssued) : later.MapsIssued := by
  intro b s member
  rcases turns.values_new member with old | ⟨rfl, grown, -⟩
  · exact Nat.lt_of_lt_of_le (maps b s old) turns.sizes.1
  · rw [grown]
    exact Nat.lt_succ_self _

theorem values (member : s ∈ (w.application a).sessions.values) : s ∈ (later.application a).sessions.values ∨
      (∃ ending, next.ending? = some ending ∧ ending.session = s ∧ ending.phase = .flagging) ∨
      ∃ cause, stage = .starting (.session a s) (.removing cause) := by
  rcases turns.maps a with same | ⟨id, ⟨-, -, same⟩ | same, leaves⟩ <;> rw [same]
  · exact .inl member
  · exact (Bindings.mem_values_insert member id w.sessions.next).imp_right (leaves s)
  · exact (Bindings.mem_values_erase member id).imp_right (leaves s)

theorem flags (a : ApplicationId) :
    ((w.application a).listener.isSome = true → (later.application a).listener.isSome = true) ∧
      ((later.application a).shutDown = (w.application a).shutDown ∨ (later.application a).shutDown = true ∧
        ∃ closing, stage = .closing closing ∧ closing.application = a ∧ closing.phase = .flagging) := by
  cases turns with
  | still still => exact ⟨still.listeners a, .inl (still.flags a)⟩
  | placed stale =>
    exact ⟨(insertSession_keeps w _ _ _ a (·.listener.isSome) fun _ _ => rfl).trans,
      .inl (insertSession_keeps w _ _ _ a Application.shutDown fun _ _ => rfl)⟩
  | marked issued marked => exact ⟨marked.listeners a, .inl (marked.flags a)⟩
  | @dropped b t =>
    rcases dropSession_cases w b t with same | ⟨-, same⟩
    · rw [same]
      exact ⟨id, .inl rfl⟩
    · rw [same, listener_takeSession, shutDown_takeSession]
      exact ⟨id, .inl rfl⟩
  | ended here first => exact ⟨id, .inl rfl⟩
  | taken here gives =>
    rw [listener_takeSession, shutDown_takeSession]
    exact ⟨id, .inl rfl⟩
  | @shut closing next here =>
    rw [listener_beginShutdown, shutDown_beginShutdown]
    refine ⟨id, ?_⟩
    split
    next same => exact .inr ⟨rfl, closing, rfl, same.1, here⟩
    next => exact .inl rfl

theorem shutDown_mono (shut : (w.application a).shutDown = true) : (later.application a).shutDown = true := by
  rcases (turns.flags a).2 with same | ⟨is, -⟩
  · rw [same, shut]
  · exact is

theorem shutDown_new (shut : (later.application a).shutDown = true) : (w.application a).shutDown = true ∨
      ∃ closing, stage = .closing closing ∧ closing.application = a ∧ closing.phase = .flagging := by
  rcases (turns.flags a).2 with same | ⟨-, here⟩
  · exact .inl (same ▸ shut)
  · exact .inr here

/-- How a turn changes the marks of a session: not at all, as a start or an end of it does. -/
theorem marks (issued : s.number < w.sessions.size) : (later.session s).marks = (w.session s).marks ∨
      (∃ b phase, stage = .starting (.session b s) phase ∧ (later.session s).marks = phase.mark (w.session s).marks) ∨
      ∃ ending, stage.ending? = some ending ∧ ending.session = s ∧ ending.phase = .flagging ∧
        (later.session s).marks = { (w.session s).marks with shutDown := true } := by
  cases turns with
  | still still => exact .inl (still.sessions s)
  | placed stale =>
    have older : s ≠ w.sessions.next := by
      rintro rfl
      exact Nat.lt_irrefl _ issued
    rw [session_insertSession, if_neg older]
    exact .inl rfl
  | @marked b t phase next later inside marked =>
    rw [marked.sessions]
    split
    next same =>
      subst same
      exact .inr (.inl ⟨b, phase, rfl, rfl⟩)
    next => exact .inl rfl
  | @dropped b t =>
    rcases dropSession_cases w b t with same | ⟨-, same⟩ <;> (rw [same]; exact .inl rfl)
  | @ended stage next ending here first =>
    have read : (w.endSession ending.session).2.session s = _ := session_modify w ending.session s _
    rw [read]
    split
    next same => exact .inr (.inr ⟨ending, here, same.1, first, by rw [same.1]; rfl⟩)
    next => exact .inl rfl
  | taken | shut => exact .inl rfl

theorem marks_new (unissued : ¬ s.number < w.sessions.size) : ∃ name, (later.session s).marks = { name } := by
  have old : (w.session s).marks = { name := default } := by
    rw [w.session_of_unissued unissued]
    rfl
  cases turns with
  | still still => exact ⟨_, (still.sessions s).trans old⟩
  | @placed a id next stale =>
    rw [session_insertSession]
    split
    · exact ⟨id, rfl⟩
    · exact ⟨_, old⟩
  | @marked a t phase next later issued marked =>
    have different : t ≠ s := by
      intro same
      exact unissued (same ▸ issued)
    rw [marked.sessions, if_neg different]
    exact ⟨_, old⟩
  | @dropped b t =>
    rcases dropSession_cases w b t with same | ⟨-, same⟩ <;> (rw [same]; exact ⟨_, old⟩)
  | @ended stage next ending here first =>
    have different : ¬ (ending.session = s ∧ ending.session.number < w.sessions.size) := by
      intro both
      exact unissued (both.1 ▸ both.2)
    have read := session_modify w ending.session s fun session => { session with shutDown := true }
    rw [if_neg different] at read
    exact ⟨_, (congrArg Session.marks read).trans old⟩
  | taken | shut => exact ⟨_, old⟩

theorem discarded_mono (discarded : (w.session s).discarded = true) : (later.session s).discarded = true := by
  have issued := w.issued_of_mark Session.discarded rfl discarded
  rcases turns.marks issued with same | ⟨b, phase, -, same⟩ | ⟨ending, -, -, -, same⟩
  · exact (congrArg Marks.discarded same).trans discarded
  · refine (congrArg Marks.discarded same).trans ?_
    cases phase <;> first | exact discarded | rfl
  · exact (congrArg Marks.discarded same).trans discarded

theorem ended_mono (ended : (w.session s).shutDown = true) : (later.session s).shutDown = true := by
  have issued := w.issued_of_mark Session.shutDown rfl ended
  rcases turns.marks issued with same | ⟨b, phase, -, same⟩ | ⟨ending, -, -, -, same⟩
  · exact (congrArg Marks.shutDown same).trans ended
  · refine (congrArg Marks.shutDown same).trans ?_
    cases phase <;> exact ended
  · exact congrArg Marks.shutDown same

end

end Turns

end Stage

end Interleaving

end ScopeEngine
