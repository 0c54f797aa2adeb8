import ScopeEngine.Proofs.Traces

/-! What happens to one instance while many workers have it started or ended. Its story is what the log tells of it, in
order; the role of a worker is where it has got to with the instance. Applications and sessions are started and ended in
the same steps, so that stories and roles are those of instances. -/

namespace ScopeEngine.Interleaving

inductive Happening where
  | begun (answer : Answer)
  | ended (answer : Answer)
  | attempted (result : StartResult)
deriving DecidableEq, Repr

namespace Instance

def isSame : Instance → Instance → Bool
  | .application a, .application b => a == b
  | .session _ s, .session _ t => s == t
  | .application _, .session .. | .session .., .application _ => false

def Exists (w : World) : Instance → Prop
  | .application a => a.number < w.applications.size
  | .session _ s => s.number < w.sessions.size

def marks (w : World) : Instance → Marks
  | .application a => w.marks a
  | .session _ s => (w.session s).marks

variable {x y : Instance} {w : World}

theorem marks_of_isSame (same : y.isSame x = true) : y.marks w = x.marks w := by
  cases x <;> cases y <;> simp_all [isSame, marks]

theorem isStarted_eq (y : Instance) (w : World) : y.isStarted w = (y.marks w).started := by
  cases y <;> rfl

theorem isDiscarded_eq (y : Instance) (w : World) : y.isDiscarded w = (y.marks w).discarded := by
  cases y <;> rfl

theorem isLocked_eq (y : Instance) (w : World) : y.isLocked w = (y.marks w).starting := by
  cases y <;> rfl

end Instance

end Interleaving

namespace World

open Interleaving (Instance)

/-- The change marks one instance as said, and leaves the marks of all others alone. -/
def Remarks (w : World) (y : Instance) (mark : Marks → Marks) (later : World) : Prop :=
  ∀ x : Instance, x.Exists w →
    x.Exists later ∧ x.marks later = if y.isSame x then mark (x.marks w) else x.marks w

def Spares (w later : World) : Prop :=
  ∀ x : Instance, x.Exists w → x.Exists later ∧ x.marks later = x.marks w

variable {w later last : World} {y : Instance}

theorem Spares.refl (w : World) : w.Spares w := fun _ there => ⟨there, rfl⟩

theorem Spares.trans (first : w.Spares later) (second : later.Spares last) : w.Spares last := by
  intro x there
  obtain ⟨still, same⟩ := first x there
  obtain ⟨always, equal⟩ := second x still
  exact ⟨always, equal.trans same⟩

theorem Spares.remarks (spares : w.Spares later) (y : Instance) : w.Remarks y (fun marks => marks) later := by
  intro x there
  obtain ⟨still, same⟩ := spares x there
  exact ⟨still, by rw [same, ite_self]⟩

section

variable (w : World)
variable (a : ApplicationId) (id : Key) (change : Application → Application)

theorem remarks_modifyApplication
    (mark : Marks → Marks) (marked : ∀ application, (change application).marks = mark application.marks) :
    w.Remarks (.application a) mark (w.modifyApplication a change) := by
  intro x there
  cases x with
  | session b s => exact ⟨there, rfl⟩
  | application b =>
    refine ⟨Nat.lt_of_lt_of_eq there (Table.size_set ..).symm, ?_⟩
    simp only [Instance.marks, World.marks, Instance.isSame, beq_iff_eq, application_modify]
    by_cases same : a = b
    · subst b
      rw [if_pos ⟨rfl, there⟩, if_pos rfl, marked]
    · rw [if_neg fun both => same both.1, if_neg same]

theorem remarks_modifySession (b : ApplicationId) (s : SessionId) (change : Session → Session)
    (mark : Marks → Marks) (marked : ∀ session, (change session).marks = mark session.marks) :
    w.Remarks (.session b s) mark (w.modifySession s change) := by
  intro x there
  cases x with
  | application a => exact ⟨there, rfl⟩
  | session c t =>
    refine ⟨Nat.lt_of_lt_of_eq there (Table.size_set ..).symm, ?_⟩
    simp only [Instance.marks, Instance.isSame, beq_iff_eq, session_modify]
    by_cases same : s = t
    · subst t
      rw [if_pos ⟨rfl, there⟩, if_pos rfl, marked]
    · rw [if_neg fun both => same both.1, if_neg same]

theorem spares_modifyApplication
    (marked : ∀ application, (change application).marks = application.marks) :
    w.Spares (w.modifyApplication a change) := by
  intro x there
  obtain ⟨still, same⟩ := remarks_modifyApplication w a change (fun marks => marks) marked x there
  exact ⟨still, by rw [same, ite_self]⟩

theorem spares_unregister : w.Spares (w.unregister a).2 := by
  simp only [unregister]
  split
  · exact fun _ there => ⟨there, rfl⟩
  · exact .refl w

theorem spares_takeSession : w.Spares (w.takeSession a id).2 :=
  spares_modifyApplication w a _ fun _ => rfl

theorem spares_dropSession (s : SessionId) : w.Spares (w.dropSession a s).2 := by
  rcases dropSession_cases w a s with same | ⟨-, same⟩
  · rw [same]
    exact .refl w
  · rw [same]
    exact spares_takeSession w a _

theorem spares_insertSession (stale : Option SessionId) :
    w.Spares (w.insertSession a id stale).2 := by
  let made := (w.newSession id (w.application a).name (w.application a).sessionTimeout.duration).2
  have placed : made.Spares (w.insertSession a id stale).2 := spares_modifyApplication made a _ fun _ => rfl
  refine Spares.trans ?_ placed
  intro x there
  cases x with
  | application b => exact ⟨there, rfl⟩
  | session b s =>
    have grown : made.sessions.size = w.sessions.size + 1 := Table.size_add ..
    have read : made.session s = w.session s := Table.get_add_of_lt w.sessions _ there
    refine ⟨?_, congrArg Session.marks read⟩
    rw [Instance.Exists, grown]
    exact Nat.lt_succ_of_lt there

end

end World

namespace Interleaving

variable {after shared : Shared}

def Event.about (x : Instance) : Event → Option Happening
  | .called _ hook y answer =>
    if y.isSame x then
      match hook with
      | .applicationStart | .sessionStart => some (.begun answer)
      | .sessionEnd | .applicationEnd => some (.ended answer)
    else none
  | .attempted _ y result => if y.isSame x then some (.attempted result) else none
  | .placed .. | .declined .. | .visited .. | .closed .. => none

def Shared.story (shared : Shared) (x : Instance) : List Happening :=
  shared.log.reverse.filterMap (Event.about x)

@[simp] theorem Shared.story_note (shared : Shared) (event : Event) (x : Instance) :
    (shared.note event).story x = shared.story x ++ (event.about x).toList := by
  cases told : event.about x <;> simp [story, note, told]

@[simp] theorem Shared.story_change (shared : Shared) (operation : World → World) (x : Instance) :
    (shared.change operation).story x = shared.story x := rfl

theorem Shared.Quiet.story (quiet : shared.Quiet after) (x : Instance) :
    after.story x = shared.story x := by
  rcases quiet.log with same | ⟨worker, turn, result, log⟩
  · simp [Shared.story, same]
  · simp [Shared.story, log, Event.about]

theorem Shared.Quiet.spares (quiet : shared.Quiet after) : shared.world.Spares after.world := by
  intro x there
  cases x with
  | application a => exact ⟨Nat.lt_of_lt_of_le there quiet.world.applications, quiet.marks a there⟩
  | session a s => exact ⟨Nat.lt_of_lt_of_eq there quiet.world.issued.symm, quiet.world.sessions s⟩

inductive Role where
  | absent
  | starting (phase : StartPhase)
  | ending (phase : EndPhase)
deriving DecidableEq, Repr

def Role.isAtRest : Role → Bool
  | .absent | .starting .glancing | .ending .flagging => true
  | _ => false

/-- How far a shutdown has got with the end of the application itself. -/
def ClosePhase.toEnd : ClosePhase → EndPhase
  | .flagging => .flagging
  | .calling => .calling
  | .fetching | .listing .. | .draining _ | .ending .. | .weighing => .weighing

def Closing.role (closing : Closing) (x : Instance) : Role :=
  if (Instance.application closing.application).isSame x then .ending closing.phase.toEnd
  else
    match closing.phase with
    | .ending s phase _ => if (Instance.session closing.application s).isSame x then .ending phase else .absent
    | _ => .absent

def Stage.role (x : Instance) : Stage → Role
  | .starting y phase => if y.isSame x then .starting phase else .absent
  | .finishing a s _ phase => if (Instance.session a s).isSame x then .ending phase else .absent
  | .closing current => current.role x
  | .idle | .opening .. => .absent

/-- What a worker can do in its role: the role it gets to, the marks of the instance then, and what the log tells
more. -/
inductive Role.Goes (marks : Marks) : Role → Role → Marks → List Happening → Prop
  | rests {next : Role} (rest : next.isAtRest = true) : Goes marks .absent next marks []
  | glances {next : Role} (started : marks.started = true) (rest : next.isAtRest = true) :
      Goes marks (.starting .glancing) next marks [.attempted .started]
  | waits : Goes marks (.starting .glancing) (.starting .waiting) marks []
  | locks (free : marks.starting = false) :
      Goes marks (.starting .waiting) (.starting .inspecting) { marks with starting := true } []
  | finds (started : marks.started = true) :
      Goes marks (.starting .inspecting) (.starting (.leaving .started)) marks []
  | misses (unstarted : marks.started = false) (gone : marks.discarded = true) :
      Goes marks (.starting .inspecting) (.starting (.leaving .gone)) marks []
  | dares (unstarted : marks.started = false) (there : marks.discarded = false) :
      Goes marks (.starting .inspecting) (.starting .calling) marks []
  | proceeds : Goes marks (.starting .calling) (.starting .recording) marks [.begun .proceed]
  | refuses {answer : Answer} {cause : Error} (refused : answer ≠ .proceed) :
      Goes marks (.starting .calling) (.starting (.discarding cause)) marks [.begun answer]
  | records : Goes marks (.starting .recording) (.starting .marking) marks []
  | marks : Goes marks (.starting .marking) (.starting (.leaving .started)) { marks with started := true } []
  | discards {cause : Error} :
      Goes marks (.starting (.discarding cause)) (.starting (.removing cause)) { marks with discarded := true } []
  | removes {cause error : Error} :
      Goes marks (.starting (.removing cause)) (.starting (.leaving (.failed error))) marks []
  | leaves {result : StartResult} {next : Role} (rest : next.isAtRest = true) :
      Goes marks (.starting (.leaving result)) next { marks with starting := false } [.attempted result]
  | repeats {next : Role} (ended : marks.shutDown = true) (rest : next.isAtRest = true) :
      Goes marks (.ending .flagging) next marks []
  | flags (unended : marks.shutDown = false) :
      Goes marks (.ending .flagging) (.ending .weighing) { marks with shutDown := true } []
  | lingers : Goes marks (.ending .weighing) (.ending .weighing) marks []
  | owes (started : marks.started = true) : Goes marks (.ending .weighing) (.ending .calling) marks []
  | forgets {next : Role} (rest : next.isAtRest = true) : Goes marks (.ending .weighing) next marks []
  | calls {answer : Answer} {next : Role} (rest : next.isAtRest = true) :
      Goes marks (.ending .calling) next marks [.ended answer]

structure Role.Acts (x : Instance) (shared : Shared) (role next : Role) (after : Shared) : Prop where
  there : x.Exists after.world
  goes : ∃ news, after.story x = shared.story x ++ news ∧
    role.Goes (x.marks shared.world) next (x.marks after.world) news

variable {scenario : Scenario} {worker : Nat} {shared middle after : Shared} {x y : Instance}

theorem StartPhase.Goes.remarks {phase : StartPhase} {progress : Progress StartPhase StartResult}
    (goes : phase.Goes scenario worker y shared progress after) : shared.world.Remarks y phase.mark after.world := by
  cases goes with
  | glances | waits | finds | misses | dares | proceeds | refuses => exact (World.Spares.refl _).remarks y
  | locks | marks | discards | leaves =>
    cases y with
    | application a => exact World.remarks_modifyApplication _ a _ _ fun _ => rfl
    | session a s => exact World.remarks_modifySession _ a s _ _ fun _ => rfl
  | records =>
    cases y with
    | application a =>
      have kept : shared.world.Spares (shared.world.keepListener a scenario.listener) :=
        World.spares_modifyApplication _ a _ fun _ => rfl
      exact kept.remarks _
    | session a s => exact (World.Spares.refl _).remarks _
  | removes =>
    cases y with
    | application a => exact (World.spares_unregister _ a).remarks _
    | session a s => exact (World.spares_dropSession _ a s).remarks _

namespace Role

variable {role next : Role}

theorem Acts.quiet (acts : role.Acts x shared next middle) (quiet : middle.Quiet after) : role.Acts x shared next after := by
  obtain ⟨still, same⟩ := quiet.spares x acts.there
  obtain ⟨news, told, goes⟩ := acts.goes
  exact ⟨still, news, (quiet.story x).trans told, same.symm ▸ goes⟩

theorem acts_of_quiet (quiet : shared.Quiet after) (there : x.Exists shared.world) (rest : next.isAtRest = true) :
    absent.Acts x shared next after :=
  Acts.quiet ⟨there, [], (List.append_nil _).symm, .rests rest⟩ quiet

def AfterStart (x y : Instance) (next : Role) : Progress StartPhase StartResult → Prop
  | .more later => next = (Stage.starting y later).role x
  | .done _ => next.isAtRest = true

theorem acts_of_start {phase : StartPhase} {progress : Progress StartPhase StartResult}
    (goes : phase.Goes scenario worker y shared progress after) (there : x.Exists shared.world)
    (on : AfterStart x y next progress) : ((Stage.starting y phase).role x).Acts x shared next after := by
  obtain ⟨still, marks⟩ := goes.remarks x there
  cases same : y.isSame x with
  | false =>
    simp only [Stage.role, same, Bool.false_eq_true, if_false] at marks ⊢
    have rest : next.isAtRest = true := by
      cases progress with
      | more later =>
        have absent : next = (Stage.starting y later).role x := on
        simp [absent, Stage.role, same, isAtRest]
      | done result => exact on
    refine ⟨still, [], ?_, marks ▸ .rests rest⟩
    cases goes with
    | waits | locks | finds | misses | dares | records | marks | discards | removes => simp [Shared.story, Shared.change]
    | glances | proceeds | refuses | leaves => simp [Event.about, same]
  | true =>
    have starting : ∀ later, (Stage.starting y later).role x = .starting later := by simp [Stage.role, same]
    have read := Instance.marks_of_isSame (w := shared.world) same
    simp only [same, if_true] at marks
    rw [starting phase]
    refine ⟨still, ?_⟩
    rw [marks]
    cases goes with
    | glances started =>
      refine ⟨[.attempted .started], by simp [Event.about, same], .glances ?_ on⟩
      rwa [y.isStarted_eq, read] at started
    | waits unstarted => exact ⟨[], by simp, on.trans (starting _) ▸ .waits⟩
    | locks free =>
      refine ⟨[], by simp, on.trans (starting _) ▸ .locks ?_⟩
      rwa [y.isLocked_eq, read] at free
    | finds started =>
      refine ⟨[], by simp, on.trans (starting _) ▸ .finds ?_⟩
      rwa [y.isStarted_eq, read] at started
    | misses unstarted gone =>
      refine ⟨[], by simp, on.trans (starting _) ▸ .misses ?_ ?_⟩
      · rwa [y.isStarted_eq, read] at unstarted
      · rwa [y.isDiscarded_eq, read] at gone
    | dares unstarted undiscarded =>
      refine ⟨[], by simp, on.trans (starting _) ▸ .dares ?_ ?_⟩
      · rwa [y.isStarted_eq, read] at unstarted
      · rwa [y.isDiscarded_eq, read] at undiscarded
    | proceeds =>
      refine ⟨[.begun .proceed], ?_, on.trans (starting _) ▸ .proceeds⟩
      cases y <;> simp [Event.about, same, Instance.startHook]
    | @refuses answer cause refusal =>
      refine ⟨[.begun answer], ?_, on.trans (starting _) ▸ .refuses ?_⟩
      · cases y <;> simp [Event.about, same, Instance.startHook]
      · rintro rfl
        cases refusal
    | records => exact ⟨[], by simp, on.trans (starting _) ▸ .records⟩
    | marks => exact ⟨[], by simp, on.trans (starting _) ▸ .marks⟩
    | discards => exact ⟨[], by simp, on.trans (starting _) ▸ .discards⟩
    | removes free => exact ⟨[], by simp, on.trans (starting _) ▸ .removes⟩
    | @leaves result => exact ⟨[.attempted result], by simp [Event.about, same], .leaves on⟩

end Role

theorem EndPhase.Goes.remarks {listener : Option ListenerId} {a : ApplicationId} {s : SessionId} {phase : EndPhase}
    {progress : Progress EndPhase (Option Error)} (goes : phase.Goes worker listener a s shared progress after) :
    shared.world.Remarks (.session a s) (if phase = .flagging then ({ · with shutDown := true }) else (·)) after.world := by
  cases goes with
  | repeats | flags => exact World.remarks_modifySession _ a s _ _ fun _ => rfl
  | dares | forgets | calls => exact (World.Spares.refl _).remarks _

namespace Role

variable {role next : Role}

def AfterEnd (x : Instance) (a : ApplicationId) (s : SessionId) (listener : Option ListenerId) (next : Role) :
    Progress EndPhase (Option Error) → Prop
  | .more later => next = (Stage.finishing a s listener later).role x
  | .done _ => next.isAtRest = true

theorem acts_of_end {listener : Option ListenerId} {a : ApplicationId} {s : SessionId} {phase : EndPhase}
    {progress : Progress EndPhase (Option Error)} (goes : phase.Goes worker listener a s shared progress after)
    (there : x.Exists shared.world) (on : AfterEnd x a s listener next progress) :
    ((Stage.finishing a s listener phase).role x).Acts x shared next after := by
  obtain ⟨still, marks⟩ := goes.remarks x there
  cases same : (Instance.session a s).isSame x with
  | false =>
    simp only [Stage.role, same, Bool.false_eq_true, if_false] at marks ⊢
    have rest : next.isAtRest = true := by
      cases progress with
      | more later =>
        have absent : next = (Stage.finishing a s listener later).role x := on
        simp [absent, Stage.role, same, isAtRest]
      | done error => exact on
    refine ⟨still, [], ?_, marks ▸ .rests rest⟩
    cases goes with
    | repeats | flags | dares | forgets => simp [Shared.story]
    | calls => simp [Event.about, same]
  | true =>
    have ending : ∀ later, (Stage.finishing a s listener later).role x = .ending later := by simp [Stage.role, same]
    have read := Instance.marks_of_isSame (w := shared.world) same
    simp only [same, if_true] at marks
    rw [ending phase]
    refine ⟨still, ?_⟩
    rw [marks]
    cases goes with
    | repeats ended =>
      have already : (x.marks shared.world).shutDown = true := read ▸ ended
      refine ⟨[], by simp [Shared.story], ?_⟩
      have unchanged : { x.marks shared.world with shutDown := true } = x.marks shared.world := by rw [← already]
      rw [if_pos rfl, unchanged]
      exact .repeats already on
    | flags unended => exact ⟨[], by simp [Shared.story], on.trans (ending _) ▸ .flags (read ▸ unended)⟩
    | dares due =>
      have started : (x.marks shared.world).started = true := read ▸ (Bool.and_eq_true_iff.mp due).1
      exact ⟨[], by simp, on.trans (ending _) ▸ .owes started⟩
    | forgets undue => exact ⟨[], by simp, .forgets on⟩
    | @calls answer error => exact ⟨[.ended answer], by simp [Event.about, same], .calls on⟩

end Role

end Interleaving

end ScopeEngine
