import ScopeEngine.Proofs.OneShot.Course
import ScopeEngine.Proofs.Shutdown.Draining

/-! Every step of a task is a step of the role that its worker has with an instance, whether the task is a request, a
call from outside or a shutdown. Tasks that wait for their turn have yet to begin. -/

namespace ScopeEngine.Interleaving

open World

variable {scenario : Scenario} {worker : Nat} {shared middle after : Shared} {x : Instance}

variable {a : ApplicationId} {s : SessionId} {stage : Stage}

theorem Instance.session_ne_application {b : ApplicationId} (same : (Instance.application a).isSame x = true) :
    (Instance.session b s).isSame x = false := by
  cases x with
  | application c => rfl
  | session c t => cases same

theorem EndPhase.Goes.aside {listener : Option ListenerId} {phase : EndPhase}
    {progress : Progress EndPhase (Option Error)} (goes : phase.Goes worker listener a s shared progress after)
    (there : x.Exists shared.world) (other : (Instance.session a s).isSame x = false) :
    x.Exists after.world ∧ x.marks after.world = x.marks shared.world ∧ after.story x = shared.story x := by
  obtain ⟨still, same⟩ := goes.remarks x there
  rw [other] at same
  refine ⟨still, same, ?_⟩
  cases goes with
  | repeats | flags | dares | forgets => rfl
  | calls => simp [Event.about, other]

namespace Role

variable {role next : Role}

variable {closing : Closing} {left : Option Closing}

def AfterClose (x : Instance) (next : Role) : Option Closing → Prop
  | some later => next = later.role x
  | none => next.isAtRest = true

theorem acts_of_aside (kept : x.Exists after.world ∧ x.marks after.world = x.marks shared.world ∧
      after.story x = shared.story x)
    (goes : role.Goes (x.marks shared.world) next (x.marks shared.world) []) : role.Acts x shared next after := by
  obtain ⟨still, same, story⟩ := kept
  exact ⟨still, [], by rw [story, List.append_nil], same.symm ▸ goes⟩

theorem acts_of_close_own (goes : closing.Goes scenario worker shared left after) (there : x.Exists shared.world)
    (own : (Instance.application closing.application).isSame x = true) (on : AfterClose x next left) :
    (closing.role x).Acts x shared next after := by
  have read := Instance.marks_of_isSame (w := shared.world) own
  have later_role : ∀ later, left = some later → next = .ending later.phase.toEnd := by
    intro later same
    subst same
    have kept := goes.onward.1
    exact on.trans (if_pos (kept ▸ own))
  have flagged := remarks_modifyApplication shared.world closing.application
    (fun application => { application with shutDown := true }) ({ · with shutDown := true }) (fun _ => rfl) x there
  rw [own, if_pos rfl] at flagged
  rw [show closing.role x = .ending closing.phase.toEnd from if_pos own]
  -- Between its first step and its last a shutdown leaves the application itself alone.
  have lingers : ∀ later, left = some later → closing.phase.toEnd = .weighing → later.phase.toEnd = .weighing →
      x.Exists after.world ∧ x.marks after.world = x.marks shared.world ∧ after.story x = shared.story x →
      (Role.ending closing.phase.toEnd).Acts x shared next after := by
    intro later same before now kept
    rw [later_role later same, before, now]
    exact acts_of_aside kept .lingers
  cases goes with
  | repeats here shut =>
    have already : (x.marks shared.world).shutDown = true := read ▸ shut
    have unchanged : { x.marks shared.world with shutDown := true } = x.marks shared.world := by rw [← already]
    rw [here]
    exact acts_of_aside ⟨flagged.1, flagged.2.trans unchanged, by simp [Event.about]; rfl⟩ (.repeats already on)
  | flags here unshut =>
    have unended : (x.marks shared.world).shutDown = false := read ▸ unshut
    rw [here, later_role _ rfl]
    exact ⟨flagged.1, [], (List.append_nil _).symm, flagged.2 ▸ .flags unended⟩
  | fetches here | lists here | lacks here | drains here | relists here =>
    exact lingers _ rfl (by rw [here]; rfl) rfl ⟨there, rfl, rfl⟩
  | takes here | misses here =>
    obtain ⟨still, same⟩ := spares_takeSession _ _ _ x there
    exact lingers _ rfl (by rw [here]; rfl) rfl ⟨still, same, rfl⟩
  | ends here goes | books here goes =>
    exact lingers _ rfl (by rw [here]; rfl) rfl (goes.aside there (Instance.session_ne_application own))
  | dares here started =>
    rw [here, later_role _ rfl]
    exact acts_of_aside ⟨there, rfl, rfl⟩ (.owes (read ▸ started))
  | forgets here =>
    rw [here]
    exact acts_of_aside ⟨there, rfl, by simp [Event.about]⟩ (.forgets on)
  | @calls report answer here =>
    rw [here]
    exact ⟨there, [.ended answer], by simp [Event.about, own], .calls on⟩

theorem role_of_other {later : Closing} (other : (Instance.application closing.application).isSame x = false)
    (same : later.application = closing.application) :
    later.role x = match later.phase with
      | .ending s phase _ => (Stage.finishing closing.application s closing.listener phase).role x
      | _ => .absent := by
  rw [Closing.role, same, other, if_neg Bool.false_ne_true]
  rfl

section

variable (goes : closing.Goes scenario worker shared left after) (there : x.Exists shared.world)
include goes there

theorem acts_of_close_other (other : (Instance.application closing.application).isSame x = false) (on : AfterClose x next left) :
    (closing.role x).Acts x shared next after := by
  have flagged := remarks_modifyApplication shared.world closing.application
    (fun application => { application with shutDown := true }) ({ · with shutDown := true }) (fun _ => rfl) x there
  rw [other, if_neg Bool.false_ne_true] at flagged
  rw [role_of_other other rfl]
  cases goes with
  | repeats here shut =>
    rw [here]
    exact acts_of_aside ⟨flagged.1, flagged.2, by simp [Event.about]; rfl⟩ (.rests on)
  | flags here =>
    have absent : next = .absent := on.trans (role_of_other other rfl)
    rw [here, absent]
    exact acts_of_aside ⟨flagged.1, flagged.2, rfl⟩ (.rests rfl)
  | fetches here | lists here | lacks here | drains here | relists here | dares here =>
    have absent : next = .absent := on.trans (role_of_other other rfl)
    rw [here, absent]
    exact acts_of_aside ⟨there, rfl, rfl⟩ (.rests rfl)
  | @takes id ids s here free found =>
    have first : next = (Stage.finishing closing.application s closing.listener .flagging).role x :=
      on.trans (role_of_other other rfl)
    have rest : next.isAtRest = true := by
      rw [first, Stage.role]
      split <;> rfl
    obtain ⟨still, same⟩ := spares_takeSession shared.world closing.application id x there
    rw [here]
    exact acts_of_aside ⟨still, same, rfl⟩ (.rests rest)
  | @misses id ids here missing =>
    have absent : next = .absent := on.trans (role_of_other other rfl)
    obtain ⟨still, same⟩ := spares_takeSession shared.world closing.application id x there
    rw [here, absent]
    exact acts_of_aside ⟨still, same, rfl⟩ (.rests rfl)
  | ends here goes =>
    rw [here]
    exact acts_of_end goes there (on.trans (role_of_other other rfl))
  | @books s phase ids error after here goes =>
    have absent : next = .absent := by
      refine on.trans ((role_of_other other ?_).trans ?_)
      · cases error <;> rfl
      · cases error <;> rfl
    rw [here]
    refine acts_of_end goes there ?_
    rw [absent]
    rfl
  | forgets here =>
    rw [here]
    exact acts_of_aside ⟨there, rfl, by simp [Event.about]⟩ (.rests on)
  | calls here =>
    rw [here]
    exact acts_of_aside ⟨there, rfl, by simp [Event.about, other]⟩ (.rests on)

theorem acts_of_close (on : AfterClose x next left) : (closing.role x).Acts x shared next after := by
  cases own : (Instance.application closing.application).isSame x with
  | true => exact acts_of_close_own goes there own on
  | false => exact acts_of_close_other goes there own on

end

end Role

theorem Stage.AtRest.role {w : World} (rest : stage.AtRest w) : (stage.role x).isAtRest = true := by
  cases stage with
  | idle | opening => rfl
  | starting y phase =>
    rw [Stage.role, rest.1]
    split <;> rfl
  | finishing => exact absurd rest id
  | closing current =>
    have first : current.phase = .flagging := rest
    rw [Stage.role, Closing.role, first]
    split <;> rfl

theorem acts_of_open {id : Key} {phase : OpenPhase} {progress : Progress OpenPhase (Option Placed)}
    (goes : phase.Goes scenario worker a id shared progress after) (there : x.Exists shared.world) {next : Role}
    (rest : next.isAtRest = true) : Role.absent.Acts x shared next after := by
  cases goes with
  | reserves | admits | finds => exact Role.acts_of_aside ⟨there, rfl, rfl⟩ (.rests rest)
  | declines => exact Role.acts_of_aside ⟨there, rfl, by simp [Event.about]; rfl⟩ (.rests rest)
  | @places stale found defunct =>
    obtain ⟨still, same⟩ := spares_insertSession shared.world a id stale x there
    exact Role.acts_of_aside ⟨still, same, by simp [Event.about]; rfl⟩ (.rests rest)

/-- Every step of a worker is a step of the role that it has with the instance. -/
theorem Stage.Goes.acts {next : Stage}
    (step : stage.Goes (fun _ stage => (stage.role x).isAtRest = true) scenario worker shared next after)
    (there : x.Exists shared.world) : (stage.role x).Acts x shared (next.role x) after := by
  cases step with
  | idle quiet rest => exact Role.acts_of_quiet quiet there rest
  | asking goes => exact acts_of_open goes there rfl
  | asked goes _ rest => exact acts_of_open goes there rest
  | replaced goes =>
    -- Who has to end a session that was replaced has yet to begin.
    refine acts_of_open goes there ?_
    rw [Stage.role]
    split <;> rfl
  | starting goes => exact Role.acts_of_start goes there rfl
  | attempted goes quiet rest => exact (Role.acts_of_start goes there rest).quiet quiet
  | finishing goes => exact Role.acts_of_end goes there rfl
  | finished goes rest => exact Role.acts_of_end goes there rest
  | closing goes => exact Role.acts_of_close goes there rfl
  | closed goes rest => exact Role.acts_of_close goes there rest

namespace Machine

def role (m : Machine) (x : Instance) (worker : Nat) : Role := (m.stage worker).role x

/-- After what happened to it before, the instance has run the course of one that is started and ended once. -/
structure Course (m : Machine) (x : Instance) (before : List Happening) (lost : Prop) : Prop where
  there : x.Exists m.shared.world
  starts : OneStart (x.marks m.shared.world) (before ++ m.shared.story x) (m.role x)
  ends : OneEnd (x.marks m.shared.world) (before ++ m.shared.story x) (m.role x) lost

variable {m next : Machine} {before : List Happening} {lost : Prop}

theorem Course.acts (course : m.Course x before lost) (others : ∀ other, other ≠ worker → next.role x other = m.role x other)
    (acts : (m.role x worker).Acts x m.shared (next.role x worker) next.shared) :
    next.Course x before (lost ∨ (m.role x worker).Forgets (next.role x worker)) := by
  obtain ⟨news, told, goes⟩ := acts.goes
  refine ⟨acts.there, ?_, ?_⟩
  · rw [told, ← List.append_assoc]
    exact course.starts.step course.ends others goes
  · rw [told, ← List.append_assoc]
    exact course.ends.step others goes

theorem Moves.acts (moves : m.Moves worker next) (there : x.Exists m.shared.world) :
    (m.role x worker).Acts x m.shared (next.role x worker) next.shared :=
  (moves.step.mono Stage.AtRest.role).acts there

theorem Course.moves (course : m.Course x before lost) (moves : m.Moves worker next) :
    next.Course x before (lost ∨ (m.role x worker).Forgets (next.role x worker)) :=
  course.acts (fun other acting => congrArg (Stage.role x) (moves.others other acting)) (moves.acts course.there)

end Machine

end ScopeEngine.Interleaving
