import ScopeEngine.Proofs.Coherence.Running
import ScopeEngine.Proofs.Copying.Inheritance

/-! What code that only fills scopes leaves alone. Contexts, applications and sessions stay what they are, apart from the
times of the last accesses; new ones may be added. -/

namespace ScopeEngine

open ScopeEngine.Action

namespace World

variable {w later last : World} {c r : ContextId} {a : ApplicationId} {s : SessionId} {request : Request}

structure Respects (w later : World) : Prop where
  contexts : w.contexts.size ≤ later.contexts.size
  kind : ∀ c : ContextId, c.number < w.contexts.size → (later.context c).kind = (w.context c).kind
  parent : ∀ c : ContextId, c.number < w.contexts.size → (later.context c).parent = (w.context c).parent
  applications : w.applications.size ≤ later.applications.size
  application : ∀ a : ApplicationId, a.number < w.applications.size →
    later.application a = { w.application a with lastAccess := (later.application a).lastAccess }
  sessions : w.sessions.size ≤ later.sessions.size
  session : ∀ s : SessionId, s.number < w.sessions.size →
    later.session s = { w.session s with lastVisit := (later.session s).lastVisit }
  scopes : w.scopes.size ≤ later.scopes.size

/-- Whether only scopes were filled can be seen row by row. -/
theorem respects_iff : w.Respects later ↔
    (w.contexts.size ≤ later.contexts.size ∧ w.applications.size ≤ later.applications.size ∧
      w.sessions.size ≤ later.sessions.size ∧ w.scopes.size ≤ later.scopes.size) ∧
    (∀ n : Fin w.contexts.size, (later.context ⟨n⟩).kind = (w.context ⟨n⟩).kind ∧
      (later.context ⟨n⟩).parent = (w.context ⟨n⟩).parent) ∧
    (∀ n : Fin w.applications.size,
      later.application ⟨n⟩ = { w.application ⟨n⟩ with lastAccess := (later.application ⟨n⟩).lastAccess }) ∧
    ∀ n : Fin w.sessions.size, later.session ⟨n⟩ = { w.session ⟨n⟩ with lastVisit := (later.session ⟨n⟩).lastVisit } := by
  constructor
  · intro respects
    exact ⟨⟨respects.contexts, respects.applications, respects.sessions, respects.scopes⟩,
      fun n => ⟨respects.kind ⟨n⟩ n.isLt, respects.parent ⟨n⟩ n.isLt⟩, fun n => respects.application ⟨n⟩ n.isLt,
      fun n => respects.session ⟨n⟩ n.isLt⟩
  · rintro ⟨⟨contexts, applications, sessions, scopes⟩, context, application, session⟩
    exact ⟨contexts, fun c issued => (context ⟨c.number, issued⟩).1, fun c issued => (context ⟨c.number, issued⟩).2,
      applications, fun a issued => application ⟨a.number, issued⟩, sessions, fun s issued => session ⟨s.number, issued⟩,
      scopes⟩

instance : Decidable (w.Respects later) := decidable_of_iff' _ respects_iff

theorem respects_of_same (contexts : later.contexts = w.contexts) (applications : later.applications = w.applications)
    (sessions : later.sessions = w.sessions) (scopes : w.scopes.size ≤ later.scopes.size) : w.Respects later where
  contexts := Nat.le_of_eq (by rw [contexts])
  kind := fun c _ => by rw [context, contexts, context]
  parent := fun c _ => by rw [context, contexts, context]
  applications := Nat.le_of_eq (by rw [applications])
  application := fun a _ => by rw [application, applications, application]
  sessions := Nat.le_of_eq (by rw [sessions])
  session := fun s _ => by rw [session, sessions, session]
  scopes := scopes

theorem Respects.refl (w : World) : w.Respects w := respects_of_same rfl rfl rfl (Nat.le_refl _)

theorem Respects.trans (first : w.Respects later) (second : later.Respects last) : w.Respects last where
  contexts := Nat.le_trans first.contexts second.contexts
  kind := fun c issued =>
    (second.kind c (Nat.lt_of_lt_of_le issued first.contexts)).trans (first.kind c issued)
  parent := fun c issued =>
    (second.parent c (Nat.lt_of_lt_of_le issued first.contexts)).trans (first.parent c issued)
  applications := Nat.le_trans first.applications second.applications
  application := fun a issued => by
    rw [second.application a (Nat.lt_of_lt_of_le issued first.applications), first.application a issued]
  sessions := Nat.le_trans first.sessions second.sessions
  session := fun s issued => by
    rw [second.session s (Nat.lt_of_lt_of_le issued first.sessions), first.session s issued]
  scopes := Nat.le_trans first.scopes second.scopes

theorem respects_addContext (w : World) (context : Context) : w.Respects (w.addContext context).2 :=
  { Respects.refl w with
    contexts := Table.size_le_size_add ..
    kind := fun c issued => by rw [context_addContext_of_lt w context issued]
    parent := fun c issued => by rw [context_addContext_of_lt w context issued] }

theorem respects_touchApplication (w : World) (a : ApplicationId) : w.Respects (w.touchApplication a) :=
  { Respects.refl w with
    applications := Nat.le_of_eq (Table.size_set ..).symm
    application := fun b _ => by
      simp only [touchApplication, application_modify]
      split
      next same =>
        rw [← same.1]
        rfl
      next => rfl }

theorem respects_touchSession (w : World) (s : SessionId) : w.Respects (w.touchSession s) := by
  have visits : w.Respects (w.readClock.2.modifySession s fun session => { session with lastVisit := w.clock.millis }) :=
    { Respects.refl w with
      sessions := Nat.le_of_eq (Table.size_set ..).symm
      session := fun t _ => by
        rw [session_modify]
        split
        next same =>
          rw [← same.1]
          rfl
        next => rfl }
  simp only [touchSession]
  split
  · exact visits.trans (respects_of_same rfl rfl rfl (Nat.le_of_eq (Table.size_set ..).symm))
  · exact visits

theorem modifyRequest_scopes (w : World) (r : ContextId) (change : Request → Request) :
    (w.modifyRequest r change).scopes = w.scopes := by
  obtain ⟨contexts, same⟩ := w.modifyRequest_eq r change
  rw [same]

theorem Respects.modifyRequest (respects : w.Respects later) (new : w.contexts.size ≤ r.number)
    (change : Request → Request) : w.Respects (later.modifyRequest r change) := by
  have others : ∀ c : ContextId, c.number < w.contexts.size →
      (later.modifyRequest r change).context c = later.context c := by
    intro c issued
    have older : r ≠ c := by
      rintro rfl
      exact Nat.not_lt_of_le new issued
    rw [context_modifyRequest]
    split
    · rw [if_neg older]
    · rfl
  exact {
    contexts := by rw [modifyRequest_size]; exact respects.contexts
    kind := fun c issued => by rw [others c issued]; exact respects.kind c issued
    parent := fun c issued => by rw [others c issued]; exact respects.parent c issued
    applications := by rw [modifyRequest_applications]; exact respects.applications
    application := fun a issued => by rw [modifyRequest_application]; exact respects.application a issued
    sessions := by rw [modifyRequest_sessions]; exact respects.sessions
    session := fun s issued => by rw [modifyRequest_session]; exact respects.session s issued
    scopes := by rw [modifyRequest_scopes]; exact respects.scopes }

theorem respects_newDetached (w : World) (parent : ContextId) (a : ApplicationId) :
    w.Respects (w.newDetached parent a).2 := by
  have frames : w.Respects w.framed := by
    refine respects_of_same rfl rfl rfl ?_
    have sizes : w.framed.scopes.size = w.scopes.size + 1 + 1 := by simp only [framed, addScope, Table.size_add]
    omega
  have opens : w.Respects (w.newRequest parent true).2 := frames.trans (respects_addContext _ _)
  have nodes : w.Respects ((w.newRequest parent true).2.addNode (.application a)).2 :=
    opens.trans (respects_addContext _ _)
  exact nodes.modifyRequest (Nat.le_refl _) _

namespace Respects

variable (respects : w.Respects later)
include respects

theorem request? (issued : r.number < w.contexts.size) : (later.context r).request? = (w.context r).request? := by
  simp only [Context.request?, respects.kind r issued]

theorem extends_ : w.Extends later where
  size := respects.contexts
  parent := respects.parent
  request := fun c issued => by rw [respects.request? issued]

theorem at_ (there : (w.context r).request? = some request) : (later.context r).request? = some request := by
  rw [respects.request? (issued_of_request there), there]

end Respects

end World

end ScopeEngine
