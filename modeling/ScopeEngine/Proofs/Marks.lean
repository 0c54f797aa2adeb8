import ScopeEngine.Lifecycle.Instances
import ScopeEngine.Proofs.Bindings
import ScopeEngine.Proofs.Identities

/-! The marks of an application: its name and the flags by which requests decide whether to use it, to start it or to
look it up again. A lookup and the placing of a session leave the marks of every instance there was. -/

namespace ScopeEngine

structure Marks where
  name : Key
  started : Bool := false
  discarded : Bool := false
  shutDown : Bool := false
  starting : Bool := false

def Application.marks (application : Application) : Marks :=
  ⟨application.name, application.started, application.discarded, application.shutDown, application.starting⟩

namespace World

def marks (w : World) (a : ApplicationId) : Marks := (w.application a).marks

variable (w : World) (a b : ApplicationId)

@[simp] theorem marks_touchApplication : (w.touchApplication a).marks b = w.marks b :=
  application_modify_keeps _ a b Application.marks fun _ => rfl

@[simp] theorem marks_unregister : (w.unregister a).2.marks b = w.marks b := by
  simp only [unregister]
  split <;> rfl

variable {w a}

section

variable (w : World) (name : Key) (settings : Settings)

theorem marks_newApplication (b : ApplicationId) :
    (w.newApplication name settings).2.marks b = if b = w.applications.next then { name } else w.marks b := by
  have read : (w.newApplication name settings).2.application b = _ := Table.get_add w.applications b _
  simp only [marks, read]
  split <;> rfl

/-- A lookup finds a live instance and changes nothing, or it registers a new one because there was none. -/
theorem findOrCreateApplication_cases :
    (∃ a, w.findOrCreateApplication name settings = (a, w) ∧ w.registry.find? name = some a ∧
      (w.marks a).discarded = false ∧ (w.marks a).shutDown = false) ∨
    (∃ next, w.findOrCreateApplication name settings = (w.applications.next, next) ∧
      (∀ a, w.registry.find? name = some a → ((w.marks a).discarded || (w.marks a).shutDown) = true) ∧
      next.registry = w.registry.insert name w.applications.next ∧
      next.applications.size = w.applications.size + 1 ∧
      ∀ b, next.marks b = if b = w.applications.next then { name } else w.marks b) := by
  let made := (w.newApplication name settings).2
  let next := { made with registry := made.registry.insert name w.applications.next }
  have grown : next.applications.size = w.applications.size + 1 := Table.size_add ..
  have marked := marks_newApplication w name settings
  cases found : w.registry.find? name with
  | none => exact .inr ⟨next, by simp only [findOrCreateApplication, found]; rfl, by simp, rfl, grown, marked⟩
  | some a =>
    cases defunct : (w.application a).isDefunct with
    | true =>
      refine .inr ⟨next, by simp only [findOrCreateApplication, found, defunct, if_true]; rfl, ?_, rfl, grown, marked⟩
      intro other same
      cases same
      exact defunct
    | false =>
      have live := Bool.or_eq_false_iff.mp defunct
      exact .inl ⟨a, by simp [findOrCreateApplication, found, defunct], rfl, live⟩

theorem marks_findOrCreateApplication (b : ApplicationId)
    (issued : b.number < w.applications.size) : (w.findOrCreateApplication name settings).2.marks b = w.marks b := by
  rcases w.findOrCreateApplication_cases name settings with ⟨a, same, -⟩ | ⟨next, same, -, -, -, marked⟩
  · rw [same]
  · rw [same, marked, if_neg]
    rintro rfl
    exact Nat.lt_irrefl _ issued

end

section

variable (w : World) (a : ApplicationId) (id : Key) (stale : Option SessionId)

abbrev arrival : Session :=
  { id, application := (w.application a).name, scope := w.scopes.next, created := w.clock, lastVisit := w.clock.millis
    timeout := (w.application a).sessionTimeout }

theorem session_insertSession (t : SessionId) :
    (w.insertSession a id stale).2.session t = if t = w.sessions.next then w.arrival a id else w.session t := by
  unfold arrival
  rw [← (w.application a).sessionTimeout.ofDuration_duration]
  exact Table.get_add ..

theorem size_insertSession : (w.insertSession a id stale).2.sessions.size = w.sessions.size + 1 :=
  Table.size_add ..

theorem application_insertSession (b : ApplicationId) :
    (w.insertSession a id stale).2.application b = if a = b ∧ a.number < w.applications.size then
      { w.application a with sessions := (w.application a).sessions.insert id w.sessions.next } else w.application b :=
  application_modify (w.newSession id (w.application a).name (w.application a).sessionTimeout.duration).2 a b _

theorem sessions_insertSession (b : ApplicationId) :
    ((w.insertSession a id stale).2.application b).sessions =
      if a = b ∧ a.number < w.applications.size then (w.application b).sessions.insert id w.sessions.next
      else (w.application b).sessions := by
  rw [application_insertSession]
  split
  next same => rw [same.1]
  next => rfl

end

theorem insertSession_keeps {β : Type} (w : World) (a : ApplicationId) (id : Key) (stale : Option SessionId)
    (b : ApplicationId) (f : Application → β)
    (keeps : ∀ application sessions, f { application with sessions } = f application) :
    f ((w.insertSession a id stale).2.application b) = f (w.application b) :=
  application_modify_keeps (w.newSession id (w.application a).name (w.application a).sessionTimeout.duration).2 a b f
    fun application => keeps application _

section

variable (w : World) (a : ApplicationId) (id : Key) (b : ApplicationId)

theorem sessions_takeSession :
    ((w.takeSession a id).2.application b).sessions =
      if a = b ∧ a.number < w.applications.size then (w.application b).sessions.erase id
      else (w.application b).sessions := by
  have there := application_modify w a b fun application =>
    { application with sessions := application.sessions.erase id }
  refine (congrArg Application.sessions there).trans ?_
  split
  next same => rw [same.1]
  next => rfl

theorem shutDown_takeSession : ((w.takeSession a id).2.application b).shutDown = (w.application b).shutDown :=
  application_modify_keeps w a b Application.shutDown fun _ => rfl

theorem listener_takeSession : ((w.takeSession a id).2.application b).listener = (w.application b).listener :=
  application_modify_keeps w a b Application.listener fun _ => rfl

end

theorem dropSession_cases (w : World) (a : ApplicationId) (s : SessionId) : (w.dropSession a s).2 = w ∨
      ((w.application a).sessions.find? (w.session s).id = some s ∧
        (w.dropSession a s).2 = (w.takeSession a (w.session s).id).2) := by
  simp only [dropSession]
  split
  next found => exact .inr ⟨by simpa using found, rfl⟩
  next => exact .inl rfl

theorem shutDown_endSession {s : SessionId} (issued : s.number < w.sessions.size) :
    ((w.endSession s).2.session s).shutDown = true := by
  have read := session_modify w s s fun session => { session with shutDown := true }
  rw [if_pos ⟨rfl, issued⟩] at read
  exact congrArg Session.shutDown read

section

variable (w : World) (a b : ApplicationId)

theorem sessions_beginShutdown : ((w.beginShutdown a).2.application b).sessions = (w.application b).sessions :=
  application_modify_keeps w a b Application.sessions fun _ => rfl

theorem listener_beginShutdown : ((w.beginShutdown a).2.application b).listener = (w.application b).listener :=
  application_modify_keeps w a b Application.listener fun _ => rfl

theorem shutDown_beginShutdown :
    ((w.beginShutdown a).2.application b).shutDown =
      if a = b ∧ a.number < w.applications.size then true else (w.application b).shutDown := by
  have there := application_modify w a b fun application => { application with shutDown := true }
  refine (congrArg Application.shutDown there).trans ?_
  split <;> rfl

end

theorem unregister_registered (found : w.registry.find? (w.application a).name = some a) :
    (w.unregister a).2.registry = w.registry.erase (w.application a).name := by
  simp [unregister, found]

theorem unregister_replaced (other : w.registry.find? (w.application a).name ≠ some a) : (w.unregister a).2 = w := by
  simp [unregister, other]

@[simp] theorem unregister_applications : (w.unregister a).2.applications = w.applications := by
  simp only [unregister]
  split <;> rfl

end World

end ScopeEngine
