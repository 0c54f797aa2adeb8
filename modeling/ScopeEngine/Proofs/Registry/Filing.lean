import ScopeEngine.Proofs.Readiness.Decisions

/-! How applications and sessions are filed: applications in the registry under their names, sessions in the maps of their
applications under their ids. What is filed is of use to requests; a mark that says otherwise is set only on what was taken
out before. For sessions this needs that no other application has them in its map, also of those sessions that requests
hold on to. -/

namespace ScopeEngine

open World

def Application.file (application : Application) : Key × Bindings SessionId × Bool :=
  (application.name, application.sessions, application.discarded)

def Session.file (session : Session) : Key × Key × Bool × Bool :=
  (session.id, session.application, session.shutDown, session.discarded)

namespace World

variable {w later last : World} {a b : ApplicationId} {s : SessionId} {c r : ContextId} {owner : Option ApplicationId}

def Registered (w : World) (a : ApplicationId) : Prop := a ∈ w.registry.values

def Mapped (w : World) (a : ApplicationId) (s : SessionId) : Prop := s ∈ (w.application a).sessions.values

/-- Of all registered applications only the owner, if there is one, may have the session in its map. -/
structure FiledWith (w : World) (owner : Option ApplicationId) (s : SessionId) : Prop where
  issued : s.number < w.sessions.size
  only : ∀ b, w.Registered b → w.Mapped b s → owner = some b

structure Filing (w : World) : Prop where
  names : ∀ name, w.registry.Single name
  kept : ∀ a, w.Registered a → (w.application a).discarded = false
  ids : ∀ a id, (w.application a).sessions.Single id
  filed : ∀ a, ∀ entry ∈ (w.application a).sessions.entries, entry.2.number < w.sessions.size ∧
    ((w.session entry.2).id == entry.1) = true ∧ (w.session entry.2).application = (w.application a).name
  alone : ∀ a b s, w.Mapped a s → w.Mapped b s → a = b
  live : ∀ a s, w.Registered a → w.Mapped a s → w.Live s

/-- The session goes by the id of the request, and the application of the request is the only one to have it in its map,
unless the start of one that has it failed. -/
structure Suits (w : World) (standing : Standing) (s : SessionId) : Prop where
  named : ∃ id, standing.sessionId = some id ∧ ((w.session s).id == id) = true
  place : ∀ b, w.Mapped b s → standing.application = some b ∨ (w.application b).discarded = true

/-- Moreover, a session that a request holds on to is filed with the application of the request or not at all. -/
structure InOrder (w : World) : Prop extends Filing w where
  nodes : ∀ r request node, (w.context r).request? = some request → request.sessionNode = some node →
    node.number < w.contexts.size
  seated : ∀ r standing s, w.standing r = some standing → standing.session = some s →
    w.FiledWith standing.application s
  suits : ∀ r standing s, w.standing r = some standing → standing.session = some s → w.Live s → w.Suits standing s

/-- What was taken out of the files never gets back in, and what was shut down stays so. -/
structure Refiles (w later : World) : Prop where
  applications : w.applications.size ≤ later.applications.size
  sessions : w.sessions.size ≤ later.sessions.size
  registered : ∀ a : ApplicationId, a.number < w.applications.size → later.Registered a → w.Registered a
  mapped : ∀ a s, s.number < w.sessions.size → later.Mapped a s → w.Mapped a s
  spent : ∀ s, (w.session s).shutDown = true → (later.session s).shutDown = true
  label : ∀ s : SessionId, s.number < w.sessions.size → (later.session s).id = (w.session s).id
  live : ∀ s : SessionId, s.number < w.sessions.size → later.Live s → w.Live s
  refused : ∀ a, (w.application a).discarded = true → (later.application a).discarded = true

/-- The session is still of use, but no application has it. -/
structure Mislaid (w : World) (s : SessionId) : Prop where
  issued : s.number < w.sessions.size
  live : w.Live s
  nowhere : ∀ a, ¬ w.Mapped a s

theorem mapped_iff : w.Mapped a s ↔ ∃ entry ∈ (w.application a).sessions.entries, entry.2 = s :=
  List.mem_map

theorem issued_of_mapped (mapped : w.Mapped a s) : a.number < w.applications.size := by
  refine Nat.lt_of_not_le fun beyond => ?_
  rw [Mapped, application, w.applications.get_of_ge beyond] at mapped
  cases mapped

theorem issued_of_over (spent : (w.session s).shutDown = true) : s.number < w.sessions.size := by
  refine Nat.lt_of_not_le fun beyond => ?_
  rw [session, w.sessions.get_of_ge beyond] at spent
  cases spent

theorem issued_of_refused (refused : (w.application a).discarded = true) : a.number < w.applications.size := by
  refine Nat.lt_of_not_le fun beyond => ?_
  rw [application, w.applications.get_of_ge beyond] at refused
  cases refused

section

variable (filing : w.Filing) (mapped : w.Mapped a s)
include filing mapped

theorem Filing.issued : s.number < w.sessions.size := by
  obtain ⟨entry, member, rfl⟩ := mapped_iff.mp mapped
  exact (filing.filed a entry member).1

theorem Filing.find? : (w.application a).sessions.find? (w.session s).id = some s := by
  obtain ⟨entry, member, rfl⟩ := mapped_iff.mp mapped
  obtain ⟨-, same, -⟩ := filing.filed a entry member
  exact (filing.ids a _).find?_of_mem member (BEq.symm same)

theorem Filing.filedWith : w.FiledWith (some a) s where
  issued := filing.issued mapped
  only := fun b _ stored => congrArg some (filing.alone a b s mapped stored)

end

theorem FiledWith.widen (out : w.FiledWith none s) (owner : Option ApplicationId) : w.FiledWith owner s := by
  refine ⟨out.issued, fun b registered mapped => ?_⟩
  cases out.only b registered mapped

theorem FiledWith.leave (filedWith : w.FiledWith (some a) s) (out : ¬ (w.Registered a ∧ w.Mapped a s)) :
    w.FiledWith none s := by
  refine ⟨filedWith.issued, fun b registered mapped => ?_⟩
  cases filedWith.only b registered mapped
  exact absurd ⟨registered, mapped⟩ out

theorem Refiles.refl (w : World) : w.Refiles w :=
  ⟨Nat.le_refl _, Nat.le_refl _, fun _ _ registered => registered, fun _ _ _ mapped => mapped, fun _ spent => spent,
    fun _ _ => rfl, fun _ _ live => live, fun _ refused => refused⟩

theorem Refiles.trans (first : w.Refiles later) (second : later.Refiles last) : w.Refiles last where
  applications := Nat.le_trans first.applications second.applications
  sessions := Nat.le_trans first.sessions second.sessions
  registered := fun a issued registered =>
    first.registered a issued (second.registered a (Nat.lt_of_lt_of_le issued first.applications) registered)
  mapped := fun a s issued mapped =>
    first.mapped a s issued (second.mapped a s (Nat.lt_of_lt_of_le issued first.sessions) mapped)
  spent := fun s spent => second.spent s (first.spent s spent)
  label := fun s issued => (second.label s (Nat.lt_of_lt_of_le issued first.sessions)).trans (first.label s issued)
  live := fun s issued live => first.live s issued (second.live s (Nat.lt_of_lt_of_le issued first.sessions) live)
  refused := fun a refused => second.refused a (first.refused a refused)

theorem FiledWith.refiles (filedWith : w.FiledWith owner s) (refiles : w.Refiles later) : later.FiledWith owner s := by
  refine ⟨Nat.lt_of_lt_of_le filedWith.issued refiles.sessions, fun b registered mapped => ?_⟩
  have before := refiles.mapped b s filedWith.issued mapped
  exact filedWith.only b (refiles.registered b (issued_of_mapped before) registered) before

theorem Suits.refiles {standing : Standing} (suits : w.Suits standing s) (issued : s.number < w.sessions.size)
    (refiles : w.Refiles later) : later.Suits standing s where
  named := by
    rw [refiles.label s issued]
    exact suits.named
  place := fun b mapped => (suits.place b (refiles.mapped b s issued mapped)).imp_right (refiles.refused b)

/-- The later world is in order as well, except that a session may be lost. -/
structure Loses (w : World) (lost : Option SessionId) (later : World) : Prop where
  inOrder : later.InOrder
  refiles : w.Refiles later
  mislays : ∀ s, later.Mislaid s → lost = some s ∨ w.Mislaid s

abbrev Files (w later : World) : Prop := w.Loses none later

theorem InOrder.files (inOrder : w.InOrder) : w.Files w := ⟨inOrder, .refl w, fun _ => .inr⟩

theorem Loses.trans {lost : Option SessionId} (first : w.Files later) (second : later.Loses lost last) :
    w.Loses lost last where
  inOrder := second.inOrder
  refiles := first.refiles.trans second.refiles
  mislays := fun s mislaid => (second.mislays s mislaid).imp_right fun before =>
    (first.mislays s before).resolve_left nofun

theorem Loses.ends (loses : w.Loses (some s) later) (files : later.Files last) (dead : ¬ last.Live s) : w.Files last where
  inOrder := files.inOrder
  refiles := loses.refiles.trans files.refiles
  mislays := fun t mislaid => by
    refine .inr (((loses.mislays t ((files.mislays t mislaid).resolve_left nofun))).resolve_left fun same => ?_)
    cases same
    exact dead mislaid.live

theorem not_live_of_over (spent : (w.session s).shutDown = true) : ¬ w.Live s := fun live =>
  Bool.noConfusion (live.1.symm.trans spent)

theorem InOrder.instances (inOrder : w.InOrder) (filing : later.Filing) (contexts : later.contexts = w.contexts)
    (refiles : w.Refiles later) : later.InOrder where
  toFiling := filing
  nodes := by
    simp only [context, contexts]
    exact inOrder.nodes
  seated := by
    intro r standing s at_ held
    rw [standing_congr contexts] at at_
    exact (inOrder.seated r standing s at_ held).refiles refiles
  suits := by
    intro r standing s at_ held live
    rw [standing_congr contexts] at at_
    have issued := (inOrder.seated r standing s at_ held).issued
    exact (inOrder.suits r standing s at_ held (refiles.live s issued live)).refiles issued refiles

/-- Entries may leave the registry and the maps, and marks may be set on what is not filed any more. -/
structure Thins (w later : World) : Prop where
  contexts : later.contexts = w.contexts
  applications : later.applications.size = w.applications.size
  sessions : later.sessions.size = w.sessions.size
  registry : later.registry.entries.Sublist w.registry.entries
  maps : ∀ a, (later.application a).sessions.entries.Sublist (w.application a).sessions.entries
  name : ∀ a, (later.application a).name = (w.application a).name
  label : ∀ s, (later.session s).id = (w.session s).id ∧ (later.session s).application = (w.session s).application
  kept : ∀ a, later.Registered a → (later.application a).discarded = (w.application a).discarded
  live : ∀ a s, later.Registered a → later.Mapped a s → w.Live s → later.Live s
  spent : ∀ s, (w.session s).shutDown = true → (later.session s).shutDown = true
  alive : ∀ s, later.Live s → w.Live s
  refused : ∀ a, (w.application a).discarded = true → (later.application a).discarded = true

structure Unfiles (w later : World) : Prop extends Thins w later where
  stays : ∀ a s, w.Mapped a s → later.Live s → later.Mapped a s

namespace Thins

theorem registered (unfiles : w.Thins later) (registered : later.Registered a) : w.Registered a :=
  (unfiles.registry.map Prod.snd).subset registered

theorem mapped (unfiles : w.Thins later) (mapped : later.Mapped a s) : w.Mapped a s :=
  ((unfiles.maps a).map Prod.snd).subset mapped

theorem refiles (unfiles : w.Thins later) : w.Refiles later where
  applications := Nat.le_of_eq unfiles.applications.symm
  sessions := Nat.le_of_eq unfiles.sessions.symm
  registered := fun _ _ => unfiles.registered
  mapped := fun _ _ _ => unfiles.mapped
  spent := unfiles.spent
  label := fun s _ => (unfiles.label s).1
  live := fun s _ => unfiles.alive s
  refused := unfiles.refused

end Thins

theorem InOrder.thins (inOrder : w.InOrder) (unfiles : w.Thins later) : later.InOrder := by
  refine inOrder.instances ?_ unfiles.contexts unfiles.refiles
  exact {
    names := fun name => (inOrder.names name).sublist unfiles.registry
    kept := fun a registered => (unfiles.kept a registered).trans (inOrder.kept a (unfiles.registered registered))
    ids := fun a id => (inOrder.ids a id).sublist (unfiles.maps a)
    filed := by
      intro a entry member
      rw [unfiles.sessions, (unfiles.label entry.2).1, (unfiles.label entry.2).2, unfiles.name]
      exact inOrder.filed a entry ((unfiles.maps a).subset member)
    alone := by
      intro a b s mapped stored
      exact inOrder.alone a b s (unfiles.mapped mapped) (unfiles.mapped stored)
    live := by
      intro a s registered mapped
      apply unfiles.live a s registered mapped
      exact inOrder.live a s (unfiles.registered registered) (unfiles.mapped mapped) }

theorem Thins.mislaid (thins : w.Thins later) (mislaid : later.Mislaid s) (stays : ∀ a, w.Mapped a s → later.Mapped a s) :
    w.Mislaid s where
  issued := Nat.lt_of_lt_of_eq mislaid.issued thins.sessions
  live := thins.alive s mislaid.live
  nowhere := fun a mapped => mislaid.nowhere a (stays a mapped)

theorem InOrder.unfiles (inOrder : w.InOrder) (unfiles : w.Unfiles later) : w.Files later where
  inOrder := inOrder.thins unfiles.toThins
  refiles := unfiles.refiles
  mislays := fun s mislaid => .inr (unfiles.mislaid mislaid fun a mapped => unfiles.stays a s mapped mislaid.live)

theorem live_congr (same : (later.session s).file = (w.session s).file) : later.Live s ↔ w.Live s := by
  have ended : (later.session s).shutDown = (w.session s).shutDown := congrArg (·.2.2.1) same
  have refused : (later.session s).discarded = (w.session s).discarded := congrArg (·.2.2.2) same
  rw [Live, Live, ended, refused]

theorem unfiles_of_same (contexts : later.contexts = w.contexts)
    (applications : later.applications.size = w.applications.size) (sessions : later.sessions.size = w.sessions.size)
    (registry : later.registry = w.registry) (application : ∀ a, (later.application a).file = (w.application a).file)
    (session : ∀ s, (later.session s).file = (w.session s).file) : w.Unfiles later where
  contexts := contexts
  applications := applications
  sessions := sessions
  registry := registry ▸ .refl _
  maps := fun a => by
    have same : (later.application a).sessions = (w.application a).sessions := congrArg (·.2.1) (application a)
    exact same ▸ .refl _
  name := fun a => congrArg Prod.fst (application a)
  label := fun s => ⟨congrArg Prod.fst (session s), congrArg (·.2.1) (session s)⟩
  kept := fun a _ => congrArg (·.2.2) (application a)
  live := fun a s _ _ live => (live_congr (session s)).mpr live
  spent := fun s spent => (congrArg (·.2.2.1) (session s)).trans spent
  alive := fun s live => (live_congr (session s)).mp live
  refused := fun a refused => (congrArg (·.2.2) (application a)).trans refused
  stays := by
    intro a s mapped _
    have same : (later.application a).sessions = (w.application a).sessions := congrArg (·.2.1) (application a)
    rw [Mapped, same]
    exact mapped

theorem unfiles_of_rows (contexts : later.contexts = w.contexts) (applications : later.applications = w.applications)
    (sessions : later.sessions = w.sessions) (registry : later.registry = w.registry) : w.Unfiles later := by
  refine unfiles_of_same contexts (by rw [applications]) (by rw [sessions]) registry ?_ ?_
  · intro a
    rw [application, applications, application]
  · intro s
    rw [session, sessions, session]

theorem Unfiles.refl (w : World) : w.Unfiles w := unfiles_of_rows rfl rfl rfl rfl

section Marks

variable (w)

theorem unfiles_modifyApplication (a : ApplicationId) (change : Application → Application)
    (same : ∀ application, (change application).file = application.file) : w.Unfiles (w.modifyApplication a change) :=
  unfiles_of_same rfl (Table.size_set ..) rfl rfl (fun b => application_modify_keeps w a b Application.file same)
    fun _ => rfl

theorem unfiles_touchApplication (a : ApplicationId) : w.Unfiles (w.touchApplication a) :=
  unfiles_of_same rfl (Table.size_set ..) rfl rfl
    (fun b => application_modify_keeps w.readClock.2 a b Application.file fun _ => rfl) fun _ => rfl

theorem unfiles_modifySession (s : SessionId) (change : Session → Session)
    (same : ∀ session, (change session).file = session.file) : w.Unfiles (w.modifySession s change) :=
  unfiles_of_same rfl rfl (Table.size_set ..) rfl (fun _ => rfl) fun t => session_modify_keeps w s t Session.file same

theorem unfiles_touchSession (s : SessionId) : w.Unfiles (w.touchSession s) := by
  let visited := w.readClock.2.modifySession s fun session => { session with lastVisit := w.clock.millis }
  have visits : w.Unfiles visited :=
    unfiles_of_same rfl rfl (Table.size_set ..) rfl (fun _ => rfl)
      fun t => session_modify_keeps w.readClock.2 s t Session.file fun _ => rfl
  simp only [touchSession]
  split
  · exact { visits with }
  · exact visits

theorem unfiles_mark (s : SessionId) (change : Session → Session)
    (same : ∀ session, (change session).id = session.id ∧ (change session).application = session.application)
    (spent : ∀ session, session.shutDown = true → (change session).shutDown = true)
    (refused : ∀ session, session.discarded = true → (change session).discarded = true)
    (out : w.FiledWith none s) : w.Unfiles (w.modifySession s change) := {
  Unfiles.refl w with
  sessions := Table.size_set ..
  label := fun t => ⟨session_modify_keeps w s t Session.id fun session => (same session).1,
    session_modify_keeps w s t Session.application fun session => (same session).2⟩
  live := by
    intro a t registered mapped before
    have other : s ≠ t := by
      intro equal
      cases out.only a registered (equal ▸ mapped)
    rw [Live, session_modify, if_neg fun both => other both.1]
    exact before
  spent := by
    intro t before
    rw [session_modify]
    split
    next both => exact spent _ (both.1 ▸ before)
    next => exact before
  alive := by
    intro t live
    rw [Live, session_modify] at live
    split at live
    next both =>
      rw [← both.1]
      exact ⟨Bool.eq_false_iff.mpr fun ended => Bool.noConfusion (live.1.symm.trans (spent _ ended)),
        Bool.eq_false_iff.mpr fun gone => Bool.noConfusion (live.2.symm.trans (refused _ gone))⟩
    next => exact live
  stays := fun _ _ mapped _ => mapped }

theorem unfiles_endSession (s : SessionId) (out : w.FiledWith none s) : w.Unfiles (w.endSession s).2 :=
  w.unfiles_mark s (fun session => { session with shutDown := true }) (fun _ => ⟨rfl, rfl⟩) (fun _ _ => rfl)
    (fun _ refused => refused) out

end Marks

end World

end ScopeEngine
