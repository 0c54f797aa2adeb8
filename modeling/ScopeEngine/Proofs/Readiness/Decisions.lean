import ScopeEngine.Proofs.Readiness.Hooks

/-! Decisions on the start of an application. The start of an instance is decided once it is started or defunct, and only
a restart opens it again. What happens at the top is said here as well: requests come to hold only applications whose
start is decided. -/

namespace ScopeEngine

open ScopeEngine.Action World

variable {α : Type} {host : Host} {w later last : World} {a b : ApplicationId} {c r : ContextId} {settings : Settings}

/-- Its start hook let the start proceed, or nobody will use it any more. -/
def Application.isDecided (application : Application) : Bool :=
  application.started || application.isDefunct

namespace World

def Decided (w : World) (a : ApplicationId) : Prop :=
  (w.application a).isDecided = true

/-- The request at `r` has the application spliced in and will use it unless it is defunct. -/
def Holds (w : World) (r : ContextId) (a : ApplicationId) : Prop :=
  ∃ standing, w.standing r = some standing ∧ standing.detached = false ∧ standing.application = some a

/-- What happens at the top: requests come to hold only applications whose start is decided. -/
structure Settles (w later : World) : Prop where
  sane : later.Sane
  grounded : w.Grounded → later.Grounded
  extends_ : w.Extends later
  decided : ∀ a, w.Decided a → later.Decided a
  holds : ∀ r a, later.Holds r a → w.Holds r a ∨ later.Decided a
  detached : ∀ r : ContextId, r.number < w.contexts.size →
    (later.standing r).map Standing.detached = (w.standing r).map Standing.detached

structure Keeps (w later : World) : Prop where
  sane : later.Sane
  grounded : w.Grounded → later.Grounded
  extends_ : w.Extends later
  decided : ∀ a, w.Decided a → later.Decided a
  seat : ∀ r : ContextId, r.number < w.contexts.size →
    (later.standing r).map Standing.seat = (w.standing r).map Standing.seat
  fresh : ∀ r standing, w.contexts.size ≤ r.number → later.standing r = some standing →
    standing.detached = true ∨ standing.application = none

theorem Settles.trans (first : w.Settles later) (second : later.Settles last) : w.Settles last where
  sane := second.sane
  grounded := second.grounded ∘ first.grounded
  extends_ := first.extends_.trans second.extends_
  decided := fun a done => second.decided a (first.decided a done)
  holds := by
    intro r a held
    rcases second.holds r a held with before | done
    · exact (first.holds r a before).imp_right (second.decided a)
    · exact .inr done
  detached := fun r issued =>
    (second.detached r (Nat.lt_of_lt_of_le issued first.extends_.size)).trans (first.detached r issued)

theorem Keeps.trans (first : w.Keeps later) (second : later.Keeps last) : w.Keeps last where
  sane := second.sane
  grounded := second.grounded ∘ first.grounded
  extends_ := first.extends_.trans second.extends_
  decided := fun a done => second.decided a (first.decided a done)
  seat := fun r issued => (second.seat r (Nat.lt_of_lt_of_le issued first.extends_.size)).trans (first.seat r issued)
  fresh := by
    intro r standing beyond at_
    by_cases between : r.number < later.contexts.size
    · obtain ⟨old, before, -, detached, application⟩ := Standing.of_seat (second.seat r between).symm at_
      rw [← detached, ← application]
      exact first.fresh r old beyond before
    · exact second.fresh r standing (Nat.le_of_not_lt between) at_

theorem Keeps.held (keeps : w.Keeps later) (holds : later.Holds r a) : w.Holds r a := by
  obtain ⟨standing, at_, attached, application⟩ := holds
  by_cases issued : r.number < w.contexts.size
  · obtain ⟨old, before, -, sameDetached, sameApplication⟩ := Standing.of_seat (keeps.seat r issued).symm at_
    exact ⟨old, before, sameDetached.trans attached, sameApplication.trans application⟩
  · rcases keeps.fresh r standing (Nat.le_of_not_lt issued) at_ with detached | bare
    · cases attached.symm.trans detached
    · cases application.symm.trans bare

theorem Keeps.settles (keeps : w.Keeps later) : w.Settles later where
  sane := keeps.sane
  grounded := keeps.grounded
  extends_ := keeps.extends_
  decided := keeps.decided
  holds := fun _ _ holds => .inl (keeps.held holds)
  detached := fun r issued => by
    have same := congrArg (Option.map fun seat : Settings × Bool × Option ApplicationId => seat.2.1) (keeps.seat r issued)
    rw [Option.map_map, Option.map_map] at same
    exact same

theorem decided_congr (same : later.marks a = w.marks a) (done : w.Decided a) : later.Decided a := by
  have equal : (later.application a).isDecided = (w.application a).isDecided :=
    congrArg (fun marks : Marks => marks.started || (marks.discarded || marks.shutDown)) same
  rw [Decided, equal]
  exact done

theorem Calm.keeps (calm : w.Calm later) (sane : w.Sane) : w.Keeps later where
  sane := sane.calm calm
  grounded := calm.grounded
  extends_ := calm.extends_
  decided := fun a done => decided_congr (calm.marks a) done
  seat := fun _ issued => calm.seat sane issued
  fresh := by
    intro r standing beyond at_
    obtain ⟨request, there, rfl⟩ := Option.map_eq_some_iff.mp at_
    cases spliced : request.applicationNode with
    | none => exact .inr (by simp only [standingOf, spliced, Option.bind_none])
    | some node => exact .inl (calm.fresh r request node beyond there spliced).1

theorem keeps_of_instances (sane : later.Sane) (contexts : later.contexts = w.contexts) (code : later.code = w.code)
    (decided : ∀ a, w.Decided a → later.Decided a) : w.Keeps later where
  sane := sane
  grounded := fun grounded => grounded.congr code
  extends_ := extends_of_contexts contexts
  decided := decided
  seat := fun r _ => by rw [standing_congr contexts]
  fresh := by
    intro r standing beyond at_
    rw [standing_congr contexts] at at_
    exact (Nat.not_lt_of_le beyond (issued_of_standing at_)).elim

theorem Sane.keeps (sane : w.Sane) : w.Keeps w := (Calm.refl w).keeps sane

theorem Sane.instances (sane : w.Sane) (contexts : later.contexts = w.contexts)
    (size : later.applications.size = w.applications.size)
    (names : ∀ a, (later.application a).name = (w.application a).name)
    (fewer : ∀ entry ∈ later.registry.entries, entry ∈ w.registry.entries)
    (listeners : later.listeners = w.listeners) (functions : later.functions = w.functions) : later.Sane where
  nodes := by
    simp only [nodeApplication, context, contexts, size]
    exact sane.nodes
  registered := by
    intro entry member
    rw [size, names]
    exact sane.registered entry (fewer entry member)
  named := by
    intro a issued
    rw [names]
    exact sane.named a (size ▸ issued)
  hooks := by
    simp only [listener, function, listeners, functions]
    exact sane.hooks
  code := by
    simp only [Grounded, Tame, listener, function, listeners, functions]
    exact sane.code

theorem Sane.modifyRequest (sane : w.Sane) (r : ContextId) (change : Request → Request)
    (nodes : ∀ request node, (w.context r).request? = some request → (change request).applicationNode = some node →
      node.number < w.contexts.size ∧ ∀ a, w.nodeApplication node = some a → a.number < w.applications.size) :
    (w.modifyRequest r change).Sane := by
  obtain ⟨contexts, same⟩ := w.modifyRequest_eq r change
  have elsewhere : { (w.modifyRequest r change) with contexts := w.contexts }.Sane := by
    rw [same]
    exact sane
  refine { elsewhere with nodes := fun t request node there spliced => ?_ }
  simp only [modifyRequest_size, nodeApplication_modifyRequest, modifyRequest_applications]
  rw [request?_modifyRequest] at there
  split at there
  · obtain ⟨old, before, rfl⟩ := Option.map_eq_some_iff.mp there
    exact nodes old node before spliced
  · exact sane.nodes t request node there spliced

section Changes

variable (change : Application → Application) (names : ∀ application, (change application).name = application.name)
include names

theorem Sane.modifyApplication (sane : w.Sane) (a : ApplicationId) : (w.modifyApplication a change).Sane :=
  sane.instances rfl (Table.size_set ..) (fun b => application_modify_keeps w a b Application.name names)
    (fun _ member => member) rfl rfl

theorem Sane.keeps_modifyApplication (sane : w.Sane) (a : ApplicationId)
    (decided : ∀ application, application.isDecided = true → (change application).isDecided = true) :
    w.Keeps (w.modifyApplication a change) := by
  refine keeps_of_instances (sane.modifyApplication change names a) rfl rfl fun b done => ?_
  rw [Decided, application_modify]
  split
  next same =>
    rw [← same.1] at done
    exact decided _ done
  next => exact done

theorem Running.modifyApplication (running : w.Running c r b) (a : ApplicationId)
    (defunct : ∀ application, (change application).isDefunct = application.isDefunct) :
    (w.modifyApplication a change).Running c r b := by
  obtain ⟨standing, anchored⟩ := running.anchored
  have extends_ : w.Extends (w.modifyApplication a change) := extends_of_contexts rfl
  refine ⟨running.issued, ?_, standing, anchored.at_, anchored.holds, ?_, anchored.wanted, ?_, ?_⟩
  · rw [extends_.home running.issued]
    exact running.home
  · exact Nat.lt_of_lt_of_eq anchored.issued (Table.size_set ..).symm
  · rw [application_modify_keeps w a b Application.name names]
    exact anchored.named
  · rw [application_modify_keeps w a b Application.isDefunct defunct]
    exact anchored.usable

end Changes

theorem decided_modifyApplication (issued : a.number < w.applications.size) (change : Application → Application)
    (decides : ∀ application, (change application).isDecided = true) : (w.modifyApplication a change).Decided a := by
  rw [Decided, application_modify, if_pos ⟨rfl, issued⟩]
  exact decides _

theorem Sane.keeps_erase (sane : w.Sane) (name : Key) : w.Keeps { w with registry := w.registry.erase name } :=
  keeps_of_instances (sane.instances rfl rfl (fun _ => rfl) (fun _ => Bindings.mem_entries_of_erase) rfl rfl) rfl rfl
    fun _ done => done

theorem Sane.keeps_unregister (sane : w.Sane) (a : ApplicationId) : w.Keeps (w.unregister a).2 := by
  simp only [unregister]
  split
  · exact sane.keeps_erase _
  · exact sane.keeps

theorem Sane.settles_modifyRequest (sane : w.Sane) (r : ContextId) (change : Request → Request)
    (kept : ∀ request, (change request).detached = request.detached ∧
      ((change request).applicationNode = request.applicationNode ∨ (change request).applicationNode = none)) :
    w.Settles (w.modifyRequest r change) where
  sane := by
    refine sane.modifyRequest r change fun request node there spliced => ?_
    rcases (kept request).2 with same | bare
    · exact sane.nodes r request node there (same.symm.trans spliced)
    · cases bare.symm.trans spliced
  grounded := fun grounded => grounded.congr (w.modifyRequest_code r change)
  extends_ := w.extends_modifyRequest r change
  decided := by
    intro a done
    rw [Decided, modifyRequest_application]
    exact done
  holds := by
    rintro t a ⟨standing, at_, attached, application⟩
    refine .inl ?_
    rw [standing_modifyRequest] at at_
    split at at_
    next same =>
      obtain ⟨request, there, rfl⟩ := Option.map_eq_some_iff.mp at_
      refine ⟨w.standingOf request, ?_, (kept request).1.symm.trans attached, ?_⟩
      · rw [← same, standing, there]
        rfl
      · simp only [standingOf] at application ⊢
        rcases (kept request).2 with same | bare
        · rw [← same]
          exact application
        · rw [bare] at application
          cases application
    next => exact ⟨standing, at_, attached, application⟩
  detached := by
    intro t _
    rw [standing_modifyRequest]
    split
    next same =>
      rw [← same, standing, Option.map_map, Option.map_map]
      exact congrArg (fun f => ((w.context r).request?).map f) (funext fun request => (kept request).1)
    next => rfl

theorem Sane.settles_excise (sane : w.Sane) (c : ContextId) (type : ContextType) : w.Settles (w.excise c type).2 := by
  simp only [excise]
  split
  · exact sane.settles_modifyRequest _ _ fun request => ⟨rfl, request.applicationNode_excise_cases type⟩
  · exact sane.keeps.settles

theorem seeking_excise {standing : Standing} (at_ : w.standing r = some standing) :
    (w.excise r .application).2.Seeking r standing.settings := by
  obtain ⟨request, there, rfl⟩ := Option.map_eq_some_iff.mp at_
  simp only [excise, requestOf_self there]
  refine ⟨w.standingOf (request.excise .application), ?_, rfl, congrArg Standing.application (standingOf_excise_application ..)⟩
  rw [standing_modifyRequest, if_pos rfl, there]
  rfl

theorem Sane.issued_of_standing {standing : Standing} (sane : w.Sane) (at_ : w.standing r = some standing)
    (holds : standing.application = some a) : a.number < w.applications.size := by
  obtain ⟨request, there, rfl⟩ := Option.map_eq_some_iff.mp at_
  obtain ⟨node, spliced, place⟩ := Option.bind_eq_some_iff.mp holds
  exact (sane.nodes r request node there spliced).2 a place

theorem Seeking.keeps (seeking : w.Seeking r settings) (keeps : w.Keeps later) : later.Seeking r settings := by
  obtain ⟨standing, at_, same, bare⟩ := seeking
  obtain ⟨new, there, settings, -, application⟩ := Standing.of_seat (keeps.seat r (issued_of_standing at_)) at_
  exact ⟨new, there, settings.trans same, application.trans bare⟩

theorem issued_of_decided (done : w.Decided a) : a.number < w.applications.size := by
  refine Nat.lt_of_not_le fun beyond => ?_
  rw [Decided, application, w.applications.get_of_ge beyond] at done
  cases done

theorem findOrCreateApplication_elsewhere (w : World) (name : Key) (settings : Settings) :
    (w.findOrCreateApplication name settings).2.contexts = w.contexts ∧
      (w.findOrCreateApplication name settings).2.code = w.code := by
  simp only [findOrCreateApplication]
  split
  · split <;> exact ⟨rfl, rfl⟩
  · exact ⟨rfl, rfl⟩

theorem Sane.register (sane : w.Sane) {name : Key} (refound : name.Refound) (contexts : later.contexts = w.contexts)
    (code : later.code = w.code) (registry : later.registry = w.registry.insert name w.applications.next)
    (size : later.applications.size = w.applications.size + 1)
    (marks : ∀ b, later.marks b = if b = w.applications.next then { name } else w.marks b) : later.Sane := by
  have newest : (later.application w.applications.next).name = name := by
    rw [show (later.application _).name = (later.marks w.applications.next).name from rfl, marks, if_pos rfl]
  have older : ∀ b : ApplicationId, b.number < w.applications.size →
      (later.application b).name = (w.application b).name := by
    intro b inside
    have different : b ≠ w.applications.next := by
      rintro rfl
      exact Nat.lt_irrefl _ inside
    exact name_eq_of_marks (by rw [marks, if_neg different])
  exact {
    nodes := by
      simp only [nodeApplication, context, contexts, size]
      intro r request node there spliced
      obtain ⟨issued, known⟩ := sane.nodes r request node there spliced
      exact ⟨issued, fun a holds => Nat.lt_succ_of_lt (known a holds)⟩
    registered := by
      intro entry member
      rw [registry] at member
      rcases Bindings.mem_entries_of_insert member with before | ⟨same, new⟩
      · obtain ⟨inside, alike⟩ := sane.registered entry before
        rw [size, older _ inside]
        exact ⟨Nat.lt_succ_of_lt inside, alike⟩
      · rw [new, size, newest]
        exact ⟨Nat.lt_succ_self _, same⟩
    named := by
      intro b inside
      rw [size] at inside
      rcases Nat.lt_succ_iff_lt_or_eq.mp inside with less | equal
      · rw [older b less]
        exact sane.named b less
      · rw [show b = w.applications.next from congrArg Id.mk equal, newest]
        exact refound
    hooks := by
      have listeners : later.listeners = w.listeners := congrArg Prod.snd code
      have functions : later.functions = w.functions := congrArg Prod.fst code
      simp only [listener, function, listeners, functions]
      exact sane.hooks
    code := by
      have listeners : later.listeners = w.listeners := congrArg Prod.snd code
      have functions : later.functions = w.functions := congrArg Prod.fst code
      simp only [Grounded, Tame, listener, function, listeners, functions]
      exact sane.code }

theorem Sane.findOrCreateApplication (sane : w.Sane) {name : Key} (refound : name.Refound) (settings : Settings)
    (found : w.findOrCreateApplication name settings = (a, later)) :
    w.Keeps later ∧ a.number < later.applications.size ∧ ((later.application a).name == name) = true ∧
      (later.application a).isDefunct = false := by
  obtain ⟨contexts, code⟩ := w.findOrCreateApplication_elsewhere name settings
  rcases w.findOrCreateApplication_cases name settings with
    ⟨b, same, registered, live⟩ | ⟨next, same, -, registry, size, marks⟩
  · rw [same] at found
    cases found
    obtain ⟨entry, member, alike, rfl⟩ := Bindings.mem_entries_of_find? registered
    obtain ⟨issued, named⟩ := sane.registered entry member
    exact ⟨sane.keeps, issued, BEq.trans named alike, Bool.or_eq_false_iff.mpr live⟩
  · rw [same] at found contexts code
    cases found
    have newest : later.marks w.applications.next = { name } := by rw [marks, if_pos rfl]
    refine ⟨keeps_of_instances (sane.register refound contexts code registry size marks) contexts code ?_, ?_, ?_, ?_⟩
    · intro b done
      refine decided_congr ?_ done
      rw [marks, if_neg]
      rintro rfl
      exact Nat.lt_irrefl _ (issued_of_decided done)
    · rw [size]
      exact Nat.lt_succ_self _
    · rw [show (later.application w.applications.next).name = name from congrArg Marks.name newest]
      exact BEq.refl name
    · exact congrArg (fun marks : Marks => marks.discarded || marks.shutDown) newest

end World

end ScopeEngine
