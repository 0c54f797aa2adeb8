import ScopeEngine.Proofs.Access
import ScopeEngine.Proofs.Coherence.Running
import ScopeEngine.Proofs.Marks

/-! Calm changes: sessions may come and go and detached requests may be opened, but no application gets another mark, none
is registered or unregistered, and no request that was there moves to another application. -/

namespace ScopeEngine

def ContextKind.withoutSession : ContextKind → ContextKind
  | .request own => .request { own.excise .session with sessionId := none }
  | kind => kind

theorem ContextKind.withoutSession_eq_application {kind : ContextKind} {a : ApplicationId} :
    kind.withoutSession = .application a ↔ kind = .application a := by
  cases kind <;> simp [withoutSession]

def Standing.seat (standing : Standing) : Settings × Bool × Option ApplicationId :=
  (standing.settings, standing.detached, standing.application)

theorem Standing.of_seat {first second : Option Standing} {old : Standing}
    (same : first.map seat = second.map seat) (at_ : second = some old) :
    ∃ new, first = some new ∧ new.settings = old.settings ∧ new.detached = old.detached ∧
      new.application = old.application := by
  rw [at_] at same
  obtain ⟨new, there, equal⟩ := Option.map_eq_some_iff.mp same
  simp only [seat, Prod.mk.injEq] at equal
  exact ⟨new, there, equal⟩

namespace World

variable {w later last : World} {a : ApplicationId} {c r : ContextId}

def Grounded (w : World) : Prop :=
  ∀ l hook f, (w.listener l).hook hook = some f → f.number < w.functions.size

def Tame (w : World) : Prop :=
  ∀ l hook f, (w.listener l).hook hook = some f → ((w.function f).body.all Script.Step.isTouch) = true

theorem Grounded.congr (grounded : w.Grounded) (code : later.code = w.code) : later.Grounded := by
  have functions : later.functions = w.functions := congrArg Prod.fst code
  have listeners : later.listeners = w.listeners := congrArg Prod.snd code
  simp only [Grounded, listener, functions, listeners]
  exact grounded

/-- What there is refers to things that exist, and hooks only read and write scopes. A hook that does not exist could be
declared later as something else, but not by hooks that only touch. -/
structure Sane (w : World) : Prop where
  nodes : ∀ r request node, (w.context r).request? = some request → request.applicationNode = some node →
    node.number < w.contexts.size ∧ ∀ a, w.nodeApplication node = some a → a.number < w.applications.size
  registered : ∀ entry ∈ w.registry.entries,
    entry.2.number < w.applications.size ∧ ((w.application entry.2).name == entry.1) = true
  named : ∀ a : ApplicationId, a.number < w.applications.size → (w.application a).name.Refound
  hooks : ∀ l hook f, (w.listener l).hook hook = some f → Script.areAccesses (w.function f).body = true
  code : w.Grounded ∨ w.Tame

/-- Time passes, and applications are visited in the meantime. -/
structure Ages (w later : World) : Prop where
  clock : w.clock.nanos ≤ later.clock.nanos
  limit : ∀ a, (later.application a).timeout = (w.application a).timeout
  visit : ∀ a, (later.application a).lastAccess = (w.application a).lastAccess ∨ ∃ t : Instant,
    w.clock.nanos ≤ t.nanos ∧ t.nanos ≤ later.clock.nanos ∧ (later.application a).lastAccess = t.millis

theorem Ages.trans (first : w.Ages later) (second : later.Ages last) : w.Ages last where
  clock := Int.le_trans first.clock second.clock
  limit := fun a => (second.limit a).trans (first.limit a)
  visit := by
    intro a
    rcases second.visit a with same | ⟨t, after, before, visited⟩
    · rw [same]
      obtain unvisited | ⟨t, after, before, visited⟩ := first.visit a
      · exact .inl unvisited
      · exact .inr ⟨t, after, Int.le_trans before second.clock, visited⟩
    · exact .inr ⟨t, Int.le_trans first.clock after, before, visited⟩

theorem ages_of_same (applications : later.applications = w.applications) (clock : w.clock.nanos ≤ later.clock.nanos) :
    w.Ages later :=
  ⟨clock, fun a => by rw [application, applications, application], fun a => .inl (by rw [application, applications, application])⟩

structure Calm (w later : World) : Prop extends w.Carries later where
  contexts : w.contexts.size ≤ later.contexts.size
  parent : ∀ c : ContextId, c.number < w.contexts.size → (later.context c).parent = (w.context c).parent
  kind : ∀ c : ContextId, c.number < w.contexts.size →
    (later.context c).kind.withoutSession = (w.context c).kind.withoutSession
  fresh : ∀ r request node, w.contexts.size ≤ r.number → (later.context r).request? = some request →
    request.applicationNode = some node → request.detached = true ∧ node.number < later.contexts.size ∧
      ∀ a, later.nodeApplication node = some a → a.number < later.applications.size
  applications : later.applications.size = w.applications.size
  marks : ∀ a, later.marks a = w.marks a
  registry : later.registry = w.registry
  ages : w.Ages later
  declared : w.Grounded ∨ later.functions = w.functions

theorem nodeApplication_eq_some : w.nodeApplication c = some a ↔ (w.context c).kind = .application a := by
  simp only [World.nodeApplication]
  cases (w.context c).kind <;> simp

namespace Calm

section

variable (calm : w.Calm later)
include calm

theorem view {β : Type} (issued : c.number < w.contexts.size) (f : ContextKind → β)
    (blind : ∀ kind, f kind.withoutSession = f kind) : f (later.context c).kind = f (w.context c).kind := by
  rw [← blind, calm.kind c issued, blind]

theorem request (issued : r.number < w.contexts.size) :
    ((later.context r).request?).map (fun request => (request.settings, request.detached, request.applicationNode)) =
      ((w.context r).request?).map fun request => (request.settings, request.detached, request.applicationNode) :=
  calm.view issued
    (fun kind => (Context.request? { parent := none, kind }).map fun request =>
      (request.settings, request.detached, request.applicationNode))
    fun kind => by
      cases kind with
      | request own => exact congrArg (fun node => some (own.settings, own.detached, node)) own.applicationNode_excise_session
      | _ => rfl

theorem request_before {now : Request} (issued : r.number < w.contexts.size)
    (there : (later.context r).request? = some now) :
    ∃ old, (w.context r).request? = some old ∧ old.settings = now.settings ∧ old.detached = now.detached ∧
      old.applicationNode = now.applicationNode := by
  have same := calm.request issued
  rw [there] at same
  obtain ⟨old, before, equal⟩ := Option.map_eq_some_iff.mp same.symm
  simp only [Prod.mk.injEq] at equal
  exact ⟨old, before, equal⟩

theorem nodeApplication (issued : c.number < w.contexts.size) : later.nodeApplication c = w.nodeApplication c := by
  apply Option.ext
  intro a
  rw [nodeApplication_eq_some, nodeApplication_eq_some]
  rw [← ContextKind.withoutSession_eq_application, calm.kind c issued, ContextKind.withoutSession_eq_application]

theorem extends_ : w.Extends later where
  size := calm.contexts
  parent := calm.parent
  request := fun c issued => by
    have same := congrArg Option.isSome (calm.request issued)
    simpa only [Option.isSome_map] using same

theorem seat (sane : w.Sane) (issued : r.number < w.contexts.size) :
    (later.standing r).map Standing.seat = (w.standing r).map Standing.seat := by
  simp only [World.standing, Option.map_map]
  cases there : (later.context r).request? with
  | none =>
    have same := calm.request issued
    rw [there] at same
    rw [Option.map_eq_none_iff.mp same.symm]
    rfl
  | some now =>
    obtain ⟨old, before, settings, detached, node⟩ := calm.request_before issued there
    have application : now.applicationNode.bind later.nodeApplication =
        old.applicationNode.bind w.nodeApplication := by
      rw [← node]
      cases spliced : old.applicationNode with
      | none => rfl
      | some place => exact calm.nodeApplication (sane.nodes r old place before spliced).1
    simp only [before, Option.map_some, Function.comp, standingOf, Standing.seat, settings, detached, application]

theorem hooked {l : ListenerId} {hook : Hook} {f : FunctionId} (hooked : (w.listener l).hook hook = some f) :
    later.function f = w.function f := by
  rcases calm.declared with grounded | same
  · exact calm.function f (grounded l hook f hooked)
  · rw [World.function, same, World.function]

theorem grounded (grounded : w.Grounded) : later.Grounded := by
  intro l hook f hooked
  rw [calm.listener] at hooked
  exact Nat.lt_of_lt_of_le (grounded l hook f hooked) calm.functions

theorem tame (tame : w.Tame) : later.Tame := by
  intro l hook f hooked
  rw [calm.listener] at hooked
  rw [calm.hooked hooked]
  exact tame l hook f hooked

end

end Calm

theorem calm_of_instances (contexts : later.contexts = w.contexts)
    (applications : later.applications.size = w.applications.size) (marks : ∀ a, later.marks a = w.marks a)
    (registry : later.registry = w.registry) (listeners : later.listeners = w.listeners)
    (functions : later.functions = w.functions) (ages : w.Ages later) : w.Calm later where
  contexts := Nat.le_of_eq (by rw [contexts])
  parent := fun c _ => by simp only [context, contexts]
  kind := fun c _ => by simp only [context, contexts]
  fresh := by
    intro r request node beyond there
    rw [← contexts] at beyond
    exact (Nat.not_lt_of_le beyond (issued_of_request there)).elim
  applications := applications
  marks := marks
  registry := registry
  ages := ages
  toCarries := carries_of_same listeners functions
  declared := .inr functions

theorem Calm.refl (w : World) : w.Calm w :=
  calm_of_instances rfl rfl (fun _ => rfl) rfl rfl rfl (ages_of_same rfl (Int.le_refl _))

theorem Calm.trans (first : w.Calm later) (second : later.Calm last) : w.Calm last where
  contexts := Nat.le_trans first.contexts second.contexts
  parent := fun c issued =>
    (second.parent c (Nat.lt_of_lt_of_le issued first.contexts)).trans (first.parent c issued)
  kind := fun c issued => (second.kind c (Nat.lt_of_lt_of_le issued first.contexts)).trans (first.kind c issued)
  fresh := by
    intro r request node beyond there spliced
    by_cases between : r.number < later.contexts.size
    · obtain ⟨old, before, -, sameDetached, sameNode⟩ := second.request_before between there
      obtain ⟨detached, issued, known⟩ := first.fresh r old node beyond before (sameNode.trans spliced)
      refine ⟨sameDetached.symm.trans detached, Nat.lt_of_lt_of_le issued second.contexts, ?_⟩
      intro a holds
      rw [second.nodeApplication issued] at holds
      rw [second.applications]
      exact known a holds
    · exact second.fresh r request node (Nat.le_of_not_lt between) there spliced
  applications := second.applications.trans first.applications
  marks := fun a => (second.marks a).trans (first.marks a)
  registry := second.registry.trans first.registry
  ages := first.ages.trans second.ages
  toCarries := first.toCarries.trans second.toCarries
  declared := by
    rcases first.declared with grounded | same
    · exact .inl grounded
    · refine second.declared.imp (fun grounded l hook f hooked => ?_) (fun again => again.trans same)
      rw [← first.listener] at hooked
      exact same ▸ grounded l hook f hooked

theorem name_eq_of_marks (same : later.marks a = w.marks a) : (later.application a).name = (w.application a).name :=
  congrArg Marks.name same

theorem isDefunct_eq_of_marks (same : later.marks a = w.marks a) :
    (later.application a).isDefunct = (w.application a).isDefunct :=
  congrArg (fun marks : Marks => marks.discarded || marks.shutDown) same

theorem Sane.calm (sane : w.Sane) (calm : w.Calm later) : later.Sane where
  nodes := by
    intro r request node there spliced
    by_cases issued : r.number < w.contexts.size
    · obtain ⟨old, before, -, -, sameNode⟩ := calm.request_before issued there
      obtain ⟨inside, known⟩ := sane.nodes r old node before (sameNode.trans spliced)
      refine ⟨Nat.lt_of_lt_of_le inside calm.contexts, ?_⟩
      intro a holds
      rw [calm.nodeApplication inside] at holds
      rw [calm.applications]
      exact known a holds
    · exact (calm.fresh r request node (Nat.le_of_not_lt issued) there spliced).2
  registered := by
    intro entry member
    rw [calm.registry] at member
    rw [calm.applications, name_eq_of_marks (calm.marks entry.2)]
    exact sane.registered entry member
  named := by
    intro a issued
    rw [calm.applications] at issued
    rw [name_eq_of_marks (calm.marks a)]
    exact sane.named a issued
  hooks := by
    intro l hook f hooked
    rw [calm.listener] at hooked
    rw [calm.hooked hooked]
    exact sane.hooks l hook f hooked
  code := sane.code.imp calm.grounded calm.tame

theorem Beside.calm (beside : w.Beside later) (declared : w.Grounded ∨ later.functions = w.functions) :
    w.Calm later := by
  let unchanged : World := { later with functions := w.functions }
  have marks : ∀ a, unchanged.marks a = w.marks a := fun a => by
    simp only [World.marks, application, unchanged, beside.applications]
  have same : w.Calm unchanged := calm_of_instances beside.contexts (congrArg Table.size beside.applications) marks
    beside.registry beside.listeners rfl (ages_of_same beside.applications beside.clock)
  exact { same with toCarries := beside.toCarries, ages := ages_of_same beside.applications beside.clock, declared }

theorem Aside.calm (aside : w.Aside later) : w.Calm later := aside.toBeside.calm (.inr aside.declared)

end World

end ScopeEngine
