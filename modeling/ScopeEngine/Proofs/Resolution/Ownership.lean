import ScopeEngine.Proofs.Resolution.Growth

/-! What scopes are there for. The scopes that an unqualified search looks into belong to requests, templates, components and
calls; those of sessions, applications and servers, and the public members of components, are others. The two kinds never
meet, and no closure has captured a scope of the second kind. Those that are searched keep the names they are there for. -/

namespace ScopeEngine

open ScopeEngine.Action World

namespace ScopeName

def isSearched : ScopeName → Bool
  | .vars | .locals | .arguments | .request => true
  | _ => false

def isReserved : ScopeName → Bool
  | .session | .application | .server | .self => true
  | _ => false

theorem not_isReserved {name : ScopeName} (searched : name.isSearched = true) : name.isReserved ≠ true := by
  revert searched
  cases name <;> decide

end ScopeName

namespace ContextKind

variable {call : Call} {kind : ContextKind}

def scope? (kind : ContextKind) (name : ScopeName) : Option ScopeId :=
  match name, kind with
  | .vars, .request opened => some opened.vars
  | .vars, .template vars => some vars
  | .request, .request opened => some opened.scope
  | .locals, .function call | .locals, .closure call | .locals, .lambda call => some call.locals
  | .arguments, .function call | .arguments, .closure call | .arguments, .lambda call => some call.arguments
  | .server, .server root => some root.scope
  | _, _ => none

def component? : ContextKind → Option ComponentId
  | .component k => some k
  | .function call | .closure call | .lambda call => call.component
  | _ => none

theorem scope?_outline (kind : ContextKind) (name : ScopeName) : kind.outline.scope? name = kind.scope? name := by
  cases kind <;> cases name <;> rfl

theorem component?_outline (kind : ContextKind) : kind.outline.component? = kind.component? := by
  cases kind <;> rfl

theorem scope?_call {name : ScopeName} {s : ScopeId} (calls : Context.call? { parent := none, kind } = some call)
    (own : kind.scope? name = some s) :
    name.isSearched = true ∧ (name = .locals ∧ s = call.locals ∨ name = .arguments ∧ s = call.arguments) := by
  cases kind <;> cases calls
  all_goals
    cases name <;> cases own <;> simp [ScopeName.isSearched]

theorem outline_eq_closure : kind.outline = .closure call ↔ kind = .closure call := by
  cases kind <;> simp [outline]

end ContextKind

namespace Component

variable {component : Component} {name : ScopeName} {s : ScopeId}

theorem eq_vars (own : component.scope? name = some s) (searched : name.isSearched = true) :
    name = .vars ∧ s = component.vars := by
  cases name <;> simp_all [scope?, ScopeName.isSearched]

theorem eq_self (own : component.scope? name = some s) (reserved : name.isReserved = true) : s = component.self := by
  cases name <;> simp_all [scope?, ScopeName.isReserved]

end Component

/-- The function is a closure, and the call belongs to no other component than the one that was captured. -/
structure Call.Closes (call : Call) (function : Function) : Prop where
  kind : function.kind = .closure
  component : ∀ k, call.component = some k → function.frame.bind (·.component) = some k

namespace World

variable {w later last : World} {s : ScopeId} {c : ContextId} {name : ScopeName}

variable {server : Server}

/-- The scope is there as the one of that name for something that exists. -/
inductive Serves (w : World) : ScopeName → ScopeId → Prop where
  | context {c : ContextId} {name : ScopeName} {s : ScopeId} (issued : c.number < w.contexts.size)
      (own : (w.context c).kind.scope? name = some s) : w.Serves name s
  | component {k : ComponentId} {name : ScopeName} {s : ScopeId} (issued : k.number < w.components.size)
      (own : (w.component k).scope? name = some s) : w.Serves name s
  | session {t : SessionId} (issued : t.number < w.sessions.size) : w.Serves .session (w.session t).scope
  | application {a : ApplicationId} (issued : a.number < w.applications.size) :
      w.Serves .application (w.application a).scope
  | engine : w.Serves .server w.engine.scope

def Open (w : World) (s : ScopeId) : Prop :=
  ∃ name : ScopeName, name.isSearched = true ∧ w.Serves name s

def Reserved (w : World) (s : ScopeId) : Prop :=
  ∃ name : ScopeName, name.isReserved = true ∧ w.Serves name s

/-- The frame has scopes that are searched anyway, among them the variables of its component. -/
structure Framed (w : World) (frame : Frame) : Prop where
  scopes : ∀ s ∈ frame.scopes, w.Open s
  component : ∀ k, frame.component = some k → k.number < w.components.size ∧ (w.component k).vars ∈ frame.scopes

structure Parted (w : World) : Prop where
  issued : ∀ s, w.Open s ∨ w.Reserved s → s.number < w.scopes.size
  apart : ∀ s, w.Open s → ¬ w.Reserved s
  labels : ∀ name s, name.isSearched = true → w.Serves name s → (w.scope s).name = name.key
  frames : ∀ f frame, (w.function f).kind = .closure → (w.function f).frame = some frame → w.Framed frame
  closures : ∀ c call, (w.context c).kind = .closure call → call.Closes (w.function call.function)
  members : ∀ c k, (w.context c).kind.component? = some k → k.number < w.components.size
  handles : ∀ entry ∈ w.handles.components, entry.2.number < w.components.size
  listeners : ∀ l k, (w.listener l).component = some k → k.number < w.components.size

/-- The kinds of scopes stay apart, and a scope that was there does not become one that is searched. -/
structure Parts (w later : World) : Prop where
  parted : later.Parted
  scopes : Scope.Retained w.scopes later.scopes
  opened : ∀ s, later.Open s → w.Open s ∨ w.scopes.size ≤ s.number

theorem Parted.parts (parted : w.Parted) : w.Parts w :=
  ⟨parted, .refl _, fun _ => .inl⟩

theorem Parts.trans (first : w.Parts later) (second : later.Parts last) : w.Parts last where
  parted := second.parted
  scopes := first.scopes.trans second.scopes
  opened := by
    intro s opens
    rcases second.opened s opens with before | new
    · exact first.opened s before
    · exact .inr (Nat.le_trans first.scopes.size new)

section

variable (searched : name.isSearched = true) (own : (w.context c).kind.scope? name = some s)
include searched own

theorem serves_of_kind : w.Serves name s := by
  by_cases issued : c.number < w.contexts.size
  · exact .context issued own
  · rw [context_of_ge (Nat.le_of_not_lt issued)] at own
    cases name <;> cases searched <;> cases own

theorem open_of_kind : w.Open s :=
  ⟨name, searched, serves_of_kind searched own⟩

end

theorem Grows.open_ (grows : w.Grows later) (opens : w.Open s) : later.Open s := by
  obtain ⟨name, searched, serves⟩ := opens
  refine ⟨name, searched, ?_⟩
  cases serves with
  | @context c _ _ issued own =>
    refine .context (Nat.lt_of_lt_of_le issued grows.contexts) ?_
    rw [grows.view issued (·.scope? name) fun kind => kind.scope?_outline name]
    exact own
  | @component k _ _ issued own =>
    refine .component (Nat.lt_of_lt_of_le issued grows.components) ?_
    rw [grows.component k issued]
    exact own
  | session | application | engine => cases searched

theorem Grows.framed (grows : w.Grows later) {frame : Frame} (framed : w.Framed frame) : later.Framed frame where
  scopes := fun s member => grows.open_ (framed.scopes s member)
  component := by
    intro k belongs
    obtain ⟨issued, member⟩ := framed.component k belongs
    rw [grows.component k issued]
    exact ⟨Nat.lt_of_lt_of_le issued grows.components, member⟩

theorem framed_call {call : Call} (calls : (w.context c).call? = some call) {outer : Frame} (framed : w.Framed outer) :
    w.Framed { outer with scopes := call.locals :: call.arguments :: outer.scopes } where
  scopes := by
    have own : ∀ name : ScopeName, name.isSearched = true → ∀ s, (w.context c).kind.scope? name = some s → w.Open s :=
      fun _ searched _ => open_of_kind searched
    have both : (w.context c).kind.scope? .locals = some call.locals ∧
        (w.context c).kind.scope? .arguments = some call.arguments := by
      revert calls
      cases kind : (w.context c).kind <;> simp [Context.call?, kind, ContextKind.scope?]
      all_goals
        rintro rfl
        exact ⟨rfl, rfl⟩
    intro s member
    rcases List.mem_cons.mp member with rfl | member
    · exact own .locals rfl _ both.1
    · rcases List.mem_cons.mp member with rfl | member
      · exact own .arguments rfl _ both.2
      · exact framed.scopes s member
  component := fun k belongs => (framed.component k belongs).imp_right fun member =>
    List.mem_cons_of_mem _ (List.mem_cons_of_mem _ member)

section Frames

variable (parted : w.Parted)
include parted

theorem Parted.componentVars {k : ComponentId} (member : (w.context c).kind.component? = some k) :
    w.Open (w.component k).vars :=
  ⟨.vars, rfl, .component (parted.members c k member) rfl⟩

theorem Parted.frameOf (contexts : List ContextId) : w.Framed (w.frameOf contexts) := by
  have nothing : w.Framed {} := ⟨fun s member => (List.not_mem_nil member).elim, fun k belongs => by cases belongs⟩
  have alone : ∀ {c : ContextId} {s : ScopeId}, (w.context c).kind.scope? .vars = some s → w.Framed { scopes := [s] } :=
    fun own => ⟨fun t member => by cases List.mem_singleton.mp member; exact open_of_kind rfl own,
      fun k belongs => by cases belongs⟩
  have within : ∀ {c : ContextId} {k : ComponentId}, (w.context c).kind.component? = some k →
      w.Framed { scopes := [(w.component k).vars], component := some k } := by
    intro c k member
    refine ⟨fun s there => ?_, fun j belongs => ?_⟩
    · cases List.mem_singleton.mp there
      exact parted.componentVars member
    · cases belongs
      exact ⟨parted.members c k member, List.mem_singleton_self _⟩
  induction contexts with
  | nil => exact nothing
  | cons c above ih =>
    have called : ∀ call, (w.context c).call? = some call → ∀ {outer : Frame}, w.Framed outer →
        w.Framed { outer with scopes := call.locals :: call.arguments :: outer.scopes } := fun _ calls _ => framed_call calls
    cases kind : (w.context c).kind with
    | request request | template vars =>
      simp only [World.frameOf, kind]
      exact alone (by rw [kind]; rfl)
    | component k =>
      simp only [World.frameOf, kind]
      exact within (by rw [kind]; rfl)
    | function call =>
      have calls : (w.context c).call? = some call := by simp [Context.call?, kind]
      cases member : call.component with
      | some k =>
        simp only [World.frameOf, kind, member]
        exact called call calls (within (by rw [kind]; exact member))
      | none =>
        simp only [World.frameOf, kind, member]
        exact called call calls ih
    | closure call =>
      simp only [World.frameOf, kind]
      refine called call (by simp [Context.call?, kind]) ?_
      cases captured : (w.function call.function).frame with
      | none => exact nothing
      | some frame => exact parted.frames _ frame (parted.closures c call kind).kind captured
    | lambda call =>
      simp only [World.frameOf, kind]
      exact called call (by simp [Context.call?, kind]) nothing
    | server | application | session =>
      simp only [World.frameOf, kind]
      exact nothing

end Frames

section Changes

variable (parted : w.Parted)
include parted

/-- The kinds of scopes stay apart if a scope that is searched from now on is no reserved one, if a scope that is reserved
from now on was never searched, and if whatever is new refers to things that exist. -/
theorem Parted.next (grows : w.Grows later) (scopes : Scope.Retained w.scopes later.scopes)
    (opened : ∀ name s, name.isSearched = true → later.Serves name s →
      w.Serves name s ∨ s.number < later.scopes.size ∧ ¬ later.Reserved s ∧ (later.scope s).name = name.key)
    (reserved : ∀ s, later.Reserved s → w.Reserved s ∨ s.number < later.scopes.size ∧ ¬ w.Open s)
    (frames : ∀ (f : FunctionId) frame, w.functions.size ≤ f.number → (later.function f).kind = .closure →
      (later.function f).frame = some frame → ∃ c, frame = w.captureFrame c)
    (closures : ∀ (c : ContextId) call, w.contexts.size ≤ c.number → (later.context c).kind = .closure call →
      call.Closes (later.function call.function))
    (members : ∀ (c : ContextId) k, w.contexts.size ≤ c.number → (later.context c).kind.component? = some k →
      k.number < later.components.size)
    (handles : ∀ entry ∈ later.handles.components, entry.2.number < later.components.size)
    (listeners : ∀ l k, (later.listener l).component = some k → k.number < later.components.size) : later.Parted where
  issued := by
    intro s serves
    rcases serves with ⟨name, searched, serves⟩ | reserves
    · rcases opened name s searched serves with before | new
      · exact Nat.lt_of_lt_of_le (parted.issued s (.inl ⟨name, searched, before⟩)) scopes.size
      · exact new.1
    · rcases reserved s reserves with before | new
      · exact Nat.lt_of_lt_of_le (parted.issued s (.inr before)) scopes.size
      · exact new.1
  apart := by
    rintro s ⟨name, searched, serves⟩ reserves
    rcases opened name s searched serves with before | new
    · rcases reserved s reserves with already | never
      · exact parted.apart s ⟨name, searched, before⟩ already
      · exact never.2 ⟨name, searched, before⟩
    · exact new.2.1 reserves
  labels := by
    intro name s searched serves
    rcases opened name s searched serves with before | new
    · exact (scopes.name s (parted.issued s (.inl ⟨name, searched, before⟩))).trans (parted.labels name s searched before)
    · exact new.2.2
  frames := by
    intro f frame closes captured
    apply grows.framed
    by_cases issued : f.number < w.functions.size
    · rw [grows.function f issued] at closes captured
      exact parted.frames f frame closes captured
    · obtain ⟨c, rfl⟩ := frames f frame (Nat.le_of_not_lt issued) closes captured
      exact parted.frameOf _
  closures := by
    intro c call kind
    by_cases issued : c.number < w.contexts.size
    · have before : (w.context c).kind = .closure call := by
        rw [← ContextKind.outline_eq_closure, ← grows.outline c issued, ContextKind.outline_eq_closure]
        exact kind
      have closes := parted.closures c call before
      have known : call.function.number < w.functions.size := by
        refine Nat.lt_of_not_le fun beyond => ?_
        have missing := closes.kind
        rw [function_of_ge beyond] at missing
        cases missing
      have same := grows.function _ known
      exact ⟨same ▸ closes.kind, same ▸ closes.component⟩
    · exact closures c call (Nat.le_of_not_lt issued) kind
  members := by
    intro c k member
    by_cases issued : c.number < w.contexts.size
    · rw [grows.view issued ContextKind.component? ContextKind.component?_outline] at member
      exact Nat.lt_of_lt_of_le (parted.members c k member) grows.components
    · exact members c k (Nat.le_of_not_lt issued) member
  handles := handles
  listeners := listeners

end Changes

theorem no_closure {f : FunctionId} (beyond : w.functions.size ≤ f.number) : (w.function f).kind ≠ .closure := by
  rw [function_of_ge beyond]
  intro closes
  cases closes

theorem kind_of_ge (beyond : w.contexts.size ≤ c.number) : (w.context c).kind = .server default := by
  rw [context_of_ge beyond]
  rfl

/-- What is there for something stays so with the contexts' outlines and everything else that has a scope. -/
theorem Serves.before (contexts : later.contexts.size = w.contexts.size)
    (outline : ∀ c, (later.context c).kind.outline = (w.context c).kind.outline)
    (components : later.components = w.components) (sessions : later.sessions = w.sessions)
    (applications : later.applications = w.applications) (engine : later.engine = w.engine)
    (serves : later.Serves name s) : w.Serves name s := by
  cases serves with
  | @context c _ _ issued own =>
    refine .context (contexts ▸ issued) ?_
    rw [← ContextKind.scope?_outline, ← outline c, ContextKind.scope?_outline]
    exact own
  | component issued own =>
    rw [components] at issued
    rw [World.component, components] at own
    exact .component issued own
  | session issued =>
    rw [sessions] at issued
    rw [World.session, sessions]
    exact .session issued
  | application issued =>
    rw [applications] at issued
    rw [World.application, applications]
    exact .application issued
  | engine =>
    rw [engine]
    exact .engine

theorem Serves.anyEngine (serves : Serves { w with engine := server } name s) :
    w.Serves name s ∨ name = .server ∧ s = server.scope := by
  cases serves with
  | context issued own => exact .inl (.context issued own)
  | component issued own => exact .inl (.component issued own)
  | session issued => exact .inl (.session issued)
  | application issued => exact .inl (.application issued)
  | engine => exact .inr ⟨rfl, rfl⟩

theorem Open.anyEngine (opens : Open { w with engine := server } s) : w.Open s := by
  obtain ⟨name, searched, serves⟩ := opens
  rcases serves.anyEngine with before | ⟨rfl, _⟩
  · exact ⟨name, searched, before⟩
  · cases searched

/-- Nothing new has a part in any search: functions may have been added, and scopes that are there for nothing yet. -/
structure Readies (w later : World) : Prop extends w.Parts later where
  serves : ∀ name s, later.Serves name s → w.Serves name s

theorem Readies.trans (first : w.Readies later) (second : later.Readies last) : w.Readies last :=
  { first.toParts.trans second.toParts with serves := fun name s now => first.serves name s (second.serves name s now) }

theorem Readies.unused (readies : w.Readies later) (parted : w.Parted) (made : w.Made later s) :
    ¬ later.Open s ∧ ¬ later.Reserved s := by
  have before : ¬ s.number < w.scopes.size := Nat.not_lt_of_le made.1
  constructor
  · exact fun opens => before (parted.issued s (.inl (opens.imp fun name both => ⟨both.1, readies.serves name s both.2⟩)))
  · exact fun reserves =>
      before (parted.issued s (.inr (reserves.imp fun name both => ⟨both.1, readies.serves name s both.2⟩)))

section Kinds

variable (parted : w.Parted)

variable {k : ComponentId}
include parted

theorem Parted.rearranged (grows : w.Grows later) (scopes : Scope.Retained w.scopes later.scopes)
    (serves : ∀ name s, later.Serves name s → w.Serves name s)
    (frames : ∀ (f : FunctionId) frame, w.functions.size ≤ f.number → (later.function f).kind = .closure →
      (later.function f).frame = some frame → ∃ c, frame = w.captureFrame c)
    (contexts : later.contexts.size = w.contexts.size)
    (handles : ∀ entry ∈ later.handles.components, entry.2.number < later.components.size)
    (listeners : ∀ l k, (later.listener l).component = some k → k.number < later.components.size) : w.Readies later where
  parted := by
    have none_new : ∀ c : ContextId, w.contexts.size ≤ c.number → (later.context c).kind = .server default :=
      fun c beyond => kind_of_ge (contexts ▸ beyond)
    refine parted.next grows scopes ?_ ?_ frames ?_ ?_ handles listeners
    · exact fun name s _ serving => .inl (serves name s serving)
    · exact fun s reserves => .inl (reserves.imp fun name both => ⟨both.1, serves name s both.2⟩)
    · intro c call beyond kind
      cases (none_new c beyond).symm.trans kind
    · intro c k beyond member
      rw [none_new c beyond] at member
      cases member
  scopes := scopes
  opened := fun s opens => .inl (opens.imp fun name both => ⟨both.1, serves name s both.2⟩)
  serves := serves

theorem Parted.beside (beside : w.Beside later) : w.Readies later := by
  have same : ∀ c, (later.context c).kind.outline = (w.context c).kind.outline := fun c => by
    rw [context, beside.contexts, context]
  refine parted.rearranged beside.grows beside.scopes ?_ ?_ (congrArg Table.size beside.contexts) ?_ ?_
  · exact fun name s => Serves.before (congrArg Table.size beside.contexts) same beside.components beside.sessions
      beside.applications beside.engine
  · exact beside.captured
  · rw [beside.named, beside.components]
    exact parted.handles
  · simp only [listener, beside.listeners, beside.components]
    exact parted.listeners

theorem Parted.reshaped {contexts : Table .context Context} (grows : w.Grows { w with contexts })
    (size : contexts.size = w.contexts.size) : w.Readies { w with contexts } := by
  have outline : ∀ c, (context { w with contexts } c).kind.outline = (w.context c).kind.outline := by
    intro c
    by_cases issued : c.number < w.contexts.size
    · exact grows.outline c issued
    · have beyond : w.contexts.size ≤ c.number := Nat.le_of_not_lt issued
      have missing : context { w with contexts } c = default := context_of_ge (Nat.le_trans (Nat.le_of_eq size) beyond)
      rw [missing, context_of_ge beyond]
  refine parted.rearranged grows (.refl _) ?_ ?_ size parted.handles parted.listeners
  · exact fun name s => Serves.before size outline rfl rfl rfl rfl
  · exact fun f frame beyond closes => absurd closes (no_closure beyond)

theorem Parted.modifyRequest (r : ContextId) {change : Request → Request}
    (kept : ∀ request, (change request).vars = request.vars ∧ (change request).scope = request.scope) :
    w.Readies (w.modifyRequest r change) := by
  have grows := w.grows_modifyRequest r kept
  have size : (w.modifyRequest r change).contexts.size = w.contexts.size := modifyRequest_size ..
  obtain ⟨contexts, same⟩ := w.modifyRequest_eq r change
  rw [same] at grows size ⊢
  exact parted.reshaped grows size

theorem Parted.setTemplates (c : ContextId) (templates : List String) :
    w.Readies (w.setContext c { w.context c with templates }) :=
  parted.reshaped (w.grows_setTemplates c templates) (Table.size_set ..)

theorem Parted.tends (tends : w.Tends later) : w.Parts later := by
  have elsewhere : ∀ name s, later.Serves name s → w.Serves name s ∨ name.isReserved = true ∧ w.Made later s := by
    intro name s serves
    cases serves with
    | context issued own =>
      rw [tends.contexts] at issued
      rw [context, tends.contexts] at own
      exact .inl (.context issued own)
    | component issued own =>
      rw [tends.components] at issued
      rw [World.component, tends.components] at own
      exact .inl (.component issued own)
    | session issued =>
      rcases tends.session _ issued with ⟨before, same⟩ | made
      · rw [same]
        exact .inl (.session before)
      · exact .inr ⟨rfl, made⟩
    | application issued =>
      rcases tends.application _ issued with ⟨before, same⟩ | made
      · rw [same]
        exact .inl (.application before)
      · exact .inr ⟨rfl, made⟩
    | engine =>
      rw [tends.engine]
      exact .inl .engine
  have opened : ∀ name s, name.isSearched = true → later.Serves name s → w.Serves name s := fun name s searched serves =>
    (elsewhere name s serves).resolve_right fun new => ScopeName.not_isReserved searched new.1
  refine ⟨parted.next ?_ tends.scopes (fun name s searched serves => .inl (opened name s searched serves)) ?_ ?_ ?_ ?_ ?_ ?_,
    tends.scopes, fun s opens => .inl (opens.imp fun name both => ⟨both.1, opened name s both.1 both.2⟩)⟩
  · exact grows_of_same tends.contexts tends.functions tends.components
  · intro s reserves
    obtain ⟨name, reserved, serves⟩ := reserves
    rcases elsewhere name s serves with before | new
    · exact .inl ⟨name, reserved, before⟩
    · exact .inr ⟨new.2.2, fun opens => Nat.not_lt_of_le new.2.1 (parted.issued s (.inl opens))⟩
  · intro f frame beyond closes
    rw [function, tends.functions] at closes
    exact absurd closes (no_closure beyond)
  · intro c call beyond kind
    rw [context, tends.contexts] at kind
    cases (kind_of_ge beyond).symm.trans kind
  · intro c k beyond member
    rw [context, tends.contexts] at member
    cases (congrArg ContextKind.component? (kind_of_ge beyond)).symm.trans member
  · rw [tends.handles, tends.components]
    exact parted.handles
  · simp only [listener, tends.listeners, tends.components]
    exact parted.listeners

theorem Parted.setHandles {handles : Handles}
    (issued : ∀ entry ∈ handles.components, entry.2.number < w.components.size) : w.Readies { w with handles } := by
  refine parted.rearranged (grows_of_same rfl rfl rfl) (.refl _) ?_ ?_ rfl issued parted.listeners
  · exact fun name s => Serves.before rfl (fun _ => rfl) rfl rfl rfl rfl
  · exact fun f frame beyond closes => absurd closes (no_closure beyond)

theorem Parted.addListener {listener : Listener}
    (issued : ∀ k, listener.component = some k → k.number < w.components.size) : w.Readies (w.addListener listener).2 := by
  refine parted.rearranged (grows_of_same rfl rfl rfl) (.refl _) ?_ ?_ rfl parted.handles ?_
  · exact fun name s => Serves.before rfl (fun _ => rfl) rfl rfl rfl rfl
  · exact fun f frame beyond closes => absurd closes (no_closure beyond)
  · intro l k
    have added : (w.addListener listener).2.listener l = if l = w.listeners.next then listener else w.listener l :=
      Table.get_add ..
    rw [added]
    split
    · exact issued k
    · exact parted.listeners l k

theorem Parted.inEngine {server : Server} (issued : server.scope.number < w.scopes.size) (shut : ¬ w.Open server.scope) :
    w.Parts { w with engine := server } := by
  refine ⟨parted.next (grows_of_same rfl rfl rfl) (.refl _) ?_ ?_ ?_ ?_ ?_ parted.handles parted.listeners, .refl _,
    fun s opens => .inl opens.anyEngine⟩
  · intro name s searched serves
    refine serves.anyEngine.imp_right fun ⟨same, _⟩ => ?_
    rw [same] at searched
    cases searched
  · intro s reserves
    obtain ⟨name, reserved, serves⟩ := reserves
    rcases serves.anyEngine with before | ⟨_, rfl⟩
    · exact .inl ⟨name, reserved, before⟩
    · exact .inr ⟨issued, shut⟩
  · exact fun f frame beyond closes => absurd closes (no_closure beyond)
  · exact fun c call _ => parted.closures c call
  · exact fun c k _ => parted.members c k

theorem Parted.ofEngine : w.engine.scope.number < w.scopes.size ∧ ¬ w.Open w.engine.scope := by
  have reserved : w.Reserved w.engine.scope := ⟨.server, rfl, .engine⟩
  exact ⟨parted.issued _ (.inr reserved), fun opens => parted.apart _ opens reserved⟩

theorem Parted.held (held : w.componentHeld k = true) : k.number < w.components.size := by
  simp only [componentHeld, Bool.or_eq_true, List.any_eq_true, beq_iff_eq, Bool.and_eq_true] at held
  rcases held with ⟨⟨entry, member, rfl⟩ | ⟨context, member, there⟩⟩ | ⟨n, _, there, _⟩
  · exact parted.handles entry member
  · obtain ⟨c, _, rfl⟩ := List.mem_map.mp member
    apply parted.members c k
    revert there
    cases (w.context c).kind <;> simp [ContextKind.component?]
  · exact parted.listeners ⟨n⟩ k there

theorem Parted.followed {link : Option ComponentId} (leads : w.followLink link = some k) :
    k.number < w.components.size :=
  parted.held (Option.filter_eq_some_iff.mp leads).2

end Kinds

section Fresh

theorem size_addScope (w : World) (scope : Scope) : (w.addScope scope).2.scopes.size = w.scopes.size + 1 :=
  Table.size_add ..

structure MadeAs (w : World) (name : ScopeName) (later : World) (s : ScopeId) : Prop where
  made : w.Made later s
  label : (later.scope s).name = name.key

theorem MadeAs.addScope (made : w.MadeAs name later s) (scope : Scope) : w.MadeAs name (later.addScope scope).2 s where
  made := ⟨made.made.1, by rw [size_addScope]; exact Nat.lt_succ_of_lt made.made.2⟩
  label := ((Scope.retained_add _ scope).name s made.made.2).trans made.label

variable (readies : w.Readies later) (scope : Scope)
include readies

theorem Readies.addScope : w.Readies (later.addScope scope).2 :=
  readies.trans (readies.parted.beside (beside_scopes (Scope.retained_add _ scope)).toBeside)

theorem Readies.next (name : ScopeName) (named : scope.name = name.key) :
    w.MadeAs name (later.addScope scope).2 later.scopes.next where
  made := ⟨readies.scopes.size, by rw [size_addScope]; exact Nat.lt_succ_self _⟩
  label := by
    have added : (later.addScope scope).2.scope later.scopes.next = scope := Table.get_add_next ..
    rw [added, named]

end Fresh

section Making

variable {context : Context}

theorem Serves.before_addContext (serves : (w.addContext context).2.Serves name s) :
    w.Serves name s ∨ context.kind.scope? name = some s := by
  cases serves with
  | @context c _ _ issued own =>
    rw [context_addContext] at own
    split at own
    · exact .inr own
    next older => exact .inl (.context (w.contexts.lt_of_lt_size_add issued older) own)
  | component issued own => exact .inl (.component issued own)
  | session issued => exact .inl (.session issued)
  | application issued => exact .inl (.application issued)
  | engine => exact .inl .engine

/-- What a new context refers to has to exist, and its scopes must not mix the kinds. -/
theorem Parted.addContext (parted : w.Parted) (root : context.isRoot = true → context.parent = none)
    (opened : ∀ name s, name.isSearched = true → (w.addContext context).2.Serves name s → w.Serves name s ∨ s.number < w.scopes.size ∧ ¬ (w.addContext context).2.Reserved s ∧ (w.scope s).name = name.key)
    (reserved : ∀ s, (w.addContext context).2.Reserved s → w.Reserved s ∨ s.number < w.scopes.size ∧ ¬ w.Open s)
    (closures : ∀ call, context.kind = .closure call → call.Closes (w.function call.function))
    (members : ∀ k, context.kind.component? = some k → k.number < w.components.size) :
    (w.addContext context).2.Parted := by
  refine parted.next (w.grows_addContext root) (.refl _) opened reserved ?_ ?_ ?_ parted.handles parted.listeners
  · exact fun f frame beyond closes => absurd closes (no_closure beyond)
  · intro c call beyond
    rw [context_addContext]
    split
    · exact closures call
    · exact parted.closures c call
  · intro c k beyond
    rw [context_addContext]
    split
    · exact members k
    · exact parted.members c k

variable (parts : w.Parts later)
include parts

theorem Parts.addContext (root : context.isRoot = true → context.parent = none)
    (own : ∀ name s, context.kind.scope? name = some s → name.isSearched = true ∧ w.MadeAs name later s ∧ ¬ later.Reserved s)
    (closures : ∀ call, context.kind = .closure call → call.Closes (later.function call.function))
    (members : ∀ k, context.kind.component? = some k → k.number < later.components.size) :
    w.Parts (later.addContext context).2 := by
  have reserved : ∀ s, (later.addContext context).2.Reserved s → later.Reserved s := by
    intro s reserves
    obtain ⟨name, reserved, serves⟩ := reserves
    rcases serves.before_addContext with before | new
    · exact ⟨name, reserved, before⟩
    · exact absurd reserved (ScopeName.not_isReserved (own name s new).1)
  have opened : ∀ name s, (later.addContext context).2.Serves name s →
      later.Serves name s ∨ w.MadeAs name later s ∧ ¬ later.Reserved s := fun name s serves =>
    serves.before_addContext.imp_right fun new => (own name s new).2
  refine ⟨parts.parted.addContext root ?_ (fun s reserves => .inl (reserved s reserves)) closures members, parts.scopes,
    ?_⟩
  · exact fun name s _ serves => (opened name s serves).imp_right fun new =>
      ⟨new.1.made.2, fun reserves => new.2 (reserved s reserves), new.1.label⟩
  · rintro s ⟨name, searched, serves⟩
    rcases opened name s serves with before | new
    · exact parts.opened s ⟨name, searched, before⟩
    · exact .inr new.1.made.1

theorem Parts.addRoot {kind : ContextKind} (own : ∀ name s, kind.scope? name = some s →
      name.isReserved = true ∧ s.number < later.scopes.size ∧ ¬ later.Open s)
    (closures : ∀ call, kind ≠ .closure call) (members : kind.component? = none) :
    w.Parts (later.addContext { parent := none, kind }).2 := by
  have opened : ∀ name s, name.isSearched = true → (later.addContext { parent := none, kind }).2.Serves name s →
      later.Serves name s := fun name s searched serves =>
    serves.before_addContext.resolve_right fun new => ScopeName.not_isReserved searched (own name s new).1
  refine ⟨parts.parted.addContext (fun _ => rfl) (fun name s searched serves => .inl (opened name s searched serves)) ?_ ?_ ?_,
    parts.scopes, fun s opens => parts.opened s (opens.imp fun name both => ⟨both.1, opened name s both.1 both.2⟩)⟩
  · intro s reserves
    obtain ⟨name, reserved, serves⟩ := reserves
    rcases serves.before_addContext with before | new
    · exact .inl ⟨name, reserved, before⟩
    · exact .inr (own name s new).2
  · exact fun call closes => absurd closes (closures call)
  · exact fun k member => by cases members.symm.trans member

theorem Parts.addComponent {component : Component} (vars : w.MadeAs .vars later component.vars)
    (free : ¬ later.Reserved component.vars) (self : component.self.number < later.scopes.size)
    (shut : ¬ later.Open component.self) (differ : component.vars ≠ component.self) :
    w.Parts (later.addComponent component).2 := by
  have elsewhere : ∀ name s, (later.addComponent component).2.Serves name s →
      later.Serves name s ∨ component.scope? name = some s := by
    intro name s serves
    cases serves with
    | context issued own => exact .inl (.context issued own)
    | @component k _ _ issued own =>
      have added : (later.addComponent component).2.component k =
          if k = later.components.next then component else later.component k := Table.get_add ..
      rw [added] at own
      split at own
      · exact .inr own
      next older => exact .inl (.component (later.components.lt_of_lt_size_add issued older) own)
    | session issued => exact .inl (.session issued)
    | application issued => exact .inl (.application issued)
    | engine => exact .inl .engine
  have opened : ∀ name s, name.isSearched = true → (later.addComponent component).2.Serves name s →
      later.Serves name s ∨ name = .vars ∧ s = component.vars := fun name s searched serves =>
    (elsewhere name s serves).imp_right fun new => Component.eq_vars new searched
  have reserved : ∀ s, (later.addComponent component).2.Reserved s → later.Reserved s ∨ s = component.self := by
    intro s reserves
    obtain ⟨name, reserved, serves⟩ := reserves
    rcases elsewhere name s serves with before | new
    · exact .inl ⟨name, reserved, before⟩
    · exact .inr (Component.eq_self new reserved)
  have more : later.components.size ≤ (later.addComponent component).2.components.size :=
    (later.grows_addComponent component).components
  refine ⟨parts.parted.next (later.grows_addComponent component) (.refl _) ?_ ?_ ?_ ?_ ?_ ?_ ?_, parts.scopes, ?_⟩
  · intro name s searched serves
    rcases opened name s searched serves with before | ⟨rfl, rfl⟩
    · exact .inl before
    · exact .inr ⟨vars.made.2, fun reserves => (reserved _ reserves).elim free differ, vars.label⟩
  · intro s reserves
    refine (reserved s reserves).imp_right fun new => ?_
    subst new
    exact ⟨self, shut⟩
  · exact fun f frame beyond closes => absurd closes (no_closure beyond)
  · exact fun c call _ => parts.parted.closures c call
  · exact fun c k _ member => Nat.lt_of_lt_of_le (parts.parted.members c k member) more
  · exact fun entry member => Nat.lt_of_lt_of_le (parts.parted.handles entry member) more
  · exact fun l k made => Nat.lt_of_lt_of_le (parts.parted.listeners l k made) more
  · rintro s ⟨name, searched, serves⟩
    rcases opened name s searched serves with before | ⟨_, rfl⟩
    · exact parts.opened s ⟨name, searched, before⟩
    · exact .inr vars.made.1

end Making

end World

end ScopeEngine
