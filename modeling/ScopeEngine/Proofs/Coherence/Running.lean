import ScopeEngine.Engine
import ScopeEngine.Proofs.ActionLogic
import ScopeEngine.Proofs.Coherence.Standing
import ScopeEngine.Resolution.Names

/-! Code that runs in a request, and sequential runs of one operation after another. New contexts leave requests where they
stand, a call runs in the request of its caller, and a request whose application is still of use finds it again without looking
it up. -/

namespace ScopeEngine

open ScopeEngine.Action World Script

/-- A request that names the application by the name it has finds the application again. -/
def Key.Refound (name : Key) : Prop :=
  (Settings.named name.name).hasApplication = true ∧ ((Settings.named name.name).applicationKey == name) = true

namespace World

variable {w later last : World} {a : ApplicationId} {s : SessionId} {c r : ContextId} {standing : Standing}
variable {context : Context} {key : Key} {name : Option ScopeName} {rest : List ContextId}

def Live (w : World) (s : SessionId) : Prop :=
  (w.session s).shutDown = false ∧ (w.session s).discarded = false

def code (w : World) : Table .function Function × Table .listener Listener := (w.functions, w.listeners)

def Stored (w : World) (a : ApplicationId) (s : SessionId) : Prop :=
  (w.application a).sessions.find? (w.session s).id = some s

theorem standingOf_congr (contexts : later.contexts = w.contexts) : later.standingOf = w.standingOf := by
  have application : later.nodeApplication = w.nodeApplication := by
    funext node
    simp only [nodeApplication, context, contexts]
  have session : later.nodeSession = w.nodeSession := by
    funext node
    simp only [nodeSession, context, contexts]
  funext request
  simp only [standingOf, application, session]

theorem standing_congr (contexts : later.contexts = w.contexts) : later.standing = w.standing := by
  funext r
  simp only [standing, standingOf_congr contexts, context, contexts]

section

variable (w : World)
variable (parent : ContextId)

theorem modifyRequest_code (r : ContextId) (change : Request → Request) : (w.modifyRequest r change).code = w.code := by
  obtain ⟨contexts, same⟩ := w.modifyRequest_eq r change
  rw [same]
  rfl

theorem context_addContext (context : Context) (c : ContextId) :
    (w.addContext context).2.context c = if c = w.contexts.next then context else w.context c :=
  Table.get_add ..

theorem context_addContext_next (context : Context) : (w.addContext context).2.context w.contexts.next = context :=
  Table.get_add_next ..

theorem kind_addNode (kind : ContextKind) : ((w.addNode kind).2.context (w.addNode kind).1).kind = kind :=
  congrArg Context.kind (context_addContext_next ..)

theorem context_addContext_of_lt (context : Context) {c : ContextId} (issued : c.number < w.contexts.size) :
    (w.addContext context).2.context c = w.context c :=
  Table.get_add_of_lt _ _ issued

/-- The request that is set aside, before the application is put into it. -/
theorem request_newDetached (a : ApplicationId) : ∃ request,
    (((w.newRequest parent true).2.addNode (.application a)).2.context w.contexts.next).request? = some request ∧
      request.detached = true ∧ request.sessionNode = none := by
  have inside : w.contexts.next.number < (w.newRequest parent true).2.contexts.size := Table.next_lt_size_add ..
  have made : (w.newRequest parent true).2.context w.contexts.next = _ := context_addContext_next ..
  exact ⟨_, congrArg Context.request? ((context_addContext_of_lt _ _ inside).trans made), rfl, rfl⟩

theorem newDetached_eq (a : ApplicationId) :
    ∃ contexts, (w.newDetached parent a).2 = { w with scopes := w.framed.scopes, contexts } :=
  modifyRequest_eq ..

end

theorem spliceNew_eq (c : ContextId) (kind : ContextKind) (spliceable : kind.type.isSpliceable = true) :
    spliceNew c kind w = match (w.addNode kind).2.requestOf c with
      | some (r, _) => (.ok (), (w.addNode kind).2.modifyRequest r (·.splice ⟨kind.type, w.contexts.next, spliceable⟩))
      | none => (.error (.failed .nothingToSpliceInto), (w.addNode kind).2) := by
  have type : ((w.addNode kind).2.context w.contexts.next).type = kind.type := congrArg ContextKind.type (w.kind_addNode kind)
  rw [spliceNew, Action.bind_apply, Action.modifyGet_apply]
  simp only [splice, Action.bind_apply, Action.get_apply]
  rw [show (w.addNode kind).1 = w.contexts.next from rfl]
  simp only [type, spliceable, dif_pos]
  cases (w.addNode kind).2.requestOf c <;> rfl

structure Apart (w later : World) : Prop where
  size : w.contexts.size ≤ later.contexts.size
  parent : ∀ c : ContextId, c.number < w.contexts.size → (later.context c).parent = (w.context c).parent
  kind : ∀ c : ContextId, c.number < w.contexts.size → (later.context c).kind = (w.context c).kind
  fresh : ∀ c request, w.contexts.size ≤ c.number → (later.context c).request? = some request →
    request.applicationNode = none ∧ request.sessionNode = none
  code : later.code = w.code

namespace Apart

theorem request? (apart : w.Apart later) (issued : c.number < w.contexts.size) :
    (later.context c).request? = (w.context c).request? := by
  simp only [Context.request?, apart.kind c issued]

theorem trans (first : w.Apart later) (second : later.Apart last) : w.Apart last where
  size := Nat.le_trans first.size second.size
  parent := fun c issued =>
    (second.parent c (Nat.lt_of_lt_of_le issued first.size)).trans (first.parent c issued)
  kind := fun c issued => (second.kind c (Nat.lt_of_lt_of_le issued first.size)).trans (first.kind c issued)
  fresh := fun c request beyond at_ => by
    by_cases between : c.number < later.contexts.size
    · rw [second.request? between] at at_
      exact first.fresh c request beyond at_
    · exact second.fresh c request (Nat.le_of_not_lt between) at_
  code := second.code.trans first.code

theorem extends_ (apart : w.Apart later) : w.Extends later where
  size := apart.size
  parent := apart.parent
  request := fun c issued => by rw [apart.request? issued]

end Apart

theorem apart_of_same (contexts : later.contexts = w.contexts) (code : later.code = w.code) : w.Apart later where
  size := Nat.le_of_eq (by rw [contexts])
  parent := fun c _ => by simp only [context, contexts]
  kind := fun c _ => by simp only [context, contexts]
  fresh := by
    intro c request beyond at_
    rw [← contexts] at beyond
    exact (Nat.not_lt_of_le beyond (issued_of_request at_)).elim
  code := code

theorem apart_addContext (w : World)
    (bare : ∀ request, context.request? = some request → request.applicationNode = none ∧ request.sessionNode = none) :
    w.Apart (w.addContext context).2 where
  size := Table.size_le_size_add ..
  parent := fun c issued => by rw [context_addContext_of_lt w context issued]
  kind := fun c issued => by rw [context_addContext_of_lt w context issued]
  fresh := by
    intro c request beyond at_
    rw [context_addContext] at at_
    split at at_
    · exact bare request at_
    · exact (Nat.not_lt_of_le beyond (issued_of_request at_)).elim
  code := rfl

theorem apart_newRequest (w : World) (parent : ContextId) (detached : Bool) :
    w.Apart (w.newRequest parent detached).2 := by
  have scopes : w.Apart w.framed := apart_of_same rfl rfl
  refine scopes.trans (apart_addContext w.framed ?_)
  rintro request ⟨⟩
  exact ⟨rfl, rfl⟩

theorem home_addContext (w : World) {p : ContextId} (below : context.parent = some p)
    (issued : p.number < w.contexts.size) (plain : context.request? = none) :
    (w.addContext context).2.home w.contexts.next = w.home p := by
  have apart : w.Apart (w.addContext context).2 := w.apart_addContext (by simp [plain])
  have here : (w.addContext context).2.context w.contexts.next = context := by
    rw [context_addContext, if_pos rfl]
  have way : (w.addContext context).2.ancestry w.contexts.next =
      w.contexts.next :: (w.addContext context).2.ancestry p := by
    rw [ancestry, here, below]
    exact if_pos issued
  rw [home_eq_find, way, List.find?_cons, here, plain]
  rw [← apart.extends_.home issued, home_eq_find]
  rfl


/-- The request at `r` has an application that it will find again. -/
structure Anchored (w : World) (r : ContextId) (a : ApplicationId) (standing : Standing) : Prop where
  at_ : w.standing r = some standing
  holds : standing.application = some a
  issued : a.number < w.applications.size
  wanted : standing.settings.hasApplication = true
  named : ((w.application a).name == standing.settings.applicationKey) = true
  usable : standing.detached = true ∨ (w.application a).isDefunct = false


/-- Code runs at `c`, in the request at `r`, which has an application that it will find again. -/
structure Running (w : World) (c r : ContextId) (a : ApplicationId) : Prop where
  issued : c.number < w.contexts.size
  home : w.home c = some r
  anchored : ∃ standing, w.Anchored r a standing

theorem Anchored.running (anchored : w.Anchored r a standing) : w.Running r r a :=
  ⟨issued_of_standing anchored.at_, home_self anchored.at_, standing, anchored⟩

theorem Running.usable (running : w.Running c r a) : ∃ request, (w.context r).request? = some request ∧
    (request.detached = true ∨ (w.application a).isDefunct = false) := by
  obtain ⟨standing, anchored⟩ := running.anchored
  obtain ⟨request, there, rfl⟩ := Option.map_eq_some_iff.mp anchored.at_
  exact ⟨request, there, anchored.usable⟩


def Seeking (w : World) (r : ContextId) (settings : Settings) : Prop :=
  ∃ standing, w.standing r = some standing ∧ standing.settings = settings ∧ standing.application = none

theorem reach_cons {t : ContextId} {above : List ContextId}
    (reached : w.reach key name (t :: above) = .global rest) :
    rest = t :: above ∨ (∃ call, (w.context t).kind = .function call) ∧ w.reach key name above = .global rest := by
  simp only [reach] at reached
  split at reached
  case h_9 kind _ _ =>
    split at reached
    · split at reached
      · cases reached
      · exact .inl (Reach.global.inj reached).symm
    · exact .inr ⟨⟨_, kind⟩, reached⟩
  case h_10 =>
    split at reached
    · cases reached
    · split at reached
      · cases reached
      · exact .inl (Reach.global.inj reached).symm
  case h_11 =>
    split at reached
    · cases reached
    · exact .inl (Reach.global.inj reached).symm
  case h_12 => exact .inl (Reach.global.inj reached).symm
  all_goals cases reached

theorem nearest_of_reach {contexts : List ContextId}
    (reached : w.reach key name contexts = .global rest) :
    (rest.find? fun t => ((w.context t).request?).isSome) = contexts.find? fun t => ((w.context t).request?).isSome := by
  induction contexts with
  | nil => cases reached
  | cons t above ih =>
    rcases reach_cons reached with rfl | ⟨⟨call, kind⟩, further⟩
    · rfl
    · simpa [Context.request?, kind] using ih further

end World

variable {host : Host} {w later : World} {a : ApplicationId} {c r : ContextId}


section

variable (f : FunctionId) (arguments : ScopeId)

theorem achieves_callContext_opens : (callContext f c arguments).Achieves w fun d later =>
      ∃ context : Context, context.parent = some c ∧ context.request? = none ∧ d = w.contexts.next ∧
        later = ((w.addScope (.new ScopeName.locals.key)).2.addContext context).2 := by
  simp only [callContext, newScope, achieves_bind, achieves_get, achieves_modifyGet]
  refine ⟨_, rfl, ?_, rfl, rfl⟩
  simp only [Context.request?]
  cases (w.function f).kind <;> rfl

theorem after_callContext_opens : (callContext f c arguments).After w
      (fun d later => ∃ context : Context, context.parent = some c ∧ context.request? = none ∧ d = w.contexts.next ∧
        later = ((w.addScope (.new ScopeName.locals.key)).2.addContext context).2)
      (fun _ _ => False) :=
  (achieves_callContext_opens f arguments).after

theorem after_callContext (issued : c.number < w.contexts.size) : (callContext f c arguments).After w
      (fun d later => w.Apart later ∧ d.number < later.contexts.size ∧ later.home d = w.home c)
      (fun _ later => w.Apart later) := by
  refine (after_callContext_opens f arguments).sure (fun d later opens => ?_)
  obtain ⟨context, below, plain, rfl, rfl⟩ := opens
  let framed := (w.addScope (.new ScopeName.locals.key)).2
  have scopes : w.Apart framed := apart_of_same rfl rfl
  have inside : c.number < framed.contexts.size := issued
  rw [← scopes.extends_.home issued]
  refine ⟨scopes.trans (framed.apart_addContext (by simp [plain])), ?_, framed.home_addContext below inside plain⟩
  exact Table.next_lt_size_add ..

end


theorem achieves_ensureApplication (running : w.Running c r a) :
    (ensureApplication host c).Achieves w fun found later => found = some a ∧ later = w.touchApplication a := by
  obtain ⟨standing, anchored⟩ := running.anchored
  obtain ⟨request, found, there⟩ := requestOf_home running.home
  have same : w.standingOf request = standing := by
    simpa only [World.standing, there, Option.map_some, Option.some.injEq] using anchored.at_
  subst same
  have wanted : request.settings.hasApplication = true := anchored.wanted
  have spliced : w.splicedApplication r = some a :=
    (splicedApplication_eq (requestOf_self there)).trans anchored.holds
  have usable : ((w.application a).name == request.settings.applicationKey &&
      (request.detached || !(w.application a).isDefunct)) = true := by
    rw [Bool.and_eq_true, Bool.or_eq_true, Bool.not_eq_eq_eq_not, Bool.not_true]
    exact ⟨anchored.named, anchored.usable⟩
  simp only [ensureApplication, achieves_bind, achieves_get, found, wanted, Bool.not_true, Bool.false_eq_true, if_false,
    spliced, usable, if_true, achieves_modify, achieves_pure, and_self]

theorem after_ensureApplication_spliced (running : w.Running c r a) :
    (ensureApplication host c).After w (fun found later => found = some a ∧ later = w.touchApplication a)
      (fun _ _ => False) :=
  (achieves_ensureApplication running).after

theorem after_theRequest {ok : ContextId × Request → World → Prop} {failed : Error → World → Prop}
    (home : w.home c = some r) (found : ∀ request, (w.context r).request? = some request → ok (r, request) w) :
    (theRequest c).After w ok failed := by
  obtain ⟨request, place, there⟩ := requestOf_home home
  simp only [theRequest, after_bind, after_get, place, after_pure]
  exact found request there

/-- What happens at the top, outside any hook. -/
inductive Operation where
  | newRequest (parent : ContextId)
  | setListener (c : ContextId) (l : ListenerId)
  | updateSettings (c : ContextId) (settings : Settings)
  | setSessionId (c : ContextId) (id : Key)
  | touchApplication (c : ContextId)
  | touchSession (c : ContextId)
  | initializeSession (c : ContextId) (id : Key)
  | rotateSession (c : ContextId)
  | invalidateSession (c : ContextId) (id : Option Key)
  | shutdown (a : ApplicationId) (server : ContextId)
  | restart (a : ApplicationId) (server : ContextId)
  /-- Time passes, so that sessions and applications expire. -/
  | wait (ms : Nat)

namespace Operation

def run (host : Host) : Operation → Action Unit
  | newRequest parent => do let _ ← modifyGet (·.newRequest parent false)
  | setListener c l => ScopeEngine.setListener c l
  | updateSettings c settings => ScopeEngine.updateSettings c settings
  | setSessionId c id => ScopeEngine.setSessionId c id
  | touchApplication c => do let _ ← ensureApplication host c
  | touchSession c => do let _ ← ensureSession host c
  | initializeSession c id => do let _ ← ScopeEngine.initializeSession host c id
  | rotateSession c => do let _ ← ScopeEngine.rotateSession host c
  | invalidateSession c id => do let _ ← ScopeEngine.invalidateSession host c id
  | shutdown a server => do let _ ← shutdownApplication host a server
  | restart a server => do let _ ← restartApplication host a server
  | wait ms => modify fun w => { w with clock := w.clock.addMillis ms }

def isKnown (w : World) : Operation → Bool
  | shutdown a _ | restart a _ => a.number < w.applications.size
  | _ => true

def next? (host : Host) (w : World) (operation : Operation) : Option World :=
  match operation.isKnown w, operation.run host w with
  | true, (.ok _, later) | true, (.error (.failed _), later) => some later
  | _, _ => none

end Operation

section Homeless

variable (homeless : w.home c = none)
include homeless

theorem homeless_requestOf : w.requestOf c = none := by
  simpa only [World.home, Option.map_eq_none_iff] using homeless

theorem homeless_theRequest : (theRequest c).After w (fun _ _ => False) (fun _ later => later = w) := by
  simp only [theRequest, after_bind, after_get, homeless_requestOf homeless, after_fail]

theorem homeless_ensureApplication :
    (ensureApplication host c).After w (fun found later => found = none ∧ later = w) (fun _ _ => False) := by
  simp only [ensureApplication, after_bind, after_get, homeless_requestOf homeless, after_pure, and_self]

theorem homeless_ensureSession :
    (ensureSession host c).After w (fun touched later => touched = none ∧ later = w) (fun _ _ => False) := by
  simp only [ensureSession]
  cases host.patience with
  | zero => trivial
  | succ fuel => simp only [touchSessionOf, after_bind, after_get, homeless_requestOf homeless, after_pure, and_self]

end Homeless

/-- One server, with a function for some of the hooks. -/
def staffed (busy : Hook → Bool) (body : Script.Body) : World :=
  { World.start (.ofMillis 0) with
    functions := Table.empty.add {
      name := .onApplicationStart, kind := .plain, access := .exposed, params := [], body
      source := none, frame := none, component := none }
    listeners := (World.start (.ofMillis 0)).listeners.add {
      name := "shop", component := none, hook := fun hook => if busy hook then some ⟨0⟩ else none }
    contexts := Table.empty.add {
      parent := none
      kind := .server {
        scope := ⟨0⟩, listener := ⟨1⟩, defaults := { name := "shop", sessionManagement := true } } } }

/-- One server whose applications have a hook for their start. -/
abbrev shop (onStart : Script.Body) : World := staffed (· = .applicationStart) onStart

variable {busy : Hook → Bool}

theorem request_shop (body : Script.Body) (r : ContextId) : ((staffed busy body).context r).request? = none := by
  have only_ : (staffed busy body).context r = if r = ⟨0⟩ then _ else default := Table.get_add ..
  rw [only_]
  split <;> rfl

theorem hook_shop {body : Script.Body} {l : ListenerId} {hook : Hook} {f : FunctionId}
    (hooked : ((staffed busy body).listener l).hook hook = some f) : f = ⟨0⟩ := by
  have listener : (staffed busy body).listener l = if l = ⟨1⟩ then _ else Table.get _ l := Table.get_add ..
  rw [listener] at hooked
  split at hooked
  · simp only [Option.ite_none_right_eq_some, Option.some.injEq] at hooked
    exact hooked.2.symm
  · have silent : ((World.start (.ofMillis 0)).listeners.get l) = if l = ⟨0⟩ then .silent else default :=
      Table.get_add ..
    rw [silent] at hooked
    split at hooked <;> cases hooked

/-- A hook that touches the session of its request and then answers or fails. -/
def touchThen (command : Command) : Script.Body :=
  [.mk (.lifecycle (.ensureSession none)) false, .mk command false]

end ScopeEngine
