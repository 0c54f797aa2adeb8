import ScopeEngine.Proofs.Lifecycle

/-! What programs are made of. A property of actions that sequences inherit from their parts, and that every single making
and changing of things has, holds of every call and of everything that requests and servers do. -/

namespace ScopeEngine

open ScopeEngine.Action Script

variable (c : ContextId)

namespace Action

variable {α β : Type}

def Yields (action : Action α) (a : α) : Prop :=
  ∃ w later, action w = (.ok a, later)

theorem Yields.pure {a b : α} (yields : (Pure.pure a : Action α).Yields b) : a = b := by
  obtain ⟨w, later, ran⟩ := yields
  cases ran
  rfl

theorem Yields.ofExcept {result : Except Error α} {a : α} (yields : (ofExcept result).Yields a) : result = .ok a := by
  obtain ⟨w, later, ran⟩ := yields
  rw [ofExcept_apply] at ran
  cases result <;> cases ran
  rfl

theorem Yields.bind {first : Action β} {next : β → Action α} {a : α} (yields : (first >>= next).Yields a) :
    ∃ b, first.Yields b ∧ (next b).Yields a := by
  obtain ⟨w, last, ran⟩ := yields
  rw [bind_apply] at ran
  split at ran
  next b later answers => exact ⟨b, ⟨w, later, answers⟩, later, last, ran⟩
  next => cases ran

end Action

namespace World

variable {w later last : World}

def Made (w later : World) (s : ScopeId) : Prop :=
  w.scopes.size ≤ s.number ∧ s.number < later.scopes.size

/-- The worlds differ only in applications, sessions and the registry. What was there keeps its scope, and what is new has a
new one; no scope is renamed. -/
structure Tends (w later : World) : Prop where
  contexts : later.contexts = w.contexts
  functions : later.functions = w.functions
  components : later.components = w.components
  listeners : later.listeners = w.listeners
  handles : later.handles = w.handles
  engine : later.engine = w.engine
  scopes : Scope.Retained w.scopes later.scopes
  application : ∀ a : ApplicationId, a.number < later.applications.size →
    a.number < w.applications.size ∧ (later.application a).scope = (w.application a).scope ∨
      w.Made later (later.application a).scope
  session : ∀ s : SessionId, s.number < later.sessions.size →
    s.number < w.sessions.size ∧ (later.session s).scope = (w.session s).scope ∨ w.Made later (later.session s).scope

namespace Tends

theorem refl (w : World) : w.Tends w :=
  ⟨rfl, rfl, rfl, rfl, rfl, rfl, .refl _, fun _ issued => .inl ⟨issued, rfl⟩, fun _ issued => .inl ⟨issued, rfl⟩⟩

theorem trans (first : w.Tends later) (second : later.Tends last) : w.Tends last where
  contexts := second.contexts.trans first.contexts
  functions := second.functions.trans first.functions
  components := second.components.trans first.components
  listeners := second.listeners.trans first.listeners
  handles := second.handles.trans first.handles
  engine := second.engine.trans first.engine
  scopes := first.scopes.trans second.scopes
  application := by
    intro a issued
    rcases second.application a issued with ⟨before, same⟩ | new
    · rw [same]
      exact (first.application a before).imp_right fun made => ⟨made.1, Nat.lt_of_lt_of_le made.2 second.scopes.size⟩
    · exact .inr ⟨Nat.le_trans first.scopes.size new.1, new.2⟩
  session := by
    intro s issued
    rcases second.session s issued with ⟨before, same⟩ | new
    · rw [same]
      exact (first.session s before).imp_right fun made => ⟨made.1, Nat.lt_of_lt_of_le made.2 second.scopes.size⟩
    · exact .inr ⟨Nat.le_trans first.scopes.size new.1, new.2⟩

end Tends

section

variable (w : World)
variable (a : ApplicationId) (s : SessionId) (id name : Key) (settings : Settings)

theorem tends_rest {scopes : Table .scope Scope} {registry : Bindings ApplicationId} (clock : Instant)
    (drawn : Nat) (retained : Scope.Retained w.scopes scopes) : w.Tends { w with scopes, registry, clock, drawn } :=
  ⟨rfl, rfl, rfl, rfl, rfl, rfl, retained, fun _ issued => .inl ⟨issued, rfl⟩, fun _ issued => .inl ⟨issued, rfl⟩⟩

theorem tends_registry (registry : Bindings ApplicationId) : w.Tends { w with registry } :=
  w.tends_rest w.clock w.drawn (.refl _)

theorem tends_setScope (s : ScopeId) {scope : Scope} (same : scope.name = (w.scope s).name) :
    w.Tends (w.setScope s scope) :=
  w.tends_rest w.clock w.drawn (Scope.retained_set _ s same)

theorem tends_readClock : w.Tends w.readClock.2 :=
  w.tends_rest _ w.drawn (.refl _)

theorem tends_addScope (scope : Scope) : w.Tends (w.addScope scope).2 :=
  w.tends_rest w.clock w.drawn (Scope.retained_add _ scope)

theorem tends_modifyApplication (change : Application → Application)
    (kept : ∀ application, (change application).scope = application.scope) : w.Tends (w.modifyApplication a change) :=
  { Tends.refl w with
    application := fun b issued =>
      .inl ⟨Nat.lt_of_lt_of_eq issued (Table.size_set ..), application_modify_keeps w a b Application.scope kept⟩ }

theorem tends_modifySession (change : Session → Session)
    (kept : ∀ session, (change session).scope = session.scope) : w.Tends (w.modifySession s change) :=
  { Tends.refl w with
    session := fun t issued =>
      .inl ⟨Nat.lt_of_lt_of_eq issued (Table.size_set ..), session_modify_keeps w s t Session.scope kept⟩ }

theorem tends_touchApplication : w.Tends (w.touchApplication a) :=
  w.tends_readClock.trans (tends_modifyApplication _ a
    (fun application => { application with lastAccess := w.clock.millis }) fun _ => rfl)

theorem tends_reopenApplication : w.Tends (w.reopenApplication a) := by
  have seeds : w.Tends (w.setScope (w.application a).scope (seedApplication (w.application a).name
      (w.scope (w.application a).scope).clear)) := w.tends_setScope _ rfl
  exact (seeds.trans (tends_modifyApplication _ a (fun application =>
    { application with listener := none, started := false, shutDown := false }) fun _ => rfl)).trans
    (tends_touchApplication _ a)

theorem tends_newApplication : w.Tends (w.newApplication name settings).2 := by
  have made : w.Made (w.newApplication name settings).2 w.scopes.next := ⟨Nat.le_refl _, Table.next_lt_size_add ..⟩
  refine { (w.tends_addScope _).trans (tends_readClock _) with application := fun a issued => ?_ }
  have added : (w.newApplication name settings).2.application a =
      if a = w.applications.next then _ else w.application a := Table.get_add ..
  rw [added]
  split
  · exact .inr made
  next older => exact .inl ⟨w.applications.lt_of_lt_size_add issued older, rfl⟩

theorem tends_findOrCreateApplication :
    w.Tends (w.findOrCreateApplication name settings).2 := by
  have registers : w.Tends { (w.newApplication name settings).2 with
      registry := (w.newApplication name settings).2.registry.insert name w.applications.next } :=
    (w.tends_newApplication name settings).trans (tends_registry _ _)
  simp only [findOrCreateApplication]
  split
  · split
    · exact registers
    · exact .refl w
  · exact registers

theorem tends_unregister : w.Tends (w.unregister a).2 := by
  simp only [unregister]
  split
  · exact w.tends_registry _
  · exact .refl w

theorem tends_newSession (application : Key) (timeout : Option Duration) :
    w.Tends (w.newSession id application timeout).2 := by
  have made : w.Made (w.newSession id application timeout).2 w.scopes.next := ⟨Nat.le_refl _, Table.next_lt_size_add ..⟩
  refine { w.tends_readClock.trans (tends_addScope _ _) with session := fun s issued => ?_ }
  have added : (w.newSession id application timeout).2.session s =
      if s = w.sessions.next then _ else w.session s := Table.get_add ..
  rw [added]
  split
  · exact .inr made
  next older => exact .inl ⟨w.sessions.lt_of_lt_size_add issued older, rfl⟩

theorem tends_findOrCreateSession : w.Tends (w.findOrCreateSession a id).2 := by
  have inserts : ∀ stale, w.Tends (w.insertSession a id stale).2 := fun _ =>
    (w.tends_newSession id (w.application a).name (w.application a).sessionTimeout.duration).trans
      (tends_modifyApplication _ a (fun application =>
        { application with sessions := application.sessions.insert id w.sessions.next }) fun _ => rfl)
  simp only [findOrCreateSession, placeSession]
  split
  · exact .refl w
  · split
    next stored _ =>
      split
      · exact inserts (some stored)
      · exact .refl w
    next => exact inserts none

theorem tends_takeSession : w.Tends (w.takeSession a id).2 :=
  w.tends_modifyApplication a (fun application => { application with sessions := application.sessions.erase id })
    fun _ => rfl

theorem tends_dropSession : w.Tends (w.dropSession a s).2 := by
  simp only [dropSession]
  split
  · exact w.tends_takeSession a _
  · exact .refl w

theorem tends_touchSession : w.Tends (w.touchSession s) := by
  have visits : w.Tends (w.readClock.2.modifySession s fun session => { session with lastVisit := w.clock.millis }) :=
    w.tends_readClock.trans (tends_modifySession _ s _ fun _ => rfl)
  simp only [touchSession]
  split
  next writes => exact visits.trans (tends_setScope _ _ (Scope.keepsName_put _ _ _ _ writes))
  next => exact visits

end

end World

theorem ScopeRules.describe {holds : ∀ {α : Type}, Action α → Prop} (rules : ScopeRules holds)
    (entries : List (String × List (String × String))) : holds (entries.mapM fun (name, entries) => do
      Pure.pure (Key.of name, Value.struct (← ScopeEngine.newScope (Engine.describe name entries)))) := by
  induction entries with
  | nil => exact rules.pure _
  | cons entry rest ih =>
    rw [List.mapM_cons]
    exact rules.bind (rules.bind (rules.newScope _) fun _ => rules.pure _) fun _ => rules.bind ih fun _ => rules.pure _

/-- The first request has the scopes of the second, and no node that the second does not have. -/
structure Request.Within (after before : Request) : Prop where
  vars : after.vars = before.vars
  scope : after.scope = before.scope
  session : after.sessionNode = before.sessionNode ∨ after.sessionNode = none
  application : after.applicationNode = before.applicationNode ∨ after.applicationNode = none

/-- What a property of actions has to satisfy so that every program has it. -/
structure ProgramRules (holds : ∀ {α : Type}, Action α → Prop) : Prop extends ScriptRules holds where
  declares : Declares holds
  /-- What comes next has to have it for the values only that the first part may answer with. -/
  chain : ∀ {α β : Type} {first : Action β} {next : β → Action α}, holds first →
    (∀ b, first.Yields b → holds (next b)) → holds (first >>= next)
  instances : ∀ {α : Type} {change : World → α × World}, (∀ w : World, w.Tends (change w).2) → holds (modifyGet change)
  request : ∀ (r : ContextId) {change : Request → Request}, (∀ request, (change request).Within request) →
    holds (modify (·.modifyRequest r change))
  splice : ∀ c node, holds (splice c node)
  templates : ∀ (c : ContextId) (change : World → List String),
    holds (modify fun w => w.setContext c { w.context c with templates := change w })
  applicationNode : ∀ a, holds (modifyGet (·.addNode (.application a)))
  sessionNode : ∀ s, holds (modifyGet (·.addNode (.session s)))
  serverNode : holds (do Engine.serverContext (← MonadState.get).engine)
  newRequest : ∀ c, holds (modifyGet (·.newRequest c false))
  newDetached : ∀ c a, holds (modifyGet (·.newDetached c a))
  template : ∀ c path, holds (do
    let vars ← newScope (.new ScopeName.vars.key)
    modifyGet (·.addContext { parent := some c, kind := .template vars, templates := [path] }))
  /-- A call makes its arguments, its locals and its context. -/
  call : ∀ f c arguments, holds (do callContext f c (← bindArguments f arguments))
  register : ∀ c function, function.frame = none → holds (registerFunction c function)
  component : ∀ name shared as, holds (do keepComponent as (← newComponent name shared))
  forget : ∀ handle, holds (modify fun w => { w with handles := { w.handles with
    components := w.handles.components.filter (·.1 != handle) } })
  inComponent : ∀ c handle, holds (do
    let k ← named (·.components) handle
    modifyGet (·.addContext { parent := some c, kind := .component k }))
  listener : ∀ listener, listener.component = none → holds (modifyGet (·.addListener listener))
  componentListener : ∀ host c component as, holds ((LifecycleStep.componentListener component as).run host c)
  /-- Code within another engine starts at a server context of that engine. -/
  engine : ∀ {α : Type} settings l {inside : ContextId → Action α}, (∀ c, holds (inside c)) → holds (do
    let server ← Engine.new settings l
    withEngine server do inside (← Engine.serverContext server))

/-- What is taken out is looked up first, so that each part of the action is an action on its own. -/
theorem excise_eq (type : ContextType) :
    excise c type = (do
      match (← get).requestOf c with
      | some (r, found) =>
        modify (·.modifyRequest r (·.excise type))
        pure (found.ancestors.find type)
      | none => pure none) := by
  funext w
  have runs : excise c type w = (.ok (w.excise c type).1, (w.excise c type).2) := rfl
  rw [runs, bind_apply, get_apply]
  cases found : w.requestOf c <;> simp only [World.excise, found] <;> rfl

theorem Request.within_excise (request : Request) (type : ContextType) : (request.excise type).Within request :=
  ⟨rfl, rfl, request.sessionNode_excise_cases type, request.applicationNode_excise_cases type⟩

theorem splice_cases (node : ContextId) (w : World) : (splice c node w).2 = w ∨ ∃ r,
      ((w.context node).type = .session ∧
        (splice c node w).2 = w.modifyRequest r (·.splice (.session node))) ∨
      ((w.context node).type = .application ∧
        (splice c node w).2 = w.modifyRequest r (·.splice (.application node))) := by
  simp only [splice, bind_apply, get_apply]
  split
  next spliceable =>
    cases w.requestOf c with
    | none => exact .inl rfl
    | some found =>
      refine .inr ⟨found.1, ?_⟩
      rcases Ancestor.eq_session_or_application ⟨_, node, spliceable⟩ with is | is
      · exact .inl ⟨congrArg Ancestor.type is, congrArg (fun new => w.modifyRequest found.1 (·.splice new)) is⟩
      · exact .inr ⟨congrArg Ancestor.type is, congrArg (fun new => w.modifyRequest found.1 (·.splice new)) is⟩
  next => exact .inl rfl

/-- Whatever body the host runs, the run has the property. -/
def Host.Obeys (host : Host) (holds : ∀ {α : Type}, Action α → Prop) : Prop :=
  ∀ body c, holds (host.run body c)

namespace ProgramRules

variable {holds : ∀ {α : Type}, Action α → Prop} (rules : ProgramRules holds)
variable (a : ApplicationId)
include rules

section Sequences

variable {α β : Type}

theorem tend {change : World → World} (tends : ∀ w : World, w.Tends (change w)) : holds (modify change) :=
  rules.instances tends

end Sequences

section Requests

variable (r : ContextId) (s : SessionId)

theorem excise (c : ContextId) (type : ContextType) : holds (excise c type) := by
  rw [excise_eq]
  refine rules.bind rules.get fun w => ?_
  split
  · exact rules.bind (rules.request _ fun request => request.within_excise type) fun _ => rules.pure _
  · exact rules.pure _

theorem spliceApplication (a : ApplicationId) : holds (spliceNew r (.application a)) :=
  rules.bind (rules.applicationNode a) fun node => rules.splice r node

theorem spliceSession : holds (spliceNew r (.session s)) :=
  rules.bind (rules.sessionNode s) fun node => rules.splice r node

theorem touchApplication (a : ApplicationId) : holds (modify (·.touchApplication a)) :=
  rules.tend fun w => w.tends_touchApplication a

theorem modifyApplication (a : ApplicationId) (change : Application → Application)
    (kept : ∀ application, (change application).scope = application.scope) :
    holds (modify (·.modifyApplication a change)) :=
  rules.tend fun w => w.tends_modifyApplication a change kept

theorem modifySession (change : Session → Session)
    (kept : ∀ session, (change session).scope = session.scope) : holds (modify (·.modifySession s change)) :=
  rules.tend fun w => w.tends_modifySession s change kept

theorem eraseName (name : Key) : holds (modify fun w => { w with registry := w.registry.erase name }) :=
  rules.tend fun w => w.tends_registry _

theorem modifySessionId (id : Key) :
    holds (modify (·.modifyRequest r fun request => { request with sessionId := some id })) :=
  rules.request r fun _ => by exact ⟨rfl, rfl, .inl rfl, .inl rfl⟩

theorem updateSettings (c : ContextId) (settings : Settings) : holds (updateSettings c settings) := by
  have settles : ∀ r, holds (do if !settings.sessionManagement then let _ ← ScopeEngine.excise r .session) := by
    intro r
    split
    · exact rules.bind (rules.excise r _) fun _ => rules.pure _
    · exact rules.pure _
  refine rules.bind (rules.theRequest c) fun found => rules.bind (rules.request _ fun _ => by exact ⟨rfl, rfl, .inl rfl, .inl rfl⟩) fun _ =>
    rules.bind rules.get fun w => ?_
  dsimp only
  split
  · split
    · exact rules.bind (rules.modifyApplication _ (·.applySettings settings) fun _ => rfl) fun _ => settles _
    · exact rules.bind (rules.excise _ _) fun _ => rules.bind (rules.excise _ _) fun _ => settles _
  · exact settles _

theorem setListener (c : ContextId) (l : ListenerId) : holds (setListener c l) :=
  rules.bind (rules.theRequest c) fun _ => rules.request _ fun _ => by exact ⟨rfl, rfl, .inl rfl, .inl rfl⟩

theorem setSessionId (c : ContextId) (id : Key) : holds (setSessionId c id) :=
  rules.toScopeRules.setSessionId (fun r => rules.excise r _) rules.modifySessionId c id

end Requests

section Hooks

variable {host : Host} (obeys : host.Obeys holds)
include obeys

theorem invoke (f : FunctionId) (c : ContextId) (arguments : Arguments) : holds (invoke host f c arguments) := by
  have enters := rules.bind (rules.call f c arguments) fun d => rules.bind rules.get fun w =>
    rules.holding (.context d) (obeys (w.function f).body d)
  rwa [bind_assoc] at enters

theorem callHook (l : ListenerId) (hook : Hook) (c : ContextId) (values : List Value) :
    holds (callHook host l hook c values) := by
  refine rules.bind rules.get fun w => ?_
  split
  · exact rules.invoke obeys _ c _
  · exact rules.pure _

end Hooks

section Endings

variable {host : Host} (obeys : host.Obeys holds)
include obeys

theorem shutdownSession (s : SessionId) (c : ContextId) (l : ListenerId) (scope : ScopeId) :
    holds (shutdownSession host s c l scope) :=
  rules.toScriptRules.shutdownSession (fun l hook => rules.callHook obeys l hook c) (rules.instances fun w =>
    w.tends_modifySession s (fun session => { session with shutDown := true }) fun _ => rfl) l scope

theorem retireSession (c : ContextId) (a : ApplicationId) (s : SessionId) : holds (retireSession host c a s) := by
  have ends := fun place => rules.toScriptRules.retire (rules.shutdownSession obeys s place)
  refine rules.bind rules.get fun w => ?_
  dsimp only
  split
  · exact rules.bind (rules.newDetached _ a) fun place => ends place _ _
  · exact rules.bind (rules.pure _) fun place => ends place _ _

theorem shutdownApplication (a : ApplicationId) (server : ContextId) : holds (shutdownApplication host a server) := by
  have begins : holds (modifyGet (·.beginShutdown a)) := rules.instances fun w =>
    w.tends_modifyApplication a (fun application => { application with shutDown := true }) fun _ => rfl
  refine rules.bind rules.get fun w => rules.bind begins fun before => ?_
  split
  · exact rules.pure _
  · refine rules.bind rules.get fun w => rules.bind (rules.newDetached server a) fun c => ?_
    exact rules.toScriptRules.close (fun l hook => rules.callHook obeys l hook c) (rules.toScriptRules.closeSession
      (fun id => rules.instances fun w => w.tends_takeSession a id) fun s => rules.shutdownSession obeys s c) _ _

theorem restartApplication (a : ApplicationId) (server : ContextId) : holds (restartApplication host a server) := by
  have reopens : holds (modify (·.reopenApplication a)) := rules.tend fun w => w.tends_reopenApplication a
  refine rules.bind (rules.shutdownApplication obeys a server) fun _ => rules.bind rules.get fun w => ?_
  dsimp only
  split
  · exact rules.bind rules.exhausted fun _ => rules.bind reopens fun _ => rules.pure _
  · exact rules.bind reopens fun _ => rules.pure _

theorem shutdownNamed (name : Key) (server : ContextId) : holds (shutdownNamed host name server) := by
  refine rules.bind rules.get fun w => ?_
  split
  · exact rules.pure _
  · exact rules.bind (rules.eraseName name) fun _ => rules.toScopeRules.map _ (rules.shutdownApplication obeys _ server)

theorem shutdownAll (server : ContextId) : holds (shutdownAll host server) :=
  rules.toScopeRules.shutdownAll fun name => rules.shutdownNamed obeys name server

end Endings

theorem settleApplication (l : ListenerId) (cause : Option Error) :
    holds (settleApplication a l cause) := by
  have leaves : holds (modify (·.leaveApplicationStart a)) :=
    rules.modifyApplication a (fun application => { application with starting := false }) fun _ => rfl
  cases cause with
  | none =>
    have keeps : holds (modify (·.keepListener a l)) :=
      rules.modifyApplication a (fun application => { application with listener := some l }) fun _ => rfl
    have starts : holds (modify (·.applicationStarted a)) :=
      rules.modifyApplication a (fun application => { application with started := true }) fun _ => rfl
    exact rules.bind keeps fun _ => rules.bind starts fun _ => rules.bind leaves fun _ => rules.pure _
  | some cause =>
    have refuses : holds (modify (·.applicationRefused a)) :=
      rules.modifyApplication a (fun application => { application with discarded := true }) fun _ => rfl
    exact rules.bind refuses fun _ => rules.bind (rules.instances fun w => w.tends_unregister a) fun _ =>
      rules.bind leaves fun _ => rules.bind rules.get fun _ => rules.fail _

theorem settleSession (s : SessionId) (cause : Option Error) : holds (settleSession a s cause) :=
  rules.toScriptRules.settleSession
    (rules.modifySession s (fun session => { session with started := true }) fun _ => rfl)
    (rules.modifySession s (fun session => { session with starting := false }) fun _ => rfl)
    (rules.modifySession s (fun session => { session with discarded := true }) fun _ => rfl)
    (rules.instances fun w => w.tends_dropSession a s) cause

section Starts

variable {host : Host} (obeys : host.Obeys holds)
variable (r : ContextId)
include obeys

theorem startApplication (a : ApplicationId) (r : ContextId) (l : ListenerId) : holds (startApplication host a r l) := by
  have begins : holds (modify (·.beginApplicationStart a)) :=
    rules.modifyApplication a (fun application => { application with starting := true }) fun _ => rfl
  refine rules.bind rules.get fun w => ?_
  split
  · exact rules.pure _
  · exact rules.pure _
  · exact rules.exhausted
  · exact rules.bind begins fun _ => rules.bind (rules.attempt (rules.callHook obeys l _ r _)) fun _ => rules.settleApplication a l _

theorem adoptApplication (a : ApplicationId) (l : ListenerId) : holds (adoptApplication host r a l) := by
  refine rules.bind rules.get fun w => ?_
  dsimp only
  split
  · refine rules.bind (rules.instances fun w => w.tends_unregister a) fun gone => ?_
    split
    · split
      · exact rules.bind (rules.shutdownApplication obeys a _) fun _ => rules.pure _
      · exact rules.pure _
    · exact rules.pure _
  · refine rules.bind (rules.touchApplication a) fun _ => rules.bind (rules.spliceApplication r a) fun _ =>
      rules.bind (rules.attempt (rules.startApplication obeys a r l)) fun started => ?_
    split
    · exact rules.pure _
    · exact rules.bind (rules.excise r _) fun _ => rules.pure _
    · exact rules.bind (rules.excise r _) fun _ => rules.fail _

theorem acquireApplication (name : Key) (settings : Settings) (l : ListenerId) (fuel : Nat) :
    holds (acquireApplication host r name settings l fuel) := by
  induction fuel with
  | zero => exact rules.exhausted
  | succ fuel ih =>
    refine rules.bind (rules.instances fun w => w.tends_findOrCreateApplication name settings) fun a =>
      rules.bind (rules.holding _ (rules.adoptApplication obeys r a l)) fun adopted => ?_
    split
    · exact rules.pure _
    · exact ih

theorem ensureApplication (c : ContextId) : holds (ensureApplication host c) := by
  have acquires : ∀ r request name, holds (ensureApplication.acquire host r request name) := by
    intro r request name
    have acquires := rules.holding (.listener request.listener)
      (rules.map some (rules.acquireApplication obeys r name request.settings request.listener host.patience))
    refine rules.bind rules.get fun w => ?_
    dsimp only
    split
    · exact rules.bind (rules.fail _) fun _ => acquires
    · exact acquires
  refine rules.bind rules.get fun w => ?_
  split
  · exact rules.pure _
  · split
    · exact rules.pure _
    · refine rules.bind rules.get fun w => ?_
      split
      · split
        · exact rules.bind (rules.touchApplication _) fun _ => rules.pure _
        · exact rules.bind (rules.excise _ _) fun _ => rules.bind (rules.excise _ _) fun _ => acquires _ _ _
      · exact acquires _ _ _

theorem adoptSession (a : ApplicationId) (s : SessionId) (l : ListenerId) :
    holds (adoptSession host r a s l) :=
  rules.toScriptRules.adoptSession (rules.spliceSession r s)
    (rules.toScriptRules.startSession
      (rules.modifySession s (fun session => { session with starting := true }) fun _ => rfl)
      (fun l hook => rules.callHook obeys l hook r) (rules.settleSession a s))
    (rules.tend fun w => w.tends_touchSession s) (rules.excise r _) l

theorem acquireSession (a : ApplicationId) (id : Key) (l : ListenerId) (fuel : Nat) :
    holds (acquireSession host r a id l fuel) := by
  induction fuel with
  | zero => exact rules.exhausted
  | succ fuel ih =>
    refine rules.bind (rules.instances fun w => w.tends_findOrCreateSession a id) fun found => ?_
    cases found with
    | none => exact rules.pure _
    | some placed =>
      have adopts : holds (do
          if ← ScopeEngine.adoptSession host r a placed.session l then Pure.pure (.session placed.session)
          else ScopeEngine.acquireSession host r a id l fuel) := by
        refine rules.bind (rules.adoptSession obeys r a placed.session l) fun adopted => ?_
        split
        · exact rules.pure _
        · exact ih
      dsimp only
      split
      · exact rules.bind (rules.retireSession obeys r a _) fun _ => adopts
      · exact adopts

theorem claimSession (request : Request) (a : ApplicationId) (id : Key)
    {again : Action (Option SessionId)} (retries : holds again) : holds (claimSession host r request a id again) := by
  refine rules.holding _ (rules.holding _ ?_)
  refine rules.bind (rules.acquireSession obeys r a id _ _) fun acquired => ?_
  cases acquired with
  | session s => exact rules.pure _
  | closed =>
    dsimp only
    split
    · exact rules.fail _
    · exact rules.bind (rules.excise r _) fun _ => rules.bind (rules.excise r _) fun _ => retries

theorem ensureSession (c : ContextId) : holds (ensureSession host c) := by
  simp only [ScopeEngine.ensureSession]
  generalize host.patience = fuel
  induction fuel generalizing c with
  | zero => exact rules.exhausted
  | succ fuel ih =>
    refine rules.bind rules.get fun w => ?_
    split
    · exact rules.pure _
    next r request _ =>
      split
      · exact rules.pure _
      · refine rules.bind (rules.ensureApplication obeys r) fun found => ?_
        cases found with
        | none => exact rules.pure _
        | some a =>
          refine rules.bind rules.get fun _ => rules.bind (rules.toScopeRules.chooseSessionId rules.modifySessionId r _) fun id =>
            rules.bind rules.get fun w => ?_
          dsimp only
          split
          · split
            · exact rules.bind (rules.tend fun w => w.tends_touchSession _) fun _ => rules.pure _
            · exact rules.bind (rules.excise r _) fun _ => rules.claimSession obeys r _ a id (ih r)
          · exact rules.claimSession obeys r _ a id (ih r)

end Starts

section Switching

variable {host : Host} (obeys : host.Obeys holds)
include obeys

theorem initializeSession (c : ContextId) (id : Key) : holds (initializeSession host c id) :=
  rules.bind (rules.setSessionId c id) fun _ => rules.bind (rules.ensureSession obeys c) fun _ =>
    rules.orSessionsDisabled _

theorem rotateSession (c : ContextId) : holds (rotateSession host c) := by
  refine rules.bind (rules.ensureSession obeys c) fun _ => rules.bind (rules.orSessionsDisabled _) fun old =>
    rules.bind (rules.ensureApplication obeys c) fun _ => rules.bind (rules.orSessionsDisabled _) fun a =>
      rules.holding _ ?_
  have drops : holds (modifyGet (·.dropSession a old)) := rules.instances fun w => w.tends_dropSession a old
  exact rules.bind rules.drawSessionId fun id => rules.bind (rules.initializeSession obeys c id) fun _ =>
    rules.bind rules.get fun _ => rules.bind (rules.inherit _ _ _) fun _ => rules.bind drops fun _ =>
      rules.bind (rules.retireSession obeys c a old) fun _ => rules.pure _

theorem dropThen (c : ContextId) (a : ApplicationId) (old : Option SessionId) {next : Action SessionId}
    (starts : holds next) :
    holds (do
      if let some old := old then
        let _ ← modifyGet (·.dropSession a old)
        ScopeEngine.retireSession host c a old
      next) := by
  cases old with
  | none => exact starts
  | some old =>
    exact rules.bind (rules.instances fun w => w.tends_dropSession a old) fun _ =>
      rules.bind (rules.retireSession obeys c a old) fun _ => starts

theorem invalidateSession (c : ContextId) (id : Option Key) : holds (invalidateSession host c id) := by
  have starts : holds (do ScopeEngine.initializeSession host c (← orDrawnId id)) :=
    rules.bind (rules.orDrawnId id) (rules.initializeSession obeys c)
  refine rules.bind rules.get fun w => ?_
  dsimp only
  split
  · exact rules.bind (rules.fail _) fun _ => rules.bind (rules.ensureApplication obeys c) fun _ =>
      rules.bind (rules.orSessionsDisabled _) fun a => rules.bind rules.get fun w => rules.bind (rules.excise c _) fun _ =>
        rules.holding _ (rules.dropThen obeys c a _ starts)
  · exact rules.bind (rules.ensureApplication obeys c) fun _ => rules.bind (rules.orSessionsDisabled _) fun a =>
      rules.bind rules.get fun w => rules.bind (rules.excise c _) fun _ => rules.holding _ (rules.dropThen obeys c a _ starts)

end Switching

end ProgramRules

end ScopeEngine
