import ScopeEngine.Proofs.Arguments.Slots
import ScopeEngine.Proofs.Rotation.Respect
import ScopeEngine.Script.Interpreter

/-! Ending a session that was replaced. Each call of a hook is noted in the journal once, whatever the hook does, so the
journal tells how often the end hook ran. -/

namespace ScopeEngine

open ScopeEngine.Action Script World

variable {f : FunctionId} {first : Nat} {hook : Hook} {l : ListenerId} {later : World} {scope : Scope}
    {values : List Value}

def Function.Accepts (function : Function) (count : Nat) : Prop :=
  ∀ param ∈ function.params.drop count, param.required = true → param.default ≠ none

namespace World

variable {last later w : World}

/-- The events are those of one call of a hook: one if there is such a hook, else none. -/
def Ran (w : World) (l : ListenerId) (hook : Hook) (events : List Event) : Prop :=
  match (w.listener l).hook hook with
  | some f => ∃ event, events = [event] ∧ event.function = some (w.function f).name.name
  | none => events = []

structure Prepares (w later : World) : Prop where
  functions : later.functions = w.functions
  listeners : later.listeners = w.listeners
  journal : later.journal = w.journal

theorem Prepares.trans (first : w.Prepares later) (second : later.Prepares last) : w.Prepares last :=
  ⟨second.functions.trans first.functions, second.listeners.trans first.listeners, second.journal.trans first.journal⟩

theorem Prepares.listener (prepares : w.Prepares later) (l : ListenerId) : later.listener l = w.listener l := by
  rw [World.listener, prepares.listeners, World.listener]

theorem Prepares.function (prepares : w.Prepares later) (f : FunctionId) : later.function f = w.function f := by
  rw [World.function, prepares.functions, World.function]

theorem Prepares.ran (prepares : w.Prepares later) (l : ListenerId) (hook : Hook) (events : List Event) :
    later.Ran l hook events ↔ w.Ran l hook events := by
  simp only [Ran, prepares.listener, prepares.function]

structure MakesRoom (w later : World) : Prop extends w.Prepares later where
  respects : w.Respects later
  scope : ∀ t : ScopeId, t.number < w.scopes.size → later.scope t = w.scope t

theorem MakesRoom.trans (first : w.MakesRoom later) (second : later.MakesRoom last) : w.MakesRoom last where
  toPrepares := first.toPrepares.trans second.toPrepares
  respects := first.respects.trans second.respects
  scope := fun t issued =>
    (second.scope t (Nat.lt_of_lt_of_le issued first.respects.scopes)).trans (first.scope t issued)

section

variable (w : World)

theorem makesRoom_of_holds (holds : List Hold) : w.MakesRoom { w with holds } :=
  ⟨⟨rfl, rfl, rfl⟩, respects_of_same rfl rfl rfl (Nat.le_refl _), fun _ _ => rfl⟩

theorem makesRoom_refl : w.MakesRoom w := makesRoom_of_holds w w.holds

theorem makesRoom_addScope (scope : Scope) : w.MakesRoom (w.addScope scope).2 where
  toPrepares := ⟨rfl, rfl, rfl⟩
  respects := respects_of_same rfl rfl rfl (Table.size_le_size_add ..)
  scope := fun _ issued => Table.get_add_of_lt _ _ issued

theorem makesRoom_addContext (context : Context) : w.MakesRoom (w.addContext context).2 where
  toPrepares := ⟨rfl, rfl, rfl⟩
  respects := w.respects_addContext context
  scope := fun _ _ => rfl

theorem makesRoom_duplicate (value : Value) : w.MakesRoom (w.duplicate value).2 := by
  rw [duplicate, duplicateWith_eq]
  exact ⟨⟨rfl, rfl, rfl⟩, respects_of_same rfl rfl rfl (Nat.le.intro (w.size_scopesAfter [] value).symm),
    fun _ issued => get_scopesAfter_of_lt w [] value issued⟩

theorem makesRoom_newDetached (parent : ContextId) (a : ApplicationId) : w.MakesRoom (w.newDetached parent a).2 := by
  obtain ⟨contexts, same⟩ := w.newDetached_eq parent a
  have framed := (w.makesRoom_addScope (.new ScopeName.vars.key)).trans (makesRoom_addScope _ (.new ScopeName.request.key))
  have respects := w.respects_newDetached parent a
  rw [same] at respects ⊢
  exact ⟨⟨rfl, rfl, rfl⟩, respects, framed.scope⟩

end

end World

variable {w : World} {run : Executor} {function : Function}
variable (execute : Command → Action (Script.Result × Flow)) {c : ContextId} {s : SessionId}

theorem after_runStep_journal (arrange : List Event → List Event)
    (step : Step) :
    (runStep execute arrange step).After w (fun _ later => later.journal = w.journal) (fun _ _ => False) := by
  simp only [runStep, after_bind, after_get, after_modify, after_attempt]
  exact (after_trivial _ _).imp fun _ _ => rfl

theorem after_runSteps_journal (inBody : Bool) (steps : List Step) :
    (runSteps execute inBody steps).After w (fun _ later => later.journal = w.journal) (fun _ _ => False) := by
  induction steps generalizing w with
  | nil => rfl
  | cons step rest ih =>
    simp only [runSteps, after_bind]
    refine (after_runStep_journal ..).mono_ok (fun result later same => ?_)
    refine After.ite (fun _ => ?_) (fun _ => same)
    simp only [after_bind, after_pure]
    exact ih.mono_ok (fun _ _ rest => rest.trans same)

theorem after_runBody_journal (run : Executor) (body : Body) (c : ContextId) : (runBody run body c).After w
      (fun _ later => ∃ event, later.journal = w.journal ++ [event] ∧ event.function = (w.functionName c).map Key.name)
      (fun _ later => ∃ event, later.journal = w.journal ++ [event] ∧ event.function = (w.functionName c).map Key.name) := by
  simp only [runBody, after_bind, after_get]
  refine (after_runSteps_journal (run true c) true body).sure (fun result later same => ?_)
  have noted : ∀ event : Event, later.journal ++ [event] = w.journal ++ [event] := fun event => by rw [same]
  simp only [after_modify]
  split <;> exact ⟨_, noted _, rfl⟩

theorem achieves_absentArgument {param : Param} (optional : param.required = true → param.default ≠ none) :
    (absentArgument function param).Achieves w fun _ later => w.MakesRoom later := by
  unfold absentArgument
  cases default : param.default with
  | some value =>
    rw [achieves_modifyGet]
    exact w.makesRoom_duplicate value
  | none =>
    have free : param.required = false := by
      cases required : param.required with
      | true => exact absurd default (optional required)
      | false => rfl
    simp only [free, Bool.false_eq_true, if_false, achieves_pure]
    exact w.makesRoom_refl

theorem achieves_bindLeading (params : List Param) (values : List Value) (plain : scope.kind = .positional)
    (optional : ∀ param ∈ params.drop values.length, param.required = true → param.default ≠ none) :
    (bindLeading function params values scope).Achieves w fun bound later =>
      w.MakesRoom later ∧ bound.kind = .positional := by
  induction params generalizing values scope w with
  | nil => exact (achieves_pure _).mpr ⟨w.makesRoom_refl, plain⟩
  | cons param params ih =>
    cases values with
    | cons value values =>
      simp only [bindLeading, Scope.put_of_positional plain, Action.ofExcept, achieves_bind, achieves_pure]
      exact ih values (by exact plain) optional
    | nil =>
      simp only [bindLeading, achieves_bind]
      refine (achieves_absentArgument (optional param List.mem_cons_self)).mono fun value later makes => ?_
      simp only [Scope.put_of_positional plain, Action.ofExcept, achieves_pure]
      refine (ih [] (by exact plain) fun param held => optional param (List.mem_cons_of_mem _ held)).mono ?_
      exact fun _ _ rest => ⟨makes.trans rest.1, rest.2⟩

theorem achieves_bindExtras (place : Nat) (values : List Value) (plain : scope.kind = .positional) :
    (bindExtras place values scope).Achieves w fun _ later => later = w := by
  induction values generalizing place scope with
  | nil => exact (achieves_pure _).mpr rfl
  | cons value values ih =>
    simp only [bindExtras, Scope.put_of_positional plain, Action.ofExcept, achieves_bind, achieves_pure]
    exact ih (place + 1) (by exact plain)

theorem achieves_bindArguments (accepts : (w.function f).Accepts values.length) :
    (bindArguments f (.positional values)).Achieves w fun _ later => w.MakesRoom later := by
  simp only [bindArguments, achieves_bind, achieves_get]
  refine (achieves_bindLeading _ values rfl accepts).mono fun scope later bound => ?_
  refine (achieves_bindExtras _ _ bound.2).mono ?_
  rintro _ _ rfl
  exact (achieves_modifyGet _).mpr (bound.1.trans (makesRoom_addScope ..))

theorem achieves_callContext (f : FunctionId) (caller : ContextId) (arguments : ScopeId) :
    (callContext f caller arguments).Achieves w fun c later =>
      w.MakesRoom later ∧ ∃ call, (later.context c).call? = some call ∧ call.function = f := by
  simp only [callContext, achieves_bind, achieves_get, newScope, achieves_modifyGet]
  refine ⟨(w.makesRoom_addScope _).trans (makesRoom_addContext ..), ?_⟩
  rw [show ∀ (v : World) context, (v.addContext context).2.context (v.addContext context).1 = context from
    context_addContext_next]
  cases kind : (w.function f).kind <;> exact ⟨_, rfl, rfl⟩

theorem functionName_of_call {call : Call} (at_ : (w.context c).call? = some call) :
    w.functionName c = some (w.function call.function).name := by
  obtain ⟨rest, above⟩ := w.ancestry_eq_cons c
  simp [functionName, lineage, above, at_]

theorem after_invoke_journal (accepts : (w.function f).Accepts values.length) (caller : ContextId) :
    (invoke (hostOf run) f caller (.positional values)).After w
      (fun _ later => ∃ event, later.journal = w.journal ++ [event] ∧ event.function = some (w.function f).name.name)
      (fun _ later => ∃ event, later.journal = w.journal ++ [event] ∧ event.function = some (w.function f).name.name) := by
  simp only [invoke, after_bind]
  refine (achieves_bindArguments accepts).after.mono_ok (fun scope bound makes => ?_)
  refine (achieves_callContext f caller scope).after.mono_ok (fun c called made => ?_)
  obtain ⟨made, call, at_, rfl⟩ := made
  have prepares := (makes.trans made).toPrepares
  let held := { called with holds := .context c :: called.holds }
  have name : (held.functionName c).map Key.name = some (w.function call.function).name.name := by
    rw [functionName_of_call (w := held) at_]
    exact congrArg (fun functions => some (functions.get call.function).name.name) prepares.functions
  have noted := after_runBody_journal run (w := held) (called.function call.function).body c
  simp only [after_get, entering, after_holding]
  refine noted.mono (fun _ later ran => ?_) (fun _ later ran => ?_) <;>
  · obtain ⟨event, noted, function⟩ := ran
    exact ⟨event, noted.trans (congrArg (· ++ [event]) prepares.journal), function.trans name⟩

theorem after_callHook_journal
    (accepts : ∀ f, (w.listener l).hook hook = some f → (w.function f).Accepts values.length) (c : ContextId) :
    (callHook (hostOf run) l hook c values).After w
      (fun _ later => ∃ events, later.journal = w.journal ++ events ∧ w.Ran l hook events)
      (fun _ later => ∃ events, later.journal = w.journal ++ events ∧ w.Ran l hook events) := by
  simp only [callHook, after_bind, after_get]
  cases there : (w.listener l).hook hook with
  | none => exact ⟨[], (List.append_nil _).symm, by simp only [Ran, there]⟩
  | some f =>
    refine (after_invoke_journal (accepts f there) c).mono (fun _ later ran => ?_) (fun _ later ran => ?_) <;>
    · obtain ⟨event, noted, function⟩ := ran
      exact ⟨[event], noted, by simp only [Ran, there]; exact ⟨event, rfl, function⟩⟩

namespace World

/-- The listener whose end hook is called for a session of the application that is retired at the context. -/
def keeper (w : World) (c : ContextId) (a : ApplicationId) : ListenerId := (w.application a).listener.getD (w.listenerAt c)

/-- Where the end hook of a session is called that is retired at the context, and the world that it finds. -/
def retiring (w : World) (c : ContextId) (a : ApplicationId) (s : SessionId) : ContextId × World :=
  let room := match w.nearest c .server with
    | some server => w.newDetached server a
    | none => (c, w)
  (room.1, ({ room.2 with holds := .context room.1 :: .listener (w.keeper c a) :: room.2.holds }.endSession s).2)

end World

/-- The end hook of a session that is retired comes to an end and leaves alone what code that only fills scopes leaves alone,
and the scopes from a number on. -/
structure Host.Spares (host : Host) (w : World) (c : ContextId) (a : ApplicationId) (s : SessionId) (first : Nat) : Prop where
  accepts : ∀ f, (w.listener (w.keeper c a)).hook .sessionEnd = some f → (w.function f).Accepts 2
  ends : (callHook host (w.keeper c a) .sessionEnd (w.retiring c a s).1
      [.struct (w.session s).scope, .struct (w.application a).scope]).Ends (w.retiring c a s).2 fun ended =>
    (w.retiring c a s).2.Respects ended ∧
      ∀ t : ScopeId, first ≤ t.number → t.number < w.scopes.size → ended.scope t = w.scope t

namespace World

variable {later : World} {s : SessionId} {a : ApplicationId} {c : ContextId}

theorem Respects.endSession (respects : w.Respects later) (s : SessionId) :
    (w.endSession s).2.Respects (later.endSession s).2 :=
  { respects with
    sessions := by
      simp only [World.endSession, modifySession, setSession, Table.size_set]
      exact respects.sessions
    session := by
      intro t issued
      have inside : t.number < w.sessions.size := Nat.lt_of_lt_of_eq issued (Table.size_set ..)
      have same := respects.session t inside
      simp only [World.endSession, session_modify]
      by_cases here : s = t
      · subst here
        rw [if_pos ⟨rfl, Nat.lt_of_lt_of_le inside respects.sessions⟩, if_pos ⟨rfl, inside⟩, same]
      · rw [if_neg fun both => here both.1, if_neg fun both => here both.1]
        exact same }

end World

/-- How things stand when a session was ended and its hook called. -/
structure World.Retired (w : World) (s : SessionId) (l : ListenerId) (first : Nat) (later : World) : Prop where
  respects : (w.endSession s).2.Respects later
  scope : ∀ t : ScopeId, first ≤ t.number → t.number < w.scopes.size → later.scope t = w.scope t
  ran : ∃ events, later.journal = w.journal ++ events ∧ w.Ran l .sessionEnd events

theorem World.Retired.release (retired : w.Retired s l first later) (holds : List Hold) :
    w.Retired s l first { later with holds } :=
  ⟨retired.respects.trans (respects_of_same rfl rfl rfl (Nat.le_refl _)), retired.scope, retired.ran⟩

theorem World.session_endSession_keeps {β : Type} (w : World) (s t : SessionId) (f : Session → β)
    (keeps : ∀ session, f { session with shutDown := true } = f session) :
    f ((w.endSession s).2.session t) = f (w.session t) :=
  session_modify_keeps w s t f keeps

/-- A session that ends is marked first. Its hook is called if it was started and not ended before. -/
theorem shutdownSession_eq (host : Host) (s : SessionId) (c : ContextId) (l : ListenerId) (scope : ScopeId) (w : World) :
    shutdownSession host s c l scope w =
      (if (w.session s).started && !(w.session s).shutDown then do
        let _ ← callHook host l .sessionEnd c [.struct (w.session s).scope, .struct scope]
      else pure ()) (w.endSession s).2 := by
  have started := w.session_endSession_keeps s s Session.started fun _ => rfl
  have kept := w.session_endSession_keeps s s Session.scope fun _ => rfl
  rw [← started, ← kept, Bool.and_comm]
  rfl

/-- The end hook of a session is called once when the session is retired, if it was started and is not over. -/
theorem achieves_retireSession {a : ApplicationId} (issued : s.number < w.sessions.size)
    (started : (w.session s).started = true) (open_ : (w.session s).shutDown = false)
    (spares : (hostOf run).Spares w c a s first) :
    (retireSession (hostOf run) c a s).Achieves w fun _ later => w.Retired s (w.keeper c a) first later := by
  have finish : ∀ place (room : World), w.MakesRoom room → w.retiring c a s =
      (place, ({ room with holds := .context place :: .listener (w.keeper c a) :: room.holds }.endSession s).2) →
      Achieves (holding (.listener (w.keeper c a)) do
        let _ ← attempt (entering place (shutdownSession (hostOf run) s place (w.keeper c a) (w.application a).scope))) room
          fun _ last => w.Retired s (w.keeper c a) first last := by
    intro place room makes here
    let held : World := { room with holds := .context place :: .listener (w.keeper c a) :: room.holds }
    have makes := makes.trans (room.makesRoom_of_holds held.holds)
    have prepares : w.Prepares (held.endSession s).2 := makes.toPrepares.trans ⟨rfl, rfl, rfl⟩
    have accepts : ∀ f, ((held.endSession s).2.listener (w.keeper c a)).hook .sessionEnd = some f →
        ((held.endSession s).2.function f).Accepts 2 := by
      intro f there
      rw [prepares.function]
      exact spares.accepts f (prepares.listener _ ▸ there)
    have ends := spares.ends
    rw [here] at ends
    have noted := ends.and_after (after_callHook_journal accepts place)
    have closes : (shutdownSession (hostOf run) s place (w.keeper c a) (w.application a).scope).Ends held
        (w.Retired s (w.keeper c a) first) := by
      rw [Ends, shutdownSession_eq, makes.respects.session s issued, started, open_]
      refine (noted.mono ?_).drop ()
      rintro last ⟨⟨respects, kept⟩, events, noted, once⟩
      exact ⟨(makes.respects.endSession s).trans respects, kept, events,
        noted.trans (congrArg (· ++ events) makes.journal), (prepares.ran ..).mp once⟩
    have enters : (entering place (shutdownSession (hostOf run) s place (w.keeper c a) (w.application a).scope)).Ends
        { room with holds := .listener (w.keeper c a) :: room.holds } (w.Retired s (w.keeper c a) first) := by
      rw [entering, ends_iff, leaves_holding]
      exact closes.mono fun last retired => retired.release _
    rw [achieves_holding, achieves_bind]
    exact enters.attempt.mono fun _ last retired => (achieves_pure _).mpr (retired.release _)
  simp only [retireSession, achieves_bind, achieves_get]
  split
  next server below =>
    rw [achieves_bind, achieves_modifyGet]
    exact finish _ _ (w.makesRoom_newDetached server a) (by simp only [retiring, below])
  next below =>
    rw [achieves_bind, achieves_pure]
    exact finish c w w.makesRoom_refl (by simp only [retiring, below])

end ScopeEngine
