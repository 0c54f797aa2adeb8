import ScopeEngine.Proofs.Readiness.Runs
import ScopeEngine.Proofs.SessionsOff.Touches

/-! Sequential runs with settings that change. Between two operations a request that does not ask for sessions has none,
provided that no hook switches them off and lets its application start all the same: the touch of a session that the start
is part of has read the settings before and goes on. -/

namespace ScopeEngine

open ScopeEngine.Action Script World

variable {α β : Type} {host : Host} {start w later : World} {a : ApplicationId} {c r : ContextId} {request : Request}

namespace Action

abbrev Modestly (start : World) (action : Action α) : Prop :=
  Under (Modest start) (fun _ => Modest start) (fun _ => Modest start) action

theorem Avoids.modestly {action : Action α} (avoids : Avoids start action) : Modestly start action := fun w modest =>
  (avoids w modest).imp fun _ done => done.modest

theorem modestly_rules : ScriptRules (fun {_} action => Modestly start action) :=
  Regime.rules (.of (fun modest aside => (modest.beside aside.toBeside).modest) (fun _ done => done) fun _ done => done)

/-- Code in a request changes that request at most, and code in none does nothing. -/
theorem modestly_of_minds {action : Action α} (minds : ∀ r, Minds start c r action)
    (idle : ∀ w, w.home c = none → action.After w (fun _ later => later = w) (fun _ later => later = w)) :
    Modestly start action := by
  intro w modest
  cases home : w.home c with
  | none => exact (idle w home).imp fun _ same => same ▸ modest
  | some r => exact (minds r w ⟨modest, home⟩).imp fun _ done => done.modest

end Action

section Homeless

variable (homeless : w.home c = none)
include homeless

theorem homeless_setSessionId (id : Key) :
    (setSessionId c id).After w (fun _ _ => False) (fun _ later => later = w) := by
  simp only [setSessionId, after_bind]
  exact (homeless_theRequest homeless).mono_ok (fun _ _ never => never.elim)

theorem homeless_withApplication {next : ApplicationId → Action α} :
    (do next (← orSessionsDisabled (← ensureApplication host c))).After w (fun _ _ => False) (fun _ later => later = w) := by
  simp only [after_bind]
  refine (homeless_ensureApplication homeless).sure (fun found middle done => ?_)
  obtain ⟨rfl, rfl⟩ := done
  rfl

theorem homeless_named {key : Key} {action : Action ScopeId} (asks : AsksScope host c key action) :
    action.After w (fun _ later => later = w) (fun _ later => later = w) :=
  asks.after rfl (fun _ home => by cases home.symm.trans homeless) (fun _ home => by cases home.symm.trans homeless)

end Homeless

section Running

variable (own : start.OwnHooks) (minds : host.Minds start) (steady : host.Steady start)
include own minds steady

theorem modestly_ownRequest (c : ContextId) : OwnRules host c (fun {_} action => Modestly start action) := by
  have rules := minds_ownRequest own minds steady c
  have none_of_never : ∀ {α : Type} {action : Action α} {w : World},
      action.After w (fun _ _ => False) (fun _ later => later = w) →
      action.After w (fun _ later => later = w) (fun _ later => later = w) := fun never =>
    never.mono_ok (fun _ _ impossible => impossible.elim)
  exact {
    toScopeRules := modestly_rules.toScopeRules
    declares := ⟨fun beside => (avoids_declares.beside beside).modestly⟩
    nearby := fun key => modestly_of_minds (fun r => (rules r).nearby key) fun _ homeless => homeless_named homeless .nearby
    global := fun key => modestly_of_minds (fun r => (rules r).global key) fun _ homeless => homeless_named homeless .global
    application := modestly_of_minds (fun r => (rules r).application) fun w homeless =>
      (homeless_ensureApplication homeless).sure (fun _ _ done => done.2)
    session := modestly_of_minds (fun r => (rules r).session) fun w homeless =>
      (homeless_ensureSession homeless).sure (fun _ _ done => done.2)
    settings := fun settings => modestly_of_minds (fun r => (rules r).settings settings) fun w homeless => by
      simp only [updateSettings, after_bind]
      exact (homeless_theRequest homeless).mono_ok (fun _ _ never => never.elim)
    listener := fun l => modestly_of_minds (fun r => (rules r).listener l) fun w homeless => by
      simp only [setListener, after_bind]
      exact (homeless_theRequest homeless).mono_ok (fun _ _ never => never.elim)
    sessionId := fun id => modestly_of_minds (fun r => (rules r).sessionId id) fun w homeless =>
      none_of_never (homeless_setSessionId homeless id)
    initialization := fun id => modestly_of_minds (fun r => (rules r).initialization id) fun w homeless => by
      simp only [initializeSession, after_bind]
      exact (homeless_setSessionId homeless id).mono_ok (fun _ _ never => never.elim)
    rotation := modestly_of_minds (fun r => (rules r).rotation) fun w homeless => by
      simp only [rotateSession, after_bind]
      refine (homeless_ensureSession homeless).sure (fun touched middle done => ?_)
      obtain ⟨rfl, rfl⟩ := done
      rfl
    invalidation := fun id => modestly_of_minds (fun r => (rules r).invalidation id) fun w homeless => by
      rw [invalidateSession, after_bind, after_get]
      dsimp only
      split
      · rfl
      · exact none_of_never (homeless_withApplication homeless) }

end Running

section Shutdowns

variable (own : start.OwnHooks) (minds : host.Minds start) {server : ContextId}
include own minds

theorem after_shutdownNamed_avoids (name : Key) : Under (fun w => Modest start w ∧ server.number < w.contexts.size ∧ w.Served server)
    (Avoids start) (Avoids start) (shutdownNamed host name server) := by
  rintro w ⟨modest, issued, served⟩
  simp only [shutdownNamed, after_bind, after_get]
  cases w.registry.find? name with
  | none => exact .refl modest
  | some a =>
    have erases : Avoids start w { w with registry := w.registry.erase name } :=
      modest.elsewhere rfl (carries_of_same rfl rfl)
    simp only [after_bind, after_modify, after_map]
    exact (after_shutdownApplication_avoids own minds erases.modest issued ((erases.minds server).served issued served)
      a).imp fun _ done => erases.trans done

theorem after_shutdownAll_avoids : Under (fun w => Modest start w ∧ server.number < w.contexts.size ∧ w.Served server)
    (Avoids start) (Avoids start) (shutdownAll host server) :=
  (Regime.rules (.of (fun here aside => here.1.beside aside.toBeside) (fun here done => ⟨done.modest,
    Nat.lt_of_lt_of_le here.2.1 done.extends_.size, (done.minds server).served here.2.1 here.2.2⟩) .trans)).toScopeRules.shutdownAll
      (after_shutdownNamed_avoids own minds)

theorem after_restartApplication_avoids (modest : Modest start w) (issued : server.number < w.contexts.size)
    (served : w.Served server) (a : ApplicationId) :
    (restartApplication host a server).After w (fun _ => Avoids start w) (fun _ => Avoids start w) := by
  simp only [restartApplication, after_bind]
  refine (after_shutdownApplication_avoids own minds modest issued served a).mono_ok (fun report ended done => ?_)
  rw [after_get]
  split
  · trivial
  · exact done.trans (done.modest.elsewhere rfl (carries_of_same rfl rfl))

end Shutdowns

namespace Occurrence

def isServed (w : World) : Occurrence → Bool
  | performed (.shutdown _ server) | performed (.restart _ server) | shutdownNamed _ server | shutdownAll server =>
    decide (server.number < w.contexts.size) && (w.serverOf server).isSome
  | _ => true

def areServed (host : Host) : World → List Occurrence → Bool
  | _, [] => true
  | w, occurrence :: rest => occurrence.isServed w && match occurrence.next? host w with
    | some later => areServed host later rest
    | none => true

section

variable {fuel : Nat} (own : start.OwnHooks) (steady : ∀ n ≤ fuel, (hostOf (execute n)).Steady start) (modest : Modest start w)
include own steady modest

/-- One step of a run keeps requests without sessions as they should be, whether it succeeds or fails. -/
theorem after_run_modest {occurrence : Occurrence} (known : occurrence.isKnown w = true)
    (served : occurrence.isServed w = true) :
    (occurrence.run (hostOf (execute fuel))).After w (fun _ => Modest start) (fun _ => Modest start) := by
  have minds : ∀ n ≤ fuel, (hostOf (execute n)).Minds start := fun n less =>
    minds_execute own n fun m below => steady m (Nat.le_trans (Nat.le_of_lt below) less)
  have rules : ∀ n ≤ fuel, ∀ c, OwnRules (hostOf (execute n)) c (fun {_} action => Modestly start action) :=
    fun n less => modestly_ownRequest own (minds n less) (steady n less)
  have here := rules fuel (Nat.le_refl _)
  have ignored : ∀ {α : Type} {action : Action α}, Modestly start action → Modestly start (do let _ ← action) :=
    fun modestly => modestly_rules.bind modestly fun _ => modestly_rules.pure _
  have ended : ∀ {α : Type} {action : Action α},
      action.After w (fun _ => Avoids start w) (fun _ => Avoids start w) →
      (do let _ ← action).After w (fun _ => Modest start) (fun _ => Modest start) := by
    intro α action avoids
    simp only [after_bind, after_pure]
    exact avoids.imp fun _ done => done.modest
  have place : ∀ {server : ContextId}, (decide (server.number < w.contexts.size) && (w.serverOf server).isSome) = true →
      server.number < w.contexts.size ∧ w.Served server := by
    intro server checked
    rw [Bool.and_eq_true, decide_eq_true_eq] at checked
    exact ⟨checked.1, served_of_serverOf checked.2⟩
  have serving := minds fuel (Nat.le_refl _)
  cases occurrence with
  | shutdownNamed name server =>
    exact ended (after_shutdownNamed_avoids own serving name w ⟨modest, place served⟩)
  | shutdownAll server =>
    exact ended (after_shutdownAll_avoids own serving w ⟨modest, place served⟩)
  | access c body =>
    refine ignored (modestly_rules.runBody fun step member => ?_) w modest
    exact modestly_rules.execute fuel (fun n less => (rules n (Nat.le_of_lt less) c).toTouchRules) true
      (allows_of_mem known member)
  | performed operation =>
    cases operation with
    | newRequest parent => exact (modest.apart (w.apart_newRequest parent false)).modest
    | wait ms => exact modestly_rules.sleep ms w modest
    | setListener c l => exact (here c).listener l w modest
    | updateSettings c settings => exact (here c).settings settings w modest
    | setSessionId c id => exact (here c).sessionId id w modest
    | touchApplication c => exact ignored (here c).application w modest
    | touchSession c => exact ignored (here c).session w modest
    | initializeSession c id => exact ignored ((here c).initialization id) w modest
    | rotateSession c => exact ignored (here c).rotation w modest
    | invalidateSession c id => exact ignored ((here c).invalidation id) w modest
    | shutdown a server =>
      obtain ⟨issued, below⟩ := place served
      exact ended (after_shutdownApplication_avoids own serving modest issued below a)
    | restart a server =>
      obtain ⟨issued, below⟩ := place served
      exact ended (after_restartApplication_avoids own serving modest issued below a)

theorem modest_runAll (occurrences : List Occurrence) (served : areServed (hostOf (execute fuel)) w occurrences = true)
    (ran : runAll (hostOf (execute fuel)) w occurrences = some later) : Modest start later := by
  induction occurrences generalizing w with
  | nil =>
    cases ran
    exact modest
  | cons occurrence rest ih =>
    obtain ⟨middle, ends, runs⟩ := Option.bind_eq_some_iff.mp ran
    simp only [areServed, ends, Bool.and_eq_true] at served
    have next := of_next? (fun known => after_run_modest own steady modest known served.1) ends
    exact ih next served.2 runs

end

end Occurrence

/-- Nothing is spliced into any request yet, and hooks keep to their own request. -/
structure World.Bare (w : World) : Prop where
  requests : ∀ r request, (w.context r).request? = some request →
    request.applicationNode = none ∧ request.sessionNode = none
  hooks : w.OwnHooks

theorem World.Bare.modest (bare : start.Bare) : Modest start start where
  carries := carries_of_same rfl rfl
  proper := fun r request there _ => (bare.requests r request there).2
  nodes := by
    intro t node member
    cases there : (start.context t).request? with
    | none =>
      rw [spliced_of_none there] at member
      cases member
    | some request =>
      obtain ⟨application, session⟩ := bare.requests t request there
      rw [spliced_of_request there, application, session] at member
      cases member
  served := by
    intro r request there spliced
    rw [(bare.requests r request there).1] at spliced
    cases spliced

/-- Whatever requests, servers and hooks do one after another, a request that does not ask for sessions has none, if no
start hook that finds sessions wanted lets its application start and leaves them unwanted. -/
theorem unwanted_sessions_are_out (fuel : Nat) (start w : World) (occurrences : List Occurrence) (r : ContextId)
    (request : Request) (bare : start.Bare) (steady : ∀ n ≤ fuel, (hostOf (execute n)).Steady start)
    (served : Occurrence.areServed (hostOf (execute fuel)) start occurrences = true)
    (ran : Occurrence.runAll (hostOf (execute fuel)) start occurrences = some w)
    (there : (w.context r).request? = some request) (off : request.settings.sessionManagement = false) :
    request.sessionNode = none := by
  have modest := Occurrence.modest_runAll bare.hooks steady bare.modest occurrences served ran
  exact modest.proper r request there off

namespace World

/-- Code runs at `c` in a request that asks for sessions. -/
structure Asking (start : World) (c r : ContextId) (w : World) : Prop where
  carries : start.Carries w
  home : w.home c = some r
  on : w.On r

section

variable (asking : Asking start c r w)
include asking

theorem Asking.elsewhere (contexts : later.contexts = w.contexts)
    (carries : w.Carries later) : Asking start c r later where
  carries := asking.carries.trans carries
  home := by rw [(extends_of_contexts contexts).home (issued_of_home asking.home), asking.home]
  on := by
    rw [On, context, contexts]
    exact asking.on

theorem Asking.modifyRequest {change : Request → Request}
    (wanted : ∀ request : Request, request.settings.sessionManagement = true →
      (change request).settings.sessionManagement = true) : Asking start c r (w.modifyRequest r change) where
  carries := by
    have code := w.modifyRequest_code r change
    exact asking.carries.trans (carries_of_same (congrArg Prod.snd code) (congrArg Prod.fst code))
  home := by rw [(w.extends_modifyRequest r change).home (issued_of_home asking.home), asking.home]
  on := by
    obtain ⟨request, there, asks⟩ := asking.on
    refine ⟨change request, ?_, wanted request asks⟩
    rw [request?_modifyRequest, if_pos rfl, there]
    rfl

theorem Asking.excise (type : ContextType) : Asking start c r (w.excise r type).2 := by
  obtain ⟨request, -, there⟩ := requestOf_home asking.home
  simp only [World.excise, requestOf_self there]
  exact asking.modifyRequest fun _ asks => asks

end

end World

abbrev Action.Asks (start : World) (c r : ContextId) (action : Action α) : Prop :=
  Under (Asking start c r) (fun _ => Asking start c r) (fun _ => Asking start c r) action

theorem asks_rules : ScriptRules (fun {_} action => Asks start c r action) :=
  Regime.rules (.of (fun asking aside => asking.elsewhere aside.contexts ⟨aside.listeners, aside.functions, aside.function⟩)
    (fun _ done => done) fun _ done => done)

theorem asks_updateSettings {settings : Settings} (wanted : settings.sessionManagement = true) :
    Asks start c r (updateSettings c settings) := by
  intro w asking
  have changes : Asking start c r (w.modifyRequest r fun request => { request with settings }) :=
    asking.modifyRequest fun _ _ => wanted
  simp only [updateSettings, after_bind]
  refine after_theRequest asking.home fun request there => ?_
  simp only [after_modify, after_get, wanted]
  generalize (w.modifyRequest r fun request => { request with settings }) = changed at changes ⊢
  cases changed.splicedApplication r with
  | none => exact changes
  | some a =>
    dsimp only
    split
    · exact changes.elsewhere rfl (carries_of_same rfl rfl)
    · exact (changes.excise .session).excise .application

def adjustThenProceed (settings : Settings) : Script.Body :=
  [.mk (.lifecycle (.updateSettings settings)) false, .mk (.return_ (.boolean true)) false]

section

variable {settings : Settings} (wanted : settings.sessionManagement = true) (fuel : Nat)
include wanted

theorem asks_adjustThenProceed : Asks start c r ((hostOf (execute fuel)).run (adjustThenProceed settings) c) := by
  refine asks_rules.runBody fun step member => ?_
  cases fuel with
  | zero => exact asks_rules.exhausted
  | succ fuel =>
    rcases List.mem_pair.mp member with rfl | rfl
    · exact asks_rules.bind (asks_rules.bind (asks_updateSettings wanted) fun _ => asks_rules.pure _) fun _ =>
        asks_rules.pure _
    · exact asks_rules.bind (asks_rules.pure _) fun _ => asks_rules.answer _

/-- Settings that ask for sessions do no harm. -/
theorem steady_adjustThenProceed : (hostOf (execute fuel)).Steady (shop (adjustThenProceed settings)) := by
  intro l r w later value carries on ran _
  have asking : Asking (shop (adjustThenProceed settings)) r r w := by
    have ⟨_, there, _⟩ := on
    refine ⟨carries, ?_, on⟩
    rw [home, requestOf_self there]
    rfl
  have calls : (callHook (hostOf (execute fuel)) l .applicationStart r []).After w (fun _ last => last.On r)
      (fun _ _ => True) := by
    simp only [callHook, after_bind, after_get]
    rw [listener, carries.listeners, ← listener]
    cases hooked : ((shop (adjustThenProceed settings)).listener l).hook .applicationStart with
    | none => exact on
    | some f =>
      cases hook_shop hooked
      simp only [invoke, after_bind]
      refine (asks_rules.bindArguments _ _ w asking).partly (fun scope bound binds => ?_)
      refine (after_callContext _ scope (issued_of_home binds.home)).partly (fun d opened called => ?_)
      obtain ⟨apart, -, same⟩ := called
      have inside : Asking (shop (adjustThenProceed settings)) d r opened := by
        obtain ⟨request, there, asks⟩ := binds.on
        refine ⟨binds.carries.trans ?_, same.trans binds.home, request, ?_, asks⟩
        · exact carries_of_same (congrArg Prod.snd apart.code) (congrArg Prod.fst apart.code)
        · rw [request?_eq_some] at there ⊢
          rw [apart.kind r (issued_of_home binds.home), there]
      rw [after_get, inside.carries.function _ Nat.zero_lt_one]
      exact (asks_rules.holding _ (asks_adjustThenProceed wanted fuel) opened inside).partly (fun _ _ done => done.on)
  simpa only [After, ran] using calls

end

theorem bare_shop {onStart : Script.Body} (allowed : allAllow LifecycleStep.isOwn onStart = true) :
    (shop onStart).Bare where
  requests := by
    intro r request there
    cases (request_shop onStart r).symm.trans there
  hooks := by
    intro l hook f hooked
    rw [hook_shop hooked]
    exact ⟨Nat.zero_lt_one, allowed⟩

/-- A request gets a session, asks for none any more, and its application is shut down. -/
def switchedOff : List Occurrence :=
  [.performed (.newRequest ⟨0⟩), .performed (.setSessionId ⟨1⟩ (.of "alice")), .performed (.touchSession ⟨1⟩),
    .performed (.updateSettings ⟨1⟩ (.named "shop")), .performed (.shutdown ⟨0⟩ ⟨1⟩)]

def World.sessionState (w : World) (r : ContextId) : Option (Bool × Bool) :=
  (w.context r).request?.map fun request => (request.settings.sessionManagement, request.sessionNode.isSome)

def longSessions : Settings := { name := "shop", sessionManagement := true, sessionTimeout := 3600 }

theorem unwanted_sessions_are_out_shop :
    ((Occurrence.runAll (hostOf (execute 3)) (shop (adjustThenProceed longSessions)) (switchedOff.take 3)).map
      (·.sessionState ⟨1⟩)) = some (some (true, true)) ∧
    ∃ w request,
      Occurrence.runAll (hostOf (execute 3)) (shop (adjustThenProceed longSessions)) switchedOff = some w ∧
      (w.context ⟨1⟩).request? = some request ∧ request.settings.sessionManagement = false ∧
      request.sessionNode = none := by
  have wanted : longSessions.sessionManagement = true := rfl
  have served : Occurrence.areServed (hostOf (execute 3)) (shop (adjustThenProceed longSessions)) switchedOff = true := by
    decide +kernel
  have ends : ((Occurrence.runAll (hostOf (execute 3)) (shop (adjustThenProceed longSessions)) switchedOff).map
      (·.sessionState ⟨1⟩)) = some (some (false, false)) := by
    decide +kernel
  obtain ⟨w, ran, state⟩ := Option.map_eq_some_iff.mp ends
  obtain ⟨request, there, same⟩ := Option.map_eq_some_iff.mp state
  have off : request.settings.sessionManagement = false := congrArg Prod.fst same
  refine ⟨by decide +kernel, w, request, ran, there, off, ?_⟩
  exact unwanted_sessions_are_out 3 _ w switchedOff ⟨1⟩ request (bare_shop (by decide))
    (fun n _ => steady_adjustThenProceed wanted n) served ran there off

/-- A hook that switches sessions off and lets the application start leaves the request with the session that the touch
went on to make. -/
theorem start_hook_leaves_unwanted_session :
    (shop (adjustThenProceed (.named "shop"))).Bare ∧
    ((Occurrence.runAll (hostOf (execute 3)) (shop (adjustThenProceed (.named "shop"))) (switchedOff.take 3)).map
      (·.sessionState ⟨1⟩)) = some (some (false, true)) :=
  ⟨bare_shop (by decide), by decide +kernel⟩

end ScopeEngine
