import ScopeEngine.Proofs.Registry.Switching

/-! Sequential runs keep the registry and the session maps in order: whatever is found there between two operations is filed
under its own name or id and is still of use. So a live session that a request holds is the one that the map of its application
has under the request's session id, unless the start of the application that has it failed. -/

namespace ScopeEngine

open ScopeEngine.Action Script World

variable {host : Host} {w later : World} {a : ApplicationId} {old : Nat}

theorem regularly_access (fuel old : Nat) (c : ContextId) {body : Script.Body} (accesses : areAccesses body = true) :
    RegularlyGrounded old ((hostOf (execute fuel)).run body c) :=
  regularlyGrounded_rules.runBody fun _ member =>
    regularlyGrounded_rules.execute fuel (fun n _ => regularly_touches (ordered_execute n) (serene_execute n) c) true
      (allows_of_mem accesses member)

theorem Operation.after_run_regular (ordered : host.Ordered) (serene : host.Serene) (regular : w.Regular old)
    {operation : Operation} (known : operation.isKnown w = true) :
    (operation.run host).After w (fun _ => World.Regular old) (fun _ => World.Regular old) := by
  have ignored : ∀ {α : Type} {action : Action α}, Regularly old action → Regularly old (do let _ ← action) := fun regularly =>
    regularly_rules.bind regularly fun _ => regularly_rules.pure _
  cases operation with
  | newRequest parent => exact regular.orders (regular.inOrder.orders_newRequest regular.sane parent false)
  | wait ms => exact regularly_rules.sleep ms w regular
  | setListener c l => exact regularly_setListener c l w regular
  | updateSettings c settings => exact regularly_updateSettings c settings w regular
  | setSessionId c id => exact regularly_setSessionId c id w regular
  | touchApplication c => exact ignored (regularly_ensureApplication ordered serene c) w regular
  | touchSession c => exact ignored (regularly_ensureSession ordered serene c) w regular
  | initializeSession c id => exact ignored (regularly_initializeSession ordered serene c id) w regular
  | rotateSession c => exact ignored (regularly_rotateSession ordered serene c) w regular
  | invalidateSession c id => exact ignored (regularly_invalidateSession ordered serene c id) w regular
  | shutdown a server =>
    simp only [run, after_bind, after_pure]
    exact after_shutdownApplication_regular ordered serene regular (of_decide_eq_true known) server
  | restart a server =>
    simp only [run, after_bind, after_pure]
    exact after_restartApplication_regular ordered serene regular (of_decide_eq_true known) server

namespace Occurrence

theorem after_run_regular (fuel : Nat) (regular : w.Regular old) (grounded : w.Grounded) {occurrence : Occurrence}
    (known : occurrence.isKnown w = true) :
    (occurrence.run (hostOf (execute fuel))).After w (fun _ => World.Regular old) (fun _ => World.Regular old) := by
  have ordered := ordered_execute fuel
  have serene := serene_execute fuel
  cases occurrence with
  | shutdownNamed name server =>
    simp only [run, after_bind, after_pure]
    exact regularly_shutdownNamed ordered serene name server w regular
  | shutdownAll server =>
    simp only [run, after_bind, after_pure]
    exact regularly_shutdownAll ordered serene server w regular
  | access c body =>
    simp only [run, after_bind, after_pure]
    exact (regularly_access fuel old c known w ⟨regular, grounded⟩).imp fun _ done => done.1
  | performed operation => exact Operation.after_run_regular ordered serene regular known

theorem regular_runAll (fuel : Nat) (regular : w.Regular old) (grounded : w.Grounded) (occurrences : List Occurrence)
    (ran : runAll (hostOf (execute fuel)) w occurrences = some later) : later.Regular old ∧ later.Grounded := by
  induction occurrences generalizing w with
  | nil =>
    cases ran
    exact ⟨regular, grounded⟩
  | cons occurrence rest ih =>
    obtain ⟨middle, ends, runs⟩ := Option.bind_eq_some_iff.mp ran
    have passes := passes_next? (serene_execute fuel) (settles_execute fuel) regular.sane grounded ends
    exact ih (of_next? (after_run_regular fuel regular grounded) ends) (passes.grounded grounded) runs

end Occurrence

namespace World

structure Unfiled (w : World) : Prop extends Untouched w where
  sessionless : ∀ r request, (w.context r).request? = some request → request.sessionNode = none

theorem tidy_of_empty (applications : w.applications.size = 0) (registry : w.registry.entries = [])
    (sessionless : ∀ r request, (w.context r).request? = some request → request.sessionNode = none) :
    w.Tidy w.sessions.size := by
  have empty : ∀ a, (w.application a).sessions.entries = [] := by
    intro a
    have missing : w.application a = default :=
      w.applications.get_of_ge (by rw [applications]; exact Nat.zero_le _)
    rw [missing]
    rfl
  have unmapped : ∀ a s, ¬ w.Mapped a s := by
    intro a s mapped
    rw [Mapped, Bindings.values, empty a] at mapped
    cases mapped
  exact {
    found := fun _ mislaid => mislaid.issued
    names := fun name => by simp [Bindings.Single, registry]
    kept := by
      intro a registered
      rw [Registered, Bindings.values, registry] at registered
      cases registered
    ids := fun a id => by simp [Bindings.Single, empty a]
    filed := by
      intro a entry member
      rw [empty a] at member
      cases member
    alone := fun a b s mapped => absurd mapped (unmapped a s)
    live := fun a s _ mapped => absurd mapped (unmapped a s)
    nodes := by
      intro r request node there spliced
      cases (sessionless r request there).symm.trans spliced
    seated := by
      intro r standing s at_ held
      obtain ⟨request, there, rfl⟩ := Option.map_eq_some_iff.mp at_
      simp [standingOf, sessionless r request there] at held
    suits := by
      intro r standing s at_ held
      obtain ⟨request, there, rfl⟩ := Option.map_eq_some_iff.mp at_
      simp [standingOf, sessionless r request there] at held }

theorem Unfiled.regular (unfiled : w.Unfiled) : w.Regular w.sessions.size :=
  ⟨unfiled.sane, tidy_of_empty unfiled.applications unfiled.registry unfiled.sessionless⟩

/-- The entry of the registry is an application under its own name whose start was not refused. -/
structure EntersApplication (w : World) (entry : Key × ApplicationId) : Prop where
  issued : entry.2.number < w.applications.size
  named : ((w.application entry.2).name == entry.1) = true
  kept : (w.application entry.2).discarded = false

/-- The entry of the session map is a session of the application, under its own id, that is neither over nor refused. -/
structure EntersSession (w : World) (a : ApplicationId) (entry : Key × SessionId) : Prop where
  issued : entry.2.number < w.sessions.size
  labelled : ((w.session entry.2).id == entry.1) = true
  owned : (w.session entry.2).application = (w.application a).name
  running : (w.session entry.2).shutDown = false
  kept : (w.session entry.2).discarded = false

/-- The registry and the session maps of all registered applications. -/
structure WellFiled (w : World) : Prop where
  applications : ∀ entry ∈ w.registry.entries, w.EntersApplication entry
  sessions : ∀ a, w.Registered a → ∀ entry ∈ (w.application a).sessions.entries, w.EntersSession a entry

theorem Regular.wellFiled (regular : w.Regular old) : w.WellFiled where
  applications := by
    intro entry member
    obtain ⟨issued, named⟩ := regular.sane.registered entry member
    exact ⟨issued, named, regular.inOrder.kept entry.2 (List.mem_map.mpr ⟨entry, member, rfl⟩)⟩
  sessions := by
    intro a registered entry member
    obtain ⟨issued, labelled, owned⟩ := regular.inOrder.filed a entry member
    obtain ⟨running, kept⟩ := regular.inOrder.live a entry.2 registered (List.mem_map.mpr ⟨entry, member, rfl⟩)
    exact ⟨issued, labelled, owned, running, kept⟩

end World

/-- Whatever requests and servers do one after another, and whatever hooks do to the scopes of their requests before they
succeed, refuse or fail, between two operations the registry holds applications under their own names that were not
refused, and the map of each of them holds its own sessions under their own ids, none of them over or refused. -/
theorem instances_stay_well_filed (fuel : Nat) (start later : World) (occurrences : List Occurrence)
    (unfiled : start.Unfiled) (ran : Occurrence.runAll (hostOf (execute fuel)) start occurrences = some later) :
    later.WellFiled :=
  (Occurrence.regular_runAll fuel unfiled.regular unfiled.grounded occurrences ran).1.wellFiled

theorem unfiled_shop {busy : Hook → Bool} {body : Script.Body} (accesses : areAccesses body = true) :
    (staffed busy body).Unfiled where
  toUntouched := untouched_shop accesses
  sessionless := by
    intro r request there
    cases (request_shop body r).symm.trans there

def touchThenWrite : Script.Body :=
  [.mk (.lifecycle (.ensureSession none)) false,
    .mk (.scope (.put (.nearby ScopeName.application.key) .hits (.integer 1))) false]

/-- A request changes its session for a new one, and a second request has a session of its own. -/
def renewed : List Occurrence :=
  [.performed (.newRequest ⟨0⟩), .performed (.setSessionId ⟨1⟩ (.of "alice")), .performed (.touchApplication ⟨1⟩),
    .performed (.invalidateSession ⟨1⟩ none), .performed (.newRequest ⟨0⟩), .performed (.touchSession ⟨8⟩)]

theorem instances_stay_well_filed_shop : ∃ later,
    Occurrence.runAll (hostOf (execute 3)) (shop touchThenWrite) renewed = some later ∧
    later.registry.values = [⟨0⟩] ∧ (later.application ⟨0⟩).sessions.values = [⟨1⟩, ⟨2⟩] ∧ later.WellFiled := by
  have ends : (Occurrence.runAll (hostOf (execute 3)) (shop touchThenWrite) renewed).map (fun w =>
      (w.registry.values, (w.application ⟨0⟩).sessions.values)) = some ([⟨0⟩], [⟨1⟩, ⟨2⟩]) := by
    decide +kernel
  obtain ⟨later, ran, same⟩ := Option.map_eq_some_iff.mp ends
  simp only [Prod.mk.injEq] at same
  exact ⟨later, ran, same.1, same.2,
    instances_stay_well_filed 3 _ later renewed (unfiled_shop (by decide)) ran⟩

variable {c : ContextId} {s : SessionId}

structure World.Fresh (w : World) : Prop where
  applications : w.applications.size = 0
  sessions : w.sessions.size = 0
  registry : w.registry.entries = []
  requests : ∀ r request, (w.context r).request? = some request →
    request.applicationNode = none ∧ request.sessionNode = none
  tame : w.Tame

namespace World

theorem Fresh.regular (fresh : w.Fresh) : w.Regular 0 := by
  have tidy := tidy_of_empty fresh.applications fresh.registry fun r request there => (fresh.requests r request there).2
  refine ⟨sane_of_empty fresh.applications fresh.registry (fun r request there => (fresh.requests r request there).1) ?_
    (.inr fresh.tame), fresh.sessions ▸ tidy⟩
  exact fun l hook f hooked => areAccesses_of_touches (fresh.tame l hook f hooked)

/-- The session is one that an application whose start failed still has. -/
def Abandoned (w : World) (s : SessionId) : Prop :=
  ∃ a, (w.application a).discarded = true ∧ w.Stored a s

/-- The request at `c` has a session spliced in that is neither over nor abandoned. -/
structure HoldsLive (w : World) (c : ContextId) (s : SessionId) : Prop where
  spliced : w.splicedSession c = some s
  live : (w.session s).isDefunctAt w.clock = false
  kept : ¬ w.Abandoned s

structure Coherent (w : World) : Prop where
  stored : ∀ c s, w.HoldsLive c s → ∃ a id, w.splicedApplication c = some a ∧ w.sessionIdAt c = some id ∧
    ((w.session s).id == id) = true ∧ (w.application a).sessions.find? id = some s
  single : ∀ c d s t, w.HoldsLive c s → w.HoldsLive d t → w.splicedApplication c = w.splicedApplication d →
    (w.sessionIdAt c == w.sessionIdAt d) = true → s = t

theorem Regular.stored_of_holdsLive (regular : w.Regular 0) (holds : w.HoldsLive c s) :
    ∃ a id, w.splicedApplication c = some a ∧ w.sessionIdAt c = some id ∧ ((w.session s).id == id) = true ∧
      (w.application a).sessions.find? id = some s := by
  obtain ⟨spliced, defunct, kept⟩ := holds
  have live : w.Live s := by
    simp only [Session.isDefunctAt, Bool.or_eq_false_iff] at defunct
    exact defunct.1
  cases found : w.requestOf c with
  | none => simp [splicedSession, found] at spliced
  | some place =>
    obtain ⟨r, request⟩ := place
    have at_ : w.standing r = some (w.standingOf request) := by
      rw [standing, request?_of_requestOf found]; rfl
    have held := (splicedSession_eq found).symm.trans spliced
    obtain ⟨⟨id, named, same⟩, place⟩ := regular.inOrder.suits r _ s at_ held live
    obtain ⟨a, mapped⟩ : ∃ a, w.Mapped a s := by
      refine Classical.byContradiction fun nowhere => Nat.not_lt_zero _ (regular.tidy.found s ⟨?_, live, ?_⟩)
      · exact (regular.inOrder.seated r _ s at_ held).issued
      · exact fun a mapped => nowhere ⟨a, mapped⟩
    have stored := regular.inOrder.find? mapped
    have application := (place a mapped).resolve_right fun gone => kept ⟨a, gone, stored⟩
    refine ⟨a, id, (splicedApplication_eq found).trans application, ?_, same, ?_⟩
    · simp only [sessionIdAt, found]
      exact named
    · exact (Bindings.find?_congr _ same).symm.trans stored

theorem Regular.coherent (regular : w.Regular 0) : w.Coherent where
  stored := fun _ _ holds => regular.stored_of_holdsLive holds
  single := by
    intro c d s t first second application ids
    obtain ⟨a, id, here, own, -, stored⟩ := regular.stored_of_holdsLive first
    obtain ⟨b, id', there, other, -, stored'⟩ := regular.stored_of_holdsLive second
    rw [here, there] at application
    rw [own, other] at ids
    cases application
    exact Option.some.inj (stored.symm.trans ((Bindings.find?_congr _ ids).trans stored'))

end World

theorem Operation.regular_foldlM {host : Host} (ordered : host.Ordered) (serene : host.Serene) (regular : w.Regular 0)
    (operations : List Operation) (ran : operations.foldlM (next? host) w = some later) : later.Regular 0 := by
  induction operations generalizing w with
  | nil =>
    cases ran
    exact regular
  | cons operation rest ih =>
    obtain ⟨middle, ends, runs⟩ := Option.bind_eq_some_iff.mp ran
    have step : (Occurrence.performed operation).isKnown w = true →
        ((Occurrence.performed operation).run host).After w (fun _ => Regular 0) (fun _ => Regular 0) :=
      after_run_regular ordered serene regular
    exact ih (Occurrence.of_next? step ends) runs

/-- Whatever requests, servers and tame hooks do one after another, a live session that a request holds is the one that
the request's application has under the request's session id, unless it was abandoned in a start that failed. -/
theorem spliced_sessions_cohere (fuel : Nat) (start later : World) (operations : List Operation) (fresh : start.Fresh)
    (ran : operations.foldlM (Operation.next? (hostOf (execute fuel))) start = some later) : later.Coherent :=
  (Operation.regular_foldlM (ordered_execute fuel) (serene_execute fuel) fresh.regular operations ran).coherent

theorem fresh_shop {onStart : Script.Body} (touches : onStart.all Step.isTouch = true) : (shop onStart).Fresh where
  applications := rfl
  sessions := rfl
  registry := rfl
  requests := by
    intro r request there
    cases (request_shop onStart r).symm.trans there
  tame := by
    intro l hook f hooked
    rw [hook_shop hooked]
    exact touches

def opened (onStart : Script.Body) : Option World :=
  [Operation.newRequest ⟨0⟩, .setSessionId ⟨1⟩ (.of "alice"), .touchApplication ⟨1⟩].foldlM
    (Operation.next? (hostOf (execute 3))) (shop onStart)

theorem spliced_sessions_cohere_shop : ∃ later, opened (touchThen (.return_ (.boolean true))) = some later ∧
    later.splicedSession ⟨1⟩ = some ⟨0⟩ ∧ later.Coherent := by
  have ends : ((opened (touchThen (.return_ (.boolean true)))).map (·.splicedSession ⟨1⟩)) = some (some ⟨0⟩) := by
    decide +kernel
  obtain ⟨later, ran, spliced⟩ := Option.map_eq_some_iff.mp ends
  exact ⟨later, ran, spliced, spliced_sessions_cohere 3 _ later _ (fresh_shop (by decide)) ran⟩

/-- A start that fails after it touched the session leaves that session in a request without an application. -/
theorem failed_start_leaves_session :
    (shop (touchThen (.raise (.thrown "no")))).Fresh ∧
    ((opened (touchThen (.raise (.thrown "no")))).map fun w =>
      (w.splicedApplication ⟨1⟩, w.splicedSession ⟨1⟩, (w.session ⟨0⟩).isDefunctAt w.clock)) =
      some (none, some ⟨0⟩, false) :=
  ⟨fresh_shop (by decide), by decide +kernel⟩

end ScopeEngine
