import Mathlib.Data.List.Nodup
import ScopeEngine.Proofs.Closing.Shutdown
import ScopeEngine.Proofs.Refusal.Openings
import ScopeEngine.Proofs.Registry.Runs
import ScopeEngine.Proofs.SessionsOff.Hooks

/-! Replacing an application that is past its time limit. The request that comes upon it takes it out of the registry and shuts
it down. Then it looks again, finds nothing, and founds a new application; so it looks at most twice. -/

namespace ScopeEngine

open ScopeEngine.Action Script World

variable {fuel old : Nat} {host : Host} {w cleared hooked : World} {a : ApplicationId} {c r server : ContextId} {name : Key}
  {settings : Settings} {request : Request} {l : ListenerId} {outcome : Except Error Value}

namespace World

/-- What is registered under the name is past its time limit, though it is not defunct, and the request at `r` has no live
application of that name. -/
structure Overdue (w : World) (r : ContextId) (name : Key) (a : ApplicationId) : Prop where
  registered : w.registry.find? name = some a
  live : (w.application a).isDefunct = false
  expired : (w.application a).isExpiredAt w.clock = true
  lacks : ∀ b, w.splicedApplication r = some b → ((w.application b).name == name) = true →
    (w.application b).isDefunct = true

/-- The request at `r` is rid of the application that it had and has taken the one past its limit out of the registry. -/
def expelled (w : World) (r : ContextId) (l : ListenerId) (a : ApplicationId) : World :=
  { w.unhosted r with
    registry := w.registry.erase (w.application a).name, holds := .application a :: .listener l :: w.holds }

/-- A new application is registered and the request has it. Nothing but its name is in its scope, its map is empty, and its time
limit is not reached. -/
structure Founds (w : World) (r : ContextId) (request : Request) (a : ApplicationId) : Prop where
  registered : w.registry.find? request.settings.applicationKey = some a
  spliced : w.splicedApplication r = some a
  seeded : w.scope (w.application a).scope =
    seedApplication request.settings.applicationKey (.new ScopeName.application.key)
  empty : (w.application a).sessions.entries = []
  lasting : (w.application a).isExpiredAt w.clock = false

theorem Filing.nodup (filing : w.Filing) (a : ApplicationId) : (w.application a).sessions.values.Nodup := by
  rw [List.nodup_iff_count_le_one]
  intro s
  rw [Bindings.values, List.count, List.countP_map]
  have single := filing.ids a (w.session s).id
  rw [Bindings.Single, ← List.countP_eq_length_filter] at single
  refine Nat.le_trans (List.countP_mono_left fun entry member here => ?_) single
  have own : entry.2 = s := eq_of_beq here
  rw [BEq.comm, ← own]
  exact (filing.filed a entry member).2.1

/-- What is found for a request that has none is put in before it is started. -/
theorem Offered.taken (offered : w.Offered r settings a) (sane : w.Sane) :
    (w.taken r a).Sane ∧ (w.taken r a).Running r r a := by
  have touches := w.calm_touchApplication a
  obtain ⟨⟨standing, at_, rfl, -⟩, wanted, known, named, usable⟩ := offered.calm sane touches
  obtain ⟨request, there, -⟩ := Option.map_eq_some_iff.mp at_
  have splices := after_spliceApplication (sane.calm touches) at_ known
  obtain ⟨_, _, ran, rfl⟩ := achieves_spliceApplication there a
  rw [After, ran] at splices
  obtain ⟨new, anchored, -⟩ := splices.anchored known wanted named usable
  let change : Application → Application := fun application => { application with starting := true }
  exact ⟨splices.sane.modifyApplication change (fun _ => rfl) a,
    anchored.running.modifyApplication change (fun _ => rfl) a fun _ => rfl⟩

theorem founding_of_seeking (seeking : w.Seeking r settings) (request : Request) : w.founding r request =
    ({ w with holds := .application w.applications.next :: .listener request.listener :: w.holds }.enrolled
      request.settings.applicationKey request.settings).taken r w.applications.next := by
  obtain ⟨standing, at_, -, bare⟩ := seeking
  obtain ⟨held, there, rfl⟩ := Option.map_eq_some_iff.mp at_
  have spliced := (splicedApplication_eq (requestOf_self there)).trans bare
  rw [founding, unhosted, spliced]
  rfl

/-- A request that has no application founds one under a name that is free. -/
theorem Seeking.founds (seeking : w.Seeking r request.settings) (sane : w.Sane)
    (wanted : request.settings.hasApplication = true) (free : w.registry.find? request.settings.applicationKey = none) :
    (w.founding r request).Sane ∧ (w.founding r request).Running r r w.applications.next ∧
      (w.founding r request).Founds r request w.applications.next := by
  let held : World := { w with holds := .application w.applications.next :: .listener request.listener :: w.holds }
  have holds := (w.calm_holds held.holds).keeps sane
  have looked : held.findOrCreateApplication request.settings.applicationKey request.settings = _ :=
    held.findOrCreateApplication_of_vacant request.settings fun a found => by cases free.symm.trans found
  obtain ⟨keeps, offered⟩ := holds.sane.offers (seeking.keeps holds) wanted looked
  obtain ⟨kept, running⟩ := offered.taken keeps.sane
  rw [← founding_of_seeking seeking] at kept running
  have new := application_founding w r request w.applications.next
  rw [if_pos rfl] at new
  obtain ⟨standing, anchored⟩ := running.anchored
  obtain ⟨now, at_, rfl⟩ := Option.map_eq_some_iff.mp anchored.at_
  have spliced := (splicedApplication_eq (requestOf_self at_)).trans anchored.holds
  obtain ⟨contexts, is⟩ := w.founding_eq r request
  refine ⟨kept, running, ?_, spliced, ?_, by rw [new]; rfl, ?_⟩
  · rw [is]
    exact Bindings.find?_insert_self ..
  · rw [new, is]
    exact Table.get_add_next ..
  · rw [new, is]
    exact IdleLimit.exceeded_tick _ ⟨w.clock.nanos + 1⟩

theorem application_founded (issued : a.number < w.applications.size) (l : ListenerId) :
    (w.founded a l).application a = { w.application a with listener := some l, started := true, starting := false } := by
  have kept : a.number < (w.keepListener a l).applications.size := Nat.lt_of_lt_of_eq issued (Table.size_set ..).symm
  have still : a.number < ((w.keepListener a l).applicationStarted a).applications.size :=
    Nat.lt_of_lt_of_eq kept (Table.size_set ..).symm
  rw [founded, leaveApplicationStart, application_modify, if_pos ⟨rfl, still⟩, applicationStarted, application_modify,
    if_pos ⟨rfl, kept⟩, keepListener, application_modify, if_pos ⟨rfl, issued⟩]

end World

def lookUp (fuel : Nat) (r : ContextId) (request : Request) (rounds : Nat) : Action ApplicationId :=
  acquireApplication (hostOf (execute fuel)) r request.settings.applicationKey request.settings request.listener rounds

/-- The round in which the registered application turns out to be past its limit. -/
theorem acquireApplication_expired (registered : w.registry.find? name = some a) (live : (w.application a).isDefunct = false)
    (named : ((w.application a).name == name) = true) (expired : (w.application a).isExpiredAt w.clock = true)
    (below : { w with holds := .application a :: w.holds }.nearest r .server = some server) {report : ShutdownReport}
    (shuts : shutdownApplication host a server { w with
      registry := w.registry.erase (w.application a).name, holds := .application a :: w.holds } = (.ok report, cleared))
    (rounds : Nat) :
    acquireApplication host r name settings l (rounds + 1) w =
      acquireApplication host r name settings l rounds { cleared with holds := w.holds } := by
  let held : World := { w with holds := .application a :: w.holds }
  have found : w.findOrCreateApplication name settings = (a, w) := by
    simp [findOrCreateApplication, registered, live]
  have leaves : held.unregister a = (true, { w with
      registry := w.registry.erase (w.application a).name, holds := .application a :: w.holds }) := by
    have there : held.registry.find? (held.application a).name = some a := (Bindings.find?_congr _ named).trans registered
    rw [unregister, there]
    exact if_pos (beq_self_eq_true _)
  have adopts : adoptApplication host r a l held = (.ok false, cleared) := by
    rw [adoptApplication, bind_apply, get_apply]
    simp only [show (held.application a).isExpiredAt held.clock = true from expired, if_true, bind_apply, modifyGet_apply,
      leaves, show held.nearest r .server = some server from below, shuts]
    rfl
  have holds : holding (.application a) (adoptApplication host r a l) w = (.ok false, { cleared with holds := w.holds }) := by
    change ((adoptApplication host r a l held).1, { (adoptApplication host r a l held).2 with holds := w.holds }) = _
    rw [adopts]
  rw [acquireApplication, bind_apply, modifyGet_apply, found]
  simp only [bind_apply, holds, Bool.false_eq_true, if_false]

/-- The first round ends the application past its limit and leaves its name free. -/
theorem World.Overdue.clears (overdue : w.Overdue r request.settings.applicationKey a) (regular : w.Regular old)
    (grounded : w.Grounded) (asks : w.Asks c r request) (shallow : ∀ hook ∈ [Hook.sessionEnd, .applicationEnd], ∀ f,
      (w.listener ((w.application a).listener.getD silentListener)).hook hook = some f → depthOf (w.function f).body ≤ fuel) :
    ∃ server report cleared closings ended,
      nearest { w.unhosted r with holds := .application a :: .listener request.listener :: w.holds } r .server = some server ∧
      shutdownApplication (hostOf (execute fuel)) a server (w.expelled r request.listener a) = (.ok report, cleared) ∧
      (w.expelled r request.listener a).ClosedDown fuel a closings ended report cleared ∧
      cleared.Sane ∧ cleared.Seeking r request.settings ∧
      cleared.registry.find? request.settings.applicationKey = none ∧ cleared.applications.next = w.applications.next ∧
      ∀ rounds, lookUp fuel r request (rounds + 1) { w.unhosted r with holds := .listener request.listener :: w.holds } =
        lookUp fuel r request rounds { cleared with holds := .listener request.listener :: w.holds } := by
  obtain ⟨contexts, is⟩ := w.unhosted_eq r
  obtain ⟨settles, seeking⟩ := regular.sane.unhosted (request?_of_requestOf asks.found)
  have sane := settles.sane
  obtain ⟨⟨bare, at_⟩, served⟩ := asks.unhosted
  rw [expelled, is]
  rw [is] at sane seeking served at_
  let unhosted : World := { w with contexts }
  let held : World := { unhosted with holds := .application a :: .listener request.listener :: w.holds }
  let out : World := { held with registry := w.registry.erase (w.application a).name }
  have aloft : held.Served r :=
    (served_of_serverOf served).still (issued_of_request at_) (extends_of_contexts rfl) fun _ _ => rfl
  obtain ⟨server, below⟩ := aloft.nearest
  obtain ⟨entry, member, same, rfl⟩ := Bindings.mem_entries_of_find? overdue.registered
  obtain ⟨issued, own⟩ := regular.sane.registered entry member
  have named : ((w.application entry.2).name == request.settings.applicationKey) = true := BEq.trans own same
  have holds := (unhosted.calm_holds held.holds).keeps sane
  have leaves : held.Keeps out := holds.sane.keeps_erase _
  have prepares : w.Prepares out := ⟨rfl, rfl, rfl⟩
  have touches : ∀ step : LifecycleStep, step.isTouch = true → step.isOfEnd (w.application entry.2).name = true := by
    intro step touch
    cases step <;> first | rfl | cases touch
  have admits : ∀ hook ∈ [Hook.sessionEnd, .applicationEnd], out.Admits False
      (LifecycleStep.isOfEnd (w.application entry.2).name) fuel ((w.application entry.2).listener.getD silentListener) hook :=
    fun hook ends => (regular.sane.admits grounded touches _ hook fun f hooked =>
      .inl (shallow hook ends f hooked)).carries prepares.carries
  have live := overdue.live
  rw [Application.isDefunct, Bool.or_eq_false_iff] at live
  have shuts : (shutdownApplication (hostOf (execute fuel)) entry.2 server).Achieves out _ :=
    achieves_shutdownApplication_closes (w := out) (regular.inOrder.nodup entry.2) (admits .sessionEnd (by simp))
      (admits .applicationEnd (by simp)) issued (regular.sane.named entry.2 issued) live.2
  obtain ⟨report, cleared, ran, closings, ended, closed⟩ := shuts
  have after := after_shutdownApplication_keeps (serene_execute fuel) leaves.sane issued server
  rw [After, ran] at after
  have keeps := (holds.trans leaves).trans after
  have free : cleared.registry.find? request.settings.applicationKey = none := by
    rw [closed.registry, ← Bindings.find?_congr _ named]
    exact (regular.inOrder.names _).find?_erase
  refine ⟨server, report, cleared, closings, ended, below, ran, closed, keeps.sane, seeking.keeps keeps, free,
    congrArg Id.mk closed.size, fun rounds => ?_⟩
  let looking : World := { unhosted with holds := .listener request.listener :: w.holds }
  exact acquireApplication_expired (w := looking) overdue.registered overdue.live named overdue.expired below ran rounds

/-- The round after it founds a new application. -/
theorem lookUp_founds (seeking : cleared.Seeking r request.settings)
    (free : cleared.registry.find? request.settings.applicationKey = none) (holds : List Hold)
    (called : attempt (callHook (hostOf (execute fuel)) request.listener .applicationStart r [])
      (founding { cleared with holds } r request) = (.ok outcome, hooked))
    (proceeds : refusal .applicationStart outcome = none) (rounds : Nat) :
    lookUp fuel r request (rounds + 1) { cleared with holds := .listener request.listener :: holds } =
      (.ok cleared.applications.next, { hooked.founded cleared.applications.next request.listener with
        holds := .listener request.listener :: holds }) := by
  have looks : World.Seeking { cleared with holds } r request.settings := seeking
  obtain ⟨standing, at_, -⟩ := seeking
  obtain ⟨held, there, -⟩ := Option.map_eq_some_iff.mp at_
  rw [founding_of_seeking looks] at called
  let vacated : World := { cleared with holds := .listener request.listener :: holds }
  have verdict := acquireApplication_verdict (w := vacated) there (fun b found => by cases free.symm.trans found)
    request.settings called rounds
  simp only [Verdict, proceeds] at verdict
  exact verdict

/-- An application past its time limit is shut down by the next request for its name, which gets a new one. -/
theorem expired_application_is_replaced (fuel : Nat) (start w : World) (occurrences : List Occurrence) (unfiled : start.Unfiled)
    (ran : Occurrence.runAll (hostOf (execute fuel)) start occurrences = some w) (c r : ContextId) (request : Request)
    (asks : w.Asks c r request) (a : ApplicationId) (overdue : w.Overdue r request.settings.applicationKey a)
    (shallow : ∀ hook ∈ [Hook.sessionEnd, .applicationEnd], ∀ f,
      (w.listener ((w.application a).listener.getD silentListener)).hook hook = some f → depthOf (w.function f).body ≤ fuel) :
    ∃ server report cleared closings ended ready new,
      nearest { w.unhosted r with holds := .application a :: .listener request.listener :: w.holds } r .server = some server ∧
      shutdownApplication (hostOf (execute fuel)) a server (w.expelled r request.listener a) = (.ok report, cleared) ∧
      (w.expelled r request.listener a).ClosedDown fuel a closings ended report cleared ∧
      ready = founding { cleared with holds := w.holds } r request ∧ new = cleared.applications.next ∧ new ≠ a ∧
      ready.Founds r request new ∧
      ∀ outcome hooked,
        attempt (callHook (hostOf (execute fuel)) request.listener .applicationStart r []) ready = (.ok outcome, hooked) →
        refusal .applicationStart outcome = none →
        (∀ rounds, (lookUp fuel r request (rounds + 2)
          { w.unhosted r with holds := .listener request.listener :: w.holds }).1 = .ok new) ∧
        ∃ later, later = { hooked.founded new request.listener with holds := w.holds } ∧
          ensureApplication (hostOf (execute fuel)) c w = (.ok (some new), later) ∧
          Calling (hostOf (execute fuel)) (fun _ _ => True) w ((w.expelled r request.listener a).endCalls a closings ended ++
            [⟨request.listener, .applicationStart, r, [], outcome⟩]) later ∧
          later.registry.find? request.settings.applicationKey = some new ∧ later.Running c r new ∧
          (later.application new).started = true ∧ (later.application new).sessions = (hooked.application new).sessions ∧
          ((∀ t : Instant, cleared.clock.nanos ≤ t.nanos → t.nanos ≤ later.clock.nanos →
              (ready.application new).timeout.exceeded t.millis later.clock.millis = false) →
            (later.application new).isExpiredAt later.clock = false) := by
  obtain ⟨regular, grounded⟩ := Occurrence.regular_runAll fuel unfiled.regular unfiled.grounded occurrences ran
  obtain ⟨server, report, cleared, closings, ended, below, shuts, closed, sane, seeking, free, next, again⟩ :=
    overdue.clears regular grounded asks shallow
  obtain ⟨entry, member, -, rfl⟩ := Bindings.mem_entries_of_find? overdue.registered
  let plain : World := { cleared with holds := w.holds }
  have holds := (cleared.calm_holds w.holds).keeps sane
  have looks : plain.Seeking r request.settings := seeking.keeps holds
  obtain ⟨readySane, running, founds⟩ := looks.founds holds.sane asks.wanted free
  have other : plain.applications.next ≠ entry.2 := by
    rw [show plain.applications.next = w.applications.next from next]
    intro same
    exact Nat.ne_of_gt (regular.sane.registered entry member).1 (congrArg Id.number same)
  obtain ⟨contexts, is⟩ := plain.founding_eq r request
  refine ⟨server, report, cleared, closings, ended, plain.founding r request, plain.applications.next, below, shuts, closed, rfl,
    rfl, other, founds, fun outcome hooked called proceeds => ?_⟩
  have acquires : ∀ rounds, lookUp fuel r request (rounds + 2) _ = _ := fun rounds =>
    (again (rounds + 1)).trans (lookUp_founds seeking free w.holds called proceeds rounds)
  let later : World := { hooked.founded plain.applications.next request.listener with holds := w.holds }
  have ensures : ensureApplication (hostOf (execute fuel)) c w = (.ok (some plain.applications.next), later) :=
    ensureApplication_acquires asks overdue.lacks (acquires 999998)
  have calm : (plain.founding r request).Calm hooked := by
    have after := serene_callHook (serene_execute fuel) request.listener .applicationStart [] r _ ⟨readySane, running⟩
    have attempts : (attempt (callHook (hostOf (execute fuel)) request.listener .applicationStart r [])).After
      (plain.founding r request) (fun _ => (plain.founding r request).Calm) (fun _ _ => True) := (after_attempt _).mpr after
    rwa [After, called] at attempts
  have known : plain.applications.next.number < hooked.applications.size := by
    rw [calm.applications, size_founding]
    exact Nat.lt_succ_self _
  have row : later.application plain.applications.next = _ := application_founded known request.listener
  refine ⟨fun rounds => by rw [acquires], later, rfl, ensures, ?_, ?_, ?_, congrArg Application.started row, by rw [row],
    fun brief => ?_⟩
  · -- nothing is run between the hooks
    obtain ⟨bare, unhosted⟩ := w.unhosted_eq r
    have expels : w.Prepares (w.expelled r request.listener entry.2) := by
      rw [expelled, unhosted]
      exact ⟨rfl, rfl, rfl⟩
    have prepares : cleared.Prepares (plain.founding r request) := by
      rw [is]
      exact ⟨rfl, rfl, rfl⟩
    have settles : hooked.Prepares later := ⟨rfl, rfl, rfl⟩
    refine .prepare expels ((closed.calls.mono fun _ _ _ => trivial).trans (.prepare prepares ?_))
    exact .call trivial called (.prepare settles (.done later))
  · rw [show later.registry = _ from calm.registry]
    exact founds.registered
  · have settles := after_ensureApplication_settles (serene_execute fuel) regular.sane c
    rw [After, ensures] at settles
    obtain ⟨moves, runs⟩ := settles
    obtain ⟨place, serving⟩ := runs _ rfl
    have home : w.home c = some r := by rw [home, asks.found]; rfl
    rw [← moves.extends_.home (issued_of_home home), serving.home] at home
    cases home
    exact serving
  · have new := plain.application_founding r request plain.applications.next
    rw [if_pos rfl] at new
    have created : (plain.founding r request).clock.nanos = cleared.clock.nanos + 1 + 1 := by rw [is]
    have passed := calm.ages.clock
    have unexceeded : (hooked.application plain.applications.next).isExpiredAt hooked.clock = false := by
      rw [Application.isExpiredAt, calm.ages.limit]
      rcases calm.ages.visit plain.applications.next with unvisited | ⟨t, after, before, visited⟩
      · rw [unvisited]
        have access : ((plain.founding r request).application plain.applications.next).lastAccess =
            (Instant.mk (cleared.clock.nanos + 1)).millis := by rw [new]
        have inside : (Instant.mk (cleared.clock.nanos + 1)).nanos ≤ hooked.clock.nanos := by
          simp only
          omega
        rw [access]
        exact brief _ (Int.le_add_of_nonneg_right (by decide)) inside
      · rw [visited]
        exact brief t (by omega) before
    rw [Application.isExpiredAt, row]
    exact unexceeded

/-- An application with a session is past its limit when the second request comes. -/
def lapsed : List Occurrence :=
  [.performed (.newRequest ⟨0⟩),
    .performed (.updateSettings ⟨1⟩ { name := "shop", sessionManagement := true, applicationTimeout := 1 }),
    .performed (.touchSession ⟨1⟩), .performed (.wait 2000), .performed (.newRequest ⟨0⟩)]

def countHits : Script.Body := [.mk (.scope (.put (.nearby ScopeName.application.key) .hits (.integer 1))) false]

def lateShop : World := (Occurrence.runAll (hostOf (execute 3)) (staffed (fun _ => true) countHits) lapsed).getD default

def lateVisitor : Request :=
  { vars := ⟨8⟩, scope := ⟨9⟩, listener := ⟨1⟩, settings := { name := "shop", sessionManagement := true } }

def lateClosing : World :=
  (shutdownApplication (hostOf (execute 3)) ⟨0⟩ ⟨0⟩ (lateShop.expelled ⟨6⟩ lateVisitor.listener ⟨0⟩)).2

/-- The end hooks of the session and of the application are called, and then the start hook of the new application. -/
theorem expired_application_is_replaced_shop :
    Occurrence.runAll (hostOf (execute 3)) (staffed (fun _ => true) countHits) lapsed = some lateShop ∧
    lateShop.Asks ⟨6⟩ ⟨6⟩ lateVisitor ∧ lateShop.Overdue ⟨6⟩ lateVisitor.settings.applicationKey ⟨0⟩ ∧
    ∃ (report : ShutdownReport) (closings : List Closing) (ended : Option (Except Error Value)) (outcome : Except Error Value)
        (later : World),
      (lateShop.expelled ⟨6⟩ lateVisitor.listener ⟨0⟩).ClosedDown 3 ⟨0⟩ closings ended report lateClosing ∧
      closings.map (·.outcome.isSome) = [true] ∧ ended.isSome = true ∧
      ensureApplication (hostOf (execute 3)) ⟨6⟩ lateShop = (.ok (some ⟨1⟩), later) ∧
      Calling (hostOf (execute 3)) (fun _ _ => True) lateShop ((lateShop.expelled ⟨6⟩ lateVisitor.listener ⟨0⟩).endCalls ⟨0⟩
        closings ended ++ [⟨lateVisitor.listener, .applicationStart, ⟨6⟩, [], outcome⟩]) later := by
  have ends : (Occurrence.runAll (hostOf (execute 3)) (staffed (fun _ => true) countHits) lapsed).isSome = true := by
    decide +kernel
  have ran : Occurrence.runAll (hostOf (execute 3)) (staffed (fun _ => true) countHits) lapsed = some lateShop := by
    obtain ⟨w, ran⟩ := Option.isSome_iff_exists.mp ends
    rw [lateShop, ran, Option.getD_some]
  have found : lateShop.requestOf ⟨6⟩ = some (⟨6⟩, lateVisitor) := by decide +kernel
  have asks : lateShop.Asks ⟨6⟩ ⟨6⟩ lateVisitor := ⟨found, by decide +kernel, by decide +kernel, by decide +kernel⟩
  have bare : lateShop.splicedApplication ⟨6⟩ = none := by decide +kernel
  have overdue : lateShop.Overdue ⟨6⟩ lateVisitor.settings.applicationKey ⟨0⟩ :=
    ⟨by decide +kernel, by decide +kernel, by decide +kernel, fun b there => by cases bare.symm.trans there⟩
  obtain ⟨server, report, cleared, closings, ended, ready, new, below, shuts, closed, rfl, rfl, -, -, replaces⟩ :=
    expired_application_is_replaced 3 _ lateShop lapsed (unfiled_shop (by decide)) ran ⟨6⟩ ⟨6⟩ lateVisitor asks ⟨0⟩ overdue
      fun hook ends f hooked => by
        have same : (lateShop.listener ((lateShop.application ⟨0⟩).listener.getD silentListener)).hook hook = some ⟨0⟩ := by
          cases hook <;> decide +kernel
        cases same.symm.trans hooked
        decide +kernel
  have only_ : nearest { lateShop.unhosted ⟨6⟩ with
      holds := .application ⟨0⟩ :: .listener lateVisitor.listener :: lateShop.holds } ⟨6⟩ .server = some ⟨0⟩ := by
    decide +kernel
  cases only_.symm.trans below
  obtain rfl : lateClosing = cleared := congrArg Prod.snd shuts
  have new : lateClosing.applications.next = ⟨1⟩ := by decide +kernel
  have opens : (attempt (callHook (hostOf (execute 3)) lateVisitor.listener .applicationStart ⟨6⟩ [])
      (founding { lateClosing with holds := lateShop.holds } ⟨6⟩ lateVisitor)).1.toOption.map
        (fun outcome => (refusal .applicationStart outcome).isNone) = some true := by
    decide +kernel
  rcases called : attempt (callHook (hostOf (execute 3)) lateVisitor.listener .applicationStart ⟨6⟩ [])
    (founding { lateClosing with holds := lateShop.holds } ⟨6⟩ lateVisitor) with ⟨result, hooked⟩
  rw [called] at opens
  cases result with
  | error => cases opens
  | ok outcome =>
    obtain ⟨-, later, -, ensures, calls, -⟩ :=
      replaces outcome hooked called (Option.isNone_iff_eq_none.mp (Option.some.inj opens))
    rw [new] at ensures
    refine ⟨ran, asks, overdue, report, closings, ended, outcome, later, closed, ?_, ?_, ensures, calls⟩
    · have one : closings.map (·.session) = [⟨0⟩] := closed.sessions.trans (by decide +kernel)
      obtain ⟨closing, rfl, same⟩ := List.map_eq_singleton_iff.mp one
      have due := closed.once closing (List.mem_singleton_self _)
      rw [same] at due
      rw [List.map_singleton, due]
      decide +kernel
    · rw [closed.due]
      decide +kernel

def readSession : Script.Body := [.mk (.scope (.read (.nearby ScopeName.session.key) .hits)) false]

/-- A start hook that reads the scope of its session leaves a session in the map of the new application. -/
theorem replacement_has_session :
    (Occurrence.runAll (hostOf (execute 3)) (shop readSession) (lapsed ++ [.performed (.touchApplication ⟨5⟩)])).map (fun w =>
      (w.registry.values, (w.application ⟨0⟩).shutDown, (w.application ⟨1⟩).sessions.values)) =
      some ([⟨1⟩], true, [⟨1⟩]) := by
  decide +kernel

end ScopeEngine
