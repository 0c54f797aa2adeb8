import ScopeEngine.Proofs.Rotation.Transfer

/-! Rotating a session: the request goes on under a new id, with all its data and what the start hook of the new session puts
there, and the old session is ended. -/

namespace ScopeEngine

open ScopeEngine.Action Script

variable {w later : World} {c r : ContextId} {request : Request} {a : ApplicationId}

def putStep (key : Key) (text : String) : Step :=
  .mk (.scope (.put (.nearby ScopeName.session.key) key (.string text))) false

/-- What is written when texts are put into the scope of a session at certain times: every put is a visit. -/
def recorded : List (Key × String) → List Instant → List (Key × Value)
  | (key, text) :: puts, time :: times => (.lastVisit, .dateTime time) :: (key, .string text) :: recorded puts times
  | _, _ => []

namespace World

theorem nodeApplication_congr (contexts : later.contexts = w.contexts) (node : ContextId) :
    later.nodeApplication node = w.nodeApplication node := by
  simp only [nodeApplication, context, contexts]

theorem nodeApplication_held (w : World) (a : ApplicationId) (holds : List Hold) (node : ContextId) :
    { w.touchApplication a with holds }.nodeApplication node = w.nodeApplication node := rfl

theorem nodeApplication_withSession {node : ContextId} (inside : node.number < w.contexts.size) (r : ContextId)
    (a : ApplicationId) (id : Key) : (w.withSession r a id).nodeApplication node = w.nodeApplication node := by
  let made := (w.insertSession a id none).2
  have inside : node.number < made.contexts.size := inside
  have marks : (w.withSession r a id).nodeApplication node = (made.joined r w.sessions.next).nodeApplication node := rfl
  have noded : (made.addNode (.session w.sessions.next)).2.nodeApplication node = made.nodeApplication node := by
    rw [nodeApplication, addNode, context_addContext_of_lt _ _ inside, nodeApplication]
  rw [marks, joined, nodeApplication_modifyRequest, noded]
  exact nodeApplication_congr rfl node

namespace Current

variable {old : SessionId} (current : w.Current c r request a old)
include current

theorem node_issued {node : ContextId} (there : request.applicationNode = some node) :
    w.nodeApplication node = some a ∧ node.number < w.contexts.size := by
  have stands := current.anchored.holds
  rw [standingOf, there] at stands
  exact ⟨stands, issued_of_node stands⟩

theorem nodeApplication_readyToStart {node : ContextId} (issued : node.number < w.contexts.size) :
    (w.readyToStart r a old request.listener).nodeApplication node = w.nodeApplication node := by
  let holds := .listener request.listener :: .application a :: (w.cleared r a old).holds
  have inside := Nat.lt_of_lt_of_eq issued (current.cleared_held holds).contexts.symm
  rw [readyToStart, nodeApplication_withSession inside, nodeApplication_held, World.cleared, switched,
    nodeApplication_modifyRequest, nodeApplication_modifyRequest,
    nodeApplication_congr (w.visits_prepared a old).contexts_eq]

end Current

def endListener (w : World) (a : ApplicationId) (request : Request) : ListenerId :=
  (w.application a).listener.getD request.listener

/-- What a rotation leaves: the request works with the new session, which has the data of the old one, and the old one is
gone. -/
structure Rotated (w : World) (c : ContextId) (request : Request) (a : ApplicationId) (old : SessionId)
    (written : List (Key × Value)) (started : World) (fresh : SessionId) (later : World) : Prop where
  new : ((w.session old).id == w.nextId) = false
  id : (later.session fresh).id = w.nextId
  scope : (later.session fresh).scope = w.scopes.next
  pointed : later.sessionIdAt c = some w.nextId
  spliced : later.splicedSession c = some fresh
  stored : (later.application a).sessions.find? w.nextId = some fresh
  keys : (later.scope w.scopes.next).keys = seededKeys ++ Bindings.newKeys seededKeys written ++
    (w.scope (w.session old).scope).keys.filter fun key => !(seededKeys ++ written.map (·.1)).any (· == key)
  transferred : ∃ created image, w.Transferred a old (w.present a written created started.clock) image started later
  dropped : (later.application a).sessions.find? (w.session old).id = none
  ended : (later.session old).shutDown = true
  ran : ∃ events, later.journal = started.journal ++ events ∧ started.Ran (w.endListener a request) .sessionEnd events

/-- The world in which a rotation retires the old session: the new one has taken its bindings over and its place in the map. -/
def handedOver (w : World) (a : ApplicationId) (old : SessionId) (started : World) : World :=
  ((inherit w.scopes.next ((w.poised a started).scope (w.session old).scope).bindings.entries
    [((w.session old).scope, w.scopes.next)] (w.poised a started)).2.takeSession a (w.session old).id).2

variable {started : World} {old : SessionId}

theorem Visits.running (visits : w.Visits later) (running : w.Running c r a) : later.Running c r a := by
  obtain ⟨standing, anchored⟩ := running.anchored
  have application := visits.application a anchored.issued
  refine ⟨?_, ?_, standing, ?_⟩
  · rw [visits.contexts_eq]
    exact running.issued
  · rw [visits.extends_.home running.issued, running.home]
  · refine { anchored with at_ := ?_, issued := ?_, named := ?_, usable := ?_ }
    · rw [standing_congr visits.contexts_eq]
      exact anchored.at_
    · rw [visits.applications_size]
      exact anchored.issued
    · rw [application]
      exact anchored.named
    · rw [application]
      exact anchored.usable

theorem drawSessionId_touched (w : World) (a : ApplicationId) (old : SessionId) :
    { (w.touched a old).touchApplication a with
      holds := .application a :: ((w.touched a old).touchApplication a).holds }.drawSessionId =
        (w.nextId, w.prepared a old) := by
  have same : (w.touched a old).drawn = w.drawn ∧ (w.touched a old).holds = w.holds := by
    simp only [touched, touchSession]
    split <;> exact ⟨rfl, rfl⟩
  have drawn : ((w.touched a old).touchApplication a).drawn = w.drawn := same.1
  have holds : ((w.touched a old).touchApplication a).holds = w.holds := same.2
  simp only [drawSessionId, drawn, holds, nextId, prepared]

section

variable (opened : w.Opened r request a old later) (current : w.Current c r request a old)
  (unbound : (w.application a).sessions.find? w.nextId = none)
include opened current unbound

theorem Opened.dropSession : (later.dropSession a old).2 = (later.takeSession a (w.session old).id).2 := by
  obtain ⟨time, application⟩ := opened.application
  obtain ⟨visit, session⟩ := opened.old
  have different : (w.nextId == (w.session old).id) = false := by
    rw [BEq.comm]
    exact current.other unbound
  have id : (later.session old).id = (w.session old).id := by rw [session]
  have stored : (later.application a).sessions.find? (w.session old).id = some old := by
    rw [application, Bindings.find?_insert, different]
    exact current.stored
  simp only [World.dropSession, id, stored, BEq.rfl, if_true]

theorem Opened.maps : ((later.takeSession a (w.session old).id).2.application a).sessions.find? w.nextId =
      some w.sessions.next ∧
    ((later.takeSession a (w.session old).id).2.application a).sessions.find? (w.session old).id = none := by
  obtain ⟨time, application⟩ := opened.application
  have known : a.number < later.applications.size := Nat.lt_of_lt_of_le current.anchored.issued opened.applications
  rw [sessions_takeSession, if_pos ⟨rfl, known⟩, application]
  constructor
  · rw [Bindings.find?_erase_of_ne _ (current.other unbound), Bindings.find?_insert_self]
  · exact (current.single.insert _ _).find?_erase

end

variable {run : Executor} {written : List (Key × Value)} {mid last : World} {created : Instant} {copies : Copies}

section

variable {source target : ScopeId} {done : List (Key × Value)} (inherits : w.Inheriting source target done copies later)
include done inherits

theorem Inheriting.respects : w.Respects later :=
  respects_of_same (by rw [inherits.elsewhere]) (by rw [inherits.elsewhere]) (by rw [inherits.elsewhere]) inherits.more

theorem Inheriting.prepares : w.Prepares later := by
  refine ⟨?_, ?_, ?_⟩ <;> rw [inherits.elsewhere]

end

theorem prepares_poised (w : World) (a : ApplicationId) (started : World) : started.Prepares (w.poised a started) := by
  let marked := (started.sessionStarted w.sessions.next).leaveSessionStart w.sessions.next
  have marks : started.Prepares marked := ⟨rfl, rfl, rfl⟩
  have settles := marks.trans (marked.visits_touchSession w.sessions.next).prepares
  exact ⟨settles.functions, settles.listeners, settles.journal⟩

/-- The old session was taken out of the map and ended after its bindings were taken over. -/
theorem rotated_of_retired (current : w.Current c r request a old)
    (unbound : (w.application a).sessions.find? w.nextId = none) (opened : w.Opened r request a old mid)
    (transferred : w.Transferred a old (w.present a written created started.clock) copies.image started mid)
    (prepares : started.Prepares mid) (started_scopes : w.scopes.size < started.scopes.size)
    (retired : (mid.takeSession a (w.session old).id).2.Retired old (w.endListener a request) w.scopes.size last) :
    w.Rotated c request a old written started w.sessions.next last := by
  let taken := (mid.takeSession a (w.session old).id).2
  let ended := (taken.endSession old).2
  have respects : ended.Respects last := retired.respects
  have other : old ≠ w.sessions.next := by
    intro same
    have issued := current.issued
    rw [same] at issued
    exact Nat.lt_irrefl _ issued
  have sessions : ended.sessions.size = mid.sessions.size := Table.size_set ..
  have applications : ended.applications.size = mid.applications.size := Table.size_set ..
  have known : old.number < mid.sessions.size := Nat.lt_trans current.issued opened.sessions
  have fresh : ended.session w.sessions.next = mid.session w.sessions.next :=
    (session_modify taken old _ _).trans (if_neg fun both => other both.1)
  have fresh_last := respects.session w.sessions.next (by rw [sessions]; exact opened.sessions)
  have old_ended : (ended.session old).shutDown = true := shutDown_endSession (w := taken) known
  have old_last := respects.session old (by rw [sessions]; exact known)
  have application := respects.application a
    (by rw [applications]; exact Nat.lt_of_lt_of_le current.anchored.issued opened.applications)
  have maps := opened.maps current unbound
  -- The request is found again, with its new node.
  have closed : mid.Extends ended := extends_of_contexts rfl
  have extends_ := (opened.extends_.trans closed).trans respects.extends_
  have home : last.home c = some r := by
    rw [extends_.home (issued_of_home current.home), current.home]
  obtain ⟨found, asks, there⟩ := requestOf_home home
  have pointed := respects.at_ (w := ended) opened.pointed
  cases there.symm.trans pointed
  have node : (last.context w.contexts.next).kind = .session w.sessions.next :=
    (respects.kind _ opened.contexts).trans opened.node
  -- The end hook leaves the new scopes alone.
  have scope : ∀ t : ScopeId, w.scopes.size ≤ t.number → t.number < mid.scopes.size → last.scope t = mid.scope t :=
    retired.scope
  have moved : w.Transferred a old (w.present a written created started.clock) copies.image started last := {
    transferred with
    made := fun t leads different => by
      have made := transferred.made t leads different
      exact ⟨made.1, Nat.lt_of_lt_of_le made.2 respects.scopes⟩
    mirrors := fun t leads different => by
      have made := transferred.made t leads different
      rw [scope _ (Nat.le_trans (Nat.le_of_lt started_scopes) made.1) made.2]
      exact transferred.mirrors t leads different
    entries := by
      rw [scope w.scopes.next (Nat.le_refl _) opened.scopes]
      exact transferred.entries }
  refine {
    new := current.other unbound
    id := by rw [fresh_last, fresh]; exact opened.id
    scope := by rw [fresh_last, fresh]; exact opened.scope
    pointed := by simp [sessionIdAt, asks]
    spliced := by
      have place : last.nodeSession w.contexts.next = some w.sessions.next := by rw [nodeSession, node]
      rw [splicedSession_eq asks]
      exact (congrArg Standing.session (last.standingOf_splice_session request _)).trans place
    stored := by rw [application]; exact maps.1
    keys := moved.keys
    transferred := ⟨created, copies.image, moved⟩
    dropped := by rw [application]; exact maps.2
    ended := by rw [old_last]; exact old_ended
    ran := ?_ }
  obtain ⟨events, noted, once⟩ := retired.ran
  have same : started.Prepares taken := prepares.trans ⟨rfl, rfl, rfl⟩
  exact ⟨events, noted.trans (congrArg (· ++ events) same.journal), (same.ran ..).mp once⟩

end World

section

variable {started : World} {old : SessionId} {run : Executor} {written : List (Key × Value)}
  (current : w.Current c r request a old) (unbound : (w.application a).sessions.find? w.nextId = none)
  (housed : ∀ t, w.Reaches (w.session old).scope t → t.number < w.scopes.size)
  (single : ∀ key, (w.scope (w.session old).scope).bindings.Single key)
  (starts : (hostOf run).Starts w r request a old written started)
  (spares : (hostOf run).Spares (w.handedOver a old started) c a old w.scopes.size)
include current unbound housed single starts spares

/-- From the start of the new session on, a rotation takes the bindings over and gets rid of the old session. -/
theorem achieves_handOver : Achieves (do
      inherit w.scopes.next ((w.poised a started).scope (w.session old).scope).bindings.entries
        [((w.session old).scope, w.scopes.next)]
      let _ ← modifyGet (·.dropSession a old)
      retireSession (hostOf run) c a old) (w.poised a started) fun _ last =>
    ∀ holds, w.Rotated c request a old written started w.sessions.next { last with holds } := by
  obtain ⟨created, scopes⟩ := current.scopes_readyToStart
  rw [achieves_bind]
  obtain ⟨_, mid, ran, copies, inherits⟩ := (World.takes_poised current starts scopes housed).inherit
  refine ⟨_, mid, ran, ?_⟩
  dsimp only
  have opened := (World.opened_poised current starts).respects current.anchored.issued current.issued inherits.respects
  have prepares := (w.prepares_poised a started).trans inherits.prepares
  let taken := (mid.takeSession a (w.session old).id).2
  have hands : w.handedOver a old started = taken := by rw [World.handedOver, ran]
  rw [hands] at spares
  obtain ⟨visit, session⟩ := opened.old
  obtain ⟨time, application⟩ := opened.application
  have session : taken.session old = { w.session old with lastVisit := visit } := session
  have listener : (taken.application a).listener = (w.application a).listener := by
    rw [World.listener_takeSession, application]
  have asks : taken.listenerAt c = request.listener := by
    have extends_ : w.Extends taken := opened.extends_.trans (World.extends_of_contexts rfl)
    have home : taken.home c = some r := by rw [extends_.home (World.issued_of_home current.home), current.home]
    obtain ⟨found, asks, there⟩ := World.requestOf_home home
    cases there.symm.trans opened.pointed
    simp only [World.listenerAt, asks]
    rfl
  have keeper : taken.keeper c a = w.endListener a request := by rw [World.keeper, listener, asks, World.endListener]
  have live := current.live
  simp only [Session.isDefunctAt, Bool.or_eq_false_iff] at live
  rw [achieves_bind, achieves_modifyGet, opened.dropSession current unbound]
  have retires := achieves_retireSession (w := taken) (Nat.lt_trans current.issued opened.sessions)
    (by rw [session]; exact current.started) (by rw [session]; exact live.1.1) spares
  rw [keeper] at retires
  refine retires.mono fun _ last retired holds => ?_
  exact World.rotated_of_retired current unbound opened (inherits.transferred current starts scopes housed single) prepares
    (World.opened_started current starts).scopes (retired.release holds)

/-- A rotation moves a session to a new id. -/
theorem rotateSession_moves_session :
    (rotateSession (hostOf run) c).Achieves w fun fresh later => w.Rotated c request a old written started fresh later := by
  have patient : 0 < (hostOf run).patience := Nat.succ_pos 999999
  have running := (w.visits_touched a old).running current.running
  obtain ⟨value, ran, lets⟩ := starts.ran
  have opened := World.opened_poised current starts
  obtain ⟨visit, session⟩ := opened.old
  simp only [rotateSession, achieves_bind]
  refine (achieves_ensureSession_finds current.toFinds patient).mono ?_
  rintro _ _ ⟨rfl, rfl⟩
  simp only [orSessionsDisabled, achieves_pure]
  refine (achieves_ensureApplication running).mono ?_
  rintro _ _ ⟨rfl, rfl⟩
  simp only [achieves_pure, achieves_holding, achieves_bind, achieves_modifyGet, World.drawSessionId_touched]
  refine (achieves_initializeSession current unbound ran lets patient).mono ?_
  rintro _ _ ⟨rfl, rfl⟩
  have moves := achieves_handOver current unbound housed single starts spares
  simp only [achieves_bind, achieves_modifyGet] at moves
  simp only [achieves_get, opened.scope, session]
  exact moves.mono fun _ _ rest => rest.mono fun _ _ rotated => rotated _

end

def client : Request := {
  vars := ⟨2⟩, scope := ⟨3⟩, settings := { name := "shop", sessionManagement := true }, listener := ⟨0⟩
  ancestors := Ancestors.inject (Ancestors.push .empty (.application ⟨2⟩) nofun) (.session ⟨3⟩), sessionId := some (.of "alice") }

def greeting : List (Key × String) := [(.of "theme", "light"), (.lastVisit, "never")]

/-- A client whose session holds itself and twice one struct that leads back to it. The start hook of the shop puts a theme
and a last visit into a new session, and its end hook counts in the scope of the application. -/
def signedIn : World :=
  let hook (name : String) (body : Body) : Function := {
    name := .of name, kind := .plain, access := .exposed, params := [], body, source := none, frame := none,
    component := none }
  { scopes := ⟨#[
      { World.sessionScope (.of "alice") (.of "shop") default with
        bindings := (World.sessionScope (.of "alice") (.of "shop") default).bindings.insertAll [
          (.of "theme", .string "dark"), (.of "me", .struct ⟨0⟩), (.of "left", .struct ⟨1⟩), (.of "right", .struct ⟨1⟩)] },
      { Scope.new (.of "shared") with bindings := ⟨[(.of "up", .struct ⟨0⟩)]⟩ },
      .new ScopeName.vars.key, .new ScopeName.request.key, .new ScopeName.application.key]⟩
    functions := ⟨#[hook "start" (greeting.map fun put => putStep put.1 put.2), hook "end" [
      .mk (.scope (.put (.nearby ScopeName.application.key) .hits (.integer 1))) false]]⟩
    contexts := ⟨#[
      { parent := none, kind := .server default }, { parent := some ⟨0⟩, kind := .request client },
      { parent := none, kind := .application ⟨0⟩ }, { parent := none, kind := .session ⟨0⟩ }]⟩
    listeners := ⟨#[⟨"shop", none, fun
      | .sessionStart => some ⟨0⟩
      | .sessionEnd => some ⟨1⟩
      | _ => none⟩]⟩
    applications := ⟨#[{
      name := .of "shop", scope := ⟨4⟩, sessions := ⟨[(.of "alice", ⟨0⟩)]⟩, started := true, listener := some ⟨0⟩
      created := default, lastAccess := 0, timeout := 0, sessionTimeout := 0 }]⟩
    sessions := ⟨#[{
      id := .of "alice", application := .of "shop", scope := ⟨0⟩, started := true, created := default, lastVisit := 0
      timeout := 0 }]⟩ }

theorem current_signedIn : signedIn.Current ⟨1⟩ ⟨1⟩ client ⟨0⟩ ⟨0⟩ where
  home := World.home_self (show signedIn.standing ⟨1⟩ = some (signedIn.standingOf client) from rfl)
  at_ := rfl
  anchored := ⟨rfl, rfl, by decide, by decide +kernel, by decide +kernel, .inr rfl⟩
  usable := rfl
  managed := rfl
  spliced := rfl
  identified := ⟨.of "alice", rfl, by decide +kernel⟩
  belongs := by decide +kernel
  live := rfl
  issued := by decide
  started := rfl
  stored := by unfold World.Stored; decide +kernel
  single := by unfold Bindings.Single; decide +kernel

theorem housed_signedIn : ∀ t, signedIn.Reaches ⟨0⟩ t → t.number < signedIn.scopes.size :=
  World.housed_of_closed (by decide) (by decide +kernel)

abbrev greeted : World := (callHook (hostOf (execute 1)) ⟨0⟩ .sessionStart ⟨1⟩ [] (signedIn.readyToStart ⟨1⟩ ⟨0⟩ ⟨0⟩ ⟨0⟩)).2

def handedIn : World := signedIn.handedOver ⟨0⟩ ⟨0⟩ greeted

theorem spares_signedIn : (hostOf (execute 1)).Spares handedIn ⟨1⟩ ⟨0⟩ ⟨0⟩ 5 := by
  have hooked : (handedIn.listener (handedIn.keeper ⟨1⟩ ⟨0⟩)).hook .sessionEnd = some ⟨1⟩ := by decide +kernel
  have free : (handedIn.function ⟨1⟩).params = [] := List.isEmpty_iff.mp (by decide +kernel)
  have size : handedIn.scopes.size = 9 := by decide +kernel
  have ends : (callHook (hostOf (execute 1)) (handedIn.keeper ⟨1⟩ ⟨0⟩) .sessionEnd (handedIn.retiring ⟨1⟩ ⟨0⟩ ⟨0⟩).1
      [.struct (handedIn.session ⟨0⟩).scope, .struct (handedIn.application ⟨0⟩).scope]).Achieves
        (handedIn.retiring ⟨1⟩ ⟨0⟩ ⟨0⟩).2 fun _ ended => (handedIn.retiring ⟨1⟩ ⟨0⟩ ⟨0⟩).2.Respects ended ∧
          ∀ n : Fin 9, 5 ≤ n.val → ended.scope ⟨n⟩ = handedIn.scope ⟨n⟩ :=
    achieves_of_toOption (a := .null) (by decide +kernel) (by decide +kernel)
  -- the world need not be looked into any more
  generalize handedIn = handed at *
  refine ⟨fun f there => ?_, (ends.mono fun _ _ kept => ⟨kept.1, fun t new inside => ?_⟩).leaves⟩
  · cases hooked.symm.trans there
    rw [Function.Accepts, free]
    exact fun _ held => absurd held List.not_mem_nil
  · exact kept.2 ⟨t.number, Nat.lt_of_lt_of_eq inside size⟩ new

theorem rotateSession_moves_session_signedIn : ∃ times started,
    (hostOf (execute 1)).Starts signedIn ⟨1⟩ client ⟨0⟩ ⟨0⟩ (recorded greeting times) started ∧
      (rotateSession (hostOf (execute 1)) ⟨1⟩).Achieves signedIn fun fresh later =>
        signedIn.Rotated ⟨1⟩ client ⟨0⟩ ⟨0⟩ (recorded greeting times) started fresh later := by
  let ready := signedIn.readyToStart ⟨1⟩ ⟨0⟩ ⟨0⟩ ⟨0⟩
  have spared : ∀ n : Fin 5, greeted.scope ⟨n⟩ = ready.scope ⟨n⟩ := by decide +kernel
  have closed : ∀ n : Fin 5, ∀ child ∈ World.structs (ready.scope ⟨n⟩).bindings.values, child.number < 5 := by decide +kernel
  -- the second put is over the last visit, so the times of the visits are not seen
  have starts : (hostOf (execute 1)).Starts signedIn ⟨1⟩ client ⟨0⟩ ⟨0⟩ (recorded greeting [default, default]) greeted := {
    ran := ⟨.null, eq_of_toOption (by decide +kernel), rfl⟩
    respects := by decide +kernel
    wrote := by decide +kernel
    left := fun t leads => spared ⟨t.number, World.housed_of_closed (by decide) closed t leads⟩ }
  refine ⟨_, greeted, starts, rotateSession_moves_session current_signedIn ?_ housed_signedIn ?_ starts spares_signedIn⟩
  · decide +kernel
  · exact fun key => .insertAll (Bindings.single_ofList _ key) _

/-- The start hook writes a last visit, which does not last: the end of the start is a visit. -/
theorem rotateSession_records_visit :
    (((callHook (hostOf (execute 1)) ⟨0⟩ .sessionStart ⟨1⟩ [] (signedIn.readyToStart ⟨1⟩ ⟨0⟩ ⟨0⟩ ⟨0⟩)).2.scope
        signedIn.scopes.next).get .lastVisit).any (·.same (.string "never")) = true ∧
      (rotateSession (hostOf (execute 1)) ⟨1⟩).Achieves signedIn fun fresh later =>
        ((later.scope (later.session fresh).scope).get .lastVisit).any (·.same (.string "never")) = false :=
  ⟨by decide +kernel, achieves_of_toOption (a := ⟨1⟩) (by decide +kernel) (by decide +kernel)⟩

end ScopeEngine
