import ScopeEngine.Proofs.Refusal.Openings
import ScopeEngine.Proofs.Resolution.Growth

/-! A start that its hook does not let proceed leaves nothing behind but the entries of the hook in scopes. Whoever asks for the
application, or for the session, next gets a new one, and its start hook is called. -/

namespace ScopeEngine

open ScopeEngine.Action World

namespace World

variable {host : Host} {looking : World} {own : SessionId → Prop}

/-- What a hook did was confined to one application and to some sessions of it, apart from scopes and from what is new. -/
structure KeepsTo (w : World) (a : ApplicationId) (own : SessionId → Prop) (later : World) : Prop where
  extends_ : w.Extends later
  registry : later.registry = w.registry
  applications : later.applications.size = w.applications.size
  named : (later.application a).name = (w.application a).name
  others : ∀ b, b ≠ a → later.application b = w.application b
  sessions : w.sessions.size ≤ later.sessions.size
  id : ∀ t : SessionId, t.number < w.sessions.size → (later.session t).id = (w.session t).id
  session : ∀ t : SessionId, t.number < w.sessions.size → ¬ own t → later.session t = w.session t

/-- The application did not come to be. No live one goes by the name and none is registered under it, everything else is as it
was, and the request has no application. -/
structure FoundsNothing (w : World) (name : Key) (r : ContextId) (later : World) : Prop where
  unregistered : later.registry.find? name = none
  vacant : ∀ other, (name == other) = true → later.Vacant other
  registry : ∀ other, (name == other) = false → later.registry.find? other = w.registry.find? other
  applications : w.applications.size < later.applications.size
  application : ∀ b : ApplicationId, b.number < w.applications.size → later.application b = w.application b
  session : ∀ t : SessionId, t.number < w.sessions.size → later.session t = w.session t
  unspliced : later.splicedApplication r = none

/-- The touch registers a new application. Nothing but its name is in its scope when its start hook is called, and the touch
comes to what the hook decides. -/
structure FoundsAnew (w : World) (host : Host) (c r : ContextId) (request : Request) : Prop where
  registered : (w.founding r request).registry.find? request.settings.applicationKey = some w.applications.next
  spliced : (w.founding r request).splicedApplication r = some w.applications.next
  seeded : (w.founding r request).scope ((w.founding r request).application w.applications.next).scope =
    seedApplication request.settings.applicationKey (.new ScopeName.application.key)
  decides : ∀ outcome hooked, attempt (callHook host request.listener .applicationStart r []) (w.founding r request) =
    (.ok outcome, hooked) → (ensureApplication host c w).1 = match refusal .applicationStart outcome with
      | none => .ok (some w.applications.next)
      | some cause =>
        .error (.failed (.startFailed .applicationStart (hooked.application w.applications.next).name.name cause))

structure KeepsToSessions (w : World) (a : ApplicationId) (own : SessionId → Prop) (later : World) : Prop
    extends w.KeepsTo a own later where
  map : (later.application a).sessions = (w.application a).sessions

/-- The session did not come to be. The map has none under the id, everything else is as it was, and the request has no session.
A session that was to be replaced is gone all the same. -/
structure OpensNothing (w : World) (a : ApplicationId) (id : Key) (r : ContextId) (later : World) : Prop where
  unbound : (later.application a).sessions.find? id = none
  map : ∀ other, (id == other) = false →
    (later.application a).sessions.find? other = (w.application a).sessions.find? other
  registry : later.registry = w.registry
  application : ∀ b, b ≠ a → later.application b = w.application b
  sessions : w.sessions.size < later.sessions.size
  session : ∀ t : SessionId, t.number < w.sessions.size → w.stale a id ≠ some t → later.session t = w.session t
  unspliced : later.splicedSession r = none

/-- The touch puts a new session into the map, as found by the lookup in the world `looking`. Nothing but its seeds is in its
scope when its start hook is called, and the touch comes to what the hook decides. -/
structure OpensAnew (w looking : World) (host : Host) (c r : ContextId) (request : Request) (a : ApplicationId) (id : Key) :
    Prop where
  mapped : (((looking.placing request a id).joining r looking.sessions.next).application a).sessions.find? id =
    some looking.sessions.next
  spliced : ((looking.placing request a id).joining r looking.sessions.next).splicedSession r = some looking.sessions.next
  seeded : ((looking.placing request a id).joining r looking.sessions.next).scope
    (((looking.placing request a id).joining r looking.sessions.next).session looking.sessions.next).scope =
      sessionScope id (looking.application a).name looking.clock
  decides : ∀ outcome hooked, attempt (callHook host request.listener .sessionStart r [])
    ((looking.placing request a id).joining r looking.sessions.next) = (.ok outcome, hooked) →
      (ensureSession host c w).1 = match refusal .sessionStart outcome with
        | none => .ok (some looking.sessions.next)
        | some cause => .error (.failed (.startFailed .sessionStart (hooked.session looking.sessions.next).id.name cause))

variable {w later : World} {a : ApplicationId} {c r : ContextId} {request : Request} {name id : Key} {refused : World}

theorem Vacant.congr (vacant : w.Vacant name) {other : Key} (same : (name == other) = true) : w.Vacant other where
  single := vacant.single.congr same
  registered := fun a found => vacant.registered a (by rw [Bindings.find?_congr _ same]; exact found)
  named := fun a named => vacant.named a (by
    rw [Key.beq_iff] at named same ⊢
    exact named.trans same.symm)

theorem KeepsTo.refl (w : World) (a : ApplicationId) (own : SessionId → Prop) : w.KeepsTo a own w :=
  ⟨.refl w, rfl, rfl, rfl, fun _ _ => rfl, Nat.le_refl _, fun _ _ => rfl, fun _ _ _ => rfl⟩

theorem KeepsTo.at_ (confined : w.KeepsTo a own later) (at_ : (w.context r).request? = some request) :
    ∃ now, (later.context r).request? = some now := by
  have still := confined.extends_.request r (issued_of_request at_)
  rw [at_] at still
  exact Option.isSome_iff_exists.mp still

theorem Asks.taken (asks : w.Asks c r request) : ((w.founding r request).context r).request?.isSome = true ∧
      (w.founding r request).splicedApplication r = some w.applications.next := by
  obtain ⟨⟨bare, there⟩, -⟩ := asks.unhosted
  let held : World :=
    { w.unhosted r with holds := .application w.applications.next :: .listener request.listener :: w.holds }
  let touched := (held.enrolled request.settings.applicationKey request.settings).touchApplication w.applications.next
  have at_ : (touched.context r).request? = some bare := there
  have hosts := touched.request?_hosted at_ w.applications.next
  have now : ((w.founding r request).context r).request? = _ := hosts
  refine ⟨by rw [now]; rfl, ?_⟩
  rw [splicedApplication_eq (requestOf_self now), standingOf_splice_application, nodeApplication]
  have kind : ((w.founding r request).context touched.contexts.next).kind = _ := touched.kind_hosted r w.applications.next
  rw [kind]

theorem request?_excised (w : World) (at_ : (w.context r).request? = some request) (holds : List Hold) :
    ({ (w.excise r .application).2 with holds }.context r).request? = some (request.excise .application) ∧
      ({ (w.excise r .session).2 with holds }.context r).request? = some (request.excise .session) := by
  change ((w.excise r .application).2.context r).request? = _ ∧ ((w.excise r .session).2.context r).request? = _
  rw [excise_application (requestOf_self at_), excise_session (requestOf_self at_), request?_modifyRequest,
    request?_modifyRequest, if_pos rfl, if_pos rfl, at_]
  exact ⟨rfl, rfl⟩

theorem KeepsTo.unfounded {ready : World} (confined : ready.KeepsTo a own refused)
    (founds : ready.registry = w.registry.insert name a) (named : (ready.application a).name = name)
    (known : a.number < ready.applications.size) (others : ∀ b, b ≠ a → ready.application b = w.application b) :
    (refused.unfounded a).registry = (w.registry.insert name a).erase name ∧
      ((refused.unfounded a).application a).isDefunct = true ∧
      ∀ b, b ≠ a → (refused.unfounded a).application b = w.application b := by
  have name' : (refused.application a).name = name := confined.named.trans named
  have registry : refused.registry = w.registry.insert name a := confined.registry.trans founds
  refine ⟨?_, ?_, fun b other => ?_⟩
  · have registered : refused.registry.find? (refused.application a).name = some a := by
      rw [name', registry, Bindings.find?_insert_self]
    rw [registry_unfounded registered, name', registry]
  · rw [application_unfounded, if_pos ⟨rfl, by rw [confined.applications]; exact known⟩]
    rfl
  · rw [application_unfounded, if_neg fun both => other both.1.symm, confined.others b other, others b other]

section

variable (asks : w.Asks c r request) (vacant : w.Vacant request.settings.applicationKey)
include asks vacant

theorem Asks.foundsNothing (confined : (w.founding r request).KeepsTo w.applications.next (fun _ => False) refused) :
    w.FoundsNothing request.settings.applicationKey r
      { ((refused.unfounded w.applications.next).excise r .application).2 with holds := w.holds } := by
  have size := w.size_founding r request
  have row := w.application_founding r request
  obtain ⟨present, -⟩ := asks.taken
  obtain ⟨bare, there⟩ := Option.isSome_iff_exists.mp present
  obtain ⟨now, here⟩ := confined.at_ there
  obtain ⟨before, is⟩ := w.founding_eq r request
  have registry : (w.founding r request).registry = _ := congrArg registry is
  have sessions : (w.founding r request).sessions = w.sessions := (congrArg sessions is).trans rfl
  clear is
  generalize w.founding r request = ready at *
  have known : w.applications.next.number < ready.applications.size := by
    rw [size]
    exact Nat.lt_succ_self _
  obtain ⟨leaves, discarded, others⟩ := confined.unfounded registry (by rw [row, if_pos rfl]) known
    (fun b other => by rw [row, if_neg other])
  have sizes : (refused.unfounded w.applications.next).applications.size = w.applications.size + 1 := by
    rw [size_unfounded, confined.applications, size]
  have still : ∀ t : SessionId, t.number < w.sessions.size →
      (refused.unfounded w.applications.next).session t = w.session t := by
    intro t issued
    have kept := confined.session t (by rw [sessions]; exact issued) id
    have same : ready.session t = w.session t := by rw [session, sessions, session]
    rw [unfounded_eq]
    exact kept.trans same
  have at_ : ((refused.unfounded w.applications.next).context r).request? = some now := by
    rw [unfounded_eq]
    exact here
  generalize refused.unfounded w.applications.next = left at *
  have gone : (left.registry.find? request.settings.applicationKey) = none := by
    rw [leaves]
    exact (vacant.single.insert _ _).find?_erase
  have unspliced := (splicedApplication_eq (requestOf_self (left.request?_excised at_ w.holds).1)).trans
    (congrArg Standing.application (standingOf_excise_application ..))
  obtain ⟨contexts, excised⟩ := left.excise_contexts r .application
  rw [excised] at unspliced ⊢
  exact {
    unregistered := gone
    vacant := fun other same => {
      single := by
        rw [leaves]
        exact ((vacant.congr same).single.insert _ _).erase _
      registered := fun a found => by
        rw [← Bindings.find?_congr _ same, gone] at found
        cases found
      named := fun a named => by
        by_cases here : a = w.applications.next
        · rw [here]
          exact discarded
        · have kept := others a here
          have defunct := (vacant.congr same).named a
          rw [← kept] at defunct
          exact defunct named }
    registry := fun other different => by
      rw [leaves, Bindings.find?_erase_of_ne _ different, Bindings.find?_insert, different]
      rfl
    applications := by rw [sizes]; exact Nat.lt_succ_self _
    application := fun b issued => others b fun here => by
      rw [here] at issued
      exact Nat.lt_irrefl _ issued
    session := still
    unspliced }

/-- A touch that finds no live application of its name founds one. -/
theorem Asks.foundsAnew (patient : 0 < host.patience) : w.FoundsAnew host c r request := by
  have row := w.application_founding r request w.applications.next
  obtain ⟨-, spliced⟩ := asks.taken
  obtain ⟨before, is⟩ := w.founding_eq r request
  have registry : (w.founding r request).registry = _ := congrArg registry is
  have scopes : (w.founding r request).scopes = _ := congrArg scopes is
  refine ⟨?_, spliced, ?_, fun outcome hooked called => ?_⟩
  · rw [registry]
    exact Bindings.find?_insert_self ..
  · rw [row, if_pos rfl, scope, scopes]
    exact Table.get_add_next ..
  · have founds := ensureApplication_verdict asks vacant patient called
    rw [Verdict] at founds
    cases verdict : refusal .applicationStart outcome with
    | none =>
      simp only [verdict] at founds
      rw [founds]
    | some cause =>
      simp only [verdict] at founds
      rw [founds, name_unfounded]

end

/-- A new session is in the map, and nothing else happened to what was there. -/
structure Adds (w : World) (a : ApplicationId) (id : Key) (r : ContextId) (later : World) : Prop where
  at_ : ∃ request, (later.context r).request? = some request
  known : a.number < later.applications.size
  map : (later.application a).sessions = (w.application a).sessions.insert id w.sessions.next
  named : (later.session w.sessions.next).id = id
  registry : later.registry = w.registry
  others : ∀ b, b ≠ a → later.application b = w.application b
  sessions : w.sessions.size < later.sessions.size
  session : ∀ t : SessionId, t.number < w.sessions.size → w.stale a id ≠ some t → later.session t = w.session t

theorem Seeks.adds (seeks : w.Seeks host c r request a id looking) :
    looking.Adds a id r (looking.placing request a id) := by
  obtain ⟨sessions, applications⟩ := looking.size_placing request a id
  have placed : ∀ b, (looking.placing request a id).application b = _ := application_insertSession _ a id _
  exact {
    at_ := seeks.at_
    known := by rw [applications]; exact seeks.known
    map := by rw [placed, if_pos ⟨rfl, seeks.known⟩]; rfl
    named := by rw [session_placing, if_pos rfl]
    registry := rfl
    others := fun b other => by rw [placed, if_neg fun both => other both.1.symm]; rfl
    sessions := by rw [sessions]; exact Nat.lt_succ_self _
    session := fun t issued _ => by
      rw [session_placing, if_neg]
      rintro rfl
      exact Nat.lt_irrefl _ issued }

theorem Seeks.awaits {cleared : World} (seeks : w.Seeks host c r request a id looking)
    (spares : (looking.placing request a id).KeepsToSessions a (looking.stale a id = some ·) cleared) :
    cleared.session looking.sessions.next = (looking.placing request a id).session looking.sessions.next :=
  spares.session _ seeks.adds.sessions fun stale => Nat.lt_irrefl _ (seeks.issued _ stale)

namespace Adds

variable {mid : World} (adds : w.Adds a id r mid)
include adds

/-- Hooks of the new session and of the one that it replaced do not matter. -/
theorem confined {own : SessionId → Prop} (confined : mid.KeepsToSessions a own later)
    (two : ∀ t, own t → t = w.sessions.next ∨ w.stale a id = some t) : w.Adds a id r later where
  at_ := by
    obtain ⟨request, there⟩ := adds.at_
    exact confined.at_ there
  known := by rw [confined.applications]; exact adds.known
  map := confined.map.trans adds.map
  named := (confined.id _ adds.sessions).trans adds.named
  registry := confined.registry.trans adds.registry
  others := fun b other => (confined.others b other).trans (adds.others b other)
  sessions := Nat.lt_of_lt_of_le adds.sessions confined.sessions
  session := fun t issued kept => by
    refine (confined.session t (Nat.lt_trans issued adds.sessions) fun mine => ?_).trans (adds.session t issued kept)
    rcases two t mine with rfl | stale
    · exact Nat.lt_irrefl _ issued
    · exact kept stale

theorem joining : w.Adds a id r (mid.joining r w.sessions.next) := by
  obtain ⟨request, there⟩ := adds.at_
  obtain ⟨contexts, is⟩ := mid.joining_eq r w.sessions.next
  have begins := mid.session_joining r w.sessions.next
  have marks : ∀ t, t ≠ w.sessions.next → (mid.beginSessionStart w.sessions.next).session t = mid.session t := by
    intro t other
    rw [beginSessionStart, session_modify, if_neg fun both => other both.1.symm]
  have joins : ((mid.joining r w.sessions.next).context r).request? = _ := mid.request?_joined there w.sessions.next
  refine { adds with
    at_ := ⟨_, joins⟩
    known := by rw [is]; exact adds.known
    map := by rw [is]; exact adds.map
    named := ?_
    registry := by rw [is]; exact adds.registry
    others := fun b other => by rw [is]; exact adds.others b other
    sessions := ?_
    session := fun t issued kept => ?_ }
  · have keeps : ((mid.beginSessionStart w.sessions.next).session w.sessions.next).id = (mid.session w.sessions.next).id :=
      session_modify_keeps mid w.sessions.next w.sessions.next Session.id fun _ => rfl
    rw [begins, keeps, adds.named]
  · rw [is]
    exact Nat.lt_of_lt_of_eq adds.sessions (Table.size_set ..).symm
  · rw [begins, marks t, adds.session t issued kept]
    rintro rfl
    exact Nat.lt_irrefl _ issued

theorem opensNothing (single : (w.application a).sessions.Single id) (holds : List Hold) :
    ((mid.withdrawn a w.sessions.next).session w.sessions.next).id = id ∧
      w.OpensNothing a id r { ((mid.withdrawn a w.sessions.next).excise r .session).2 with holds } := by
  obtain ⟨request, there⟩ := adds.at_
  have bound : (mid.application a).sessions.find? id = some w.sessions.next := by
    rw [adds.map]
    exact Bindings.find?_insert_self ..
  have own := application_withdrawn adds.named bound adds.known
  have others : ∀ b, b ≠ a → (mid.withdrawn a w.sessions.next).application b = w.application b := fun b other =>
    (mid.application_withdrawn_other w.sessions.next (Ne.symm other)).trans (adds.others b other)
  have sessions := mid.session_withdrawn a w.sessions.next
  have size := (mid.size_withdrawn a w.sessions.next).2
  have at_ : ((mid.withdrawn a w.sessions.next).context r).request? = some request := by
    rw [withdrawn_elsewhere]
    exact there
  have registry : (mid.withdrawn a w.sessions.next).registry = w.registry := by
    rw [withdrawn_elsewhere]
    exact adds.registry
  generalize mid.withdrawn a w.sessions.next = left at *
  have unspliced := (splicedSession_eq (requestOf_self (left.request?_excised at_ holds).2)).trans
    (congrArg Standing.session (standingOf_excise_session ..))
  obtain ⟨contexts, excised⟩ := left.excise_contexts r .session
  rw [excised] at unspliced ⊢
  refine ⟨?_, {
    unbound := ?_
    map := fun other different => ?_
    registry
    application := others
    sessions := Nat.lt_of_lt_of_eq adds.sessions size.symm
    session := fun t issued kept => ?_
    unspliced }⟩
  · rw [sessions]
    split
    · exact adds.named
    · exact adds.named
  · refine (congrArg (fun application : Application => application.sessions.find? id) own).trans ?_
    rw [adds.map]
    exact (single.insert _ _).find?_erase
  · refine (congrArg (fun application : Application => application.sessions.find? other) own).trans ?_
    rw [adds.map, Bindings.find?_erase_of_ne _ different, Bindings.find?_insert, different]
    rfl
  · refine (sessions t).trans ?_
    rw [if_neg, adds.session t issued kept]
    rintro ⟨rfl, -⟩
    exact Nat.lt_irrefl _ issued

end Adds

/-- A touch that finds no session under its id opens one. -/
theorem Seeks.opensAnew (seeks : w.Seeks host c r request a id looking) (unbound : looking.stale a id = none)
    (patient : 0 < host.patience) : w.OpensAnew looking host c r request a id := by
  obtain ⟨now, there⟩ := seeks.at_
  let placed := looking.placing request a id
  have at_ : (placed.context r).request? = some now := there
  have adds := seeks.adds.joining
  have retires : retireStale host r a (looking.stale a id) placed = (.ok (), placed) := by
    rw [unbound]
    rfl
  have fresh : (placed.session looking.sessions.next).startState = .fresh := by
    rw [session_placing, if_pos rfl]
    rfl
  have joins : ((placed.joining r looking.sessions.next).context r).request? = _ :=
    placed.request?_joined at_ looking.sessions.next
  have kind : ((placed.joining r looking.sessions.next).context placed.contexts.next).kind = _ :=
    placed.kind_joined r looking.sessions.next
  refine ⟨?_, ?_, ?_, fun outcome hooked called => ?_⟩
  · rw [adds.map]
    exact Bindings.find?_insert_self ..
  · rw [splicedSession_eq (requestOf_self joins), standingOf_splice_session, nodeSession, kind]
  · have own : ((placed.beginSessionStart looking.sessions.next).session looking.sessions.next).scope =
        (placed.session looking.sessions.next).scope :=
      session_modify_keeps placed looking.sessions.next looking.sessions.next Session.scope fun _ => rfl
    obtain ⟨contexts, is⟩ := placed.joining_eq r looking.sessions.next
    rw [session_joining, own, session_placing, if_pos rfl, is]
    exact Table.get_add_next ..
  · cases verdict : refusal .sessionStart outcome with
    | none =>
      obtain ⟨found, later, ran, rfl⟩ := achieves_ensureSession_opens seeks retires at_ fresh patient called verdict
      rw [ran]
    | some cause =>
      obtain ⟨error, later, ran, -, rfl⟩ :=
        fails_ensureSession_opens seeks retires at_ fresh patient ⟨outcome, called, verdict⟩
      have name : ((hooked.withdrawn a looking.sessions.next).session looking.sessions.next).id =
          (hooked.session looking.sessions.next).id := by
        rw [session_withdrawn]
        split <;> rfl
      rw [ran, name]

end World

/-- The start hook of the application that the request founds refuses, having done nothing to anything else. -/
structure Host.RefusesApplication (host : Host) (w : World) (r : ContextId) (request : Request) (cause : Error)
    (refused : World) : Prop where
  refuses : host.Refuses .applicationStart request.listener r (w.founding r request) cause refused
  confined : (w.founding r request).KeepsTo w.applications.next (fun _ => False) refused

/-- The start hook of the session that the request opens refuses. Neither it nor the end hook of a session that is replaced did
anything to anything else. -/
structure Host.RefusesSession (host : Host) (looking : World) (r : ContextId) (request : Request) (a : ApplicationId) (id : Key)
    (cause : Error) (cleared refused : World) : Prop where
  retires : retireStale host r a (looking.stale a id) (looking.placing request a id) = (.ok (), cleared)
  spares : (looking.placing request a id).KeepsToSessions a (looking.stale a id = some ·) cleared
  refuses : host.Refuses .sessionStart request.listener r (cleared.joining r looking.sessions.next) cause refused
  confined : (cleared.joining r looking.sessions.next).KeepsToSessions a (· = looking.sessions.next) refused

open Script in
theorem World.extends_callHook (fuel : Nat) (l : ListenerId) (hook : Hook) (r : ContextId) (w : World) :
    w.Extends (attempt (callHook (hostOf (execute fuel)) l hook r []) w).2 := by
  have programs := grows_order.programs
  have leads := programs.attempt (programs.callHook (programs.hostOf (programs.execute fuel)) l hook r []) w
  exact Grows.extends_ leads

theorem World.confined_of_sole {w later : World} {own : SessionId → Prop} (extends_ : w.Extends later)
    (registry : later.registry = w.registry) (sole : w.applications.size = 1) (still : later.applications.size = 1)
    (named : (later.application ⟨0⟩).name = (w.application ⟨0⟩).name) (sessions : w.sessions.size ≤ later.sessions.size)
    (mine : ∀ t : SessionId, t.number < w.sessions.size → own t ∧ (later.session t).id = (w.session t).id) :
    w.KeepsTo ⟨0⟩ own later where
  extends_ := extends_
  registry := registry
  applications := still.trans sole.symm
  named := named
  others := fun b other => by
    have beyond : 1 ≤ b.number := Nat.pos_of_ne_zero fun zero => other (congrArg Id.mk zero)
    rw [application, application, Table.get_of_ge _ (by rw [still]; exact beyond),
      Table.get_of_ge _ (by rw [sole]; exact beyond)]
  sessions := sessions
  id := fun t issued => (mine t issued).2
  session := fun t issued other => absurd (mine t issued).1 other

def noteAndRefuse : Script.Body :=
  [.mk (.scope (.put (.nearby ScopeName.application.key) .hits (.integer 1))) false, .mk (.return_ (.boolean false)) false]

def visitor : Request :=
  { vars := ⟨1⟩, scope := ⟨2⟩, listener := ⟨1⟩, settings := { name := "shop", sessionManagement := true }
    sessionId := some (.of "alice") }

/-- A visitor of a shop with one hook, which refuses. -/
def barred (refusing : Hook) : World :=
  { shop noteAndRefuse with
    scopes := ((Table.empty.add (.new ScopeName.server.key)).add (.new ScopeName.vars.key)).add (.new ScopeName.request.key)
    listeners := (start (.ofMillis 0)).listeners.add {
      name := "shop", component := none, hook := fun hook => if hook = refusing then some ⟨0⟩ else none }
    contexts := (shop noteAndRefuse).contexts.add { parent := some ⟨0⟩, kind := .request visitor } }

theorem asks_barred (refusing : Hook) : (barred refusing).Asks ⟨1⟩ ⟨1⟩ visitor where
  found := requestOf_self rfl
  wanted := by decide +kernel
  attached := rfl
  served := by cases refusing <;> decide +kernel

theorem vacant_barred (refusing : Hook) : (barred refusing).Vacant visitor.settings.applicationKey where
  single := Bindings.single_of_unbound rfl
  registered := fun a found => nomatch found
  named := fun a named => by
    have none : ((barred refusing).application a).name = default := congrArg Application.name (Table.get_of_ge _ (Nat.zero_le _))
    rw [none] at named
    have other : ((default : Key) == visitor.settings.applicationKey) = false := by decide +kernel
    cases other.symm.trans named

open Script in
theorem refusesApplication_barred : (hostOf (execute 3)).RefusesApplication (barred .applicationStart) ⟨1⟩ visitor
    (.startAborted .applicationStart) (attempt (callHook (hostOf (execute 3)) ⟨1⟩ .applicationStart ⟨1⟩ [])
      ((barred .applicationStart).founding ⟨1⟩ visitor)).2 where
  refuses := Host.refuses_of_check (by decide +kernel)
  confined := confined_of_sole (extends_callHook ..) (by decide +kernel)
    (by decide +kernel) (by decide +kernel) (by decide +kernel) (by decide +kernel)
    (fun t issued => by
      have none : ((barred .applicationStart).founding ⟨1⟩ visitor).sessions.size = 0 := by decide +kernel
      rw [none] at issued
      cases issued)

def admitted : World := (ensureApplication (Script.hostOf (Script.execute 3)) ⟨1⟩ (barred .sessionStart)).2

def guest : Request := ((admitted.context ⟨1⟩).request?).getD visitor

open Script in
theorem seeks_barred : (barred .sessionStart).Seeks (hostOf (execute 3)) ⟨1⟩ ⟨1⟩ guest ⟨0⟩ (.of "alice")
    (admitted.unseated ⟨1⟩) := by
  have found : (ensureApplication (hostOf (execute 3)) ⟨1⟩ (barred .sessionStart)).1.toOption = some (some ⟨0⟩) := by
    decide +kernel
  have ensures : (ensureApplication (hostOf (execute 3)) ⟨1⟩).Achieves (barred .sessionStart) fun found later =>
      found = some ⟨0⟩ ∧ later = admitted := achieves_of_toOption found ⟨rfl, rfl⟩
  obtain ⟨_, _, ensured, rfl, rfl⟩ := ensures
  have there : (admitted.context ⟨1⟩).request? = some guest := by decide +kernel
  have named : guest.sessionId = some (.of "alice") := by decide +kernel
  have unbound : (admitted.unseated ⟨1⟩).stale ⟨0⟩ (.of "alice") = none := by decide +kernel
  have bare : admitted.splicedSession ⟨1⟩ = none := by decide +kernel
  exact {
    managed := ⟨visitor, requestOf_self rfl, rfl⟩
    looks := by
      refine ⟨admitted, admitted, ensured, there, ?_, fun s spliced => ?_, rfl⟩
      · simp only [chooseSessionId, named]
        rfl
      · cases bare.symm.trans spliced
    known := by decide +kernel
    usable := by decide +kernel
    single := Bindings.single_of_unbound unbound
    issued := fun s stale => by cases unbound.symm.trans stale
    vacant := fun s stale => by cases unbound.symm.trans stale }

open Script in
theorem refusesSession_barred : (hostOf (execute 3)).RefusesSession (admitted.unseated ⟨1⟩) ⟨1⟩ guest ⟨0⟩ (.of "alice")
    (.startAborted .sessionStart) ((admitted.unseated ⟨1⟩).placing guest ⟨0⟩ (.of "alice"))
    (attempt (callHook (hostOf (execute 3)) guest.listener .sessionStart ⟨1⟩ [])
      (((admitted.unseated ⟨1⟩).placing guest ⟨0⟩ (.of "alice")).joining ⟨1⟩ (admitted.unseated ⟨1⟩).sessions.next)).2 := by
  have unbound : (admitted.unseated ⟨1⟩).stale ⟨0⟩ (.of "alice") = none := by decide +kernel
  exact {
    retires := by
      rw [unbound]
      rfl
    spares := ⟨.refl _ _ _, rfl⟩
    refuses := Host.refuses_of_check (by decide +kernel)
    confined := by
      refine ⟨confined_of_sole (extends_callHook ..) (by decide +kernel)
        (by decide +kernel) (by decide +kernel) (by decide +kernel) (by decide +kernel) ?_,
        by decide +kernel⟩
      intro t issued
      have one : (((admitted.unseated ⟨1⟩).placing guest ⟨0⟩ (.of "alice")).joining ⟨1⟩
          (admitted.unseated ⟨1⟩).sessions.next).sessions.size = 1 := by decide +kernel
      have first : (admitted.unseated ⟨1⟩).sessions.next = ⟨0⟩ := by decide +kernel
      rw [one] at issued
      have here : t = ⟨0⟩ := congrArg Id.mk (Nat.lt_one_iff.mp issued)
      subst here
      exact ⟨first.symm, by decide +kernel⟩ }

end ScopeEngine
