import ScopeEngine.Proofs.Rotation.Opening
import ScopeEngine.Proofs.Rotation.Retirement

/-! How the data of a session moves to the one that replaces it: what visits leave in scopes, what the start hook adds
to the new scope, and what the new scope then takes over from the old one. -/

namespace ScopeEngine

open ScopeEngine.Action

namespace Bindings

variable {α : Type}

def insertAll (b : Bindings α) (written : List (Key × α)) : Bindings α :=
  written.foldl (fun bindings entry => bindings.insert entry.1 entry.2) b

def newKeys (bound : List Key) : List (Key × α) → List Key
  | [] => []
  | (key, _) :: rest => if bound.any (· == key) then newKeys bound rest else key :: newKeys (bound ++ [key]) rest

theorem keys_insert (b : Bindings α) (key : Key) (value : α) :
    (b.insert key value).keys = if b.keys.any (· == key) then b.keys else b.keys ++ [key] := by
  obtain ⟨unbound, is⟩ | ⟨front, bound, old, back, -, split, is⟩ := b.insert_cases key value
  · have none : b.keys.any (· == key) = false := by simpa [keys] using find?_eq_none.mp unbound
    rw [none, if_neg Bool.false_ne_true, keys, is, List.map_append]
    rfl
  · have there : b.keys.any (· == key) = true := by simp [keys, split.entries, split.same]
    rw [there, if_pos rfl, keys, keys, is, split.entries]
    simp

theorem keys_insertAll (b : Bindings α) (written : List (Key × α)) :
    (b.insertAll written).keys = b.keys ++ newKeys b.keys written := by
  induction written generalizing b with
  | nil => exact (List.append_nil _).symm
  | cons entry rest ih =>
    refine (ih (b.insert entry.1 entry.2)).trans ?_
    rw [keys_insert, newKeys]
    split
    · rfl
    · rw [List.append_assoc, List.singleton_append]

theorem Single.insertAll {b : Bindings α} {key : Key} (single : b.Single key) (written : List (Key × α)) :
    (b.insertAll written).Single key := by
  induction written generalizing b with
  | nil => exact single
  | cons entry written ih => exact ih (single.insert entry.1 entry.2)

theorem single_ofList (entries : List (Key × α)) (key : Key) : (Bindings.ofList entries).Single key :=
  Single.insertAll (b := .empty) (Nat.zero_le _) entries

theorem isNone_find? (b : Bindings α) (key : Key) : (b.find? key).isNone = !b.keys.any (· == key) := by
  rw [Bool.eq_iff_iff, Option.isNone_iff_eq_none, find?_eq_none]
  simp [keys]

theorem any_newKeys (bound : List Key) (written : List (Key × α)) (key : Key) :
    (bound ++ newKeys bound written).any (· == key) = (bound ++ written.map (·.1)).any (· == key) := by
  induction written generalizing bound with
  | nil => rfl
  | cons entry rest ih =>
    rw [newKeys]
    split
    next known =>
      rw [ih, List.any_append, List.any_append, List.map_cons, List.any_cons]
      cases same : entry.1 == key with
      | false => rw [Bool.false_or]
      | true =>
        obtain ⟨other, held, alike⟩ := List.any_eq_true.mp known
        have found : bound.any (· == key) = true := List.any_eq_true.mpr ⟨other, held, BEq.trans alike same⟩
        rw [found, Bool.true_or, Bool.true_or]
    next =>
      have next := ih (bound ++ [entry.1])
      simpa using next

theorem filter_insert (b : Bindings α) {key : Key} (value : α) {counts : Key → Bool}
    (ignored : ∀ other : Key, (other == key) = true → counts other = false) :
    ((b.insert key value).entries.filter fun entry => counts entry.1) = b.entries.filter fun entry => counts entry.1 := by
  obtain ⟨-, is⟩ | ⟨front, bound, old, back, -, split, is⟩ := b.insert_cases key value
  · simp [is, ignored key (BEq.refl key)]
  · simp [is, split.entries, ignored bound split.same]

end Bindings

def World.seededKeys : List Key := [.jsessionid, .sessionid, .timeCreated, .lastVisit]

theorem World.keys_sessionScope (id application : Key) (created : Instant) :
    (sessionScope id application created).bindings.keys = seededKeys := rfl

namespace World

variable {w later : World} {s : SessionId} {t : ScopeId}

theorem realKey_lastVisit (scope : Scope) : scope.realKey .lastVisit = .lastVisit := by
  have plain : Key.lastVisit.number = none := by decide
  simp only [Scope.realKey, plain]
  cases scope.kind <;> rfl

theorem touchSession_eq (w : World) (s : SessionId) :
    w.touchSession s =
      let visited := w.readClock.2.modifySession s fun session => { session with lastVisit := w.clock.millis }
      match (w.scope (w.session s).scope).put .lastVisit (.dateTime w.clock) with
      | .ok (_, written) => visited.setScope (w.session s).scope written
      | .error _ => visited := by
  have own : ((w.readClock.2.modifySession s fun session => { session with lastVisit := w.clock.millis }).session s).scope =
      (w.session s).scope := session_modify_keeps _ s s Session.scope fun _ => rfl
  simp only [touchSession, readClock] at own ⊢
  rw [own]
  rfl

theorem scope_touchSession (w : World) (s : SessionId) (t : ScopeId) :
    (w.touchSession s).scope t = w.scope t ∨ (t = (w.session s).scope ∧
      (w.touchSession s).scope t =
        { w.scope t with bindings := (w.scope t).bindings.insert .lastVisit (.dateTime w.clock) }) := by
  rw [touchSession_eq]
  simp only [Scope.put, realKey_lastVisit]
  split
  next written puts =>
    split at puts
    · cases puts
    · cases puts
      by_cases here : (w.session s).scope = t ∧ (w.session s).scope.number < w.scopes.size
      · obtain ⟨rfl, inside⟩ := here
        exact .inr ⟨rfl, (Table.get_set ..).trans (if_pos ⟨rfl, inside⟩)⟩
      · exact .inl ((Table.get_set ..).trans (if_neg here))
  next => exact .inl rfl

theorem scope_touchSession_self (plain : (w.scope (w.session s).scope).kind = .generic)
    (inside : (w.session s).scope.number < w.scopes.size) :
    (w.touchSession s).scope (w.session s).scope = { w.scope (w.session s).scope with
      bindings := (w.scope (w.session s).scope).bindings.insert .lastVisit (.dateTime w.clock) } := by
  have free : (w.scope (w.session s).scope).isLocked .lastVisit = false := by simp [Scope.isLocked, plain]
  rw [touchSession_eq]
  simp only [Scope.put, realKey_lastVisit, free, Bool.false_eq_true, if_false]
  exact (Table.get_set ..).trans (if_pos ⟨rfl, inside⟩)

variable {c r : ContextId} {request : Request} {a : ApplicationId} {old : SessionId}

theorem Visits.prepares (visits : w.Visits later) : w.Prepares later := by
  refine ⟨?_, ?_, ?_⟩ <;> rw [visits.same]

theorem scopes_touchApplication (w : World) (a : ApplicationId) : (w.touchApplication a).scopes = w.scopes := rfl

theorem scopes_withSession (w : World) (holds : List Hold) (r : ContextId) (a : ApplicationId) (id : Key) :
    ({ w with holds }.withSession r a id).scopes = w.scopes.add (sessionScope id (w.application a).name w.clock) := by
  obtain ⟨contexts, joins⟩ := (insertSession { w with holds } a id none).2.joined_eq r w.sessions.next
  rw [withSession, joins]
  rfl

theorem Current.scopes_readyToStart (current : w.Current c r request a old) :
    ∃ created, (w.readyToStart r a old request.listener).scopes =
      (w.touched a old).scopes.add (sessionScope w.nextId (w.application a).name created) := by
  obtain ⟨time, application⟩ := current.cleared.application
  have touches := (visits_touchApplication (w.cleared r a old) a).application a
    (by rw [current.cleared.applications]; exact current.anchored.issued)
  have name : (((w.cleared r a old).touchApplication a).application a).name = (w.application a).name := by
    rw [touches, application]
  obtain ⟨contexts, switches⟩ := (w.prepared a old).switched_eq r w.nextId
  have scopes : (w.cleared r a old).scopes = (w.touched a old).scopes := by
    rw [World.cleared, switches, prepared, scopes_touchApplication]
  refine ⟨((w.cleared r a old).touchApplication a).clock, ?_⟩
  rw [readyToStart, scopes_withSession, name, scopes_touchApplication, scopes]

section

variable (opened : w.Opened r request a old later)
include opened

theorem Opened.mark (issued : old.number < w.sessions.size) (change : Session → Session)
    (id : ∀ session, (change session).id = session.id) (scope : ∀ session, (change session).scope = session.scope) :
    w.Opened r request a old (later.modifySession w.sessions.next change) := by
  have other : w.sessions.next ≠ old := by
    rintro rfl
    exact Nat.lt_irrefl _ issued
  have size : (later.modifySession w.sessions.next change).sessions.size = later.sessions.size := Table.size_set ..
  exact {
    extends_ := opened.extends_.trans (extends_of_contexts rfl)
    pointed := opened.pointed
    contexts := opened.contexts
    node := opened.node
    applications := opened.applications
    application := opened.application
    sessions := by rw [size]; exact opened.sessions
    old := by
      obtain ⟨time, is⟩ := opened.old
      exact ⟨time, by rw [session_modify, if_neg fun both => other both.1, is]⟩
    id := (session_modify_keeps later _ _ Session.id id).trans opened.id
    scope := (session_modify_keeps later _ _ Session.scope scope).trans opened.scope
    scopes := opened.scopes }

theorem Opened.marked (issued : old.number < w.sessions.size) :
    w.Opened r request a old ((later.sessionStarted w.sessions.next).leaveSessionStart w.sessions.next) := by
  have started := opened.mark issued (fun session => { session with started := true }) (fun _ => rfl) fun _ => rfl
  exact started.mark issued (fun session => { session with starting := false }) (fun _ => rfl) fun _ => rfl

theorem Opened.settled (known : a.number < w.applications.size) (issued : old.number < w.sessions.size) :
    w.Opened r request a old (later.settled w.sessions.next) :=
  (opened.marked issued).respects known issued (respects_touchSession _ _)

theorem Opened.scope_settled (issued : old.number < w.sessions.size) (other : t ≠ w.scopes.next) :
    (later.settled w.sessions.next).scope t = later.scope t := by
  let marked := (later.sessionStarted w.sessions.next).leaveSessionStart w.sessions.next
  rcases marked.scope_touchSession w.sessions.next t with same | ⟨here, -⟩
  · exact same
  · exact absurd (here.trans (opened.marked issued).scope) other

theorem Opened.scope_settled_self (issued : old.number < w.sessions.size)
    (plain : (later.scope w.scopes.next).kind = .generic) :
    (later.settled w.sessions.next).scope w.scopes.next = { later.scope w.scopes.next with
      bindings := (later.scope w.scopes.next).bindings.insert .lastVisit (.dateTime later.clock) } := by
  let marked := (later.sessionStarted w.sessions.next).leaveSessionStart w.sessions.next
  have own : (marked.session w.sessions.next).scope = w.scopes.next := (opened.marked issued).scope
  have touches := scope_touchSession_self (w := marked) (s := w.sessions.next) (by rw [own]; exact plain)
    (by rw [own]; exact opened.scopes)
  rw [own] at touches
  exact touches

end

theorem Refers.untouched {u : ScopeId} (refers : (w.touched a old).Refers t u) : w.Refers t u := by
  unfold Refers at refers ⊢
  rcases (w.touchApplication a).scope_touchSession old t with same | ⟨-, visited⟩
  · rwa [touched, same] at refers
  · rw [touched, visited] at refers
    rcases Bindings.mem_values_of_insert refers with is | held
    · cases is
    · exact held

theorem single_touched {key : Key} (single : (w.scope t).bindings.Single key) :
    ((w.touched a old).scope t).bindings.Single key := by
  rcases (w.touchApplication a).scope_touchSession old t with same | ⟨-, visited⟩
  · rw [touched, same]
    exact single
  · rw [touched, visited]
    exact single.insert _ _

/-- The visit does not show where the time of the last visit does not count. -/
theorem filter_touched (counts : Key → Bool) (ignored : ∀ other : Key, (other == .lastVisit) = true → counts other = false) :
    (((w.touched a old).scope t).bindings.entries.filter fun entry => counts entry.1) =
      (w.scope t).bindings.entries.filter fun entry => counts entry.1 := by
  rcases (w.touchApplication a).scope_touchSession old t with same | ⟨-, visited⟩
  · rw [touched, same]
    rfl
  · rw [touched, visited]
    exact Bindings.filter_insert _ _ ignored

theorem Reaches.untouched {u : ScopeId} (leads : (w.touched a old).Reaches t u) : w.Reaches t u :=
  Relation.ReflTransGen.mono (fun _ _ => Refers.untouched) _ _ leads

end World

/-- A start hook that lets the new session of a rotation start. It writes keys into the scope of that session and leaves
alone what code that only fills scopes leaves alone, and all that the scope of the old session leads to. -/
structure Host.Starts (host : Host) (w : World) (r : ContextId) (request : Request) (a : ApplicationId) (old : SessionId)
    (written : List (Key × Value)) (started : World) : Prop where
  ran : ∃ value, callHook host request.listener .sessionStart r [] (w.readyToStart r a old request.listener) =
    (.ok value, started) ∧ proceeds value = true
  respects : (w.readyToStart r a old request.listener).Respects started
  wrote : started.scope w.scopes.next = { (w.readyToStart r a old request.listener).scope w.scopes.next with
    bindings := ((w.readyToStart r a old request.listener).scope w.scopes.next).bindings.insertAll written }
  left : ∀ t, (w.readyToStart r a old request.listener).Reaches (w.session old).scope t →
    started.scope t = (w.readyToStart r a old request.listener).scope t

namespace World

/-- The bindings of the new session when it takes over those of the old one: what every session starts with, what the
start hook wrote, and the time of the visit after it. -/
def present (w : World) (a : ApplicationId) (written : List (Key × Value)) (created visit : Instant) : Bindings Value :=
  ((sessionScope w.nextId (w.application a).name created).bindings.insertAll written).insert .lastVisit (.dateTime visit)

/-- The data of the old session was moved to the new scope. -/
structure Transferred (w : World) (a : ApplicationId) (old : SessionId) (present : Bindings Value)
    (image : ScopeId → ScopeId) (started later : World) : Prop where
  root : image (w.session old).scope = w.scopes.next
  injective : ∀ t u, (w.touched a old).Reaches (w.session old).scope t → (w.touched a old).Reaches (w.session old).scope u →
    image t = image u → t = u
  made : ∀ t, (w.touched a old).Reaches (w.session old).scope t → t ≠ (w.session old).scope →
    started.scopes.size ≤ (image t).number ∧ (image t).number < later.scopes.size
  mirrors : ∀ t, (w.touched a old).Reaches (w.session old).scope t → t ≠ (w.session old).scope →
    ((w.touched a old).scope t).Mirrors image (later.scope (image t))
  entries : (later.scope w.scopes.next).bindings.entries = present.entries ++
    ((w.scope (w.session old).scope).bindings.entries.filter fun entry => (present.find? entry.1).isNone).map fun entry =>
      (entry.1, entry.2.along image)

theorem keys_present (w : World) (a : ApplicationId) (written : List (Key × Value)) (created visit : Instant) :
    (w.present a written created visit).keys = seededKeys ++ Bindings.newKeys seededKeys written := by
  have known : (seededKeys ++ Bindings.newKeys seededKeys written).any (· == .lastVisit) = true := by
    rw [List.any_append, show seededKeys.any (· == .lastVisit) = true from rfl, Bool.true_or]
  rw [present, Bindings.keys_insert, Bindings.keys_insertAll, keys_sessionScope, if_pos known]

/-- The keys of the new scope: those that every session starts with, those of the start hook, and then the other ones of the
old scope, in the order they had there. -/
theorem Transferred.keys {w later started : World} {a : ApplicationId} {old : SessionId} {written : List (Key × Value)}
    {created visit : Instant} {image : ScopeId → ScopeId}
    (transferred : w.Transferred a old (w.present a written created visit) image started later) :
    (later.scope w.scopes.next).keys = seededKeys ++ Bindings.newKeys seededKeys written ++
      (w.scope (w.session old).scope).keys.filter fun key => !(seededKeys ++ written.map (·.1)).any (· == key) := by
  have unbound : ∀ key, ((w.present a written created visit).find? key).isNone =
      !(seededKeys ++ written.map (·.1)).any (· == key) := by
    intro key
    rw [Bindings.isNone_find?, keys_present, Bindings.any_newKeys]
  rw [Scope.keys, Bindings.keys, transferred.entries, List.map_append, ← keys_present w a written created visit]
  simp only [unbound, Scope.keys, Bindings.keys, List.map_map, Function.comp_def, List.filter_map]

section

variable {w later started : World} {t : ScopeId} {c r : ContextId} {request : Request} {a : ApplicationId} {old : SessionId}
  {host : Host} {written : List (Key × Value)} {created : Instant} {copies : Copies}
  (current : w.Current c r request a old) (starts : host.Starts w r request a old written started)
  (scopes : (w.readyToStart r a old request.listener).scopes =
    (w.touched a old).scopes.add (sessionScope w.nextId (w.application a).name created))
  (housed : ∀ t, w.Reaches (w.session old).scope t → t.number < w.scopes.size)

include current starts in
theorem opened_started : w.Opened r request a old started :=
  current.opened.respects current.anchored.issued current.issued starts.respects

include current starts in
theorem opened_poised : w.Opened r request a old (w.poised a started) := by
  have opened := (opened_started current starts).settled current.anchored.issued current.issued
  exact opened.respects current.anchored.issued current.issued (respects_of_same rfl rfl rfl (Nat.le_refl _))

theorem size_touched (w : World) (a : ApplicationId) (old : SessionId) : (w.touched a old).scopes.size = w.scopes.size :=
  (visits_touchSession _ old).scopes_size

include scopes in
theorem scope_readyToStart (inside : t.number < w.scopes.size) :
    (w.readyToStart r a old request.listener).scope t = (w.touched a old).scope t := by
  rw [World.scope, scopes]
  exact Table.get_add_of_lt _ _ (by rwa [size_touched])

include scopes in
theorem scope_readyToStart_next : (w.readyToStart r a old request.listener).scope w.scopes.next =
    sessionScope w.nextId (w.application a).name created := by
  rw [World.scope, scopes]
  refine (Table.get_add ..).trans (if_pos ?_)
  exact congrArg Id.mk (size_touched w a old).symm

include current starts scopes housed in
theorem scope_poised (leads : (w.touched a old).Reaches (w.session old).scope t) :
    (w.poised a started).scope t = (w.touched a old).scope t := by
  have inside := housed t leads.untouched
  have other : t ≠ w.scopes.next := by
    rintro rfl
    exact Nat.lt_irrefl _ inside
  have ready : (w.readyToStart r a old request.listener).Reaches (w.session old).scope t :=
    leads.congr fun u before => scope_readyToStart scopes (housed u before.untouched)
  calc (w.poised a started).scope t
      = started.scope t := (opened_started current starts).scope_settled current.issued other
    _ = (w.readyToStart r a old request.listener).scope t := starts.left t ready
    _ = (w.touched a old).scope t := scope_readyToStart scopes inside

include current starts scopes in
theorem scope_poised_next : (w.poised a started).scope w.scopes.next =
    { sessionScope w.nextId (w.application a).name created with
      bindings := w.present a written created started.clock } := by
  have wrote := starts.wrote
  rw [scope_readyToStart_next scopes] at wrote
  have settled := (opened_started current starts).scope_settled_self current.issued (by rw [wrote]; rfl)
  rw [wrote] at settled
  exact settled

include current starts scopes housed in
theorem takes_poised : (w.poised a started).Takes (w.session old).scope w.scopes.next where
  housed := by
    intro t leads
    have before := (reaches_congr fun u leads => scope_poised current starts scopes housed leads).mp leads
    exact Nat.lt_trans (housed t before.untouched) (opened_poised current starts).scopes
  inside := (opened_poised current starts).scopes
  unreached := by
    intro leads
    have before := (reaches_congr fun u leads => scope_poised current starts scopes housed leads).mp leads
    exact Nat.lt_irrefl _ (housed _ before.untouched)
  plain := by
    rw [scope_poised_next current starts scopes]
    rfl

include current starts scopes housed in
theorem Inheriting.transferred (single : ∀ key, (w.scope (w.session old).scope).bindings.Single key)
    (inherits : (w.poised a started).Inheriting (w.session old).scope w.scopes.next
      ((w.poised a started).scope (w.session old).scope).bindings.entries copies later) :
    w.Transferred a old (w.present a written created started.clock) copies.image started later := by
  have reaches : ∀ t, t ∈ copies.originals ↔ (w.touched a old).Reaches (w.session old).scope t := fun t =>
    inherits.mem_originals_iff.trans (reaches_congr fun u leads => scope_poised current starts scopes housed leads)
  have source := scope_poised current starts scopes housed (t := (w.session old).scope) .refl
  have size : (w.poised a started).scopes.size = started.scopes.size := (visits_touchSession _ _).scopes_size
  refine {
    root := inherits.image_source
    injective := fun t u first second => inherits.injective t ((reaches t).mpr first) u ((reaches u).mpr second)
    made := fun t leads other => size ▸ inherits.made t ((reaches t).mpr leads) other
    mirrors := fun t leads other => ?_
    entries := ?_ }
  · have mirrors := inherits.mirrors t ((reaches t).mpr leads) other
    rwa [scope_poised current starts scopes housed leads] at mirrors
  · have once : ∀ key, ((w.touched a old).scope (w.session old).scope).bindings.Single key := fun key =>
      single_touched (single key)
    let unbound := fun key => ((w.present a written created started.clock).find? key).isNone
    have visit : ∀ other : Key, (other == .lastVisit) = true → unbound other = false := by
      intro other same
      simp only [unbound, present, Bindings.find?_insert, BEq.symm same, if_true]
      rfl
    have taken := Bindings.entries_takeOver copies.image (w.present a written created started.clock) once
    rw [filter_touched unbound visit] at taken
    rw [inherits.bindings, scope_poised_next current starts scopes, source]
    exact taken

end

end World

end ScopeEngine
