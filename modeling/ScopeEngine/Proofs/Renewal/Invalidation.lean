import ScopeEngine.Proofs.Registry.Runs
import ScopeEngine.Proofs.Renewal.Openings
import ScopeEngine.Proofs.Resolution.Growth

/-! Invalidating the session of a request. The session that the request works with is over: it leaves the map and is retired.
What the request gets for it is a new session, unless the id that it asks for already stands for a live session of the map;
then it gets that one as it is. -/

namespace ScopeEngine

open ScopeEngine.Action Script World

namespace World

variable {w later : World} {a : ApplicationId} {c r : ContextId} {s : SessionId} {host : Host} {fuel : Nat}

/-- The session that a request works with: the one it has, or else the one that its id stands for. -/
def currentSession (w : World) (c : ContextId) (a : ApplicationId) : Option SessionId :=
  (w.splicedSession c).or do
    let id ← w.sessionIdAt c
    (w.application a).sessions.find? id

def loose (w : World) (c : ContextId) (a : ApplicationId) : World :=
  { (w.excise c .session).2 with holds := .application a :: w.holds }

/-- The session is in no map of a registered application any more, nor in that of the application, and it is over. -/
structure Gone (w : World) (a : ApplicationId) (s : SessionId) : Prop where
  unmapped : ¬ w.Mapped a s
  unfiled : w.FiledWith none s
  spent : (w.session s).shutDown = true

theorem Gone.refiles (gone : w.Gone a s) (refiles : w.Refiles later) : later.Gone a s where
  unmapped := fun mapped => gone.unmapped (refiles.mapped a s gone.unfiled.issued mapped)
  unfiled := gone.unfiled.refiles refiles
  spent := refiles.spent s gone.spent

theorem holds_excise (w : World) (c : ContextId) : (w.excise c .session).2.holds = w.holds := by
  obtain ⟨contexts, is⟩ := w.excise_contexts c .session
  rw [is]

/-- The request let go of its session, which left the map and was retired. -/
structure Frees (w : World) (host : Host) (c r : ContextId) (a : ApplicationId) (old : Option SessionId) (freed : World) :
    Prop where
  calls : ∃ calls, calls.map HookCall.ask = old.toList.flatMap (w.endings a) ∧
    Calling host (Apartly (w.application a).name a) w calls freed
  orders : w.Orders freed
  bare : ∃ request, (freed.context r).request? = some request ∧ request.sessionNode = none ∧
    request.listener = w.listenerAt c
  size : freed.sessions.size = w.sessions.size
  session : ∀ t, some t ≠ old → freed.session t = w.session t
  scope : (freed.application a).scope = (w.application a).scope
  gone : ∀ s, old = some s → freed.Gone a s
  holds : freed.holds = .application a :: w.holds

theorem loose_eq (home : w.home c = some r) : ∃ contexts, w.loose c a = { w with contexts, holds := .application a :: w.holds } := by
  obtain ⟨request, found, there⟩ := requestOf_home home
  obtain ⟨contexts, is⟩ := w.modifyRequest_eq r (·.excise .session)
  exact ⟨contexts, by rw [loose, excise_session found, is]⟩

theorem AtWork.frees_none (work : w.AtWork c r a) : w.Frees host c r a none (w.loose c a) := by
  obtain ⟨request, found, there⟩ := requestOf_home work.running.home
  have excises := work.inOrder.orders_excise c
  have bare : (((w.loose c a).context r).request?) = some (request.excise .session) := by
    change (((w.excise c .session).2.context r).request?) = _
    rw [excise_session found, request?_modifyRequest, if_pos rfl, there]
    rfl
  obtain ⟨contexts, is⟩ := w.loose_eq (a := a) work.running.home
  refine {
    calls := ⟨[], rfl, ?_⟩
    orders := excises.trans (excises.inOrder.orders_holds _)
    bare := ⟨_, bare, request.sessionNode_excise_session, ?_⟩
    size := ?_
    session := fun t _ => ?_
    scope := ?_
    gone := fun _ none => by cases none
    holds := rfl }
  · rw [is]
    have prepares : w.Prepares { w with contexts, holds := .application a :: w.holds } := ⟨rfl, rfl, rfl⟩
    exact .prepare prepares (.done _)
  · simp only [listenerAt, found]
    rfl
  · rw [is]
  · rw [is]
    rfl
  · rw [is]
    rfl

end World

variable {w later : World} {a : ApplicationId} {c r : ContextId} {s : SessionId} {fuel : Nat}

theorem World.dropSession_eq (w : World) (a : ApplicationId) (s : SessionId) :
    ∃ applications, (w.dropSession a s).2 = { w with applications } := by
  rcases w.dropSession_cases a s with same | ⟨-, same⟩
  · exact ⟨w.applications, same⟩
  · exact ⟨_, same⟩

theorem World.dropSession_scope (w : World) (a b : ApplicationId) (s : SessionId) :
    ((w.dropSession a s).2.application b).scope = (w.application b).scope := by
  rcases w.dropSession_cases a s with same | ⟨-, same⟩
  · rw [same]
  · rw [same]
    exact application_modify_keeps w a b Application.scope fun _ => rfl

theorem after_dropThenRetire_frees (work : w.AtWork c r a) (grounded : w.Grounded) (served : w.Served r)
    (own : w.FiledWith (some a) s) (fuel : Nat) :
    After (do
      let _ ← modifyGet (·.dropSession a s)
      retireSession (hostOf (execute fuel)) c a s) (w.loose c a)
      (fun _ freed => w.Frees (hostOf (execute fuel)) c r a (some s) freed) (fun _ _ => False) := by
  have begun : w.Frees (hostOf (execute fuel)) c r a none (w.loose c a) := work.frees_none
  have loose := work.orders begun.orders
  let dropped := ((w.loose c a).dropSession a s).2
  have drops := loose.inOrder.loses_dropSession a s
  have calm := (w.loose c a).calm_dropSession a s
  have ready : dropped.AtWork c r a := ⟨loose.sane.calm calm, drops.inOrder, loose.running.calm loose.sane calm⟩
  have out := loose.inOrder.dropSession (own.refiles begun.orders.refiles)
  have before : w.Calm dropped := begun.orders.calm.trans calm
  obtain ⟨request, found, there⟩ := requestOf_home work.running.home
  have issued := issued_of_request there
  have below : dropped.Served c := (served.calm issued before).below ready.running.home
  have apart : (retireSession (hostOf (execute fuel)) c a s).After dropped _ _ :=
    after_retireSession_apart ready.sane (before.grounded grounded) ready.issued below s
  simp only [after_bind, after_modifyGet]
  refine (apart.and (after_retireSession_orders (ordered_execute fuel) ready out)).mono ?_
    (fun _ _ never => never.1.elim)
  rintro _ freed ⟨⟨ends, holds⟩, leaves, spent⟩
  obtain ⟨calls, asked, calling⟩ := ends.calls
  obtain ⟨applications, is⟩ := (w.loose c a).dropSession_eq a s
  have same : ∀ t, dropped.session t = w.session t := fun t =>
    (congrArg (fun world : World => world.session t) is).trans (begun.session t fun none => by cases none)
  have scope : (dropped.application a).scope = (w.application a).scope :=
    ((w.loose c a).dropSession_scope a a s).trans begun.scope
  have name : (dropped.application a).name = (w.application a).name := name_eq_of_marks (before.marks a)
  have asks : dropped.endings a s = w.endings a s := by rw [endings, endings, same, scope]
  have size : dropped.sessions.size = w.sessions.size :=
    (congrArg (fun world : World => world.sessions.size) is).trans begun.size
  refine {
    calls := ⟨calls, (asked.trans asks).trans (List.append_nil _).symm, ?_⟩
    orders := begun.orders.trans (drops.orders calm ((w.loose c a).thins_dropSession a s).contexts leaves spent)
    bare := ?_
    size := ?_
    session := fun t other => ?_
    scope := ?_
    gone := ?_
    holds := holds.trans ((congrArg World.holds is).trans begun.holds) }
  · obtain ⟨none, nothing, reaches⟩ := begun.calls
    have prepares : (w.loose c a).Prepares dropped := by
      rw [show dropped = _ from is]
      exact ⟨rfl, rfl, rfl⟩
    rw [List.map_eq_nil_iff.mp nothing] at reaches
    rw [name] at calling
    exact reaches.trans (.prepare prepares calling)
  · obtain ⟨request, there, bare, listener⟩ := begun.bare
    have same : dropped.context r = (w.loose c a).context r := (congrArg (fun world : World => world.context r) is).trans rfl
    have inside : r.number < dropped.contexts.size := Nat.lt_of_lt_of_le issued before.contexts
    have kind := ends.kind inside fun here => by
      rw [here] at inside
      exact Nat.lt_irrefl _ inside
    refine ⟨request, ?_, bare, listener⟩
    rw [request?_eq_some, kind, same]
    exact request?_eq_some.mp there
  · rw [ends.aloof.sessions, ← size]
    exact Table.size_set ..
  · rw [← same t]
    exact session_close (fun here => other (congrArg some here)) ends.aloof.sessions
  · exact ends.scope.trans scope
  · intro t is
    cases is
    refine ⟨fun mapped => ?_, out.refiles leaves.refiles, spent⟩
    exact loose.inOrder.unmapped_dropSession a s (leaves.refiles.mapped a s out.issued mapped)

/-- How a request got a new session for the one it let go of: what was called to end that one, the world in which the new
one was made, and how it was opened. -/
structure Renewal extends Opening where
  ended : List HookCall
  made : World

namespace World

/-- The request got a new session. Its scope held nothing but its seeds when it was made, and until its start hook was called
nothing was run but the end hook of a session that it replaced, if there was one; the start hook let it proceed. -/
structure Renewed (w : World) (host : Host) (c r : ContextId) (a : ApplicationId) (old : Option SessionId) (id : Key)
    (renewal : Renewal) (fresh : SessionId) (later : World) : Prop where
  created : fresh = w.sessions.next
  ended : renewal.ended.map HookCall.ask = old.toList.flatMap (w.endings a)
  ends : Calling host (Apartly (w.application a).name a) w renewal.ended renewal.made
  seeded : ∃ time, renewal.made.scope (renewal.made.session fresh).scope = sessionScope id (w.application a).name time
  stale : ∀ t, renewal.stale = some t → (w.application a).sessions.find? id = some t ∧ some t ≠ old
  replaced : renewal.replaced.map HookCall.ask = renewal.stale.toList.flatMap (w.endings a)
  replaces : Calling host (Apartly (w.application a).name a) renewal.made renewal.replaced renewal.ready
  untouched : renewal.stale = none → renewal.ready.scope (renewal.ready.session fresh).scope =
    renewal.made.scope (renewal.made.session fresh).scope
  ran : callHook host (w.listenerAt c) .sessionStart r [] renewal.ready = (.ok renewal.value, renewal.started)
  lets : proceeds renewal.value = true
  settled : later = { renewal.started.settled fresh with holds := w.holds }

/-- A session that the map still has is another one, and the map had it before. -/
theorem Frees.found {old : Option SessionId} {freed : World} {id : Key} {t : SessionId}
    (frees : w.Frees host c r a old freed) (filing : w.Filing)
    (bound : (freed.application a).sessions.find? id = some t) :
    (w.application a).sessions.find? id = some t ∧ some t ≠ old := by
  have mapped : freed.Mapped a t := Bindings.mem_values_of_find? bound
  have other : some t ≠ old := fun is => (frees.gone t is.symm).unmapped mapped
  have issued := frees.orders.inOrder.issued mapped
  rw [frees.size] at issued
  have labelled := frees.orders.inOrder.same_id bound
  rw [frees.session t other] at labelled
  rw [← Bindings.find?_congr _ labelled]
  exact ⟨filing.find? (frees.orders.refiles.mapped a t issued mapped), other⟩

theorem Frees.renewed {old : Option SessionId} {freed pointed last : World} {id : Key} {opening : Opening}
    (frees : w.Frees host c r a old freed) (filing : w.Filing) (known : a.number < pointed.applications.size)
    (prepares : freed.Prepares pointed) (application : pointed.application a = freed.application a)
    (sessions : pointed.sessions = freed.sessions)
    (opens : (pointed.looking a (w.listenerAt c)).Opens host r (w.listenerAt c) a id opening last) :
    ∃ renewal, w.Renewed host c r a old id renewal pointed.sessions.next { last with holds := w.holds } := by
  let looked := pointed.looking a (w.listenerAt c)
  let made := (looked.insertSession a id opening.stale).2
  have looks : looked.application a = _ := (pointed.respects_touchApplication a).application a known
  rw [application] at looks
  have name : (looked.application a).name = (w.application a).name := by
    rw [looks]
    exact name_eq_of_marks (frees.orders.calm.marks a)
  have scope : (looked.application a).scope = (w.application a).scope := by
    rw [looks]
    exact frees.scope
  have own : (made.session pointed.sessions.next).scope = looked.scopes.next :=
    (looked.session_insertSession_next a id opening.stale).1
  have seeded : made.scope looked.scopes.next = sessionScope id (w.application a).name looked.clock := by
    rw [← name]
    exact looked.scope_insertSession a id opening.stale
  have stale : ∀ t, opening.stale = some t → (w.application a).sessions.find? id = some t ∧ some t ≠ old := by
    intro t is
    have bound := opens.stale t is
    rw [looks] at bound
    exact frees.found filing bound
  have asks : opening.stale.toList.flatMap (looked.endings a) = opening.stale.toList.flatMap (w.endings a) := by
    cases is : opening.stale with
    | none => rfl
    | some t =>
      have session : looked.session t = w.session t := by
        rw [← frees.session t (stale t is).2, World.session, World.session, ← sessions]
        rfl
      simp only [Option.toList_some, List.flatMap_cons, List.flatMap_nil, endings, session, scope]
  obtain ⟨ended, asked, calling⟩ := frees.calls
  have makes : freed.Prepares made := ⟨prepares.functions, prepares.listeners, prepares.journal⟩
  refine ⟨⟨opening, ended, made⟩, {
    created := congrArg Id.mk ((congrArg Table.size sessions).trans frees.size)
    ended := asked
    ends := ?_
    seeded := ⟨looked.clock, by rw [own]; exact seeded⟩
    stale
    replaced := opens.replaced.trans asks
    replaces := ?_
    untouched := fun none => ?_
    ran := opens.ran
    lets := opens.lets
    settled := by rw [opens.settled]; rfl }⟩
  · have reaches : Calling host (Apartly (w.application a).name a) freed [] made := .prepare makes (.done made)
    have all := calling.trans reaches
    rwa [List.append_nil] at all
  · rw [← name]
    exact opens.calls
  · rw [own, seeded, ← name]
    refine Eq.trans ?_ (opens.untouched none)
    exact congrArg opening.ready.scope opens.scope

/-- The session is the one that the map has under the id, or a new one that came in place of the old. -/
def Succeeded (w : World) (host : Host) (c r : ContextId) (a : ApplicationId) (old : Option SessionId) (id : Option Key)
    (fresh : SessionId) (later : World) : Prop :=
  ∃ key, (∀ given, id = some given → key = given) ∧
    (((w.application a).sessions.find? key = some fresh ∧ some fresh ≠ old) ∨ ∃ renewal,
      w.Renewed host c r a old key renewal fresh later)

end World

/-- Once the request is free of its session it gets another one. -/
theorem after_initializeSession_renews {old : Option SessionId} {freed : World} (work : w.AtWork c r a)
    (grounded : w.Grounded) (served : w.Served r) (frees : w.Frees (hostOf (execute fuel)) c r a old freed) (id : Option Key) :
    After (do initializeSession (hostOf (execute fuel)) c (← orDrawnId id)) freed
      (fun fresh later => w.Succeeded (hostOf (execute fuel)) c r a old id fresh { later with holds := w.holds })
      (fun _ _ => True) := by
  obtain ⟨request, there, bare, listener⟩ := frees.bare
  have draws : (orDrawnId id).Achieves freed fun key named => (∀ given, id = some given → key = given) ∧
      named = { freed with drawn := named.drawn } := by
    cases id with
    | none => exact (achieves_modifyGet _).mpr ⟨fun _ none => (by cases none), rfl⟩
    | some given => exact (achieves_pure _).mpr ⟨fun _ same => Option.some.inj same, rfl⟩
  rw [after_bind]
  refine draws.after.mono ?_ (fun _ _ (never : False) => never.elim)
  rintro key named ⟨given, is⟩
  generalize named.drawn = drawn at is
  subst is
  have freely := work.orders frees.orders
  let named : World := { freed with drawn }
  let pointed := named.modifyRequest r fun request => { request with sessionId := some key }
  have names : freed.Orders named := freely.inOrder.orders_of_rows (calm_of_same rfl rfl rfl rfl rfl (Int.le_refl _)) rfl rfl rfl
  have points : freed.Moves pointed := names.toMoves.trans <| names.inOrder.moves_setSessionId r key fun now s here held => by
    cases there.symm.trans here
    simp [standingOf, bare] at held
  have ready := freely.moves points
  have at_ : (pointed.context r).request? = some { request with sessionId := some key } := by
    rw [request?_modifyRequest, if_pos rfl, show (named.context r).request? = some request from there]
    rfl
  obtain ⟨contexts, is⟩ := named.modifyRequest_eq r fun request => { request with sessionId := some key }
  have application : pointed.application a = freed.application a := by rw [show pointed = _ from is]; rfl
  have calm := (frees.orders.toMoves.trans points).calm
  have beneath : pointed.Served r := by
    obtain ⟨before, -, here⟩ := requestOf_home work.running.home
    exact served.calm (issued_of_request here) calm
  have opens : (ensureSession (hostOf (execute fuel)) c).After pointed _ _ :=
    after_ensureSession_opens ready (calm.grounded grounded) beneath at_ bare rfl
  simp only [initializeSession, after_bind]
  refine (achieves_setSessionId_bare (w := named) (freely.orders names).running.home there bare key).after.mono ?_
    (fun _ _ (never : False) => never.elim)
  rintro _ _ rfl
  refine opens.partly ?_
  rintro (_ | fresh) later got
  · trivial
  · refine ⟨key, given, ?_⟩
    rcases got fresh rfl with bound | ⟨rfl, opening, last, opened, rfl⟩
    · rw [application] at bound
      exact .inl (frees.found work.inOrder.toFiling bound)
    · have prepares : freed.Prepares pointed := by
        rw [show pointed = _ from is]
        exact ⟨rfl, rfl, rfl⟩
      have sessions : pointed.sessions = freed.sessions := by rw [show pointed = _ from is]
      rw [listener] at opened
      have renewed := frees.renewed work.inOrder.toFiling ready.issued prepares application sessions opened
      exact .inr renewed

theorem after_replaceSession_renews (work : w.AtWork c r a) (grounded : w.Grounded) (served : w.Served r)
    (id : Option Key) :
    After (holding (.application a) do
      if let some old := w.currentSession c a then
        let _ ← modifyGet (·.dropSession a old)
        retireSession (hostOf (execute fuel)) c a old
      initializeSession (hostOf (execute fuel)) c (← orDrawnId id)) (w.excise c .session).2
      (fun fresh later => (∀ s, w.currentSession c a = some s → later.Gone a s) ∧
        w.Succeeded (hostOf (execute fuel)) c r a (w.currentSession c a) id fresh later) (fun _ _ => True) := by
  have renews : ∀ freed, w.Frees (hostOf (execute fuel)) c r a (w.currentSession c a) freed →
      After (do initializeSession (hostOf (execute fuel)) c (← orDrawnId id)) freed
        (fun fresh last => (∀ s, w.currentSession c a = some s → { last with holds := w.holds }.Gone a s) ∧
          w.Succeeded (hostOf (execute fuel)) c r a (w.currentSession c a) id fresh { last with holds := w.holds })
        (fun _ _ => True) := by
    intro freed frees
    have rules := leadsIf_rules course_moves lasting_true (c := c) (a := a)
    have moves := rules.bind (rules.orDrawnId id) (fun key =>
      moves_initializeSession (ordered_execute fuel) (serene_execute fuel) key) r freed ⟨work.orders frees.orders, trivial⟩
    refine ((after_initializeSession_renews work grounded served frees id).and moves).partly ?_
    rintro fresh last ⟨renewed, moves⟩
    exact ⟨fun s is => (frees.gone s is).refiles (moves.refiles.trans (moves.inOrder.orders_holds w.holds).refiles), renewed⟩
  rw [after_holding, w.holds_excise c]
  change After _ (w.loose c a) _ _
  cases current : w.currentSession c a with
  | none =>
    rw [current] at renews
    exact renews _ work.frees_none
  | some old =>
    rw [current] at renews
    have retires := after_dropThenRetire_frees work grounded served (work.current current) fuel
    simp only [after_bind, after_modifyGet] at retires ⊢
    refine retires.partly ?_
    intro _ freed frees
    have rest := renews freed frees
    rw [after_bind] at rest
    exact rest

theorem World.Regular.ensured {old : Nat} (regular : w.Regular old) (grounded : w.Grounded) (home : w.home c = some r)
    (served : w.Served r) (ensured : ensureApplication (hostOf (execute fuel)) c w = (.ok (some a), later)) :
    later.AtWork c r a ∧ later.Grounded ∧ later.Served r := by
  have works := after_ensureApplication_atWork (ordered_execute fuel) (serene_execute fuel) regular home
  have settles := after_ensureApplication_settles (serene_execute fuel) regular.sane c
  have programs := grows_order.programs
  have grows : Grows w _ := programs.ensureApplication (programs.hostOf (programs.execute fuel)) c w
  obtain ⟨request, -, there⟩ := requestOf_home home
  rw [After, ensured] at works settles
  rw [ensured] at grows
  refine ⟨works.2 a rfl, settles.1.grounded grounded, ?_⟩
  exact served.still (issued_of_request there) grows.extends_ fun _ known =>
    grows.view known ContextKind.type fun kind => by cases kind <;> rfl

/-- Whatever happened before, if an invalidation succeeds then the session that the request worked with is gone, with its end
hook called once if it was started. The session that the request gets is a new one, whose scope starts from its seeds and
whose start hook was called, unless the id stands for another session that the map has; then it gets that one. -/
theorem invalidateSession_renews (fuel : Nat) (start before : World) (occurrences : List Occurrence) (unfiled : start.Unfiled)
    (ran : Occurrence.runAll (hostOf (execute fuel)) start occurrences = some before) (c : ContextId)
    (served : ∀ r, before.home c = some r → before.Served r) (id : Option Key) :
    (invalidateSession (hostOf (execute fuel)) c id).After before
      (fun fresh later => ∃ w r a, ensureApplication (hostOf (execute fuel)) c before = (.ok (some a), w) ∧
        w.home c = some r ∧ (∀ s, w.currentSession c a = some s → later.Gone a s) ∧
        ∃ key, (∀ given, id = some given → key = given) ∧
          (((w.application a).sessions.find? key = some fresh ∧ some fresh ≠ w.currentSession c a) ∨ ∃ renewal,
            w.Renewed (hostOf (execute fuel)) c r a (w.currentSession c a) key renewal fresh later))
      (fun _ _ => True) := by
  obtain ⟨regular, grounded⟩ := Occurrence.regular_runAll fuel unfiled.regular unfiled.grounded occurrences ran
  simp only [invalidateSession, after_bind, after_get]
  split
  · trivial
  · rw [after_bind]
    cases home : before.home c with
    | none =>
      refine (homeless_ensureApplication home).sure (fun found later done => ?_)
      obtain ⟨rfl, rfl⟩ := done
      trivial
    | some r =>
      refine (after_ran _ _).partly ?_
      rintro (_ | a) w ensured
      · trivial
      · obtain ⟨work, grounded, below⟩ := regular.ensured grounded home (served r home) ensured
        refine (after_replaceSession_renews work grounded below id).partly ?_
        intro fresh later done
        exact ⟨w, r, a, ensured, work.running.home, done⟩

def neighbours : List Occurrence :=
  [.performed (.newRequest ⟨0⟩), .performed (.setSessionId ⟨1⟩ (.of "bob")), .performed (.touchSession ⟨1⟩),
    .performed (.newRequest ⟨0⟩), .performed (.setSessionId ⟨5⟩ (.of "alice")), .performed (.touchSession ⟨5⟩)]

theorem invalidateSession_renews_neighbours : ∃ before,
    Occurrence.runAll (hostOf (execute 3)) (shop touchThenWrite) neighbours = some before ∧ before.sessions.size = 2 ∧
    (invalidateSession (hostOf (execute 3)) ⟨5⟩ none before).1.toOption = some ⟨2⟩ ∧
    (invalidateSession (hostOf (execute 3)) ⟨5⟩ none).After before
      (fun fresh later => ∃ w r a, ensureApplication (hostOf (execute 3)) ⟨5⟩ before = (.ok (some a), w) ∧
        w.home ⟨5⟩ = some r ∧ (∀ s, w.currentSession ⟨5⟩ a = some s → later.Gone a s) ∧
        ∃ key, (∀ given, none = some given → key = given) ∧
          (((w.application a).sessions.find? key = some fresh ∧ some fresh ≠ w.currentSession ⟨5⟩ a) ∨ ∃ renewal,
            w.Renewed (hostOf (execute 3)) ⟨5⟩ r a (w.currentSession ⟨5⟩ a) key renewal fresh later))
      (fun _ _ => True) := by
  have ends : (Occurrence.runAll (hostOf (execute 3)) (shop touchThenWrite) neighbours).map (fun w =>
      (w.sessions.size, w.home ⟨5⟩, (w.serverOf ⟨5⟩).isSome,
        (invalidateSession (hostOf (execute 3)) ⟨5⟩ none w).1.toOption)) = some (2, some ⟨5⟩, true, some ⟨2⟩) := by
    decide +kernel
  obtain ⟨before, ran, same⟩ := Option.map_eq_some_iff.mp ends
  simp only [Prod.mk.injEq] at same
  obtain ⟨size, home, below, succeeds⟩ := same
  refine ⟨before, ran, size, succeeds, ?_⟩
  refine invalidateSession_renews 3 (shop touchThenWrite) before neighbours (unfiled_shop (by decide)) ran ⟨5⟩ (fun r at_ => ?_) none
  cases home.symm.trans at_
  exact served_of_serverOf below

/-- A client that asks for the id of another client gets the session of that one, which was there before the call. -/
theorem invalidateSession_hands_over_session :
    (Occurrence.runAll (hostOf (execute 3)) (shop touchThenWrite) neighbours).map (fun w =>
      (w.sessions.size, (invalidateSession (hostOf (execute 3)) ⟨5⟩ (some (.of "bob")) w).1.toOption)) =
        some (2, some ⟨0⟩) := by
  decide +kernel

end ScopeEngine
