import ScopeEngine.Proofs.Readiness.Touches
import ScopeEngine.Proofs.Rotation.Opening

/-! Starts of applications and sessions. A request that finds no live one of its name or id registers a new one and takes it in
before the start hook is called; a session that is over is retired in between. If the hook does not let the start proceed, the
new one has to leave again. -/

namespace ScopeEngine

open ScopeEngine.Action World

theorem IdleLimit.exceeded_tick (limit : IdleLimit) (t : Instant) :
    limit.exceeded t.millis (Instant.mk (t.nanos + 1)).millis = false := by
  have ticks : (t.nanos + 1).fdiv 1000000 = t.nanos.fdiv 1000000 ∨ (t.nanos + 1).fdiv 1000000 = t.nanos.fdiv 1000000 + 1 := by
    rw [Int.fdiv_eq_ediv_of_nonneg _ (by decide), Int.fdiv_eq_ediv_of_nonneg _ (by decide)]
    omega
  unfold exceeded
  split
  · rfl
  · rename_i limited
    rcases ticks with same | next
    · simp [Instant.millis, same]
    · have one : Int64.ofInt (t.nanos.fdiv 1000000 + 1) - Int64.ofInt (t.nanos.fdiv 1000000) = 1 := by
        rw [Int64.ofInt_add]
        grind
      have least : ¬ limit < (1 : Int64).toUInt64 := by
        intro below
        have none : limit.toNat < 1 := UInt64.lt_iff_toNat_lt.mp below
        exact limited (UInt64.toNat_inj.mp (Nat.lt_one_iff.mp none))
      simp only [Instant.millis, next, one, least, decide_false, Bool.and_false]

namespace World

def enrolled (w : World) (name : Key) (settings : Settings) : World :=
  { (w.newApplication name settings).2 with registry := w.registry.insert name w.applications.next }

def hosted (w : World) (r : ContextId) (a : ApplicationId) : World :=
  (w.addNode (.application a)).2.modifyRequest r (·.splice (.application w.contexts.next))

def taken (w : World) (r : ContextId) (a : ApplicationId) : World :=
  ((w.touchApplication a).hosted r a).beginApplicationStart a

/-- The world in which the start hook of the new application of a request is called. -/
def founding (w : World) (r : ContextId) (request : Request) : World :=
  ({ w.unhosted r with holds := .application w.applications.next :: .listener request.listener :: w.holds }.enrolled
    request.settings.applicationKey request.settings).taken r w.applications.next

abbrev newcomer (w : World) (settings : Settings) : Application where
  name := settings.applicationKey
  scope := w.scopes.next
  starting := true
  created := w.clock
  lastAccess := (Instant.mk (w.clock.nanos + 1)).millis
  timeout := .ofDuration settings.applicationLimit
  sessionTimeout := .ofDuration settings.sessionLimit

def founded (w : World) (a : ApplicationId) (l : ListenerId) : World :=
  ((w.keepListener a l).applicationStarted a).leaveApplicationStart a

/-- The start of an application was refused: the application is marked, it left the registry, and nobody is starting it any
more. -/
def unfounded (w : World) (a : ApplicationId) : World :=
  ((w.applicationRefused a).unregister a).2.leaveApplicationStart a

/-- The name has no live application: what is registered under it, and whatever goes by it, is defunct. -/
structure Vacant (w : World) (name : Key) : Prop where
  single : w.registry.Single name
  registered : ∀ a, w.registry.find? name = some a → (w.application a).isDefunct = true
  named : ∀ a, ((w.application a).name == name) = true → (w.application a).isDefunct = true

/-- The request at `r` wants an application, and there is a server above it. -/
structure Asks (w : World) (c r : ContextId) (request : Request) : Prop where
  found : w.requestOf c = some (r, request)
  wanted : request.settings.hasApplication = true
  attached : request.detached = false
  served : (w.serverOf r).isSome = true

variable {w : World} {a b : ApplicationId} {c r : ContextId} {name : Key} {settings : Settings} {request : Request}

section

variable (w : World)

theorem findOrCreateApplication_of_vacant (settings : Settings)
    (vacant : ∀ a, w.registry.find? name = some a → (w.application a).isDefunct = true) :
    w.findOrCreateApplication name settings = (w.applications.next, w.enrolled name settings) := by
  simp only [findOrCreateApplication]
  split
  next a registered =>
    rw [if_pos (vacant a registered)]
    rfl
  next => rfl

theorem enrolled_eq (name : Key) (settings : Settings) : w.enrolled name settings = { w with
    applications := w.applications.add {
      name, scope := w.scopes.next, created := w.clock, lastAccess := w.clock.millis
      timeout := .ofDuration settings.applicationLimit, sessionTimeout := .ofDuration settings.sessionLimit }
    scopes := w.scopes.add (seedApplication name (.new ScopeName.application.key))
    registry := w.registry.insert name w.applications.next
    clock := ⟨w.clock.nanos + 1⟩ } :=
  rfl

theorem hosted_eq (r : ContextId) (a : ApplicationId) : ∃ contexts, w.hosted r a = { w with contexts } :=
  noded_eq ..

theorem request?_hosted (at_ : (w.context r).request? = some request) (a : ApplicationId) :
    ((w.hosted r a).context r).request? = some (request.splice (.application w.contexts.next)) :=
  request?_noded at_ ..

theorem kind_hosted (r : ContextId) (a : ApplicationId) :
    ((w.hosted r a).context w.contexts.next).kind = .application a :=
  kind_noded _ _ _ fun _ same => by cases same

theorem unhosted_eq (r : ContextId) : ∃ contexts, w.unhosted r = { w with contexts } := by
  rw [unhosted]
  split
  · obtain ⟨contexts, first⟩ := w.excise_contexts r .session
    obtain ⟨others, second⟩ := (w.excise r .session).2.excise_contexts r .application
    exact ⟨others, by rw [second, first]⟩
  · exact ⟨w.contexts, rfl⟩

theorem server?_modifyRequest (r t : ContextId) (change : Request → Request) :
    ((w.modifyRequest r change).context t).server? = (w.context t).server? := by
  rcases w.kind_modifyRequest r t change with same | ⟨_, _, before, after⟩
  · simp only [Context.server?, same]
  · simp only [Context.server?, before, after]

theorem serverOf_modifyRequest {r : ContextId} (issued : r.number < w.contexts.size)
    (change : Request → Request) : (w.modifyRequest r change).serverOf r = w.serverOf r := by
  simp only [serverOf, (w.extends_modifyRequest r change).ancestry r issued, server?_modifyRequest]

end

theorem Asks.unhosted (asks : w.Asks c r request) :
    (∃ bare, ((w.unhosted r).context r).request? = some bare) ∧ ((w.unhosted r).serverOf r).isSome = true := by
  have there := request?_of_requestOf asks.found
  rw [World.unhosted]
  split
  · rw [excise_both (requestOf_self there), serverOf_modifyRequest w (issued_of_request there), request?_modifyRequest, if_pos rfl,
      there]
    exact ⟨⟨_, rfl⟩, asks.served⟩
  · exact ⟨⟨request, there⟩, asks.served⟩

section

variable (w : World) (r : ContextId)

theorem taken_new (row : Application) : ∃ contexts,
    taken { w with applications := w.applications.add row } r w.applications.next = { w with
      contexts, applications := w.applications.add { row with lastAccess := w.clock.millis, starting := true }
      clock := ⟨w.clock.nanos + 1⟩ } := by
  let made : World := { w with applications := w.applications.add row }
  have touches : made.touchApplication w.applications.next = _ := w.readClock.2.modifyApplication_new row fun application =>
    { application with lastAccess := w.clock.millis }
  obtain ⟨contexts, hosts⟩ := (made.touchApplication w.applications.next).hosted_eq r w.applications.next
  rw [touches] at hosts
  refine ⟨contexts, ?_⟩
  rw [taken, show touchApplication _ _ = _ from touches, hosts]
  exact modifyApplication_new { w.readClock.2 with contexts } { row with lastAccess := w.clock.millis } fun application =>
    { application with starting := true }

theorem founding_eq (request : Request) : ∃ contexts, w.founding r request = { w with
    contexts, applications := w.applications.add (w.newcomer request.settings)
    scopes := w.scopes.add (seedApplication request.settings.applicationKey (.new ScopeName.application.key))
    registry := w.registry.insert request.settings.applicationKey w.applications.next
    clock := ⟨w.clock.nanos + 1 + 1⟩, holds := .application w.applications.next :: .listener request.listener :: w.holds } := by
  obtain ⟨before, is⟩ := w.unhosted_eq r
  have takes := taken_new { w with
    contexts := before, clock := ⟨w.clock.nanos + 1⟩
    scopes := w.scopes.add (seedApplication request.settings.applicationKey (.new ScopeName.application.key))
    registry := w.registry.insert request.settings.applicationKey w.applications.next
    holds := .application w.applications.next :: .listener request.listener :: w.holds } r {
      name := request.settings.applicationKey, scope := w.scopes.next, created := w.clock, lastAccess := w.clock.millis
      timeout := .ofDuration request.settings.applicationLimit
      sessionTimeout := .ofDuration request.settings.sessionLimit }
  rw [founding, is, enrolled_eq]
  dsimp only [newcomer] at takes ⊢
  exact takes

theorem application_founding (request : Request) (b : ApplicationId) :
    (w.founding r request).application b =
      if b = w.applications.next then w.newcomer request.settings else w.application b := by
  obtain ⟨contexts, is⟩ := w.founding_eq r request
  rw [is]
  exact Table.get_add ..

theorem size_founding (request : Request) : (w.founding r request).applications.size = w.applications.size + 1 := by
  obtain ⟨contexts, is⟩ := w.founding_eq r request
  rw [is]
  exact Table.size_add ..

end

theorem unfounded_eq (w : World) (a : ApplicationId) :
    w.unfounded a = { w with applications := (w.unfounded a).applications, registry := (w.unfounded a).registry } := by
  simp only [unfounded, unregister]
  split <;> rfl

theorem application_unfounded (w : World) (a b : ApplicationId) :
    (w.unfounded a).application b = if a = b ∧ a.number < w.applications.size then
      { w.application a with discarded := true, starting := false } else w.application b := by
  have size : (w.applicationRefused a).applications.size = w.applications.size := Table.size_set ..
  have refused : ∀ b, ((w.applicationRefused a).unregister a).2.application b = (w.applicationRefused a).application b := by
    intro b
    rw [application, unregister_applications, application]
  rw [unfounded, leaveApplicationStart, application_modify, unregister_applications, size, refused, refused, applicationRefused,
    application_modify, application_modify]
  by_cases here : a = b ∧ a.number < w.applications.size
  · rw [if_pos here, if_pos here, if_pos ⟨rfl, here.2⟩]
  · rw [if_neg here, if_neg here, if_neg here]

theorem size_unfounded (w : World) (a : ApplicationId) : (w.unfounded a).applications.size = w.applications.size := by
  have size : (w.applicationRefused a).applications.size = w.applications.size := Table.size_set ..
  rw [unfounded, leaveApplicationStart, modifyApplication, setApplication, Table.size_set, unregister_applications, size]

theorem name_unfounded (w : World) (a : ApplicationId) :
    ((w.unfounded a).application a).name = (w.application a).name := by
  rw [application_unfounded]
  split <;> rfl

theorem registry_unfounded (registered : w.registry.find? (w.application a).name = some a) :
    (w.unfounded a).registry = w.registry.erase (w.application a).name := by
  have name : ((w.applicationRefused a).application a).name = (w.application a).name :=
    application_modify_keeps w a a Application.name fun _ => rfl
  have there : (w.applicationRefused a).registry.find? ((w.applicationRefused a).application a).name = some a := by
    rw [name]
    exact registered
  have leaves : (w.unfounded a).registry = _ := unregister_registered there
  rw [leaves, name]
  rfl

end World

variable {w : World} {c r : ContextId} {request : Request} {a : ApplicationId} {host : Host} {l : ListenerId} {cause : Error}
  {refused hooked : World} {outcome : Except Error Value}

theorem achieves_spliceApplication (at_ : (w.context r).request? = some request) (a : ApplicationId) :
    (spliceNew r (.application a)).Achieves w fun _ later => later = w.hosted r a := by
  have there := request?_addNode at_ (.application a)
  rw [Achieves, spliceNew_eq r _ rfl, requestOf_self there]
  exact ⟨⟨⟩, _, rfl, rfl⟩

/-- What a start comes to after its hook: it proceeds and leaves what `keep` makes of the new application, or it fails and leaves
what `rid` makes of the refused start. -/
def Verdict {α : Type} (l : ListenerId) (outcome : Except Error Value) (hooked : World) (a : ApplicationId) (answer : α)
    (keep rid : World → World) (ran : Except Interruption α × World) : Prop :=
  match refusal .applicationStart outcome with
  | none => ran = (.ok answer, keep (hooked.founded a l))
  | some cause => ran = (.error (.failed (.startFailed .applicationStart ((hooked.unfounded a).application a).name.name cause)),
      rid (hooked.unfounded a))

theorem startApplication_verdict (fresh : (w.application a).startState = .fresh)
    (called : attempt (callHook host l .applicationStart r []) (w.beginApplicationStart a) = (.ok outcome, hooked)) :
    Verdict l outcome hooked a true id id (startApplication host a r l w) := by
  have runs : startApplication host a r l w = settleApplication a l (refusal .applicationStart outcome) hooked := by
    rw [startApplication, bind_apply, get_apply]
    simp only [fresh, bind_apply, modify_apply, called]
  rw [runs, Verdict]
  cases refusal .applicationStart outcome <;> rfl

section

variable (at_ : (w.context r).request? = some request) (lasting : (w.application a).isExpiredAt w.clock = false)
  (fresh : (w.application a).startState = .fresh)
include at_ lasting fresh

omit at_ lasting in
theorem World.fresh_hosted (r : ContextId) : (((w.touchApplication a).hosted r a).application a).startState = .fresh := by
  obtain ⟨contexts, is⟩ := (w.touchApplication a).hosted_eq r a
  have touches : ((w.touchApplication a).application a).startState = (w.application a).startState :=
    application_modify_keeps w.readClock.2 a a Application.startState fun _ => rfl
  rw [is]
  exact touches.trans fresh

theorem adoptApplication_verdict
    (called : attempt (callHook host l .applicationStart r []) (w.taken r a) = (.ok outcome, hooked)) :
    Verdict l outcome hooked a true id (fun later => (later.excise r .application).2) (adoptApplication host r a l w) := by
  have there : ((w.touchApplication a).context r).request? = some request := at_
  obtain ⟨_, _, spliced, rfl⟩ := achieves_spliceApplication there a
  have starts := startApplication_verdict (fresh_hosted fresh r) called
  rw [adoptApplication, bind_apply, get_apply]
  simp only [lasting, Bool.false_eq_true, if_false, bind_apply, modify_apply, spliced, attempt]
  unfold Verdict at starts ⊢
  cases verdict : refusal .applicationStart outcome <;> simp only [verdict] at starts <;> rw [starts] <;> rfl

end

namespace World

theorem enrolled_fresh (w : World) (name : Key) (settings : Settings) :
    ((w.enrolled name settings).application w.applications.next).isExpiredAt (w.enrolled name settings).clock = false ∧
      ((w.enrolled name settings).application w.applications.next).startState = .fresh := by
  rw [enrolled_eq, application, Table.get_add_next]
  exact ⟨IdleLimit.exceeded_tick _ w.clock, rfl⟩

end World

section

variable (at_ : (w.context r).request? = some request) {name : Key}
  (vacant : ∀ a, w.registry.find? name = some a → (w.application a).isDefunct = true) (settings : Settings)
include at_ vacant

theorem acquireApplication_verdict (called : attempt (callHook host l .applicationStart r [])
      (({ w with holds := .application w.applications.next :: w.holds }.enrolled name settings).taken r w.applications.next) =
        (.ok outcome, hooked)) (fuel : Nat) :
    Verdict l outcome hooked w.applications.next w.applications.next (fun later => { later with holds := w.holds })
      (fun later => { (later.excise r .application).2 with holds := w.holds })
      (acquireApplication host r name settings l (fuel + 1) w) := by
  let held : World := { w with holds := .application w.applications.next :: w.holds }
  have there : ((held.enrolled name settings).context r).request? = some request := at_
  obtain ⟨lasting, fresh⟩ := held.enrolled_fresh name settings
  have adopts := adoptApplication_verdict there lasting fresh called
  have holds : holding (.application w.applications.next) (adoptApplication host r w.applications.next l)
      (w.enrolled name settings) = ((adoptApplication host r held.applications.next l (held.enrolled name settings)).1,
        { (adoptApplication host r held.applications.next l (held.enrolled name settings)).2 with holds := w.holds }) := rfl
  rw [acquireApplication, bind_apply, modifyGet_apply, w.findOrCreateApplication_of_vacant settings vacant]
  simp only [bind_apply, holds]
  unfold Verdict at adopts ⊢
  cases verdict : refusal .applicationStart outcome <;> simp only [verdict] at adopts <;> rw [adopts]
  rfl

end

section

variable (asks : w.Asks c r request)
include asks

/-- A request that has no application it could use looks one up. -/
theorem ensureApplication_acquires (lacks : ∀ b, w.splicedApplication r = some b →
      ((w.application b).name == request.settings.applicationKey) = true → (w.application b).isDefunct = true)
    {result : Except Interruption ApplicationId} {later : World}
    (acquired : acquireApplication host r request.settings.applicationKey request.settings request.listener host.patience
      { w.unhosted r with holds := .listener request.listener :: w.holds } = (result, later)) :
    ensureApplication host c w = (result.map some, { later with holds := w.holds }) := by
  have here := requestOf_self (request?_of_requestOf asks.found)
  have served : ((w.unhosted r).serverOf r).isNone = false := by
    rw [← Option.not_isSome, asks.unhosted.2]
    rfl
  have acquires : ensureApplication.acquire host r request request.settings.applicationKey (w.unhosted r) =
      (result.map some, { later with holds := w.holds }) := by
    obtain ⟨contexts, is⟩ := w.unhosted_eq r
    rw [ensureApplication.acquire, bind_apply, get_apply]
    simp only [served, Bool.false_eq_true, if_false]
    rw [is] at acquired ⊢
    simp only [holding, map_apply]
    exact congrArg (fun ran : Except Interruption ApplicationId × World => (ran.1.map some, { ran.2 with holds := w.holds }))
      acquired
  rw [← acquires, ensureApplication, bind_apply, get_apply]
  simp only [asks.found, asks.wanted, Bool.not_true, Bool.false_eq_true, if_false]
  rw [bind_apply, get_apply]
  cases spliced : w.splicedApplication r with
  | none => simp only [World.unhosted, spliced, Option.isSome_none, Bool.false_eq_true, if_false]
  | some b =>
    have unfit : ((w.application b).name == request.settings.applicationKey &&
        (request.detached || !(w.application b).isDefunct)) = false := by
      cases named : (w.application b).name == request.settings.applicationKey with
      | false => rfl
      | true => simp [lacks b spliced named, asks.attached]
    simp only [World.unhosted, spliced, Option.isSome_some, if_true, unfit, Bool.false_eq_true, if_false]
    rfl

/-- The touch of a request whose name has no live application has the start hook of a new one called. -/
theorem ensureApplication_verdict (vacant : w.Vacant request.settings.applicationKey) (patient : 0 < host.patience)
    (called : attempt (callHook host request.listener .applicationStart r []) (w.founding r request) = (.ok outcome, hooked)) :
    Verdict request.listener outcome hooked w.applications.next (some w.applications.next)
      (fun later => { later with holds := w.holds })
      (fun later => { (later.excise r .application).2 with holds := w.holds }) (ensureApplication host c w) := by
  obtain ⟨fuel, patience⟩ := Nat.exists_eq_add_one.mpr patient
  obtain ⟨⟨bare, there⟩, -⟩ := asks.unhosted
  have ensures : ensureApplication host c w = _ := ensureApplication_acquires asks (fun b _ => vacant.named b) rfl
  obtain ⟨contexts, is⟩ := w.unhosted_eq r
  rw [founding] at called
  rw [is] at there called ensures
  rw [ensures, patience]
  let looking : World := { w with contexts, holds := .listener request.listener :: w.holds }
  have acquires := acquireApplication_verdict (w := looking) there vacant.registered request.settings called fuel
  unfold Verdict at acquires ⊢
  cases verdict : refusal .applicationStart outcome <;> simp only [verdict] at acquires <;> rw [acquires] <;> rfl

end

namespace World

/-- Touching the session of the request comes to looking the id up in the map of its application, in the world `looking`, and
the map has no live session under it. -/
structure Seeks (w : World) (host : Host) (c r : ContextId) (request : Request) (a : ApplicationId) (id : Key)
    (looking : World) : Prop where
  managed : ∃ before, w.requestOf c = some (r, before) ∧ before.settings.sessionManagement = true
  looks : ∃ mid chosen, ensureApplication host r w = (.ok (some a), mid) ∧ (mid.context r).request? = some request ∧
    chooseSessionId r request mid = (.ok id, chosen) ∧
    (∀ s, chosen.splicedSession r = some s → chosen.fitting a id s = false) ∧ looking = chosen.unseated r
  known : a.number < looking.applications.size
  usable : (looking.application a).shutDown = false
  single : (looking.application a).sessions.Single id
  issued : ∀ s, looking.stale a id = some s → s.number < looking.sessions.size
  vacant : ∀ s, looking.stale a id = some s → (looking.session s).isDefunctAt looking.clock = true

variable {looking : World} {id : Key}

section

variable (w : World) (request : Request)

theorem session_placing (a : ApplicationId) (id : Key) (t : SessionId) :
    (w.placing request a id).session t = if t = w.sessions.next then w.arrival a id else w.session t :=
  session_insertSession ..

theorem size_placing (a : ApplicationId) (id : Key) : (w.placing request a id).sessions.size = w.sessions.size + 1 ∧
      (w.placing request a id).applications.size = w.applications.size :=
  ⟨Table.size_add .., Table.size_set ..⟩

end

theorem extends_chooseSessionId {chosen : World} (chooses : chooseSessionId r request w = (.ok id, chosen)) :
    w.Extends chosen := by
  cases given : request.sessionId with
  | some id =>
    simp only [chooseSessionId, given] at chooses
    cases chooses
    exact .refl w
  | none =>
    simp only [chooseSessionId, given] at chooses
    cases chooses
    have draws : w.Extends w.drawSessionId.2 := extends_of_contexts rfl
    exact draws.trans (extends_modifyRequest ..)

theorem extends_excise (w : World) (c : ContextId) (type : ContextType) : w.Extends (w.excise c type).2 := by
  simp only [excise]
  split
  · exact extends_modifyRequest ..
  · exact .refl w

theorem Seeks.at_ {host : Host} (seeks : w.Seeks host c r request a id looking) :
    ∃ now, (looking.context r).request? = some now := by
  obtain ⟨mid, chosen, -, there, chooses, -, rfl⟩ := seeks.looks
  have chosen' := extends_chooseSessionId chooses
  have unseats : chosen.Extends (chosen.unseated r) := by
    rw [unseated]
    split
    · exact chosen.extends_excise r .session
    · exact .refl chosen
  have still := (chosen'.trans unseats).request r (issued_of_request there)
  rw [there] at still
  exact Option.isSome_iff_exists.mp still

end World

variable {looking cleared : World} {now : Request} {id : Key} {phase : Phase}

section

variable (seeks : w.Seeks host c r request a id looking)
  (retires : retireStale host r a (looking.stale a id) (looking.placing request a id) = (.ok (), cleared))
  (at_ : (cleared.context r).request? = some now) (fresh : (cleared.session looking.sessions.next).startState = .fresh)
  (patient : 0 < host.patience)
include seeks retires at_ fresh patient

omit retires at_ fresh in
theorem ensureSession_eq_claim :
    ∃ again : Action (Option SessionId), ensureSession host c w = claimSession host r request a id again looking := by
  obtain ⟨fuel, patience⟩ := Nat.exists_eq_add_one.mpr patient
  obtain ⟨before, found, managed⟩ := seeks.managed
  obtain ⟨mid, chosen, ensured, there, chooses, unfit, rfl⟩ := seeks.looks
  exact ⟨_, ensureSession_eq_claimSession patience found managed ensured there chooses unfit⟩

theorem achieves_ensureSession_opens
    (called : attempt (callHook host request.listener .sessionStart r []) (cleared.joining r looking.sessions.next) =
      (.ok outcome, hooked)) (lets : refusal .sessionStart outcome = none) :
    (ensureSession host c).Achieves w fun found _ => found = some looking.sessions.next := by
  obtain ⟨again, is⟩ := ensureSession_eq_claim seeks patient
  rw [Achieves, is, claimSession_run seeks.usable seeks.vacant retires at_ fresh patient (openSession_lets called lets ..)]
  exact ⟨_, _, rfl, rfl⟩

theorem fails_ensureSession_opens
    (refuses : host.Refuses .sessionStart request.listener r (cleared.joining r looking.sessions.next) cause refused) :
    (ensureSession host c).Fails w fun error later =>
      later = { ((refused.withdrawn a looking.sessions.next).excise r .session).2 with holds := looking.holds } ∧
      error = .startFailed .sessionStart
        ((refused.withdrawn a looking.sessions.next).session looking.sessions.next).id.name cause := by
  obtain ⟨again, is⟩ := ensureSession_eq_claim seeks patient
  rw [Fails, is, claimSession_run seeks.usable seeks.vacant retires at_ fresh patient (openSession_refused refuses ..)]
  exact ⟨_, _, rfl, rfl, rfl⟩

end

end ScopeEngine
