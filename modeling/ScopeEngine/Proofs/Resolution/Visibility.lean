import ScopeEngine.Proofs.Refusal.Openings
import ScopeEngine.Proofs.Resolution.Declarations

/-! Which scopes a place sees. Whatever scope can be had by its name at a place, and whatever scope owns a name that is found
there, is one of those visible there, with two exceptions: a plain function that was called from a component has the public
and the static members of the component at hand, but does not see them; and a start hook may take its instance out of the
request that started it. -/

namespace ScopeEngine

open ScopeEngine.Action Script World

/-- The request at `r` stands as the condition says. -/
def World.Stands (w : World) (r : ContextId) (part : Standing → Prop) : Prop :=
  ∃ standing, w.standing r = some standing ∧ part standing

/-- A start hook was called in the request at `r` while it stood as the condition says, and when the hook was done, the
request no longer did; since then nothing has changed in it. -/
def TakenOut (host : Host) (hook : Hook) (r : ContextId) (part : Standing → Prop) (later : World) : Prop :=
  ∃ l mid value hooked, mid.Stands r part ∧ callHook host l hook r [] mid = (.ok value, hooked) ∧ ¬ hooked.Stands r part ∧
    later.contexts = hooked.contexts

/-- How a scope can be had by its name without being visible afterwards. -/
inductive Overlooked (host : Host) (w : World) (c : ContextId) (later : World) : ScopeName → ScopeId → Prop
  /-- The component is not that of the code at `c` but of whoever called it. -/
  | members {t : ContextId} {k : ComponentId} {name : ScopeName} {s : ScopeId} (onward : (w.context c).handsOn = true)
      (ground : w.ground c = some t) (belongs : w.enclosingComponent t = some k) (inner : name = .self ∨ name = .shared)
      (own : (w.component k).scope? name = some s) : Overlooked host w c later name s
  | application {r : ContextId} {a : ApplicationId} (home : w.home c = some r)
      (out : TakenOut host .applicationStart r (·.application = some a) later) :
      Overlooked host w c later .application (later.application a).scope
  | session {r : ContextId} {s : SessionId} (home : w.home c = some r)
      (out : TakenOut host .sessionStart r (·.session = some s) later) :
      Overlooked host w c later .session (later.session s).scope

theorem nodup_eraseDups : (scopes : List ScopeId) → scopes.eraseDups.Nodup
  | [] => List.nodup_nil
  | s :: rest => by
    rw [List.eraseDups_cons, List.nodup_cons]
    exact ⟨by simp [List.mem_eraseDups], nodup_eraseDups _⟩
termination_by scopes => scopes.length
decreasing_by exact Nat.lt_succ_of_le (List.length_filter_le ..)

variable {host : Host} {w later : World} {c r : ContextId} {a : ApplicationId} {s : SessionId} {part : Standing → Prop}
  {hook : Hook} {key : Key} {name : ScopeName}

section Inside

variable {α β : Type} {action : Action α} {first : Action β} {next : β → Action α} {ok ok' : α → World → Prop}

abbrev Action.Brings (action : Action α) (w : World) (ok : α → World → Prop) : Prop :=
  action.After w ok fun _ _ => True

theorem Action.Brings.mono (brings : action.Brings w ok) (implies : ∀ a later, ok a later → ok' a later) :
    action.Brings w ok' :=
  After.mono brings implies fun _ _ _ => trivial

theorem brings_any (any : ∀ a later, ok a later) : action.Brings w ok :=
  (after_trivial action w).partly (fun a later _ => any a later)

def Inside (r : ContextId) (action : Action α) (ok : α → World → Prop) : Prop :=
  ∀ w : World, w.home r = some r → action.Brings w ok

theorem Inside.bind {mid : β → World → Prop} (leads : Leads Grows first) (inside : Inside r first mid)
    (rest : ∀ b (v : World), v.home r = some r → mid b v → (next b).Brings v ok) : Inside r (first >>= next) ok := by
  intro w home
  have runs := leads w
  rw [Brings, after_bind]
  refine ((inside w home).and (after_ran first w)).partly (fun b later done => rest b later ?_ done.1)
  rw [done.2] at runs
  exact (runs.extends_.home (issued_of_home home)).trans home

theorem Inside.after (leads : Leads Grows first) (rest : ∀ b, Inside r (next b) ok) : Inside r (first >>= next) ok := by
  have any : Inside r first fun _ _ => True := fun _ _ => brings_any fun _ _ => trivial
  exact Inside.bind leads any fun b v home _ => rest b v home

theorem Inside.holding {thing : Hold} (inside : Inside r action ok)
    (apart : ∀ a (later last : World), last.contexts = later.contexts → ok a later → ok a last) :
    Inside r (holding thing action) ok := by
  intro w home
  rw [Brings, after_holding]
  have held : w.Extends { w with holds := thing :: w.holds } := extends_of_contexts rfl
  exact Brings.mono (inside _ ((held.home (issued_of_home home)).trans home)) fun a _ => apart a _ _ rfl

end Inside

section Starts

theorem World.Stands.congr (stands : w.Stands r part) (same : later.contexts = w.contexts) : later.Stands r part := by
  rwa [Stands, standing_congr same]

/-- The request stands as the condition says, unless a start hook has put an end to that. -/
def Stays (host : Host) (hook : Hook) (r : ContextId) (part : Standing → Prop) (later : World) : Prop :=
  later.Stands r part ∨ TakenOut host hook r part later

theorem Stays.congr {last : World} (stays : Stays host hook r part later) (same : last.contexts = later.contexts) :
    Stays host hook r part last := by
  refine stays.imp (·.congr same) fun out => ?_
  obtain ⟨l, mid, value, hooked, here, ran, gone, since⟩ := out
  exact ⟨l, mid, value, hooked, here, ran, gone, same.trans since⟩

theorem brings_start (settle : Option Error → Action Bool) (stands : w.Stands r part) {begun : World → World}
    (begins : (begun w).contexts = w.contexts)
    (settles : ∀ v : World, (settle none).Brings v fun _ later => later.contexts = v.contexts)
    (refuses : ∀ cause v, (settle (some cause)).Brings v fun _ _ => False) (phase : Phase) (l : ListenerId)
    (state : StartState) :
    Brings (do
      match state with
      | .ready => pure true
      | .gone => pure false
      | .busy => exhausted
      | .fresh =>
        modify begun
        settle (refusal phase (← attempt (callHook host l hook r [])))) w
      fun started later => started = true → Stays host hook r part later := by
  cases state with
  | ready => exact fun _ => .inl stands
  | gone => exact fun no => by cases no
  | busy => trivial
  | fresh =>
    simp only [after_bind, after_modify, after_attempt]
    refine (after_ran _ _).mono (fun value hooked ran => ?_) (fun error hooked _ => ?_)
    · cases refusal phase (.ok value) with
      | some cause => exact (refuses cause hooked).mono fun _ _ never => never.elim
      | none =>
        refine (settles hooked).mono fun _ later same _ => ?_
        by_cases still : hooked.Stands r part
        · exact .inl (still.congr same)
        · exact .inr ⟨l, _, value, hooked, stands.congr begins, ran, still, same⟩
    · exact (refuses error hooked).mono fun _ _ never => never.elim

theorem brings_startApplication (stands : w.Stands r part) (l : ListenerId) :
    (startApplication host a r l).Brings w fun started later => started = true → Stays host .applicationStart r part later :=
  brings_start (settleApplication a l) stands rfl (fun _ => rfl) (fun _ _ => trivial) _ l (w.application a).startState

theorem brings_startSession (stands : w.Stands r part) (l : ListenerId) :
    (startSession host a s r l).Brings w fun started later => started = true → Stays host .sessionStart r part later :=
  brings_start (settleSession a s) stands rfl (fun _ => rfl) (fun _ _ => trivial) _ l (w.session s).startState

theorem inside_adoptApplication (l : ListenerId) : Inside r (adoptApplication host r a l) fun adopted later =>
      adopted = true → Stays host .applicationStart r (·.application = some a) later := by
  intro w home
  have gone : ∀ later, false = true → Stays host .applicationStart r (·.application = some a) later := fun _ no => by cases no
  obtain ⟨request, -, at_⟩ := requestOf_home home
  simp only [adoptApplication, Brings, after_bind, after_get]
  split
  · rw [after_bind, after_modifyGet]
    split
    · split
      · rw [after_bind]
        exact brings_any fun _ => gone
      · exact gone _
    · exact gone _
  · have touched : ((w.touchApplication a).context r).request? = some request := at_
    rw [after_bind, after_modify, after_bind]
    refine Brings.mono (achieves_spliceApplication touched a).after fun _ hosted same => ?_
    have stands : hosted.Stands r (·.application = some a) := by
      refine ⟨_, by rw [same, standing, request?_hosted _ touched a]; rfl, ?_⟩
      simp only [standingOf_splice_application, nodeApplication, kind_hosted]
    rw [after_bind, after_attempt]
    refine After.mono (brings_startApplication stands l) (fun started later stays => ?_) fun _ _ _ => trivial
    cases started with
    | true => exact stays
    | false => exact gone _

theorem inside_adoptSession (l : ListenerId) : Inside r (adoptSession host r a s l) fun adopted later =>
      adopted = true → Stays host .sessionStart r (·.session = some s) later := by
  intro w home
  obtain ⟨request, -, at_⟩ := requestOf_home home
  simp only [adoptSession, Brings, after_bind]
  have splices : (spliceNew r (.session s)).Achieves w fun _ later => later = w.joined r s :=
    ⟨_, _, spliceSession_run at_ s, rfl⟩
  refine Brings.mono splices.after fun _ joined same => ?_
  have stands : joined.Stands r (·.session = some s) := by
    refine ⟨_, by rw [same, standing, request?_joined at_ s]; rfl, ?_⟩
    simp only [standingOf_splice_session, nodeSession, kind_joined]
  rw [after_attempt]
  refine After.mono (brings_startSession stands l) (fun started later stays => ?_) fun _ _ _ => trivial
  cases started with
  | true => exact fun _ => (stays rfl).congr (visits_touchSession later s).contexts_eq
  | false => exact fun no => by cases no

end Starts

section Touches

variable (obeys : host.Obeys fun {_} action => Leads Grows action)
include obeys

theorem inside_acquireApplication (key : Key) (settings : Settings) (l : ListenerId) (fuel : Nat) :
    Inside r (acquireApplication host r key settings l fuel) fun a =>
      Stays host .applicationStart r (·.application = some a) := by
  have programs := grows_order.programs
  induction fuel with
  | zero => exact fun _ _ => trivial
  | succ fuel ih =>
    refine Inside.after (programs.instances fun w => w.tends_findOrCreateApplication key settings) fun a => ?_
    refine Inside.bind (programs.holding _ (programs.adoptApplication obeys r a l))
      ((inside_adoptApplication l).holding fun _ _ _ same stays adopted => (stays adopted).congr same)
      fun adopted v here stays => ?_
    cases adopted with
    | true => exact stays rfl
    | false => exact ih v here

theorem brings_ensureApplication (home : w.home c = some r) : (ensureApplication host c).Brings w fun found later =>
      ∀ a, found = some a → Stays host .applicationStart r (·.application = some a) later := by
  have programs := grows_order.programs
  have acquires : ∀ request key, Inside r (ensureApplication.acquire host r request key) fun found later =>
      ∀ a, found = some a → Stays host .applicationStart r (·.application = some a) later := by
    intro request key
    refine Inside.after programs.get fun v => ?_
    have acquires : Inside r (some <$> acquireApplication host r key request.settings request.listener host.patience)
        fun found later => ∀ a, found = some a → Stays host .applicationStart r (·.application = some a) later := by
      intro v here
      rw [Brings, after_map]
      refine Brings.mono (inside_acquireApplication obeys key _ _ _ v here) fun a later stays => ?_
      rintro _ ⟨⟩
      exact stays
    dsimp only
    split
    · exact fun _ _ => trivial
    · exact acquires.holding fun _ _ _ same stays a found => (stays a found).congr same
  obtain ⟨request, found, there⟩ := requestOf_home home
  have here := home_home home
  rw [ensureApplication, Brings, after_bind, after_get]
  simp only [found]
  split
  · rw [after_pure]
    exact fun _ no => by cases no
  · rw [after_bind, after_get]
    cases spliced : w.splicedApplication r with
    | none => exact acquires _ _ w here
    | some a =>
      dsimp only
      cases (w.application a).name == request.settings.applicationKey && (request.detached || !(w.application a).isDefunct) with
      | true =>
        rw [if_pos rfl, after_bind, after_modify, after_pure]
        rintro _ ⟨⟩
        refine .inl (Stands.congr ⟨_, by rw [standing, there]; rfl, ?_⟩
          (visits_touchApplication w a).contexts_eq)
        exact (splicedApplication_eq (requestOf_self there)).symm.trans spliced
      | false =>
        exact Inside.after (programs.excise r .session)
          (fun _ => Inside.after (programs.excise r .application) fun _ => acquires _ _) w here

theorem inside_acquireSession (id : Key) (l : ListenerId) (fuel : Nat) :
    Inside r (acquireSession host r a id l fuel) fun acquired later =>
      ∀ s, acquired = .session s → Stays host .sessionStart r (·.session = some s) later := by
  have programs := grows_order.programs
  induction fuel with
  | zero => exact fun _ _ => trivial
  | succ fuel ih =>
    refine Inside.after (programs.instances fun w => w.tends_findOrCreateSession a id) fun placed => ?_
    cases placed with
    | none => exact fun _ _ _ no => by cases no
    | some placed =>
      have adopts : Inside r (do
          if ← adoptSession host r a placed.session l then pure (.session placed.session)
          else acquireSession host r a id l fuel) fun acquired later =>
            ∀ s, acquired = .session s → Stays host .sessionStart r (·.session = some s) later := by
        refine Inside.bind (programs.adoptSession obeys r a placed.session l) (inside_adoptSession l)
          fun adopted v here stays => ?_
        cases adopted with
        | false => exact ih v here
        | true =>
          rintro _ ⟨⟩
          exact stays rfl
      dsimp only
      split
      · exact Inside.after (programs.retireSession obeys r a _) fun _ => adopts
      · exact adopts

theorem inside_claimSession (request : Request) (id : Key) {again : Action (Option SessionId)}
    (retries : Inside r again fun found later =>
      ∀ s, found = some s → Stays host .sessionStart r (·.session = some s) later) :
    Inside r (claimSession host r request a id again) fun found later =>
      ∀ s, found = some s → Stays host .sessionStart r (·.session = some s) later := by
  have programs := grows_order.programs
  refine Inside.holding (Inside.holding ?_ fun _ _ _ same stays s found => (stays s found).congr same)
    fun _ _ _ same stays s found => (stays s found).congr same
  refine Inside.bind (programs.acquireSession obeys r a id _ _) (inside_acquireSession obeys id _ _)
    fun acquired v here stays => ?_
  cases acquired with
  | session s =>
    rintro _ ⟨⟩
    exact stays s rfl
  | closed =>
    dsimp only
    split
    · trivial
    · exact Inside.after (programs.excise r .session)
        (fun _ => Inside.after (programs.excise r .application) fun _ => retries) v here

theorem brings_touchSessionOf (home : w.home c = some r) (fuel : Nat) :
    (touchSessionOf host c fuel).Brings w fun found later =>
      ∀ s, found = some s → Stays host .sessionStart r (·.session = some s) later := by
  have programs := grows_order.programs
  induction fuel generalizing w c with
  | zero => trivial
  | succ fuel ih =>
    have claims : ∀ request a id, Inside r (claimSession host r request a id (touchSessionOf host r fuel)) _ :=
      fun request a id => inside_claimSession obeys request id fun v here => ih here
    obtain ⟨request, found, there⟩ := requestOf_home home
    rw [touchSessionOf, Brings, after_bind, after_get]
    simp only [found]
    split
    · rw [after_pure]
      exact fun _ no => by cases no
    · refine Inside.after (programs.ensureApplication obeys r) (fun found => ?_) w (home_home home)
      cases found with
      | none => exact fun _ _ _ no => by cases no
      | some a =>
        refine Inside.after programs.get fun v => ?_
        refine Inside.after (programs.toScopeRules.chooseSessionId programs.modifySessionId r _) fun id => ?_
        intro v here
        rw [Brings, after_bind, after_get]
        cases spliced : v.splicedSession r with
        | none => exact claims _ _ _ v here
        | some s =>
          dsimp only
          split
          · rw [after_bind, after_modify, after_pure]
            rintro _ ⟨⟩
            obtain ⟨request, found, there⟩ := requestOf_home here
            refine .inl (Stands.congr ⟨_, by rw [standing, there]; rfl, ?_⟩
              (visits_touchSession v s).contexts_eq)
            exact (splicedSession_eq found).symm.trans spliced
          · exact Inside.after (programs.excise r .session) (fun _ => claims _ _ _) v here

end Touches

section Names

variable {contexts rest : List ContextId} {own : ScopeId}

theorem World.reach_here (unframed : name.isFramed = false) (reached : w.reach key (some name) contexts = .here own) :
    own ∈ (w.frameOf contexts).scopes ∨ ∃ t k, w.groundOf contexts = some t ∧ w.enclosingComponent t = some k ∧
      (w.component k).scope? name = some own := by
  induction contexts with
  | nil => cases reached
  | cons t above ih =>
    have ends : (w.context t).handsOn = false → w.groundOf (t :: above) = some t := fun here => by simp [groundOf, here]
    cases kind : (w.context t).kind with
    | function call =>
      cases component : call.component with
      | some k =>
        refine .inr ⟨t, k, ends ?_, ?_, ?_⟩
        · simp [Context.handsOn, kind, component]
        · simp [enclosingComponent, kind, component]
        · cases name <;> cases unframed <;> simp_all [reach, Component.scope?]
      | none =>
        have further : w.groundOf (t :: above) = w.groundOf above := by simp [groundOf, Context.handsOn, kind, component]
        rw [further]
        refine (ih ?_).imp_left fun member => by simp [frameOf, kind, component, member]
        cases name <;> cases unframed <;> simpa [reach, kind, component] using reached
    | closure call =>
      cases captured : (((w.function call.function).frame.map (·.scopes)).getD []).find? fun s => (w.scope s).name == key with
      | some s =>
        have same : s = own := by
          cases name <;> cases unframed <;> simpa [reach, kind, captured] using reached
        have member := List.mem_of_find?_eq_some captured
        cases frame : (w.function call.function).frame <;> simp_all [frameOf]
      | none =>
        cases component : call.component with
        | some k =>
          refine .inr ⟨t, k, ends ?_, ?_, ?_⟩
          · simp [Context.handsOn, kind]
          · simp [enclosingComponent, kind, component]
          · cases name <;> cases unframed <;> simp [reach, kind, captured, component, Component.scope?] at reached ⊢ <;>
              exact reached
        | none => cases name <;> cases unframed <;> simp [reach, kind, captured, component] at reached
    | component k =>
      refine .inr ⟨t, k, ends ?_, ?_, ?_⟩
      · simp [Context.handsOn, kind]
      · simp [enclosingComponent, kind]
      · cases name <;> cases unframed <;> simp_all [reach, Component.scope?]
    | _ => cases name <;> cases unframed <;> simp [reach, kind] at reached

theorem globalScope_of_reach (reached : w.reach key (some name) contexts = .global rest) :
    globalScope host key (some name) rest w = globalScope host key (some name) contexts w := by
  induction contexts with
  | nil => cases reached
  | cons t above ih =>
    rcases reach_cons reached with rfl | ⟨⟨call, kind⟩, further⟩
    · rfl
    · rw [ih further, globalScope, bind_apply, get_apply]
      simp only [kind]

theorem globalScope_home (rooted : w.Rooted) (home : w.home c = some r) (touched : name = .application ∨ name = .session) :
    globalScope host key (some name) (w.ancestry c) w =
      (if name = .application then applicationScope host key r else sessionScope host key r) w := by
  have asked : ∀ above, (w.context r).request?.isSome → globalScope host key (some name) (r :: above) w =
      (if name = .application then applicationScope host key r else sessionScope host key r) w := by
    intro above there
    obtain ⟨request, there⟩ := Option.isSome_iff_exists.mp there
    rw [globalScope, bind_apply, get_apply]
    simp only [request?_eq_some.mp there]
    rcases touched with rfl | rfl <;> rfl
  induction c using w.ancestry_induction with
  | alone c way =>
    rw [home_eq_find, way, List.find?_singleton, Option.ite_none_right_eq_some] at home
    obtain ⟨there, ⟨⟩⟩ := home
    rw [way]
    exact asked [] there
  | below c parent above _ way ih =>
    have below := rooted.below above
    rw [home_eq_find, way, List.find?_cons] at home
    rw [way]
    cases there : (w.context c).request? with
    | some request =>
      simp only [there, Option.isSome_some, Option.some.injEq] at home
      subst home
      exact asked _ (by simp [there])
    | none =>
      simp only [there, Option.isSome_none] at home
      rw [← ih (by rw [home_eq_find]; exact home), globalScope, bind_apply, get_apply]
      cases kind : (w.context c).kind <;> simp_all [Context.isRoot, Context.request?]

theorem World.mem_visibleScopes : own ∈ w.visibleScopes c ↔ own ∈ (w.captureFrame c).scopes ∨
    (∃ k, w.enclosingComponent c = some k ∧ (own = (w.component k).self ∨ own = (w.component k).shared)) ∨
    (∃ r request, w.requestOf c = some (r, request) ∧ request.scope = own) ∨
    (∃ s, w.splicedSession c = some s ∧ (w.session s).scope = own) ∨
    (∃ a, w.splicedApplication c = some a ∧ (w.application a).scope = own) ∨
    ∃ server, w.serverOf c = some server ∧ server.scope = own := by
  cases belongs : w.enclosingComponent c <;> simp [visibleScopes, List.mem_eraseDups, belongs, or_assoc]

theorem World.globalOf_request (c : ContextId) : w.globalOf .request (w.ancestry c) = (w.requestOf c).map (·.2.scope) := by
  rw [requestOf, List.map_findSome?, globalOf]
  congr
  funext t
  cases kind : (w.context t).kind <;> simp [Context.request?, kind]

theorem World.globalOf_server (c : ContextId) : w.globalOf .server (w.ancestry c) = (w.serverOf c).map (·.scope) := by
  rw [serverOf, List.map_findSome?, globalOf]
  congr
  funext t
  cases kind : (w.context t).kind <;> simp [Context.server?, kind]

end Names

section Visible

variable {found : ScopeId}

theorem stays_of_touch {ι : Type} {touch : Action (Option ι)} {scope : World → ι → ScopeId} {stays : ι → World → Prop}
    (brings : touch.Brings w fun answer later => ∀ i, answer = some i → stays i later)
    (asks : (do
      let answer ← touch
      let w ← get
      orScopeNotFound key (answer.map (scope w))) w = (.ok found, later)) : ∃ i, scope later i = found ∧ stays i later := by
  rw [bind_apply] at asks
  rw [Brings, After] at brings
  rcases ran : touch w with ⟨_ | _ | i, mid⟩ <;> rw [ran] at asks brings <;> cases asks
  exact ⟨i, rfl, brings i rfl⟩

variable (obeys : host.Obeys fun {_} action => Leads Grows action) (home : w.home c = some r)
include obeys home

theorem visible_of_application (asks : applicationScope host key r w = (.ok found, later)) (still : later.home c = some r) :
    found ∈ later.visibleScopes c ∨ Overlooked host w c later .application found := by
  obtain ⟨a, rfl, ⟨_, stands, part⟩ | out⟩ := stays_of_touch (brings_ensureApplication obeys (home_home home)) asks
  · obtain ⟨request, found, there⟩ := requestOf_home still
    rw [standing, there] at stands
    cases stands
    refine .inl (mem_visibleScopes.mpr ?_)
    simp [splicedApplication_eq found, part]
  · exact .inr (.application home out)

theorem visible_of_session (asks : sessionScope host key r w = (.ok found, later)) (still : later.home c = some r) :
    found ∈ later.visibleScopes c ∨ Overlooked host w c later .session found := by
  obtain ⟨s, rfl, ⟨_, stands, part⟩ | out⟩ := stays_of_touch (brings_touchSessionOf obeys (home_home home) _) asks
  · obtain ⟨request, found, there⟩ := requestOf_home still
    rw [standing, there] at stands
    cases stands
    refine .inl (mem_visibleScopes.mpr ?_)
    simp [splicedSession_eq found, part]
  · exact .inr (.session home out)

theorem visible_of_global (rooted : w.Rooted) (unframed : name.isFramed = false)
    (asks : globalScope host key (some name) (w.ancestry c) w = (.ok found, later)) (still : later.home c = some r) :
    found ∈ later.visibleScopes c ∨ Overlooked host w c later name found := by
  cases name with
  | vars | locals | arguments => cases unframed
  | self | shared =>
    rw [globalScope_ofComponent host key rfl] at asks
    cases asks
  | application =>
    rw [globalScope_home rooted home (.inl rfl)] at asks
    exact visible_of_application obeys home asks still
  | session =>
    rw [globalScope_home rooted home (.inr rfl)] at asks
    exact visible_of_session obeys home asks still
  | request =>
    obtain ⟨request, there, -⟩ := requestOf_home home
    rw [globalScope_apply host key (by decide), globalOf_request, there] at asks
    cases asks
    exact .inl (mem_visibleScopes.mpr (.inr (.inr (.inl ⟨r, request, there, rfl⟩))))
  | server =>
    rw [globalScope_apply host key (by decide), globalOf_server] at asks
    cases there : w.serverOf c with
    | none =>
      rw [there] at asks
      cases asks
    | some server =>
      rw [there] at asks
      cases asks
      refine .inl (mem_visibleScopes.mpr ?_)
      simp [there]

omit obeys home in
theorem visible_of_here (unframed : name.isFramed = false) (reached : w.reach key (some name) (w.ancestry c) = .here found) :
    found ∈ w.visibleScopes c ∨ Overlooked host w c w name found := by
  rcases reach_here unframed reached with member | ⟨t, k, ends, belongs, own⟩
  · exact .inl (mem_visibleScopes.mpr (.inl member))
  have inner : name = .self ∨ name = .shared := by
    cases name <;> simp_all [Component.scope?, ScopeName.isFramed]
  cases onward : (w.context c).handsOn with
  | true => exact .inr (.members onward ends belongs inner own)
  | false =>
    obtain ⟨above, way⟩ := w.ancestry_eq_cons c
    have here : c = t := by simpa [groundOf, way, onward] using ends
    subst here
    refine .inl (mem_visibleScopes.mpr (.inr (.inl ⟨k, belongs, ?_⟩)))
    rcases inner with rfl | rfl <;> simp_all [Component.scope?]

variable (reachable : w.Reachable)
include reachable

theorem visible_of_nearby (named : key.scopeName? = some name) (asks : scopeNearby host c key w = (.ok found, later)) :
    found ∈ later.visibleScopes c ∨ Overlooked host w c later name found := by
  have grows := (grows_order.programs.access obeys c).nearby key w
  rw [asks] at grows
  have still : later.home c = some r := (grows.extends_.home (issued_of_home home)).trans home
  cases framed : name.isFramed with
  | true =>
    have outer : name ≠ .application ∧ name ≠ .session := by
      revert framed
      cases name <;> decide
    rw [scopeNearby_apply host c named outer, nearbyOf_eq_find reachable.parted named framed] at asks
    cases hit : (w.frameOf (w.ancestry c)).scopes.find? fun s => (w.scope s).name == key with
    | none =>
      rw [hit] at asks
      cases asks
    | some s =>
      rw [hit] at asks
      cases asks
      exact .inl (mem_visibleScopes.mpr (.inl (List.mem_of_find?_eq_some hit)))
  | false =>
    rw [scopeNearby, bind_apply, get_apply] at asks
    simp only [named] at asks
    cases reached : w.reach key (some name) (w.ancestry c) with
    | nowhere =>
      rw [reached] at asks
      cases asks
    | here s =>
      rw [reached] at asks
      cases asks
      exact visible_of_here framed reached
    | global rest =>
      rw [reached] at asks
      simp only [globalScope_of_reach reached] at asks
      exact visible_of_global obeys home reachable.rooted framed asks still

omit obeys home in
theorem visible_of_search {finding : Finding} (finds : w.findNearby key false (w.ancestry c) = some finding) :
    finding.scope ∈ w.visibleScopes c := by
  rw [findNearby_ancestry reachable.rooted] at finds
  obtain ⟨s, member, hit⟩ := List.exists_of_findSome?_eq_some finds
  obtain ⟨value, -, rfl⟩ := Option.map_eq_some_iff.mp hit
  rw [mem_visibleScopes]
  rcases List.mem_append.mp member with framed | stop
  · exact .inl framed
  · rw [requestStop] at stop
    split at stop
    · simp_all
    · cases stop

end Visible

/-- Whatever scope can be had by its name at a place inside a request is one of those visible there right afterwards, and so
is the scope that owns a name found there, unless it is overlooked. No scope is listed twice. -/
theorem scopes_at_hand_are_visible {w : World} (reachable : w.Reachable) (fuel : Nat) {c r : ContextId}
    (home : w.home c = some r) :
    let host := hostOf (execute fuel)
    (w.visibleScopes c).Nodup ∧
    (∀ key name s later, key.scopeName? = some name → scopeNearby host c key w = (.ok s, later) →
      s ∈ later.visibleScopes c ∨ Overlooked host w c later name s) ∧
    ∀ key default found later, resolve host c key default w = (.ok found, later) →
      found.scope ∈ later.visibleScopes c ∨ default = some found.scope ∨
      ∃ name, key.scopeName? = some name ∧ Overlooked host w c later name found.scope := by
  intro host
  have obeys : host.Obeys fun {_} action => Leads Grows action :=
    grows_order.programs.hostOf (grows_order.programs.execute fuel)
  refine ⟨nodup_eraseDups _, fun key name s later named => visible_of_nearby obeys home reachable named, ?_⟩
  intro key default found later resolves
  rw [resolve] at resolves
  cases named : key.scopeName? with
  | some name =>
    simp only [Key.isScopeName, named, Option.isSome_some, if_true, bind_apply] at resolves
    split at resolves
    next s mid asks =>
      cases resolves
      exact (visible_of_nearby obeys home reachable named asks).imp_right fun overlooked => Or.inr ⟨name, rfl, overlooked⟩
    next => cases resolves
  | none =>
    simp only [Key.isScopeName, named, Option.isSome_none, Bool.false_eq_true, if_false, bind_apply, get_apply] at resolves
    cases finds : w.findNearby key false (w.ancestry c) with
    | some hit =>
      rw [finds] at resolves
      cases resolves
      exact Or.inl (visible_of_search reachable finds)
    | none =>
      rw [finds] at resolves
      cases default with
      | none => cases resolves
      | some s =>
        cases resolves
        exact Or.inr (Or.inl rfl)

theorem scopeNearby_self {own : ScopeId} (nearby : w.nearbyOf ScopeName.self.key .self (w.ancestry c) = some own) :
    scopeNearby host c ScopeName.self.key w = (.ok own, w) := by
  rw [scopeNearby_apply host c (show ScopeName.self.key.scopeName? = some .self by decide +kernel) (by decide), nearby]
  rfl

/-- In a method, the public members of its component are visible. -/
theorem scopes_at_hand_are_visible_errands :
    let host := hostOf (execute 0)
    let w := (errands.action 9 (start default)).2
    w.Reachable ∧ w.home ⟨2⟩ = some ⟨1⟩ ∧ (w.context ⟨2⟩).handsOn = false ∧
      scopeNearby host ⟨2⟩ ScopeName.self.key w = (.ok ⟨9⟩, w) ∧ ⟨9⟩ ∈ w.visibleScopes ⟨2⟩ := by
  intro host w
  have reachable : w.Reachable := .program errands 9 default
  have home : w.home ⟨2⟩ = some ⟨1⟩ := by decide +kernel
  have method : (w.context ⟨2⟩).handsOn = false := by decide +kernel
  have named : ScopeName.self.key.scopeName? = some .self := by decide +kernel
  have asks : scopeNearby host ⟨2⟩ ScopeName.self.key w = (.ok ⟨9⟩, w) := scopeNearby_self (by decide +kernel)
  refine ⟨reachable, home, method, asks, ?_⟩
  refine ((scopes_at_hand_are_visible reachable 0 home).2.1 _ _ _ _ named asks).resolve_right fun overlooked => ?_
  cases overlooked with
  | members onward => rw [method] at onward; cases onward

/-- In the plain function that the method called, they are at hand but not visible. -/
theorem members_of_caller_are_not_visible :
    let host := hostOf (execute 0)
    let w := (errands.action 9 (start default)).2
    w.Reachable ∧ w.home ⟨3⟩ = some ⟨1⟩ ∧ scopeNearby host ⟨3⟩ ScopeName.self.key w = (.ok ⟨9⟩, w) ∧
      ⟨9⟩ ∉ w.visibleScopes ⟨3⟩ :=
  ⟨.program errands 9 default, by decide +kernel, scopeNearby_self (by decide +kernel), by decide +kernel⟩

end ScopeEngine
