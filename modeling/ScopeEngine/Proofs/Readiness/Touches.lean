import Mathlib.Data.List.DropRight
import ScopeEngine.Proofs.Arguments.Numbers
import ScopeEngine.Proofs.Readiness.Decisions

/-! Touching an application from outside any hook. An instance that a request did not have before is looked up in the registry,
and it gets into the request only together with the decision on its start: it is started by then, or it is defunct and the
request lets go of it. A request finds its application again by the name that the application has. -/

namespace ScopeEngine

open ScopeEngine.Action World

theorem Text.trim_trim (text : String) : trim (trim text) = trim text := by
  let front := text.toList.dropWhile isBlank
  have left : (front.rdropWhile isBlank).dropWhile isBlank = front.rdropWhile isBlank := by
    rw [List.dropWhile_eq_self_iff]
    intro nonempty
    have head := List.rdropWhile_prefix isBlank (l := front)
    have full : 0 < front.length := Nat.lt_of_lt_of_le nonempty head.length_le
    rw [List.IsPrefix.getElem head nonempty]
    exact List.dropWhile_get_zero_not isBlank _ full
  have right : (front.rdropWhile isBlank).rdropWhile isBlank = front.rdropWhile isBlank :=
    List.rdropWhile_idempotent isBlank front
  have spelled : trim text = String.ofList (front.rdropWhile isBlank) := rfl
  have twice : trim (trim text) =
      String.ofList (((trim text).toList.dropWhile isBlank).rdropWhile isBlank) := rfl
  rw [twice, spelled, String.toList_ofList, left, right]

theorem Text.trim_of_solid (cs : List Char) (solid : ∀ c ∈ cs, isBlank c = false) :
    trim (String.ofList cs) = String.ofList cs := by
  have keeps : ∀ cs : List Char, (∀ c ∈ cs, isBlank c = false) → cs.dropWhile isBlank = cs := by
    intro cs solid
    rw [List.dropWhile_eq_self_iff]
    intro nonempty
    simp [solid _ (List.getElem_mem nonempty)]
  have behind := keeps cs.reverse fun c member => solid c (List.mem_reverse.mp member)
  rw [trim, String.toList_ofList, keeps cs solid, behind, List.reverse_reverse]

theorem Text.isBlank_of_isDigit {c : Char} (digit : c.isDigit = true) : isBlank c = false := by
  have range := Decimal.digit_range digit
  simp only [isBlank, blankRanges, List.any_cons, List.any_nil, Bool.or_false, Bool.or_eq_false_iff,
    Bool.and_eq_false_iff, decide_eq_false_iff_not]
  omega

theorem Key.refound_ofInt {n : Nat} (small : n < 1000) : (Key.ofInt (Int64.ofNat n)).Refound := by
  have name : (Key.ofInt (Int64.ofNat n)).name = Decimal.natText n := by
    show Decimal.intText (Int64.ofNat n).toInt = _
    rw [toInt_ofNat small, Decimal.intText_of_nonneg (by omega), Int.natAbs_natCast]
  have trimmed : Text.trim (Decimal.natText n) = Decimal.natText n :=
    Text.trim_of_solid _ fun c member =>
      Text.isBlank_of_isDigit (Nat.isDigit_of_mem_toDigits (by decide) (by decide) member)
  have again : (Settings.named (Key.ofInt (Int64.ofNat n)).name).applicationKey = Key.ofInt (Int64.ofNat n) := by
    rw [name, Settings.applicationKey, Settings.named, trimmed, Key.of, shortNumber?_natText small]
  refine ⟨?_, by rw [again]; exact BEq.refl _⟩
  rw [name, Settings.hasApplication, Settings.named, trimmed]
  simp [Decimal.natText, Nat.toDigits_ne_nil]

theorem Settings.refound (settings : Settings) (wanted : settings.hasApplication = true) :
    settings.applicationKey.Refound := by
  have trimmed : Text.trim (Text.trim settings.name) = Text.trim settings.name := Text.trim_trim settings.name
  cases number : Key.shortNumber? (Text.trim settings.name) with
  | some n =>
    have spelled : settings.applicationKey = Key.ofInt (Int64.ofNat n) := by
      rw [applicationKey, Key.of, number]
    rw [spelled]
    exact Key.refound_ofInt (Key.lt_of_shortNumber? number)
  | none =>
    have spelled : settings.applicationKey = Key.build (Text.trim settings.name) none := by
      rw [applicationKey, Key.of, number]
    have again : (Settings.named settings.applicationKey.name).applicationKey = settings.applicationKey := by
      rw [spelled, applicationKey]
      exact (congrArg Key.of trimmed).trans spelled
    refine ⟨?_, by rw [again]; exact BEq.refl _⟩
    rw [spelled, hasApplication]
    exact (congrArg (fun name : String => !name.isEmpty) trimmed).trans wanted

variable {α : Type} {host : Host} {w later last : World} {a : ApplicationId} {c r : ContextId} {settings : Settings}

/-- End hooks run after the application was marked, in a detached request. -/
theorem after_shutdownApplication_keeps (serene : host.Serene) (sane : w.Sane) (issued : a.number < w.applications.size)
    (server : ContextId) : (shutdownApplication host a server).After w (fun _ => w.Keeps) (fun _ => w.Keeps) := by
  have begins : w.Keeps (w.beginShutdown a).2 := by
    apply sane.keeps_modifyApplication (fun application => { application with shutDown := true }) fun _ => rfl
    intro application _
    simp [Application.isDecided, Application.isDefunct]
  simp only [shutdownApplication, after_bind, after_get, after_modifyGet]
  split
  · exact begins
  · let begun := (w.beginShutdown a).2
    have known : a.number < begun.applications.size := Nat.lt_of_lt_of_eq issued (Table.size_set ..).symm
    obtain ⟨opens, running⟩ := newDetached_calm begins.sane server known
    simp only [after_bind, after_get, after_modifyGet]
    have back : ∀ later, (begun.newDetached server a).2.Calm later → w.Keeps later := fun later calm =>
      begins.trans ((opens.trans calm).keeps begins.sane)
    exact (serene_close serene a _ _ _ _ ⟨begins.sane.calm opens, running⟩).imp back

/-- The end of a start decides it, one way or the other. -/
theorem after_settleApplication_decides (sane : w.Sane) (running : w.Running r r a) (l : ListenerId)
    (cause : Option Error) : (settleApplication a l cause).After w
      (fun _ later => (w.Keeps later ∧ later.Decided a) ∧ later.Running r r a)
      (fun _ later => w.Keeps later ∧ later.Decided a) := by
  obtain ⟨standing, anchored⟩ := running.anchored
  have leaves : ∀ middle : World, middle.Sane → middle.Keeps (middle.leaveApplicationStart a) := fun middle sane =>
    sane.keeps_modifyApplication (fun application => { application with starting := false }) (fun _ => rfl) a
      fun _ done => done
  cases cause with
  | none =>
    let kept := w.keepListener a l
    let started := kept.applicationStarted a
    have keeps : w.Keeps kept :=
      sane.keeps_modifyApplication (fun application => { application with listener := some l }) (fun _ => rfl) a
        fun _ done => done
    have starts : kept.Keeps started :=
      keeps.sane.keeps_modifyApplication (fun application => { application with started := true }) (fun _ => rfl) a
        fun application _ => by simp [Application.isDecided]
    have issued : a.number < kept.applications.size := Nat.lt_of_lt_of_eq anchored.issued (Table.size_set ..).symm
    have decided : started.Decided a :=
      decided_modifyApplication issued _ fun application => by simp [Application.isDecided]
    have last := leaves started starts.sane
    refine ⟨⟨(keeps.trans starts).trans last, last.decided a decided⟩, ?_⟩
    have running_kept := running.modifyApplication (fun application => { application with listener := some l })
      (fun _ => rfl) a fun _ => rfl
    have running_started := running_kept.modifyApplication (fun application => { application with started := true })
      (fun _ => rfl) a fun _ => rfl
    exact running_started.modifyApplication (fun application => { application with starting := false }) (fun _ => rfl) a
      fun _ => rfl
  | some cause =>
    let refused := w.applicationRefused a
    have refuses : w.Keeps refused :=
      sane.keeps_modifyApplication (fun application => { application with discarded := true }) (fun _ => rfl) a
        fun application _ => by simp [Application.isDecided, Application.isDefunct]
    have decided : refused.Decided a :=
      decided_modifyApplication anchored.issued _ fun application => by
        simp [Application.isDecided, Application.isDefunct]
    have removes := refuses.sane.keeps_unregister a
    have last := leaves _ removes.sane
    have rest := removes.trans last
    simp only [settleApplication, after_bind, after_modify, after_modifyGet, after_get, after_fail]
    exact ⟨refuses.trans rest, rest.decided a decided⟩

theorem World.decided_of_startState
    (known : (w.application a).startState = .ready ∨ (w.application a).startState = .gone) : w.Decided a := by
  simp only [Application.startState, startState] at known
  rw [Decided, Application.isDecided, Application.isDefunct]
  split at known
  next started => rw [started, Bool.true_or]
  next =>
    split at known
    next => simp at known
    next =>
      split at known
      next discarded => rw [discarded, Bool.true_or, Bool.or_true]
      next => simp at known

theorem after_startApplication_decides (serene : host.Serene) (sane : w.Sane) (running : w.Running r r a)
    (l : ListenerId) : (startApplication host a r l).After w
      (fun ok later => (w.Keeps later ∧ later.Decided a) ∧ (ok = true → later.Running r r a))
      (fun _ later => w.Keeps later ∧ later.Decided a) := by
  simp only [startApplication, after_bind, after_get]
  cases state : (w.application a).startState with
  | ready => exact ⟨⟨sane.keeps, decided_of_startState (.inl state)⟩, fun _ => running⟩
  | gone => exact ⟨⟨sane.keeps, decided_of_startState (.inr state)⟩, Bool.noConfusion⟩
  | busy => trivial
  | fresh =>
    let begun := w.beginApplicationStart a
    have begins : w.Keeps begun :=
      sane.keeps_modifyApplication (fun application => { application with starting := true }) (fun _ => rfl) a
        fun _ done => done
    have running_begun : begun.Running r r a :=
      running.modifyApplication (fun application => { application with starting := true }) (fun _ => rfl) a fun _ => rfl
    have settles : ∀ cause called, begun.Calm called → (settleApplication a l cause).After called
        (fun ok later => (w.Keeps later ∧ later.Decided a) ∧ (ok = true → later.Running r r a))
        (fun _ later => w.Keeps later ∧ later.Decided a) := by
      intro cause called calm
      have calls := begins.trans (calm.keeps begins.sane)
      apply (after_settleApplication_decides calls.sane (running_begun.calm begins.sane calm) l cause).mono
      · exact fun _ _ done => ⟨⟨calls.trans done.1.1, done.1.2⟩, fun _ => done.2⟩
      · exact fun _ _ done => ⟨calls.trans done.1, done.2⟩
    simp only [after_bind, after_modify, after_attempt]
    exact (serene_callHook serene l .applicationStart [] r begun ⟨begins.sane, running_begun⟩).mono
      (fun _ => settles _) (fun _ => settles _)

/-- A request gets an application and nothing else changes. -/
structure World.Spliced (w : World) (r : ContextId) (standing : Standing) (a : ApplicationId) (later : World) : Prop where
  sane : later.Sane
  grounded : w.Grounded → later.Grounded
  extends_ : w.Extends later
  applications : later.applications = w.applications
  here : ∃ new, later.standing r = some new ∧ new.settings = standing.settings ∧ new.application = some a
  others : ∀ t b, later.Holds t b → t = r ∧ b = a ∨ w.Holds t b
  detached : ∀ t : ContextId, t.number < w.contexts.size →
    (later.standing t).map Standing.detached = (w.standing t).map Standing.detached

theorem after_spliceApplication (sane : w.Sane) {standing : Standing} (at_ : w.standing r = some standing)
    (issued : a.number < w.applications.size) :
    (spliceNew r (.application a)).After w (fun _ => w.Spliced r standing a) (fun _ _ => False) := by
  let noded := (w.addNode (.application a)).2
  let node := w.contexts.next
  have adds : w.Calm noded := w.calm_addContext (by rintro _ ⟨⟩)
  have keeps := adds.keeps sane
  have kind : (noded.context node).kind = .application a := w.kind_addNode _
  have there : noded.nodeApplication node = some a := by rw [nodeApplication, kind]
  have known : node.number < noded.contexts.size := Table.next_lt_size_add ..
  obtain ⟨middle, still, settings, -⟩ := Standing.of_seat (keeps.seat r (issued_of_standing at_)) at_
  obtain ⟨request, present, rfl⟩ := Option.map_eq_some_iff.mp still
  rw [After, spliceNew_eq r _ rfl, requestOf_self present]
  let change : Request → Request := (·.splice (.application node))
  have here : (noded.modifyRequest r change).standing r = some (noded.standingOf (change request)) := by
    rw [standing_modifyRequest, if_pos rfl, present]
    rfl
  have has : (noded.standingOf (change request)).application = some a :=
    (congrArg Standing.application (standingOf_splice_application ..)).trans there
  show w.Spliced r standing a (noded.modifyRequest r change)
  exact {
    sane := by
      refine keeps.sane.modifyRequest r change ?_
      rintro now place - spliced
      cases (now.applicationNode_splice_application node).symm.trans spliced
      refine ⟨known, fun b holds => ?_⟩
      rw [there] at holds
      cases holds
      exact issued
    grounded := fun grounded => (keeps.grounded grounded).congr (noded.modifyRequest_code r change)
    extends_ := adds.extends_.trans (noded.extends_modifyRequest r change)
    applications := modifyRequest_applications ..
    here := ⟨_, here, settings, has⟩
    others := by
      rintro t b ⟨found, at_, attached, application⟩
      by_cases own : t = r
      · rw [own, here] at at_
        cases at_
        exact .inl ⟨own, Option.some.inj (application.symm.trans has)⟩
      · rw [standing_modifyRequest, if_neg (Ne.symm own)] at at_
        exact .inr (keeps.held ⟨found, at_, attached, application⟩)
    detached := by
      intro t inside
      rw [← keeps.settles.detached t inside, standing_modifyRequest]
      split
      next own =>
        rw [← own, still, present]
        rfl
      next => rfl }

theorem World.Spliced.settles {standing : Standing} (spliced : w.Spliced r standing a later) (keeps : later.Keeps last)
    (decided : last.Decided a) : w.Settles last where
  sane := keeps.sane
  grounded := keeps.grounded ∘ spliced.grounded
  extends_ := spliced.extends_.trans keeps.extends_
  decided := by
    intro b done
    apply keeps.decided b
    rw [Decided, application, spliced.applications]
    exact done
  holds := by
    intro t b held
    rcases spliced.others t b (keeps.held held) with ⟨-, rfl⟩ | before
    · exact .inr decided
    · exact .inl before
  detached := fun t inside =>
    (keeps.settles.detached t (Nat.lt_of_lt_of_le inside spliced.extends_.size)).trans (spliced.detached t inside)

theorem World.Spliced.anchored {standing : Standing} (spliced : w.Spliced r standing a later)
    (issued : a.number < w.applications.size) (wanted : standing.settings.hasApplication = true)
    (named : ((w.application a).name == standing.settings.applicationKey) = true)
    (usable : (w.application a).isDefunct = false) :
    ∃ new, later.Anchored r a new ∧ new.settings = standing.settings := by
  obtain ⟨new, here, settings, holds⟩ := spliced.here
  have same : later.application = w.application := by
    funext b
    rw [application, spliced.applications, application]
  refine ⟨new, ⟨here, holds, ?_, ?_, ?_, .inr ?_⟩, settings⟩
  · rw [spliced.applications]
    exact issued
  · rw [settings]
    exact wanted
  · rw [same, settings]
    exact named
  · rw [same]
    exact usable

/-- An instance that was looked up for a request that has none. -/
structure World.Offered (w : World) (r : ContextId) (settings : Settings) (a : ApplicationId) : Prop where
  seeking : w.Seeking r settings
  wanted : settings.hasApplication = true
  issued : a.number < w.applications.size
  named : ((w.application a).name == settings.applicationKey) = true
  usable : (w.application a).isDefunct = false

theorem World.Offered.calm (offered : w.Offered r settings a) (sane : w.Sane) (calm : w.Calm later) :
    later.Offered r settings a where
  seeking := offered.seeking.keeps (calm.keeps sane)
  wanted := offered.wanted
  issued := Nat.lt_of_lt_of_eq offered.issued calm.applications.symm
  named := by
    rw [name_eq_of_marks (calm.marks a)]
    exact offered.named
  usable := by
    rw [isDefunct_eq_of_marks (calm.marks a)]
    exact offered.usable

theorem World.Sane.offers (sane : w.Sane) (seeking : w.Seeking r settings) (wanted : settings.hasApplication = true)
    (looked : w.findOrCreateApplication settings.applicationKey settings = (a, later)) :
    w.Keeps later ∧ later.Offered r settings a := by
  obtain ⟨keeps, issued, named, usable⟩ := sane.findOrCreateApplication (settings.refound wanted) settings looked
  exact ⟨keeps, seeking.keeps keeps, wanted, issued, named, usable⟩

def World.Tried (w : World) (r : ContextId) (a : ApplicationId) (settings : Settings) (adopted : Bool) : Prop :=
  if adopted then w.Running r r a else w.Seeking r settings

theorem after_adoptApplication_settles (serene : host.Serene) (sane : w.Sane) (offered : w.Offered r settings a)
    (l : ListenerId) : (adoptApplication host r a l).After w
      (fun adopted later => w.Settles later ∧ later.Tried r a settings adopted) (fun _ => w.Settles) := by
  have misses : ∀ later, w.Keeps later → w.Settles later ∧ later.Tried r a settings false := fun later keeps =>
    ⟨keeps.settles, offered.seeking.keeps keeps⟩
  simp only [adoptApplication, after_bind, after_get]
  split
  · have removes := sane.keeps_unregister a
    have known : a.number < (w.unregister a).2.applications.size := by
      rw [unregister_applications]
      exact offered.issued
    rw [after_bind, after_modifyGet]
    split
    · cases w.nearest r .server with
      | none => exact misses _ removes
      | some server =>
        dsimp only
        rw [after_bind]
        exact (after_shutdownApplication_keeps serene removes.sane known server).mono
          (fun _ later keeps => misses later (removes.trans keeps)) (fun _ _ keeps => (removes.trans keeps).settles)
    · exact misses _ removes
  · let touched := w.touchApplication a
    have touches := (w.calm_touchApplication a).keeps sane
    obtain ⟨⟨standing, at_, rfl, bare⟩, wanted, known, named, usable⟩ := offered.calm sane (w.calm_touchApplication a)
    simp only [after_bind, after_modify, after_attempt]
    refine (after_spliceApplication touches.sane at_ known).sure (fun _ spliced splices => ?_)
    obtain ⟨new, anchored, sameSettings⟩ := splices.anchored known wanted named usable
    -- the request lets go of an instance that is gone
    have lets_go : ∀ later, spliced.Keeps later → later.Decided a →
        w.Settles (later.excise r .application).2 ∧ (later.excise r .application).2.Seeking r standing.settings := by
      intro later keeps decided
      obtain ⟨last, there, still, -⟩ :=
        Standing.of_seat (keeps.seat r (issued_of_standing anchored.at_)) anchored.at_
      have seeks := seeking_excise there
      rw [still, sameSettings] at seeks
      have settles := touches.settles.trans (splices.settles keeps decided)
      exact ⟨settles.trans (settles.sane.settles_excise r .application), seeks⟩
    apply (after_startApplication_decides serene splices.sane anchored.running l).mono
    · rintro adopted later ⟨⟨keeps, decided⟩, runs⟩
      cases adopted with
      | true => exact ⟨touches.settles.trans (splices.settles keeps decided), runs rfl⟩
      | false => exact lets_go later keeps decided
    · rintro error later ⟨keeps, decided⟩
      exact (lets_go later keeps decided).1

theorem World.Tried.calm {adopted : Bool} (tried : w.Tried r a settings adopted) (sane : w.Sane) (calm : w.Calm later) :
    later.Tried r a settings adopted := by
  cases adopted with
  | true => exact Running.calm tried sane calm
  | false => exact Seeking.keeps tried (calm.keeps sane)

theorem after_holding_settles {thing : Hold} {action : Action α} {ok : α → World → Prop} (sane : w.Sane)
    (stable : ∀ a (later released : World), later.Sane → later.Calm released → ok a later → ok a released)
    (inside : ∀ held, w.Calm held → action.After held (fun a later => held.Settles later ∧ ok a later)
      (fun _ => held.Settles)) :
    (holding thing action).After w (fun a later => w.Settles later ∧ ok a later) (fun _ => w.Settles) := by
  have held := w.calm_holds (thing :: w.holds)
  have back : ∀ later, Settles { w with holds := thing :: w.holds } later →
      w.Settles { later with holds := w.holds } := by
    intro later settles
    exact ((held.keeps sane).settles.trans settles).trans ((later.calm_holds w.holds).keeps settles.sane).settles
  rw [after_holding]
  apply (inside _ held).mono
  · rintro a later ⟨settles, done⟩
    exact ⟨back later settles, stable a later _ settles.sane (later.calm_holds _) done⟩
  · exact fun _ later => back later

section

variable (serene : host.Serene) (sane : w.Sane)
include serene sane

theorem after_tryApplication_settles (offered : w.Offered r settings a) (l : ListenerId) :
    (holding (.application a) (adoptApplication host r a l)).After w
      (fun adopted later => w.Settles later ∧ later.Tried r a settings adopted) (fun _ => w.Settles) := by
  apply after_holding_settles sane
  · exact fun _ _ _ sane calm tried => tried.calm sane calm
  · intro held calm
    exact after_adoptApplication_settles serene (sane.calm calm) (offered.calm sane calm) l

theorem after_acquireApplication_settles (seeking : w.Seeking r settings)
    (wanted : settings.hasApplication = true) (l : ListenerId) (fuel : Nat) :
    (acquireApplication host r settings.applicationKey settings l fuel).After w
      (fun a later => w.Settles later ∧ later.Running r r a) (fun _ => w.Settles) := by
  induction fuel generalizing w with
  | zero => trivial
  | succ fuel ih =>
    rcases looked : w.findOrCreateApplication settings.applicationKey settings with ⟨a, found⟩
    obtain ⟨keeps, offered⟩ := sane.offers seeking wanted looked
    simp only [acquireApplication, after_bind, after_modifyGet, looked]
    apply (after_tryApplication_settles serene keeps.sane offered l).mono
    · rintro adopted later ⟨settles, tried⟩
      have reaches := keeps.settles.trans settles
      cases adopted with
      | true => exact ⟨reaches, tried⟩
      | false =>
        exact (ih settles.sane tried).mono (fun _ _ done => ⟨reaches.trans done.1, done.2⟩)
          (fun _ _ rest => reaches.trans rest)
    · exact fun _ _ settles => keeps.settles.trans settles

theorem after_ensureApplication_acquire_settles {request : Request}
    (seeking : w.Seeking r request.settings) (wanted : request.settings.hasApplication = true) :
    (ensureApplication.acquire host r request request.settings.applicationKey).After w
      (fun found later => w.Settles later ∧ ∃ a, found = some a ∧ later.Running r r a) (fun _ => w.Settles) := by
  simp only [ensureApplication.acquire, after_bind, after_get]
  split
  · exact sane.keeps.settles
  · apply after_holding_settles sane
    · rintro found later released sane calm ⟨a, same, running⟩
      exact ⟨a, same, running.calm sane calm⟩
    · intro held calm
      rw [after_map]
      exact (after_acquireApplication_settles serene (sane.calm calm) (seeking.keeps (calm.keeps sane)) wanted _ _).mono_ok
        (fun a _ done => ⟨done.1, a, rfl, done.2⟩)

end

def World.unhosted (w : World) (r : ContextId) : World :=
  if (w.splicedApplication r).isSome then ((w.excise r .session).2.excise r .application).2 else w

theorem World.Sane.unhosted (sane : w.Sane) {request : Request} (there : (w.context r).request? = some request) :
    w.Settles (w.unhosted r) ∧ (w.unhosted r).Seeking r request.settings := by
  have at_ : w.standing r = some (w.standingOf request) := by rw [standing, there]; rfl
  rw [World.unhosted]
  split
  next =>
    have first := (w.calm_excise_session r).keeps sane
    obtain ⟨last, there, still, -⟩ := Standing.of_seat (first.seat r (World.issued_of_standing at_)) at_
    have seeking := seeking_excise there
    rw [still] at seeking
    exact ⟨first.settles.trans (first.sane.settles_excise r .application), seeking⟩
  next bare =>
    rw [Option.not_isSome_iff_eq_none, splicedApplication_eq (requestOf_self there)] at bare
    exact ⟨sane.keeps.settles, _, at_, rfl, bare⟩

/-- A touch of the application finds that there is none, or finds the one that the request has, or looks one up from where
the request has none. -/
theorem after_ensureApplication_cases {ok : Option ApplicationId → World → Prop} {failed : Error → World → Prop}
    (sane : w.Sane) (home : w.home c = some r) (absent : ok none w)
    (spliced : ∀ a, w.Running c r a → ok (some a) (w.touchApplication a))
    (seeks : ∀ request : Request, request.settings.hasApplication = true → w.Settles (w.unhosted r) →
      (w.unhosted r).Seeking r request.settings →
      (ensureApplication.acquire host r request request.settings.applicationKey).After (w.unhosted r) ok failed) :
    (ensureApplication host c).After w ok failed := by
  obtain ⟨request, found, there⟩ := requestOf_home home
  obtain ⟨settles, seeking⟩ := sane.unhosted there
  simp only [ensureApplication, after_bind, after_get, found]
  cases wanted : request.settings.hasApplication with
  | false => exact absent
  | true =>
    have looks := seeks request wanted settles seeking
    simp only [Bool.not_true, Bool.false_eq_true, if_false, after_bind, after_get]
    cases held : w.splicedApplication r with
    | none => rwa [unhosted, held] at looks
    | some a =>
      rw [unhosted, held] at looks
      have at_ : w.standing r = some (w.standingOf request) := by rw [standing, there]; rfl
      have holds := (splicedApplication_eq (requestOf_self there)).symm.trans held
      cases usable : ((w.application a).name == request.settings.applicationKey &&
          (request.detached || !(w.application a).isDefunct)) with
      | true =>
        simp only [usable, if_true, after_bind, after_modify, after_pure]
        rw [Bool.and_eq_true, Bool.or_eq_true, Bool.not_eq_eq_eq_not, Bool.not_true] at usable
        have anchored : w.Anchored r a (w.standingOf request) :=
          ⟨at_, holds, sane.issued_of_standing at_ holds, wanted, usable.1, usable.2⟩
        exact spliced a ⟨issued_of_home home, home, _, anchored⟩
      | false =>
        simp only [usable, Bool.false_eq_true, if_false, after_bind, excise, after_modifyGet]
        exact looks

/-- Whatever a touch of the application does, requests come to hold only applications whose start is decided, and the one
that it answers with is the one that the request has from then on. -/
theorem after_ensureApplication_settles (serene : host.Serene) (sane : w.Sane) (c : ContextId) :
    (ensureApplication host c).After w
      (fun found later => w.Settles later ∧ ∀ a, found = some a → ∃ r, later.Running c r a) (fun _ => w.Settles) := by
  have nothing : w.Settles w ∧ ∀ a, (none : Option ApplicationId) = some a → ∃ r, w.Running c r a :=
    ⟨sane.keeps.settles, fun _ same => by cases same⟩
  cases home : w.home c with
  | none =>
    have missing : w.requestOf c = none := by simpa only [World.home, Option.map_eq_none_iff] using home
    simp only [ensureApplication, after_bind, after_get, missing, after_pure]
    exact nothing
  | some r =>
    have issued := issued_of_home home
    apply after_ensureApplication_cases sane home nothing
    · intro a running
      have touches := w.calm_touchApplication a
      refine ⟨(touches.keeps sane).settles, fun b same => ?_⟩
      cases same
      exact ⟨r, running.calm sane touches⟩
    · intro request wanted settles seeks
      apply (after_ensureApplication_acquire_settles serene settles.sane seeks wanted).mono
      · rintro found later ⟨next, a, rfl, running⟩
        have all := settles.trans next
        refine ⟨all, ?_⟩
        rintro _ ⟨⟩
        refine ⟨r, Nat.lt_of_lt_of_le issued all.extends_.size, ?_, running.anchored⟩
        rw [all.extends_.home issued, home]
      · exact fun _ _ next => settles.trans next

end ScopeEngine
