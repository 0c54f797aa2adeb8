import ScopeEngine.Proofs.Registry.Filing

/-! What single changes do to the files: sessions come to maps and leave them, applications are registered and unregistered,
and requests get other sessions. A mark that makes a session or an application useless comes together with its leaving, so
the two steps are taken as one. -/

namespace ScopeEngine

open World

namespace World

variable {w later last : World} {a b : ApplicationId} {s : SessionId} {c r : ContextId} {owner : Option ApplicationId}

section Maps

variable (w)

theorem thins_takeSession (a : ApplicationId) (id : Key) : w.Thins (w.takeSession a id).2 := by
  have kept : ∀ b, ((w.takeSession a id).2.application b).discarded = _ := fun b =>
    application_modify_keeps w a b Application.discarded fun _ => rfl
  exact {
    (Unfiles.refl w).toThins with
    applications := Table.size_set ..
    maps := by
      intro b
      rw [sessions_takeSession]
      split
      · exact Bindings.sublist_erase ..
      · exact List.Sublist.refl _
    name := fun b => application_modify_keeps w a b Application.name fun _ => rfl
    kept := fun b _ => kept b
    live := fun _ _ _ _ live => live
    refused := fun b => (kept b).trans }

theorem thins_dropSession (a : ApplicationId) (s : SessionId) : w.Thins (w.dropSession a s).2 := by
  rcases w.dropSession_cases a s with same | ⟨-, same⟩
  · rw [same]
    exact (Unfiles.refl w).toThins
  · rw [same]
    exact w.thins_takeSession a _

theorem mapped_takeSession {b : ApplicationId} {t : SessionId} (a : ApplicationId) (id : Key) (mapped : w.Mapped b t)
    (other : (w.application a).sessions.find? id ≠ some t) : (w.takeSession a id).2.Mapped b t := by
  rw [Mapped, sessions_takeSession]
  split
  next same =>
    rw [same.1] at other
    exact (Bindings.mem_values_erase mapped id).resolve_right other
  next => exact mapped

end Maps

section Maps

variable {id : Key}

theorem Filing.same_id (filing : w.Filing) (found : (w.application a).sessions.find? id = some s) :
    ((w.session s).id == id) = true := by
  obtain ⟨entry, member, same, rfl⟩ := Bindings.mem_entries_of_find? found
  exact BEq.trans (filing.filed a entry member).2.1 same

section

variable (inOrder : w.InOrder)
include inOrder

theorem InOrder.unmapped_takeSession (found : (w.application a).sessions.find? id = some s) :
    ¬ (w.takeSession a id).2.Mapped a s := by
  intro mapped
  have still : ((w.takeSession a id).2.application a).sessions.find? (w.session s).id = some s :=
    (inOrder.thins (w.thins_takeSession a id)).find? mapped
  rw [sessions_takeSession, if_pos ⟨rfl, issued_of_mapped (Bindings.mem_values_of_find? found)⟩,
    Bindings.find?_congr _ (inOrder.same_id found), (inOrder.ids a id).find?_erase] at still
  cases still

theorem InOrder.takeSession (found : (w.application a).sessions.find? id = some s) :
    (w.takeSession a id).2.FiledWith none s := by
  have stored : w.Mapped a s := Bindings.mem_values_of_find? found
  have refiles := (w.thins_takeSession a id).refiles
  exact ((inOrder.filedWith stored).refiles refiles).leave fun both => inOrder.unmapped_takeSession found both.2

theorem InOrder.loses_takeSession (a : ApplicationId) (id : Key) :
    w.Loses ((w.application a).sessions.find? id) (w.takeSession a id).2 where
  inOrder := inOrder.thins (w.thins_takeSession a id)
  refiles := (w.thins_takeSession a id).refiles
  mislays := fun _ mislaid => Classical.or_iff_not_imp_left.mpr fun other =>
    (w.thins_takeSession a id).mislaid mislaid fun _ mapped => w.mapped_takeSession a id mapped other

theorem InOrder.unmapped_dropSession (a : ApplicationId) (s : SessionId) : ¬ (w.dropSession a s).2.Mapped a s := by
  by_cases stored : w.Mapped a s
  · have found := inOrder.find? stored
    have drops : (w.dropSession a s).2 = (w.takeSession a (w.session s).id).2 := by
      simp [dropSession, found]
    rw [drops]
    exact inOrder.unmapped_takeSession found
  · exact fun mapped => stored ((w.thins_dropSession a s).mapped mapped)

theorem InOrder.loses_dropSession (a : ApplicationId) (s : SessionId) : w.Loses (some s) (w.dropSession a s).2 := by
  rcases w.dropSession_cases a s with same | ⟨found, same⟩
  · rw [same]
    exact { inOrder.files with mislays := fun _ => .inr }
  · rw [same, ← found]
    exact inOrder.loses_takeSession a _

theorem InOrder.dropSession (filedWith : w.FiledWith (some a) s) : (w.dropSession a s).2.FiledWith none s :=
  (filedWith.refiles (w.thins_dropSession a s).refiles).leave fun both => inOrder.unmapped_dropSession a s both.2

end

theorem dropSession_sessionRefused (w : World) (a : ApplicationId) (s : SessionId) :
    ((w.sessionRefused s).dropSession a s).2 = (w.dropSession a s).2.sessionRefused s := by
  have same : ((w.sessionRefused s).session s).id = (w.session s).id :=
    session_modify_keeps w s s Session.id fun _ => rfl
  have map : ((w.sessionRefused s).application a).sessions = (w.application a).sessions := rfl
  simp only [dropSession, same, map]
  split <;> rfl

theorem InOrder.refuseSession (inOrder : w.InOrder) (filedWith : w.FiledWith (some a) s) :
    w.Files ((w.sessionRefused s).dropSession a s).2 := by
  have drops := inOrder.loses_dropSession a s
  have out := inOrder.dropSession filedWith
  rw [dropSession_sessionRefused]
  refine drops.ends (drops.inOrder.unfiles (unfiles_mark _ s (fun session => { session with discarded := true })
    (fun _ => ⟨rfl, rfl⟩) (fun _ spent => spent) (fun _ _ => rfl) out)) fun live => ?_
  rw [Live, sessionRefused, session_modify, if_pos ⟨rfl, out.issued⟩] at live
  cases live.2

theorem InOrder.insertSession (inOrder : w.InOrder) (issued : a.number < w.applications.size) (id : Key)
    (stale : Option SessionId) : w.Loses ((w.application a).sessions.find? id) (w.insertSession a id stale).2 ∧
      (w.insertSession a id stale).2.Mapped a w.sessions.next := by
  let later := (w.insertSession a id stale).2
  have size : later.sessions.size = w.sessions.size + 1 := size_insertSession w a id stale
  have read : ∀ t, later.session t = _ := session_insertSession w a id stale
  have older : ∀ t : SessionId, t.number < w.sessions.size → later.session t = w.session t := by
    intro t inside
    rw [read t, if_neg]
    intro equal
    rw [equal] at inside
    exact Nat.lt_irrefl _ inside
  have map : ∀ b, (later.application b).sessions =
      if a = b then (w.application b).sessions.insert id w.sessions.next else (w.application b).sessions := by
    simpa [issued] using sessions_insertSession w a id stale
  have name : ∀ b, (later.application b).name = (w.application b).name := fun b =>
    insertSession_keeps w a id stale b Application.name fun _ _ => rfl
  have mapped : ∀ b t, later.Mapped b t → w.Mapped b t ∨ b = a ∧ t = w.sessions.next := by
    intro b t there
    rw [Mapped, map] at there
    split at there
    next same => exact (Bindings.mem_values_of_insert there).symm.imp_right fun new => ⟨same.symm, new⟩
    next => exact .inl there
  have refiles : w.Refiles later := by
    refine ⟨Nat.le_of_eq (Table.size_set ..).symm, by omega, fun _ _ registered => registered, ?_, ?_, ?_, ?_, ?_⟩
    · intro b t inside there
      rcases mapped b t there with before | ⟨-, rfl⟩
      · exact before
      · exact absurd inside (Nat.lt_irrefl _)
    · intro t spent
      have inside : t.number < w.sessions.size := issued_of_over spent
      rw [older t inside]
      exact spent
    · exact fun t inside => by rw [older t inside]
    · intro t inside live
      rw [Live, older t inside] at live
      exact live
    · exact fun b refused => (insertSession_keeps w a id stale b Application.discarded fun _ _ => rfl).trans refused
  have filing : later.Filing := {
    names := inOrder.names
    kept := fun b registered =>
      (insertSession_keeps w a id stale b Application.discarded fun _ _ => rfl).trans (inOrder.kept b registered)
    ids := by
      intro b key
      rw [map]
      split
      · exact (inOrder.ids b key).insert id _
      · exact inOrder.ids b key
    filed := by
      intro b entry member
      rw [name, size]
      have before : entry ∈ (w.application b).sessions.entries ∨
          a = b ∧ (id == entry.1) = true ∧ entry.2 = w.sessions.next := by
        rw [map] at member
        split at member
        next same => exact (Bindings.mem_entries_of_insert member).imp_right fun new => ⟨same, new⟩
        next => exact .inl member
      rcases before with old | ⟨rfl, same, new⟩
      · obtain ⟨inside, labels⟩ := inOrder.filed b entry old
        rw [older _ inside]
        exact ⟨Nat.lt_succ_of_lt inside, labels⟩
      · rw [new, read, if_pos rfl]
        exact ⟨Nat.lt_succ_self _, same, rfl⟩
    alone := by
      intro b e t there stored
      rcases mapped b t there with before | ⟨rfl, rfl⟩
      · exact inOrder.alone b e t before (refiles.mapped e t (inOrder.issued before) stored)
      · rcases mapped e _ stored with before | ⟨rfl, -⟩
        · exact absurd (inOrder.issued before) (Nat.lt_irrefl _)
        · rfl
    live := by
      intro b t registered there
      rcases mapped b t there with before | ⟨-, rfl⟩
      · rw [Live, older t (inOrder.issued before)]
        exact inOrder.live b t registered before
      · rw [Live, read, if_pos rfl]
        exact ⟨rfl, rfl⟩ }
  have found : (later.application a).sessions.find? id = some w.sessions.next := by
    rw [map, if_pos rfl]
    exact Bindings.find?_insert_self ..
  have here : later.Mapped a w.sessions.next := Bindings.mem_values_of_find? found
  refine ⟨⟨inOrder.instances filing rfl refiles, refiles, fun t mislaid => Classical.or_iff_not_imp_left.mpr fun other => ?_⟩, here⟩
  have inside : t.number < w.sessions.size := by
    refine Nat.lt_of_le_of_ne (Nat.lt_succ_iff.mp (Nat.lt_of_lt_of_eq mislaid.issued size)) fun equal => ?_
    cases t
    cases equal
    exact mislaid.nowhere a here
  refine ⟨inside, refiles.live t inside mislaid.live, fun b before => mislaid.nowhere b ?_⟩
  rw [Mapped, map]
  split
  next same =>
    subst same
    exact (Bindings.mem_values_insert before id _).resolve_right other
  next => exact before

/-- What a request that looked a session up may rely on. -/
structure Places (w : World) (a : ApplicationId) (id : Key) (placed : Placed) : Prop where
  mapped : w.Mapped a placed.session
  named : ((w.session placed.session).id == id) = true
  stale : ∀ s, placed.stale = some s → w.FiledWith none s

theorem InOrder.replaced (inOrder : w.InOrder) (issued : a.number < w.applications.size)
    (found : (w.application a).sessions.find? id = some s) (stale : Option SessionId) :
    (w.insertSession a id stale).2.FiledWith none s := by
  have stored : w.Mapped a s := Bindings.mem_values_of_find? found
  have other : s ≠ w.sessions.next := by
    intro equal
    have inside := inOrder.issued stored
    rw [equal] at inside
    exact Nat.lt_irrefl _ inside
  have files := (inOrder.insertSession issued id stale).1
  refine ((inOrder.filedWith stored).refiles files.refiles).leave fun both => ?_
  have still := files.inOrder.find? both.2
  rw [session_insertSession, if_neg other, sessions_insertSession, if_pos ⟨rfl, issued⟩, Bindings.find?_insert,
    if_pos (BEq.symm (inOrder.same_id found))] at still
  exact other (Option.some.inj still).symm

theorem contexts_findOrCreateSession (w : World) (a : ApplicationId) (id : Key) :
    (w.findOrCreateSession a id).2.contexts = w.contexts := by
  simp only [World.findOrCreateSession, placeSession]
  split
  · rfl
  · split
    · split <;> rfl
    · rfl

theorem InOrder.findOrCreateSession (inOrder : w.InOrder) (issued : a.number < w.applications.size) (id : Key) :
    w.Loses ((w.findOrCreateSession a id).1.bind Placed.stale) (w.findOrCreateSession a id).2 ∧
      ∀ placed, (w.findOrCreateSession a id).1 = some placed → (w.findOrCreateSession a id).2.Places a id placed := by
  have inserts := fun stale => inOrder.insertSession issued id stale
  have named : ∀ stale, (((w.insertSession a id stale).2.session w.sessions.next).id == id) = true := by
    intro stale
    rw [session_insertSession, if_pos rfl]
    exact BEq.rfl
  simp only [World.findOrCreateSession, placeSession]
  split
  · exact ⟨inOrder.files, fun _ none => by cases none⟩
  · cases found : (w.application a).sessions.find? id with
    | none =>
      obtain ⟨loses, mapped⟩ := inserts none
      rw [found] at loses
      refine ⟨loses, fun placed same => ?_⟩
      cases same
      exact ⟨mapped, named none, fun _ none => by cases none⟩
    | some s =>
      dsimp only
      split
      · obtain ⟨loses, mapped⟩ := inserts (some s)
        rw [found] at loses
        refine ⟨loses, fun placed same => ?_⟩
        cases same
        refine ⟨mapped, named (some s), fun t same => ?_⟩
        cases same
        exact inOrder.replaced issued found (some s)
      · refine ⟨inOrder.files, fun placed same => ?_⟩
        cases same
        exact ⟨Bindings.mem_values_of_find? found, inOrder.same_id found, fun _ none => by cases none⟩

end Maps

section Registry

theorem unfiles_erase (w : World) (name : Key) : w.Unfiles { w with registry := w.registry.erase name } :=
  { Unfiles.refl w with registry := w.registry.sublist_erase name, live := fun _ _ _ _ live => live, kept := fun _ _ => rfl }

theorem unfiles_unregister (w : World) (a : ApplicationId) : w.Unfiles (w.unregister a).2 := by
  simp only [unregister]
  split
  · exact w.unfiles_erase _
  · exact .refl w

theorem Filing.find?_name (filing : w.Filing) (sane : w.Sane) (registered : w.Registered a) :
    w.registry.find? (w.application a).name = some a := by
  obtain ⟨entry, member, rfl⟩ := List.mem_map.mp registered
  exact (filing.names _).find?_of_mem member (BEq.symm (sane.registered entry member).2)

theorem InOrder.unregister (inOrder : w.InOrder) (sane : w.Sane) (a : ApplicationId) :
    ¬ (w.unregister a).2.Registered a := by
  intro registered
  have found := inOrder.find?_name sane ((w.unfiles_unregister a).registered registered)
  have files := inOrder.unfiles (w.unfiles_unregister a)
  have still := files.inOrder.find?_name (sane.keeps_unregister a).sane registered
  rw [unregister_registered found, (w.unfiles_unregister a).name, (inOrder.names _).find?_erase] at still
  cases still

theorem unregister_applicationRefused (w : World) (a : ApplicationId) :
    ((w.applicationRefused a).unregister a).2 = (w.unregister a).2.applicationRefused a := by
  have same : ((w.applicationRefused a).application a).name = (w.application a).name :=
    application_modify_keeps w a a Application.name fun _ => rfl
  have registry : (w.applicationRefused a).registry = w.registry := rfl
  simp only [unregister, same, registry]
  split <;> rfl

section

variable (inOrder : w.InOrder) (sane : w.Sane)
include inOrder sane

theorem InOrder.refuseApplication (a : ApplicationId) :
    w.Files ((w.applicationRefused a).unregister a).2 ∧ ¬ ((w.applicationRefused a).unregister a).2.Registered a := by
  have leaves := inOrder.unfiles (w.unfiles_unregister a)
  have out := inOrder.unregister sane a
  rw [unregister_applicationRefused]
  have same : ∀ b, (((w.unregister a).2.applicationRefused a).application b).sessions = _ := fun b =>
    application_modify_keeps _ a b Application.sessions fun _ => rfl
  refine ⟨leaves.trans (leaves.inOrder.unfiles ?_), out⟩
  exact {
    Unfiles.refl (w.unregister a).2 with
    applications := Table.size_set ..
    maps := fun b => same b ▸ .refl _
    name := fun b => application_modify_keeps _ a b Application.name fun _ => rfl
    kept := by
      intro b registered
      have other : a ≠ b := by
        intro equal
        exact out (equal ▸ registered)
      rw [applicationRefused, application_modify, if_neg fun both => other both.1]
    live := fun _ _ _ _ live => live
    refused := by
      intro b refused
      rw [applicationRefused, application_modify]
      split
      · rfl
      · exact refused
    stays := by
      intro b t mapped _
      rw [Mapped, same]
      exact mapped }

theorem InOrder.register (name : Key) (settings : Settings) :
    w.Files { (w.newApplication name settings).2 with registry := w.registry.insert name w.applications.next } := by
  let later : World := { (w.newApplication name settings).2 with
    registry := w.registry.insert name w.applications.next }
  have size : later.applications.size = w.applications.size + 1 := Table.size_add ..
  have read : ∀ b, later.application b = if b = w.applications.next then _ else w.application b := fun b =>
    Table.get_add w.applications b _
  have older : ∀ b : ApplicationId, b.number < w.applications.size → later.application b = w.application b := by
    intro b inside
    rw [read, if_neg]
    intro equal
    rw [equal] at inside
    exact Nat.lt_irrefl _ inside
  have known : ∀ b, w.Registered b → b.number < w.applications.size := by
    intro b registered
    obtain ⟨entry, member, rfl⟩ := List.mem_map.mp registered
    exact (sane.registered entry member).1
  have registered : ∀ b, later.Registered b → w.Registered b ∨ b = w.applications.next := by
    intro b there
    exact (Bindings.mem_values_of_insert there).symm
  have mapped : ∀ b t, later.Mapped b t → w.Mapped b t := by
    intro b t there
    rw [Mapped, read] at there
    split at there
    · cases there
    · exact there
  have refiles : w.Refiles later := by
    refine ⟨by omega, Nat.le_refl _, ?_, fun b t _ => mapped b t, fun _ spent => spent, fun _ _ => rfl, fun _ _ live => live,
      ?_⟩
    · intro b inside there
      rcases registered b there with before | rfl
      · exact before
      · exact absurd inside (Nat.lt_irrefl _)
    · intro b refused
      rw [older b (issued_of_refused refused)]
      exact refused
  have stays : ∀ b t, w.Mapped b t → later.Mapped b t := by
    intro b t before
    rw [Mapped, older b (issued_of_mapped before)]
    exact before
  refine ⟨inOrder.instances ?_ rfl refiles, refiles, fun t mislaid =>
    .inr ⟨mislaid.issued, mislaid.live, fun b before => mislaid.nowhere b (stays b t before)⟩⟩
  exact {
    names := fun key => (inOrder.names key).insert name _
    kept := by
      intro b there
      rcases registered b there with before | rfl
      · rw [older b (known b before)]
        exact inOrder.kept b before
      · rw [read, if_pos rfl]
    ids := by
      intro b key
      rw [read]
      split
      · exact Nat.zero_le 1
      · exact inOrder.ids b key
    filed := by
      intro b entry member
      have there := issued_of_mapped (mapped b entry.2 (List.mem_map.mpr ⟨entry, member, rfl⟩))
      rw [older b there] at member ⊢
      exact inOrder.filed b entry member
    alone := by
      intro b e t there stored
      exact inOrder.alone b e t (mapped b t there) (mapped e t stored)
    live := by
      intro b t there stored
      have before := mapped b t stored
      exact inOrder.live b t (refiles.registered b (issued_of_mapped before) there) before }

theorem InOrder.findOrCreateApplication (name : Key) (settings : Settings) :
    w.Files (w.findOrCreateApplication name settings).2 := by
  simp only [World.findOrCreateApplication]
  split
  · split
    · exact inOrder.register sane name settings
    · exact inOrder.files
  · exact inOrder.register sane name settings

end

end Registry

section Requests

section

variable (inOrder : w.InOrder)
include inOrder

theorem InOrder.requests (applications : later.applications = w.applications)
    (sessions : later.sessions = w.sessions) (registry : later.registry = w.registry)
    (nodes : ∀ r request node, (later.context r).request? = some request → request.sessionNode = some node →
      node.number < later.contexts.size)
    (seated : ∀ r standing s, later.standing r = some standing → standing.session = some s →
      w.FiledWith standing.application s ∧ (w.Live s → w.Suits standing s)) : w.Files later := by
  have filed : w.Unfiles { later with contexts := w.contexts } := unfiles_of_rows rfl applications sessions registry
  have elsewhere := inOrder.unfiles filed
  have refiles : w.Refiles later := { elsewhere.refiles with }
  refine ⟨{ elsewhere.inOrder.toFiling with nodes, seated := ?_, suits := ?_ }, refiles, fun s mislaid => ?_⟩
  · intro r standing s at_ held
    exact (seated r standing s at_ held).1.refiles refiles
  · intro r standing s at_ held live
    obtain ⟨own, suits⟩ := seated r standing s at_ held
    exact (suits (refiles.live s own.issued live)).refiles own.issued refiles
  · exact elsewhere.mislays s { mislaid with }

theorem InOrder.opens (sane : w.Sane) (calm : w.Calm later)
    (kind : ∀ t : ContextId, t.number < w.contexts.size → (later.context t).kind = (w.context t).kind)
    (fresh : ∀ t request, w.contexts.size ≤ t.number → (later.context t).request? = some request →
      request.sessionNode = none)
    (applications : later.applications = w.applications) (sessions : later.sessions = w.sessions) : w.Files later := by
  have before : ∀ t request node, (later.context t).request? = some request → request.sessionNode = some node →
      t.number < w.contexts.size ∧ (w.context t).request? = some request := by
    intro t request node there spliced
    by_cases issued : t.number < w.contexts.size
    · rw [request?_eq_some, kind t issued, ← request?_eq_some] at there
      exact ⟨issued, there⟩
    · cases (fresh t request (Nat.le_of_not_lt issued) there).symm.trans spliced
  apply inOrder.requests applications sessions calm.registry
  · intro t request node there spliced
    obtain ⟨-, old⟩ := before t request node there spliced
    exact Nat.lt_of_lt_of_le (inOrder.nodes t request node old spliced) calm.contexts
  · intro t standing s at_ held
    obtain ⟨request, there, rfl⟩ := Option.map_eq_some_iff.mp at_
    obtain ⟨node, spliced, place⟩ := Option.bind_eq_some_iff.mp held
    obtain ⟨issued, old⟩ := before t request node there spliced
    have inside := inOrder.nodes t request node old spliced
    have stood : w.standing t = some (w.standingOf request) := by rw [standing, old]; rfl
    have session : (w.standingOf request).session = some s := by
      rw [standingOf, spliced, Option.bind_some, nodeSession, ← kind node inside]
      exact place
    have application : (later.standingOf request).application = (w.standingOf request).application := by
      obtain ⟨new, still, -, -, same⟩ := Standing.of_seat (calm.seat sane issued) stood
      cases at_.symm.trans still
      exact same
    rw [application]
    refine ⟨inOrder.seated t _ s stood session, fun live => ?_⟩
    obtain ⟨named, place⟩ := inOrder.suits t _ s stood session live
    exact ⟨named, by rw [application]; exact place⟩

theorem InOrder.addContext (sane : w.Sane) {context : Context}
    (bare : ∀ request, context.request? = some request → request.applicationNode = none ∧ request.sessionNode = none) :
    w.Files (w.addContext context).2 := by
  apply inOrder.opens sane (w.calm_addContext fun request there => (bare request there).1)
  · intro t issued
    rw [context_addContext_of_lt w context issued]
  · intro t request beyond there
    rw [context_addContext] at there
    split at there
    · exact (bare request there).2
    · exact absurd (issued_of_request there) (Nat.not_lt_of_le beyond)
  · rfl
  · rfl

/-- A request may get another session, if that one suits it and is filed with its application or not at all. -/
theorem InOrder.modifyRequest (r : ContextId) (change : Request → Request)
    (nodes : ∀ request node, (w.context r).request? = some request → (change request).sessionNode = some node →
      node.number < w.contexts.size)
    (seated : ∀ request s, (w.context r).request? = some request → (w.standingOf (change request)).session = some s →
      w.FiledWith (w.standingOf (change request)).application s ∧
        (w.Live s → w.Suits (w.standingOf (change request)) s)) : w.Files (w.modifyRequest r change) := by
  apply inOrder.requests (modifyRequest_applications ..) (modifyRequest_sessions ..) (modifyRequest_registry ..)
  · intro t request node there spliced
    rw [modifyRequest_size]
    rw [request?_modifyRequest] at there
    split at there
    · obtain ⟨old, before, rfl⟩ := Option.map_eq_some_iff.mp there
      exact nodes old node before spliced
    · exact inOrder.nodes t request node there spliced
  · intro t standing s at_ held
    rw [standing_modifyRequest] at at_
    split at at_
    · obtain ⟨old, before, rfl⟩ := Option.map_eq_some_iff.mp at_
      exact seated old s before held
    · exact ⟨inOrder.seated t standing s at_ held, inOrder.suits t standing s at_ held⟩

theorem InOrder.dropsSession (r : ContextId) (change : Request → Request)
    (drops : ∀ request, (change request).sessionNode = none) : w.Files (w.modifyRequest r change) := by
  apply inOrder.modifyRequest r change
  · intro request node _ spliced
    cases (drops request).symm.trans spliced
  · intro request s _ held
    simp [standingOf, drops request] at held

/-- Whatever else changes of a request, it may keep its nodes, and its session id as long as it has a session of use. -/
theorem InOrder.keepsNodes (r : ContextId) (change : Request → Request)
    (keeps : ∀ request, (change request).sessionNode = request.sessionNode ∧
      (change request).applicationNode = request.applicationNode)
    (named : ∀ request s, (w.context r).request? = some request → (w.standingOf request).session = some s → w.Live s →
      ∃ id, (change request).sessionId = some id ∧ ((w.session s).id == id) = true) :
    w.Files (w.modifyRequest r change) := by
  apply inOrder.modifyRequest r change
  · intro request node there spliced
    exact inOrder.nodes r request node there ((keeps request).1.symm.trans spliced)
  · intro request s there held
    have stood : w.standing r = some (w.standingOf request) := by rw [standing, there]; rfl
    simp only [standingOf, (keeps request).1] at held
    have application : (w.standingOf (change request)).application = (w.standingOf request).application := by
      simp only [standingOf, (keeps request).2]
    rw [application]
    refine ⟨inOrder.seated r _ s stood held, fun live => ⟨named request s there held live, ?_⟩⟩
    rw [application]
    exact (inOrder.suits r _ s stood held live).place

end

end Requests

end World

end ScopeEngine
