import ScopeEngine.Action

/-! Assertions about actions. An action that runs out of steps has no end to speak of; one that fails ends in the world
it failed in. The rules follow the way actions are put together, so that no proof has to open them up. -/

namespace ScopeEngine.Action

variable {α β : Type} {action : Action α} {w : World} {ok ok' : α → World → Prop}
  {failed failed' : Error → World → Prop}

variable {a : α} {first : Action β} {later : World} {next : β → Action α} {post : Error → World → Prop}
    {assured post' : World → Prop}
variable (thing : Hold) (change : World → World) (error : Error)

/-- What holds at the end of an action that started in a world, by whether it succeeded or failed. -/
def After (action : Action α) (w : World) (ok : α → World → Prop) (failed : Error → World → Prop) : Prop :=
  match action w with
  | (.ok a, after) => ok a after
  | (.error (.failed error), after) => failed error after
  | (.error .exhausted, _) => True

theorem After.mono (holds : action.After w ok failed) (fine : ∀ a after, ok a after → ok' a after)
    (bad : ∀ error after, failed error after → failed' error after) : action.After w ok' failed' := by
  unfold After at holds ⊢
  split at holds
  next a after _ => exact fine a after holds
  next error after _ => exact bad error after holds
  next => trivial

section

variable (holds : action.After w ok failed) (fine : ∀ a after, ok a after → ok' a after)
include holds fine

theorem After.mono_ok : action.After w ok' failed :=
  holds.mono fine fun _ _ same => same

theorem After.partly : action.After w ok' (fun _ _ => True) :=
  holds.mono fine fun _ _ _ => trivial

end

theorem After.sure (holds : action.After w ok (fun _ _ => False)) (fine : ∀ a after, ok a after → ok' a after) :
    action.After w ok' failed :=
  holds.mono fine fun _ _ never => never.elim

theorem After.imp (holds : action.After w (fun _ => assured) (fun _ => assured))
    (implies : ∀ after, assured after → post' after) : action.After w (fun _ => post') (fun _ => post') :=
  holds.mono (fun _ => implies) (fun _ => implies)

theorem after_trivial (action : Action α) (w : World) : action.After w (fun _ _ => True) (fun _ _ => True) := by
  unfold After
  split <;> trivial

theorem After.and (first : action.After w ok failed) (second : action.After w ok' failed') :
    action.After w (fun a after => ok a after ∧ ok' a after) (fun error after => failed error after ∧ failed' error after) := by
  unfold After at first second ⊢
  rcases result : action w with ⟨⟨error | _⟩ | a, after⟩ <;> simp only [result] at first second
  · exact ⟨first, second⟩
  · trivial
  · exact ⟨first, second⟩

theorem after_ran (action : Action α) (w : World) :
    action.After w (fun a later => action w = (.ok a, later)) (fun error later => action w = (.error (.failed error), later)) := by
  unfold After
  split <;> first | assumption | trivial

theorem After.ite {c : Prop} [Decidable c] {other : Action α} (yes : c → action.After w ok failed)
    (no : ¬ c → other.After w ok failed) : After (if c then action else other) w ok failed := by
  split
  · exact yes ‹_›
  · exact no ‹_›

@[simp] theorem after_pure (a : α) : After (pure a) w ok failed ↔ ok a w := Iff.rfl

@[simp] theorem after_fail : After (fail error) w ok failed ↔ failed error w := Iff.rfl

@[simp] theorem after_exhausted : After exhausted w ok failed ↔ True := Iff.rfl

@[simp] theorem after_get {ok : World → World → Prop} : After get w ok failed ↔ ok w w := Iff.rfl

@[simp] theorem after_modify {ok : PUnit → World → Prop} :
    After (modify change) w ok failed ↔ ok ⟨⟩ (change w) := Iff.rfl

@[simp] theorem after_modifyGet (change : World → α × World) :
    After (modifyGet change) w ok failed ↔ ok (change w).1 (change w).2 := Iff.rfl

theorem get_apply (w : World) : (get : Action World) w = (.ok w, w) := rfl

theorem modifyGet_apply (change : World → α × World) (w : World) :
    (modifyGet change : Action α) w = (.ok (change w).1, (change w).2) := rfl

theorem modify_apply (w : World) : (modify change : Action PUnit) w = (.ok ⟨⟩, change w) := rfl

theorem ofExcept_apply (result : Except Error α) (w : World) :
    ofExcept result w = match result with
      | .ok a => (.ok a, w)
      | .error error => (.error (.failed error), w) := by
  cases result <;> rfl

theorem bind_apply (first : Action β) (next : β → Action α) (w : World) :
    (first >>= next) w = match first w with
      | (.ok b, after) => next b after
      | (.error stop, after) => (.error stop, after) := by
  simp only [bind, ExceptT.bind, ExceptT.mk, StateT.bind, ExceptT.bindCont]
  cases first w with
  | mk result after => cases result <;> rfl

theorem map_apply (f : β → α) (action : Action β) (w : World) :
    (f <$> action) w = ((action w).1.map f, (action w).2) := by
  rw [← bind_pure_comp, bind_apply]
  rcases action w with ⟨_ | _, _⟩ <;> rfl

@[simp] theorem after_bind (first : Action β) (next : β → Action α) :
    After (first >>= next) w ok failed ↔ first.After w (fun b after => (next b).After after ok failed) failed := by
  unfold After
  rw [bind_apply]
  rcases first w with ⟨⟨stop | stop⟩ | b, after⟩ <;> rfl

@[simp] theorem after_map (f : β → α) (first : Action β) :
    After (f <$> first) w ok failed ↔ first.After w (fun b after => ok (f b) after) failed := by
  rw [← bind_pure_comp, after_bind]
  simp only [after_pure]

@[simp] theorem after_attempt (first : Action β) {ok : Except Error β → World → Prop} :
    After (attempt first) w ok failed ↔
      first.After w (fun b after => ok (.ok b) after) (fun error after => ok (.error error) after) := by
  unfold After attempt
  rcases first w with ⟨⟨stop | stop⟩ | b, after⟩ <;> rfl

theorem after_holding :
    After (holding thing action) w ok failed ↔ action.After { w with holds := thing :: w.holds }
      (fun a after => ok a { after with holds := w.holds })
      (fun error after => failed error { after with holds := w.holds }) := by
  unfold After holding
  rcases action { w with holds := thing :: w.holds } with ⟨⟨stop | stop⟩ | b, after⟩ <;> rfl

def Achieves (action : Action α) (w : World) (post : α → World → Prop) : Prop :=
  ∃ a later, action w = (.ok a, later) ∧ post a later

theorem Achieves.mono {post post' : α → World → Prop} (achieves : action.Achieves w post)
    (implies : ∀ a later, post a later → post' a later) : action.Achieves w post' := by
  obtain ⟨a, later, ran, holds⟩ := achieves
  exact ⟨a, later, ran, implies a later holds⟩

theorem Achieves.after {post : α → World → Prop} (achieves : action.Achieves w post) : action.After w post failed := by
  obtain ⟨a, later, ran, holds⟩ := achieves
  rw [After, ran]
  exact holds

theorem achieves_ok {post : α → World → Prop} (ran : action w = (.ok a, later)) :
    action.Achieves w post ↔ post a later := by
  constructor
  · rintro ⟨b, after, ran', holds⟩
    cases ran.symm.trans ran'
    exact holds
  · exact fun holds => ⟨a, later, ran, holds⟩

theorem eq_of_toOption (ran : (action w).1.toOption = some a) : action w = (.ok a, (action w).2) := by
  refine Prod.ext ?_ rfl
  cases result : (action w).1 with
  | ok b =>
    rw [result] at ran
    cases ran
    rfl
  | error stop =>
    rw [result] at ran
    cases ran

theorem achieves_of_toOption {post : α → World → Prop} (ran : (action w).1.toOption = some a)
    (holds : post a (action w).2) : action.Achieves w post :=
  ⟨a, (action w).2, eq_of_toOption ran, holds⟩

@[simp] theorem achieves_pure (a : α) {post : α → World → Prop} : Achieves (pure a) w post ↔ post a w :=
  achieves_ok rfl

@[simp] theorem achieves_get {post : World → World → Prop} : Achieves get w post ↔ post w w :=
  achieves_ok rfl

@[simp] theorem achieves_modify {post : PUnit → World → Prop} :
    Achieves (modify change) w post ↔ post ⟨⟩ (change w) :=
  achieves_ok rfl

@[simp] theorem achieves_modifyGet (change : World → α × World) {post : α → World → Prop} :
    Achieves (modifyGet change) w post ↔ post (change w).1 (change w).2 :=
  achieves_ok rfl

@[simp] theorem achieves_bind (first : Action β) (next : β → Action α) {post : α → World → Prop} :
    Achieves (first >>= next) w post ↔ first.Achieves w fun b mid => (next b).Achieves mid post := by
  constructor
  · rintro ⟨a, later, ran, holds⟩
    rw [bind_apply] at ran
    split at ran
    next b mid first => exact ⟨b, mid, first, a, later, ran, holds⟩
    next => cases ran
  · rintro ⟨b, mid, ran, a, later, ran', holds⟩
    refine ⟨a, later, ?_, holds⟩
    rw [bind_apply, ran]
    exact ran'

@[simp] theorem achieves_holding {post : α → World → Prop} :
    Achieves (holding thing action) w post ↔ action.Achieves { w with holds := thing :: w.holds }
      fun a later => post a { later with holds := w.holds } := by
  constructor
  · rintro ⟨a, later, ran, holds⟩
    unfold holding at ran
    rcases inside : action { w with holds := thing :: w.holds } with ⟨result, after⟩
    rw [inside] at ran
    cases ran
    exact ⟨a, after, inside, holds⟩
  · rintro ⟨a, later, ran, holds⟩
    refine ⟨a, _, ?_, holds⟩
    unfold holding
    rw [ran]

def Fails (action : Action α) (w : World) (post : Error → World → Prop) : Prop :=
  ∃ error later, action w = (.error (.failed error), later) ∧ post error later

theorem Fails.mono {post' : Error → World → Prop} (fails : action.Fails w post)
    (implies : ∀ error later, post error later → post' error later) : action.Fails w post' := by
  obtain ⟨error, later, ran, holds⟩ := fails
  exact ⟨error, later, ran, implies error later holds⟩

theorem fails_error {error : Error} (ran : action w = (.error (.failed error), later)) :
    action.Fails w post ↔ post error later := by
  constructor
  · rintro ⟨other, after, ran', holds⟩
    cases ran.symm.trans ran'
    exact holds
  · exact fun holds => ⟨error, later, ran, holds⟩

@[simp] theorem fails_fail : Fails (fail error : Action α) w post ↔ post error w :=
  fails_error rfl

theorem Fails.bind (fails : first.Fails w post) (next : β → Action α) : Fails (first >>= next) w post := by
  obtain ⟨error, later, ran, holds⟩ := fails
  refine ⟨error, later, ?_, holds⟩
  rw [bind_apply, ran]

theorem Achieves.bind_fails (achieves : first.Achieves w fun b mid => (next b).Fails mid post) :
    Fails (first >>= next) w post := by
  obtain ⟨b, mid, ran, error, later, ran', holds⟩ := achieves
  refine ⟨error, later, ?_, holds⟩
  rw [bind_apply, ran]
  exact ran'

@[simp] theorem fails_get_bind {next : World → Action α} : Fails (get >>= next) w post ↔ (next w).Fails w post := by
  simp only [Fails, bind_apply, get_apply]

@[simp] theorem fails_modifyGet_bind (change : World → β × World) :
    Fails (modifyGet change >>= next) w post ↔ (next (change w).1).Fails (change w).2 post := by
  have ran : (modifyGet change : Action β) w = (.ok (change w).1, (change w).2) := rfl
  simp only [Fails, bind_apply, ran]

@[simp] theorem fails_pure_bind (b : β) : Fails (pure b >>= next) w post ↔ (next b).Fails w post := by
  rw [pure_bind]

theorem fails_holding :
    Fails (holding thing action) w post ↔ action.Fails { w with holds := thing :: w.holds }
      fun error later => post error { later with holds := w.holds } := by
  unfold Fails holding
  rcases action { w with holds := thing :: w.holds } with ⟨result, after⟩
  constructor
  · rintro ⟨error, later, ran, holds⟩
    cases ran
    exact ⟨error, after, rfl, holds⟩
  · rintro ⟨error, later, ran, holds⟩
    cases ran
    exact ⟨error, _, rfl, holds⟩

theorem attempt_discard {outcome : Except Error α} (ran : attempt action w = (.ok outcome, later)) :
    attempt (action >>= fun _ => pure ()) w = (.ok (outcome.map fun _ => ()), later) := by
  unfold attempt at ran ⊢
  rw [bind_apply]
  rcases done : action w with ⟨⟨stop | stop⟩ | b, after⟩ <;> rw [done] at ran <;> cases ran <;> rfl

/-- What holds of the world when the action comes to an end, whether it succeeds or fails. It may run out of steps only
if that is allowed. -/
def Leaves (stuck : Prop) (action : Action α) (w : World) (post : World → Prop) : Prop :=
  match action w with
  | (.ok _, later) | (.error (.failed _), later) => post later
  | (.error .exhausted, _) => stuck

variable {stuck : Prop} {post post' : World → Prop}

theorem Leaves.mono (leaves : action.Leaves stuck w post) (implies : ∀ later, post later → post' later) :
    action.Leaves stuck w post' := by
  unfold Leaves at leaves ⊢
  split at leaves
  next => exact implies _ leaves
  next => exact implies _ leaves
  next => exact leaves

theorem Leaves.bind {mid : World → Prop} (leaves : first.Leaves stuck w mid) (stays : ∀ later, mid later → post later)
    (rest : ∀ b later, mid later → (next b).Leaves stuck later post) : Leaves stuck (first >>= next) w post := by
  unfold Leaves at leaves
  rw [Leaves, bind_apply]
  rcases ran : first w with ⟨⟨stop | stop⟩ | b, later⟩ <;> rw [ran] at leaves
  · exact stays later leaves
  · exact leaves
  · exact rest b later leaves

theorem leaves_ok_bind {b : β} (ran : first w = (.ok b, later)) :
    Leaves stuck (first >>= next) w post ↔ (next b).Leaves stuck later post := by
  rw [Leaves, bind_apply, ran]
  rfl

theorem leaves_modifyGet_bind (change : World → β × World) :
    Leaves stuck (modifyGet change >>= next) w post ↔ (next (change w).1).Leaves stuck (change w).2 post :=
  leaves_ok_bind rfl

theorem leaves_get_bind {next : World → Action α} : Leaves stuck (get >>= next) w post ↔ (next w).Leaves stuck w post :=
  leaves_ok_bind rfl

theorem Leaves.attempt (leaves : action.Leaves stuck w post) : Leaves stuck (attempt action) w post := by
  unfold Leaves at leaves ⊢
  unfold Action.attempt
  rcases ran : action w with ⟨⟨stop | stop⟩ | b, later⟩ <;> rw [ran] at leaves <;> exact leaves

/-- Whether the action succeeded or failed can be told from outside. -/
theorem Leaves.ran (leaves : action.Leaves stuck w post) :
    action.Leaves stuck w fun later => post later ∧ ∃ outcome, Action.attempt action w = (.ok outcome, later) := by
  unfold Leaves at leaves ⊢
  unfold Action.attempt
  rcases ran : action w with ⟨⟨stop | stop⟩ | a, later⟩ <;> rw [ran] at leaves
  · exact ⟨leaves, _, rfl⟩
  · exact leaves
  · exact ⟨leaves, _, rfl⟩

theorem leaves_holding :
    Leaves stuck (holding thing action) w post ↔ action.Leaves stuck { w with holds := thing :: w.holds }
      fun later => post { later with holds := w.holds } := by
  unfold Leaves holding
  rcases action { w with holds := thing :: w.holds } with ⟨⟨stop | stop⟩ | b, after⟩ <;> rfl

theorem Achieves.leaves (achieves : action.Achieves w fun _ => post) : action.Leaves stuck w post := by
  obtain ⟨a, later, ran, holds⟩ := achieves
  rw [Leaves, ran]
  exact holds

def Ends (action : Action α) (w : World) (post : World → Prop) : Prop :=
  match action w with
  | (.ok _, later) | (.error (.failed _), later) => post later
  | (.error .exhausted, _) => False

theorem ends_iff : action.Ends w post ↔ action.Leaves False w post := Iff.rfl

section

variable (ends : action.Ends w post)
include ends

theorem Ends.mono (implies : ∀ later, post later → post' later) : action.Ends w post' :=
  Leaves.mono ends implies

theorem Ends.attempt : Achieves (attempt action) w fun _ later => post later := by
  unfold Ends at ends
  unfold Achieves Action.attempt
  rcases ran : action w with ⟨⟨stop | stop⟩ | a, later⟩ <;> rw [ran] at ends
  · exact ⟨_, _, rfl, ends⟩
  · exact ends.elim
  · exact ⟨_, _, rfl, ends⟩

theorem Ends.drop (b : β) : Ends (action >>= fun _ => pure b) w post :=
  Leaves.bind ends (fun _ held => held) fun _ _ held => held

theorem Ends.and_after (after : action.After w (fun _ => post') (fun _ => post')) :
    action.Ends w fun later => post later ∧ post' later := by
  unfold Ends at ends ⊢
  unfold After at after
  rcases ran : action w with ⟨⟨stop | stop⟩ | a, last⟩ <;> simp only [ran] at ends after
  · exact ⟨ends, after⟩
  · exact ⟨ends, after⟩

end

theorem leaves_true_iff : action.Leaves True w post ↔ action.After w (fun _ => post) (fun _ => post) := by
  unfold Leaves After
  rcases action w with ⟨⟨stop | stop⟩ | b, later⟩ <;> rfl

end ScopeEngine.Action
