import ScopeEngine.Proofs.Resolution.Order
import ScopeEngine.Script.Interpreter

/-! Lambdas are isolated. Code of a lambda, and of plain functions called from it, finds names only in the scopes of those
calls, cannot tell what is in any other scope, reaches no scope of a component, and assigns to nothing else. -/

namespace ScopeEngine

open ScopeEngine.Action World

variable (host : Host) (s : ScopeId) (key : Key) (value : Value) (w : World) {name : ScopeName}

namespace World

variable {w : World} {c l : ContextId} {key : Key}
variable {context : Context}

/-- The contexts that a search passes, up to the one where it ends. -/
def wayOf (w : World) : List ContextId → List ContextId
  | [] => []
  | c :: above => if (w.context c).handsOn then c :: w.wayOf above else [c]

def callScopes (w : World) (c : ContextId) : List ScopeId :=
  (w.wayOf (w.ancestry c)).flatMap fun t => (w.context t).call?.toList.flatMap fun call => [call.locals, call.arguments]

theorem handsOn_eq (onward : context.handsOn = true) :
    ∃ call, context.kind = .function call ∧ call.component = none := by
  cases kind : context.kind with
  | function call => exact ⟨call, rfl, by simpa [Context.handsOn, kind] using onward⟩
  | _ => simp [Context.handsOn, kind] at onward

theorem lambda_eq (lambda : context.type = .lambda) : ∃ call, context.kind = .lambda call := by
  cases kind : context.kind with
  | lambda call => exact ⟨call, rfl⟩
  | _ => simp [Context.type, ContextKind.type, kind] at lambda

theorem groundOf_cons {above : List ContextId} (ends : w.groundOf (c :: above) = some l)
    (lambda : (w.context l).type = .lambda) :
    (∃ call, (w.context c).kind = .lambda call ∧ (w.context c).handsOn = false) ∨
      ∃ call, (w.context c).kind = .function call ∧ call.component = none ∧ (w.context c).handsOn = true ∧
        w.groundOf above = some l := by
  cases onward : (w.context c).handsOn with
  | false =>
    simp only [groundOf, List.find?_cons, onward, Bool.not_false, Option.some.injEq] at ends
    subst ends
    obtain ⟨call, kind⟩ := lambda_eq lambda
    exact .inl ⟨call, kind, rfl⟩
  | true =>
    simp only [groundOf, List.find?_cons, onward, Bool.not_true] at ends
    obtain ⟨call, kind, component⟩ := handsOn_eq onward
    exact .inr ⟨call, kind, component, rfl, ends⟩

theorem frameOf_lambda (lambda : (w.context l).type = .lambda) (contexts : List ContextId)
    (ends : w.groundOf contexts = some l) : (w.frameOf contexts).scopes = (w.wayOf contexts).flatMap fun t =>
      (w.context t).call?.toList.flatMap fun call => [call.locals, call.arguments] := by
  induction contexts with
  | nil => cases ends
  | cons c above ih =>
    rcases groundOf_cons ends lambda with ⟨call, kind, last⟩ | ⟨call, kind, component, onward, further⟩
    · simp [frameOf, wayOf, last, kind, Context.call?]
    · simp [frameOf, wayOf, onward, kind, component, Context.call?, ih further]

variable (ends : w.ground c = some l) (lambda : (w.context l).type = .lambda)
include ends lambda

theorem findNearby_lambda (key : Key) : w.findNearby key false (w.ancestry c) = w.lookupIn (w.callScopes c) key := by
  have closed : (w.context l).admitsRequest = false := by
    obtain ⟨call, kind⟩ := lambda_eq lambda
    simp [Context.admitsRequest, kind]
  have stop : w.groundOf (w.ancestry c) = some l := ends
  rw [findNearby_deep, stop, frameOf_lambda lambda _ stop, callScopes]
  simp [closed]

theorem defaultScope_lambda : w.defaultScope c ∈ w.callScopes c := by
  obtain ⟨above, way⟩ := w.ancestry_eq_cons c
  have stop : w.groundOf (c :: above) = some l := by rw [← way]; exact ends
  rw [callScopes, way]
  rcases groundOf_cons stop lambda with ⟨call, kind, last⟩ | ⟨call, kind, component, onward, -⟩
  · simp [defaultScope, wayOf, last, kind, Context.call?]
  · simp [defaultScope, wayOf, onward, kind, Context.call?]

end World

def ScopeName.ofComponent : ScopeName → Bool
  | .vars | .self | .shared => true
  | _ => false

def World.globalOf (w : World) (name : ScopeName) (contexts : List ContextId) : Option ScopeId :=
  contexts.findSome? fun c =>
    match (w.context c).kind, name with
    | .server server, .server => some server.scope
    | .request request, .request => some request.scope
    | _, _ => none

theorem globalScope_apply (outer : name ≠ .application ∧ name ≠ .session)
    (contexts : List ContextId) (w : World) :
    globalScope host key (some name) contexts w = orScopeNotFound key (w.globalOf name contexts) w := by
  induction contexts with
  | nil => rfl
  | cons c above ih =>
    rw [globalScope, bind_apply, get_apply, globalOf, List.findSome?_cons, ← globalOf]
    cases name with
    | application => exact absurd rfl outer.1
    | session => exact absurd rfl outer.2
    | _ => cases kind : (w.context c).kind <;> simp only [kind] <;> first | exact ih | rfl

theorem globalScope_ofComponent (inner : name.ofComponent = true)
    (contexts : List ContextId) (w : World) :
    globalScope host key (some name) contexts w = (.error (.failed (.scopeNotFound key.name)), w) := by
  have nowhere : w.globalOf name contexts = none := List.findSome?_eq_none_iff.mpr fun c _ => by
    cases name <;> cases inner <;> cases (w.context c).kind <;> rfl
  have outer : name ≠ .application ∧ name ≠ .session := by
    cases name <;> cases inner <;> decide
  rw [globalScope_apply host key outer, nowhere]
  rfl

namespace World

variable {w : World} {c l : ContextId}
variable {scopes : List ScopeId}

theorem reach_lambda (lambda : (w.context l).type = .lambda) {name : ScopeName} (inner : name.ofComponent = true)
    (key : Key) (contexts : List ContextId) (ends : w.groundOf contexts = some l) :
    ∃ rest, w.reach key (some name) contexts = .global rest := by
  induction contexts with
  | nil => cases ends
  | cons c above ih =>
    rcases groundOf_cons ends lambda with ⟨call, kind, -⟩ | ⟨call, kind, component, -, further⟩
    · refine ⟨c :: above, ?_⟩
      cases name with
      | vars | self | shared => simp [reach, kind]
      | _ => cases inner
    · obtain ⟨rest, reached⟩ := ih further
      refine ⟨rest, ?_⟩
      rw [← reached]
      cases name with
      | vars | self | shared => simp [reach, kind, component]
      | _ => cases inner

/-- What code at `c` can do with names is confined to some scopes. -/
structure Confined (host : Host) (c : ContextId) (scopes : List ScopeId) (w : World) : Prop where
  searches : ∀ key, key.isScopeName = false → resolve host c key none w = match w.lookupIn scopes key with
    | some found => (.ok found, w)
    | none => (.error (.failed (.keyNotFound key.name)), w)
  finds : ∀ key found later, key.isScopeName = false → resolve host c key none w = (.ok found, later) →
    later = w ∧ found.scope ∈ scopes ∧ (w.scope found.scope).get key = some found.value
  blind : ∀ key (heap : Table .scope Scope), key.isScopeName = false → (∀ s ∈ scopes, heap.get s = w.scope s) →
    (resolve host c key none { w with scopes := heap }).1 = (resolve host c key none w).1
  nameless : ∀ key name, ScopeName.ofComponent name = true → key.scopeName? = some name →
    scopeNearby host c key w = (.error (.failed (.scopeNotFound key.name)), w)
  writes : ∀ path segment value, splitPath path = .ok [segment] → (Key.of segment).isScopeName = false →
    (∃ s ∈ scopes, setPath host c path value w = (do let _ ← putIn s (.of segment) value) w) ∧
    (∃ heap, (setPath host c path value w).2 = { w with scopes := heap }) ∧
    ∀ s, s ∉ scopes → (setPath host c path value w).2.scope s = w.scope s

theorem mem_of_lookupIn {key : Key} {found : Finding}
    (hit : w.lookupIn scopes key = some found) :
    found.scope ∈ scopes ∧ (w.scope found.scope).get key = some found.value := by
  obtain ⟨s, member, there⟩ := List.exists_of_findSome?_eq_some hit
  obtain ⟨value, bound, rfl⟩ := Option.map_eq_some_iff.mp there
  exact ⟨member, bound⟩

theorem lookupIn_congr {heap : Table .scope Scope} (key : Key)
    (same : ∀ s ∈ scopes, heap.get s = w.scope s) :
    lookupIn { w with scopes := heap } scopes key = w.lookupIn scopes key := by
  induction scopes with
  | nil => rfl
  | cons s rest ih =>
    have here : lookup { w with scopes := heap } s key = w.lookup s key := by
      simp only [lookup, scope, same s (by simp)]
    rw [lookupIn_cons, lookupIn_cons, here, ih fun t member => same t (List.mem_cons_of_mem _ member)]

theorem ancestry_scopes (w : World) (heap : Table .scope Scope) (c : ContextId) :
    ancestry { w with scopes := heap } c = w.ancestry c := by
  have same : ∀ c, context { w with scopes := heap } c = w.context c := fun _ => rfl
  induction c using ancestry.induct w with
  | case1 c top => rw [ancestry, ancestry, same, top]
  | case2 c parent above older ih =>
    rw [ancestry, ancestry, same, above]
    simp only [older, if_true, ih]
  | case3 c parent above younger =>
    rw [ancestry, ancestry, same, above]
    simp only [younger, if_false]

theorem callScopes_scopes (w : World) (heap : Table .scope Scope) (c : ContextId) :
    callScopes { w with scopes := heap } c = w.callScopes c := by
  have way : ∀ contexts, wayOf { w with scopes := heap } contexts = w.wayOf contexts := by
    intro contexts
    induction contexts with
    | nil => rfl
    | cons c above ih => rw [wayOf, wayOf, ih]; rfl
  rw [callScopes, ancestry_scopes, way]
  rfl

end World

theorem putIn_apply :
    (do let _ ← putIn s key value : Action Unit) w = match (w.scope s).put key value with
      | .ok (_, scope) => (.ok (), w.setScope s scope)
      | .error error => (.error (.failed error), w) := by
  simp only [putIn, writeScope, bind_apply, get_apply, ofExcept_apply]
  cases (w.scope s).put key value <;> rfl

theorem resolve_default (c : ContextId) {key : Key} (plain : key.isScopeName = false) (s : ScopeId)
    (w : World) : resolve host c key (some s) w =
      (.ok ((w.findNearby key false (w.ancestry c)).getD { scope := s, key, value := .null }), w) := by
  simp only [resolve, plain, Bool.false_eq_true, if_false, bind_apply, get_apply]
  cases w.findNearby key false (w.ancestry c) <;> rfl

theorem putIn_elsewhere :
    (∃ heap, ((do let _ ← putIn s key value : Action Unit) w).2 = { w with scopes := heap }) ∧
      ∀ t, t ≠ s → ((do let _ ← putIn s key value : Action Unit) w).2.scope t = w.scope t := by
  rw [putIn_apply]
  cases (w.scope s).put key value with
  | error error => exact ⟨⟨w.scopes, rfl⟩, fun _ _ => rfl⟩
  | ok written =>
    refine ⟨⟨_, rfl⟩, ?_⟩
    intro t different
    exact (Table.get_set ..).trans (if_neg fun same => different same.1.symm)

theorem setPath_lambda {w : World} {c l : ContextId} (ends : w.ground c = some l)
    (lambda : (w.context l).type = .lambda) (host : Host) {path segment : String} (value : Value)
    (single : splitPath path = .ok [segment]) (plain : (Key.of segment).isScopeName = false) :
    ∃ s ∈ w.callScopes c, setPath host c path value w = (do let _ ← putIn s (.of segment) value) w := by
  let owner := (w.findNearby (.of segment) false (w.ancestry c)).getD
    { scope := w.defaultScope c, key := .of segment, value := .null }
  refine ⟨owner.scope, ?_, ?_⟩
  · cases hit : w.findNearby (.of segment) false (w.ancestry c) with
    | none => simpa [owner, hit] using defaultScope_lambda ends lambda
    | some found =>
      rw [findNearby_lambda ends lambda] at hit
      simpa [owner, findNearby_lambda ends lambda, hit] using (mem_of_lookupIn hit).1
  · simp only [setPath, bind_apply, single, ofExcept_apply, get_apply, resolve_default host c plain]
    rfl

/-- Where a search from `c` ends in a lambda, names, knowledge of the heap and assignments are confined to the scopes of the
calls up to that lambda. -/
theorem lambdas_are_isolated (host : Host) (w : World) (c l : ContextId) (ends : w.ground c = some l)
    (lambda : (w.context l).type = .lambda) : w.Confined host c (w.callScopes c) where
  searches := by
    intro key plain
    cases hit : w.lookupIn (w.callScopes c) key <;>
      rw [resolve_apply host c plain, findNearby_lambda ends lambda, hit]
  finds := by
    intro key found later plain resolves
    rw [resolve_apply host c plain, findNearby_lambda ends lambda] at resolves
    cases hit : w.lookupIn (w.callScopes c) key with
    | none =>
      rw [hit] at resolves
      cases resolves
    | some binding =>
      rw [hit] at resolves
      cases resolves
      exact ⟨rfl, mem_of_lookupIn hit⟩
  blind := by
    intro key heap plain same
    have stays : ground { w with scopes := heap } c = some l := by
      rw [← ends, ground, ground, ancestry_scopes]
      rfl
    have search : findNearby { w with scopes := heap } key false (ancestry { w with scopes := heap } c) =
        w.findNearby key false (w.ancestry c) := by
      rw [findNearby_lambda stays lambda, findNearby_lambda ends lambda, callScopes_scopes,
        lookupIn_congr key same]
    rw [resolve_apply host c plain, resolve_apply host c plain, search]
    cases w.findNearby key false (w.ancestry c) <;> rfl
  nameless := by
    intro key name inner named
    obtain ⟨rest, reached⟩ := reach_lambda lambda inner key (w.ancestry c) ends
    simp only [scopeNearby, bind_apply, get_apply, named, reached]
    exact globalScope_ofComponent host key inner rest w
  writes := by
    intro path segment value single plain
    obtain ⟨s, member, assigns⟩ := setPath_lambda ends lambda host value single plain
    obtain ⟨heap, others⟩ := putIn_elsewhere s (.of segment) value w
    rw [assigns]
    refine ⟨⟨s, member, rfl⟩, heap, ?_⟩
    intro t outside
    apply others
    rintro rfl
    exact outside member

/-- A plain function in a lambda in a closure in a method finds what the lambda declares, and nothing from further out. -/
theorem lambdas_are_isolated_nested :
    let host := Script.hostOf (Script.execute 0)
    nested.ground ⟨7⟩ = some ⟨6⟩ ∧ (nested.context ⟨6⟩).type = .lambda ∧
      nested.callScopes ⟨7⟩ = [⟨14⟩, ⟨15⟩, ⟨12⟩, ⟨13⟩] ∧
      (nested.findNearby (.of "z") false (nested.ancestry ⟨7⟩)).map (·.scope) = some ⟨12⟩ ∧
      (nested.findNearby (.of "x") false (nested.ancestry ⟨7⟩)).isNone = true ∧
      nested.Confined host ⟨7⟩ (nested.callScopes ⟨7⟩) := by
  intro host
  have ends : nested.ground ⟨7⟩ = some ⟨6⟩ := by decide +kernel
  refine ⟨ends, rfl, by decide +kernel, by decide +kernel, by decide +kernel, ?_⟩
  exact lambdas_are_isolated host nested ⟨7⟩ ⟨6⟩ ends rfl

end ScopeEngine
