import ScopeEngine.Proofs.Paths.Writes
import ScopeEngine.Proofs.Resolution.Closures

/-! Functions are found where they were declared. Where a declaration lands and where a search looks are two recursions over
the way to the root. They agree unless the declaration climbs past a method, at which a search stops. -/

namespace ScopeEngine

open ScopeEngine.Action World

namespace World

variable {w later : World} {c t : ContextId} {r : ContextId} {key : Key}

theorem component?_of_declaring {k : ComponentId} (takes : w.declaringComponent c = some k) :
    (w.context c).kind.component? = some k := by
  cases kind : (w.context c).kind <;> simp_all [declaringComponent, ContextKind.component?]

theorem component?_of_enclosing {k : ComponentId} (belongs : w.enclosingComponent c = some k) :
    (w.context c).kind.component? = some k := by
  cases kind : (w.context c).kind <;> simp_all [enclosingComponent, ContextKind.component?]

def declaredInto (w : World) (c : ContextId) : ScopeId :=
  match w.declaringComponent c with
  | some k => (w.component k).vars
  | none => w.declarationScope (w.ancestry c)

def Spared (w : World) (call : Call) (key : Key) : Prop :=
  (w.scope call.locals).get key = none ∧ (w.scope call.arguments).get key = none

/-- No function binds the key that is called at `c` or hands a search from `c` on. -/
def Unhindered (w : World) (c : ContextId) (key : Key) : Prop :=
  ∀ t ∈ c :: (w.ancestry c).takeWhile (fun t => (w.context t).handsOn), ∀ call, (w.context t).kind = .function call →
    w.Spared call key

/-- A declaration at `c` does not climb past a method, or comes back to its component: either `c` belongs to a component, or
the search from `c` ends in a method only if the declaration lands among the variables of its component. -/
def Lands (w : World) (c : ContextId) (key : Key) : Prop :=
  (w.declaringComponent c).isSome = true ∨ ∀ t call k, w.ground c = some t → (w.context t).kind = .function call →
    call.component = some k → w.declaredInto c = (w.component k).vars ∧ w.Spared call key

def handedOn (w : World) (contexts : List ContextId) : List ScopeId :=
  (contexts.takeWhile fun t => (w.context t).handsOn).flatMap fun t =>
    (w.context t).call?.toList.flatMap fun call => [call.locals, call.arguments]

/-- Up to the context where a search ends, it goes through the calls that hand it on, and a declaration climbs past them. -/
theorem groundOf_split {contexts : List ContextId} (ends : w.groundOf contexts = some t) :
    ∃ rest, (w.frameOf contexts).scopes = w.handedOn contexts ++ (w.frameOf (t :: rest)).scopes ∧
      w.declarationScope contexts = w.declarationScope (t :: rest) := by
  induction contexts with
  | nil => cases ends
  | cons c above ih =>
    cases onward : (w.context c).handsOn with
    | false =>
      simp only [groundOf, List.find?_cons, onward, Bool.not_false, Option.some.injEq] at ends
      subst ends
      exact ⟨above, by simp [handedOn, onward], rfl⟩
    | true =>
      simp only [groundOf, List.find?_cons, onward, Bool.not_true] at ends
      obtain ⟨call, kind, component⟩ := handsOn_eq onward
      obtain ⟨rest, scopes, lands⟩ := ih ends
      refine ⟨rest, by simp [frameOf, handedOn, onward, kind, component, Context.call?, scopes], ?_⟩
      rw [← lands]
      cases above with
      | nil => cases ends
      | cons next further => simp only [declarationScope, kind]

theorem ground_inside (rooted : w.Rooted) (home : w.home c = some r) :
    ∃ t, w.ground c = some t ∧ (w.context t).isRoot = false := by
  cases isolated : w.isolated c with
  | true =>
    obtain ⟨t, ends, lambda⟩ := (Option.any_eq_true ..).mp isolated
    obtain ⟨call, kind⟩ := lambda_eq (beq_iff_eq.mp lambda)
    exact ⟨t, ends, by simp [Context.isRoot, kind]⟩
  | false =>
    obtain ⟨t, ends, admits⟩ := (Option.any_eq_true ..).mp (ground_admits rooted home isolated)
    refine ⟨t, ends, ?_⟩
    revert admits
    cases kind : (w.context t).kind <;> simp [Context.isRoot, Context.admitsRequest, kind]

theorem Lands.frame (rooted : w.Rooted) (home : w.home c = some r) (unhindered : w.Unhindered c key) (lands : w.Lands c key) :
    ∃ before after, (w.captureFrame c).scopes = before ++ w.declaredInto c :: after ∧
      ∀ s ∈ before, (w.scope s).get key = none := by
  have spared : ∀ call, w.Spared call key → ∀ s ∈ [call.locals, call.arguments], (w.scope s).get key = none := by
    intro call spares s member
    simp only [List.mem_cons, List.not_mem_nil, or_false] at member
    rcases member with rfl | rfl
    · exact spares.1
    · exact spares.2
  cases declares : w.declaringComponent c with
  | some k =>
    have into : w.declaredInto c = (w.component k).vars := by rw [declaredInto, declares]
    obtain ⟨above, way⟩ := w.ancestry_eq_cons c
    rw [into, captureFrame, way]
    cases kind : (w.context c).kind <;> simp only [declaringComponent, kind] at declares
    case component j =>
      cases declares
      exact ⟨[], [], by simp [frameOf, kind], by simp⟩
    case function call =>
      refine ⟨[call.locals, call.arguments], [], by simp [frameOf, kind, declares], ?_⟩
      exact spared call (unhindered c (List.mem_cons_self ..) call kind)
    all_goals cases declares
  | none =>
    have into : w.declaredInto c = w.declarationScope (w.ancestry c) := by rw [declaredInto, declares]
    obtain ⟨t, ends, inside⟩ := ground_inside rooted home
    obtain ⟨rest, scopes, climbs⟩ := groundOf_split ends
    have passed : ∀ s ∈ w.handedOn (w.ancestry c), (w.scope s).get key = none := by
      intro s member
      obtain ⟨u, below, member⟩ := List.mem_flatMap.mp member
      obtain ⟨call, calls, member⟩ := List.mem_flatMap.mp member
      obtain ⟨_, kind, _⟩ := handsOn_eq (List.all_eq_true.mp List.all_takeWhile u below)
      simp only [Context.call?, kind, Option.toList_some, List.mem_singleton] at calls
      subst calls
      exact spared call (unhindered u (List.mem_cons_of_mem _ below) call kind) s member
    rw [captureFrame, scopes]
    have lands := lands.resolve_left (by simp [declares])
    -- a search ends at the context where the declaration stops climbing, unless that context is a method
    cases kind : (w.context t).kind with
    | function call =>
      cases component : call.component with
      | none =>
        have onward := List.find?_some ends
        simp [Context.handsOn, kind, component] at onward
      | some k =>
        obtain ⟨same, spares⟩ := lands t call k ends kind component
        refine ⟨w.handedOn (w.ancestry c) ++ [call.locals, call.arguments], [], by simp [frameOf, kind, component, same], ?_⟩
        intro s member
        exact (List.mem_append.mp member).elim (passed s) (spared call spares s)
    | server | application | session => simp [Context.isRoot, kind] at inside
    | _ =>
      have first : ∃ after, (w.frameOf (t :: rest)).scopes = w.declarationScope (t :: rest) :: after := by
        cases rest <;> simp [frameOf, declarationScope, defaultScope, kind]
      obtain ⟨after, first⟩ := first
      rw [into, climbs, first]
      exact ⟨_, after, rfl, passed⟩

theorem declarationScope_addFunction (w : World) (function : Function) (contexts : List ContextId) :
    (w.addFunction function).2.declarationScope contexts = w.declarationScope contexts := by
  induction contexts with
  | nil => rfl
  | cons c above ih =>
    cases above with
    | nil => rfl
    | cons next further =>
      simp only [declarationScope] at ih ⊢
      rw [ih]
      rfl

end World

theorem after_putIn_bound (s : ScopeId) (key : Key) (value : Value) {w : World} (issued : s.number < w.scopes.size) :
    (putIn s key value).After w (fun _ later => w.Grows later ∧ later.scopes.size = w.scopes.size ∧
      (later.scope s).get key = some value ∧ ∀ t, t.number < w.scopes.size → t ≠ s → later.scope t = w.scope t)
      (fun _ _ => True) := by
  refine (after_putIn s key value).partly ?_
  rintro _ later ⟨writes, size, bound, _⟩
  have rest := writes.rest
  refine ⟨?_, size, bound issued, writes.kept⟩
  exact grows_of_same (by rw [rest]) (by rw [rest]) (by rw [rest])

/-- A declaration adds a function and binds it where it lands. Besides, it writes to the public members of the component that
it declares a method of. -/
theorem after_registerFunction (c : ContextId) (function : Function) {w : World}
    (issued : (w.declaredInto c).number < w.scopes.size)
    (apart : ∀ k, w.declaringComponent c = some k → (w.component k).self.number < w.scopes.size ∧
      (w.component k).vars ≠ (w.component k).self) :
    (registerFunction c function).After w (fun f later => w.Grows later ∧
      (later.scope (w.declaredInto c)).get function.name = some (.function f) ∧
      ∀ s, s.number < w.scopes.size → s ≠ w.declaredInto c →
        (∀ k, w.declaringComponent c = some k → s ≠ (w.component k).self) → later.scope s = w.scope s)
      (fun _ _ => True) := by
  have named : (w.bound c function).name = function.name := by
    cases kind : function.kind <;> simp [bound, kind]
  simp only [registerFunction, after_bind, after_get]
  cases declares : w.declaringComponent c with
  | none =>
    have into : w.declaredInto c = w.declarationScope (w.ancestry c) := by rw [declaredInto, declares]
    simp only [after_bind, after_get, after_modifyGet, after_pure, declarationScope_addFunction, ← into, named]
    have there : (w.declaredInto c).number < (w.addFunction (w.bound c function)).2.scopes.size := issued
    refine (after_putIn_bound _ _ _ there).partly ?_
    rintro _ later ⟨grows, _, bound, kept⟩
    exact ⟨(w.grows_addFunction _).trans grows, bound, fun s known other _ => kept s known other⟩
  | some k =>
    have into : w.declaredInto c = (w.component k).vars := by rw [declaredInto, declares]
    obtain ⟨inside, differ⟩ := apart k declares
    simp only [defineMethod, after_bind, after_get, after_modifyGet]
    generalize shape : (if (w.bound c function).kind = .plain then { w.bound c function with component := some k }
      else w.bound c function) = method
    have same : method.name = function.name := by
      rw [← shape, ← named]
      split <;> rfl
    rw [into] at issued
    have there : (w.component k).vars.number < (w.addFunction method).2.scopes.size := issued
    rw [same, into]
    refine (after_putIn_bound (w.component k).vars _ _ there).partly ?_
    rintro _ stored ⟨grows, size, bound, kept⟩
    have grown := (w.grows_addFunction method).trans grows
    split
    · have member : (w.component k).self.number < stored.scopes.size := Nat.lt_of_lt_of_eq inside size.symm
      refine (after_bind ..).mpr ((after_putIn_bound (w.component k).self _ _ member).mono ?_ fun _ _ _ => trivial)
      rintro _ later ⟨again, _, _, others⟩
      refine ⟨grown.trans again, ?_, fun s known other public_ => ?_⟩
      · rw [others _ (Nat.lt_of_lt_of_eq issued size.symm) differ]
        exact bound
      · rw [others s (Nat.lt_of_lt_of_eq known size.symm) (public_ k rfl)]
        exact kept s known other
    · exact ⟨grown, bound, fun s known other _ => kept s known other⟩

/-- A function that was declared at a place is found there under its name, unless a call that the search goes through before
binds the name, or the declaration went past a method, where the search ends. -/
theorem declared_functions_are_found {w : World} (reachable : w.Reachable) (host : Host) {c r : ContextId}
    (home : w.home c = some r) {function : Function} (plain : function.name.isScopeName = false) {f : FunctionId} {later : World}
    (declares : registerFunction c function w = (.ok f, later)) (unhindered : w.Unhindered c function.name)
    (lands : w.Lands c function.name) :
    resolve host c function.name none later =
      (.ok { scope := w.declaredInto c, key := function.name, value := .function f }, later) := by
  have parted := reachable.parted
  obtain ⟨before, after, frame, free⟩ := lands.frame reachable.rooted home unhindered
  have opens : ∀ s ∈ before ++ w.declaredInto c :: after, w.Open s := frame ▸ (parted.frameOf _).scopes
  have issued : ∀ s ∈ before ++ w.declaredInto c :: after, s.number < w.scopes.size := fun s member =>
    parted.issued s (Or.inl (opens s member))
  have here : w.declaredInto c ∈ before ++ w.declaredInto c :: after := List.mem_append_right _ (List.mem_cons_self ..)
  have reserved : ∀ k, w.declaringComponent c = some k → w.Reserved (w.component k).self := fun k takes =>
    ⟨.self, rfl, .component (parted.members c k (component?_of_declaring takes)) rfl⟩
  have apart : ∀ k, w.declaringComponent c = some k → ∀ s ∈ before ++ w.declaredInto c :: after, s ≠ (w.component k).self :=
    fun k takes s member same => parted.apart s (opens s member) (same ▸ reserved k takes)
  have spec := after_registerFunction c function (issued _ here) fun k takes => by
    refine ⟨parted.issued _ (Or.inr (reserved k takes)), ?_⟩
    have into : w.declaredInto c = (w.component k).vars := by rw [declaredInto, takes]
    exact into ▸ apart k takes _ here
  rw [After, declares] at spec
  obtain ⟨grows, bound, kept⟩ := spec
  have same : later.captureFrame c = w.captureFrame c := by
    refine grows.captureFrame (fun t call kind => ?_) (fun t k belongs => ?_) (issued_of_home home)
    · refine Nat.lt_of_not_le fun beyond => ?_
      exact no_closure beyond (parted.closures t call kind).kind
    · exact parted.members t k (component?_of_enclosing belongs)
  rw [resolve_apply host c plain, findNearby_ancestry (grows.rooted reachable.rooted), same, frame, List.append_assoc,
    List.cons_append, lookupIn_of_split (fun s member other => ?_) bound]
  have inside : s ∈ before ++ w.declaredInto c :: after := List.mem_append_left _ member
  rw [kept s (issued s inside) other fun k takes => apart k takes s inside]
  exact free s member

section Errands

open Script

/-- A plain function is called from a method and from a closure. -/
def errands : Program where
  settings := {}
  steps := [
    .mk (.within .request [
      .mk (.function (.newComponent "Cart" none (some "cart"))) false,
      .mk (.function (.new (.mk .plain "helper" [] .exposed none []) (some "helper"))) false,
      .mk (.function (.defineMethod "cart" (.mk .plain "checkout" [] .exposed none [
        .mk (.function (.call "helper" (.positional []) none)) false]) (some "checkout"))) false,
      .mk (.function (.call "checkout" (.positional []) none)) false,
      .mk (.function (.bindHere (.mk .closure "later" [] .exposed none [
        .mk (.function (.call "helper" (.positional []) none)) false]) (some "later"))) false,
      .mk (.function (.call "later" (.positional []) none)) false]) false]

def total : Function := {
  name := .of "total", kind := .plain, access := .exposed, params := [], body := [], source := none, frame := none
  component := none }

theorem World.unhindered_of_all {w : World} {c : ContextId} {key : Key}
    (free : ((c :: (w.ancestry c).takeWhile fun t => (w.context t).handsOn).all fun t => (w.context t).call?.all fun call =>
      ((w.scope call.locals).get key).isNone && ((w.scope call.arguments).get key).isNone) = true) : w.Unhindered c key := by
  intro t member call kind
  have spared := List.all_eq_true.mp free t member
  simpa [Context.call?, kind, Spared] using spared

/-- In the plain function that the closure called, a declaration lands among the locals of the closure. -/
theorem declared_functions_are_found_errands :
    let host := hostOf (execute 0)
    let w := (errands.action 9 (start default)).2
    let later := (registerFunction ⟨5⟩ total w).2
    w.Reachable ∧ w.home ⟨5⟩ = some ⟨1⟩ ∧ registerFunction ⟨5⟩ total w = (.ok ⟨3⟩, later) ∧ w.Unhindered ⟨5⟩ total.name ∧
      w.Lands ⟨5⟩ total.name ∧ (w.context ⟨4⟩).call?.map (·.locals) = some (w.declaredInto ⟨5⟩) ∧
      resolve host ⟨5⟩ total.name none later =
        (.ok { scope := w.declaredInto ⟨5⟩, key := total.name, value := .function ⟨3⟩ }, later) := by
  intro host w later
  have reachable : w.Reachable := .program errands 9 default
  have home : w.home ⟨5⟩ = some ⟨1⟩ := by decide +kernel
  have declares : registerFunction ⟨5⟩ total w = (.ok ⟨3⟩, later) := eq_of_toOption (by decide +kernel)
  have unhindered : w.Unhindered ⟨5⟩ total.name := unhindered_of_all (by decide +kernel)
  have lands : w.Lands ⟨5⟩ total.name := by
    refine Or.inr fun t call k ends kind => ?_
    have ground : w.ground ⟨5⟩ = some ⟨4⟩ := by decide +kernel
    have closure : (w.context ⟨4⟩).type = .closure := by decide +kernel
    cases ground.symm.trans ends
    rw [Context.type, kind] at closure
    cases closure
  exact ⟨reachable, home, declares, unhindered, lands, by decide +kernel,
    declared_functions_are_found reachable host home (by decide +kernel) declares unhindered lands⟩

/-- In the plain function that the method called, nothing binds the name; a declaration goes past the method into the
variables of the request, and the search for the name, which ends at the method, does not find it. -/
theorem declaration_past_method_is_lost :
    let host := hostOf (execute 0)
    let w := (errands.action 9 (start default)).2
    let later := (registerFunction ⟨3⟩ total w).2
    w.Reachable ∧ w.home ⟨3⟩ = some ⟨1⟩ ∧ total.name.isScopeName = false ∧ registerFunction ⟨3⟩ total w = (.ok ⟨3⟩, later) ∧
      w.Unhindered ⟨3⟩ total.name ∧ ((w.context ⟨1⟩).request?.map (·.vars) = some (w.declaredInto ⟨3⟩)) ∧
      resolve host ⟨3⟩ total.name none later = (.error (.failed (.keyNotFound "total")), later) := by
  intro host w later
  have plain : total.name.isScopeName = false := by decide +kernel
  have declares : registerFunction ⟨3⟩ total w = (.ok ⟨3⟩, later) := eq_of_toOption (by decide +kernel)
  refine ⟨.program errands 9 default, by decide +kernel, plain, declares, unhindered_of_all (by decide +kernel),
    by decide +kernel, ?_⟩
  have missing : (later.findNearby total.name false (later.ancestry ⟨3⟩)).isNone = true := by decide +kernel
  have text : total.name.name = "total" := by decide +kernel
  rw [resolve_apply host ⟨3⟩ plain, Option.isNone_iff_eq_none.mp missing, text]

end Errands

end ScopeEngine
