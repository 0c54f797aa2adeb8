import ScopeEngine.Proofs.ActionLogic
import ScopeEngine.Proofs.Coherence.Standing
import ScopeEngine.Resolution.Names

/-! The order of an unqualified search. A search looks through the frame that a closure declared at the same place would
capture, and then, if the place admits it, into the request scope. Search and capture are two recursions over the way to
the root; they visit the same scopes. -/

namespace ScopeEngine

open ScopeEngine.Action

/-- A plain function that belongs to no component hands a search on to its caller. -/
def Context.handsOn (context : Context) : Bool :=
  match context.kind with
  | .function call => call.component.isNone
  | _ => false

def Context.isRoot (context : Context) : Bool :=
  match context.kind with
  | .server _ | .application _ | .session _ => true
  | _ => false

/-- A search that stops at such a context goes on to the request scope. -/
def Context.admitsRequest (context : Context) : Bool :=
  match context.kind with
  | .request _ | .template _ | .component _ | .closure _ | .function _ => true
  | .lambda _ | .server _ | .application _ | .session _ => false

namespace World

variable {w : World} {c : ContextId} {key : Key}

def Rooted (w : World) : Prop :=
  ∀ c, (w.context c).isRoot = true → (w.context c).parent = none

theorem Rooted.below (rooted : w.Rooted) {parent : ContextId} (above : (w.context c).parent = some parent) :
    (w.context c).isRoot = false := by
  cases root : (w.context c).isRoot with
  | false => rfl
  | true => rw [rooted c root] at above; cases above

/-- The first context on the way that does not hand a search on. -/
def groundOf (w : World) (contexts : List ContextId) : Option ContextId :=
  contexts.find? fun t => !(w.context t).handsOn

def ground (w : World) (c : ContextId) : Option ContextId :=
  w.groundOf (w.ancestry c)

/-- The request scope, where a search from `c` comes to it. -/
def requestStop (w : World) (c : ContextId) : List ScopeId :=
  if (w.ground c).any fun t => (w.context t).admitsRequest then
    (w.requestOf c).toList.map fun (_, request) => request.scope
  else
    []

/-- The scopes that a search from `c` goes through, nearest first. -/
def searched (w : World) (c : ContextId) : List ScopeId :=
  (w.captureFrame c).scopes ++ w.requestStop c

@[simp] theorem lookupIn_nil : w.lookupIn [] key = none := rfl

theorem lookupIn_cons (s : ScopeId) (scopes : List ScopeId) :
    w.lookupIn (s :: scopes) key = (w.lookup s key).or (w.lookupIn scopes key) := by
  simp only [lookupIn, List.findSome?_cons]
  cases w.lookup s key <;> rfl

theorem lookupIn_append (first second : List ScopeId) :
    w.lookupIn (first ++ second) key = (w.lookupIn first key).or (w.lookupIn second key) :=
  List.findSome?_append

theorem lookupIn_of_split {s : ScopeId} {value : Value} {before after : List ScopeId}
    (free : ∀ t ∈ before, t ≠ s → (w.scope t).get key = none) (bound : (w.scope s).get key = some value) :
    w.lookupIn (before ++ s :: after) key = some { scope := s, key, value } := by
  have here : ∀ rest, w.lookupIn (s :: rest) key = some { scope := s, key, value } := by
    intro rest
    rw [lookupIn_cons, lookup, bound]
    rfl
  induction before with
  | nil => exact here after
  | cons t before ih =>
    by_cases same : t = s
    · subst same
      exact here _
    · rw [List.cons_append, lookupIn_cons, lookup, free t (List.mem_cons_self ..) same]
      exact ih fun u member => free u (List.mem_cons_of_mem _ member)

theorem findNearby_shallow (w : World) (key : Key) (contexts : List ContextId) :
    w.findNearby key true contexts = w.lookupIn (w.frameOf contexts).scopes key := by
  induction contexts with
  | nil => rfl
  | cons c above ih =>
    cases kind : (w.context c).kind with
    | function call =>
      cases component : call.component with
      | some k => simp [findNearby, frameOf, kind, component]
      | none => simp [findNearby, frameOf, kind, component, ih, lookupIn_cons, Option.or_assoc]
    | closure call =>
      cases captured : (w.function call.function).frame <;> simp [findNearby, frameOf, kind, captured]
    | _ => simp [findNearby, frameOf, kind, lookupIn_cons]

theorem findGlobal_cons (c : ContextId) (above : List ContextId) (key : Key) (inner : (w.context c).request? = none)
    (below : (w.context c).isRoot = false) : w.findGlobal key (c :: above) = w.findGlobal key above := by
  cases kind : (w.context c).kind <;> simp_all [findGlobal, Context.request?, Context.isRoot]

theorem findNearby_deep (w : World) (key : Key) (contexts : List ContextId) :
    w.findNearby key false contexts = (w.lookupIn (w.frameOf contexts).scopes key).or
      (if (w.groundOf contexts).any fun t => (w.context t).admitsRequest then w.findGlobal key contexts else none) := by
  have orElse : ∀ own rest : Option Finding, (if own.isSome then own else rest) = own.or rest := by
    intro own rest
    cases own <;> rfl
  induction contexts with
  | nil => rfl
  | cons c above ih =>
    cases kind : (w.context c).kind with
    | function call =>
      cases component : call.component with
      | some k =>
        simp [findNearby, findGlobal, frameOf, groundOf, Context.handsOn, Context.admitsRequest, kind, component, orElse]
      | none =>
        have further : w.groundOf (c :: above) = w.groundOf above := by
          simp [groundOf, Context.handsOn, kind, component]
        rw [further]
        simp [findNearby, findGlobal, frameOf, kind, component, ih, lookupIn_cons, Option.or_assoc]
    | closure call =>
      cases captured : (w.function call.function).frame <;>
        simp [findNearby, findGlobal, frameOf, groundOf, Context.handsOn, Context.admitsRequest, kind, captured, orElse]
    | _ =>
      simp [findNearby, findGlobal, frameOf, groundOf, Context.handsOn, Context.admitsRequest, kind, orElse,
        lookupIn_cons]

/-- The last stop of a search is the scope of the nearest request: no server and no spliced node comes before it. -/
theorem findGlobal_ancestry (rooted : w.Rooted) (c : ContextId) (key : Key) : w.findGlobal key (w.ancestry c) =
      w.lookupIn ((w.requestOf c).toList.map fun (_, request) => request.scope) key := by
  induction c using w.ancestry_induction with
  | alone c way =>
    rw [requestOf, way]
    cases kind : (w.context c).kind <;> simp [findGlobal, Context.request?, kind, lookupIn_cons]
  | below c parent above _ way ih =>
    cases there : (w.context c).request? with
    | some request =>
      rw [requestOf_self there, way]
      simp [findGlobal, request?_eq_some.mp there, lookupIn_cons]
    | none =>
      have further : w.requestOf c = w.requestOf parent := by
        rw [requestOf, way, requestOf]
        simp [there]
      rw [way, findGlobal_cons c _ key there (rooted.below above), ih, further]

/-- A search looks through the frame and then into the request scope, where it comes to it. -/
theorem findNearby_ancestry (rooted : w.Rooted) (c : ContextId) (key : Key) :
    w.findNearby key false (w.ancestry c) = w.lookupIn ((w.captureFrame c).scopes ++ w.requestStop c) key := by
  rw [findNearby_deep, lookupIn_append, findGlobal_ancestry rooted, captureFrame, requestStop, ground]
  split
  · rfl
  · rfl

/-- A search finds the first hit in the frame that would be captured at the same place, followed by the request scope
where the search comes to it; a shallow one finds the first hit in the frame alone. -/
theorem searches_follow_frames (w : World) (rooted : w.Rooted) (c : ContextId) (key : Key) :
    w.findNearby key false (w.ancestry c) = w.lookupIn ((w.captureFrame c).scopes ++ w.requestStop c) key ∧
      w.findNearby key true (w.ancestry c) = w.lookupIn (w.captureFrame c).scopes key :=
  ⟨findNearby_ancestry rooted c key, findNearby_shallow w key _⟩

/-- A request with a component, a method of it, a closure in the method, a plain function and a lambda in the closure, a
plain function in the lambda, and a template of its own. -/
def nested : World :=
  let scope (name : ScopeName) (entries : List (Key × Value)) : Scope := { Scope.new name.key with bindings := ⟨entries⟩ }
  let function (kind : FunctionKind) (frame : Option Frame) : Function := {
    name := .of "f", kind, access := .exposed, params := [], body := [], source := none, frame, component := none }
  let call (locals f : Nat) (component : Option ComponentId) : Call := {
    locals := ⟨locals⟩, arguments := ⟨locals + 1⟩, function := ⟨f⟩, component }
  { scopes := ⟨#[
      scope .server [], scope .vars [], scope .request [(.of "x", .integer 1), (.of "y", .integer 2)],
      scope .vars [(.of "x", .integer 3)], scope .self [], scope .shared [],
      scope .locals [], scope .arguments [], scope .locals [], scope .arguments [], scope .locals [],
      scope .arguments [], scope .locals [(.of "z", .integer 4)], scope .arguments [], scope .locals [],
      scope .arguments [], scope .vars [(.of "x", .integer 5)]]⟩
    functions := ⟨#[function .plain none, function .closure (some { scopes := [⟨6⟩, ⟨7⟩, ⟨3⟩], component := some ⟨0⟩ }),
      function .lambda none]⟩
    components := ⟨#[{ name := .of "k", vars := ⟨3⟩, self := ⟨4⟩, shared := ⟨5⟩ }]⟩
    contexts := ⟨#[
      { parent := none, kind := .server { scope := ⟨0⟩, defaults := {}, listener := ⟨0⟩ } },
      { parent := some ⟨0⟩, kind := .request { vars := ⟨1⟩, scope := ⟨2⟩, settings := {}, listener := ⟨0⟩ } },
      { parent := some ⟨1⟩, kind := .component ⟨0⟩ },
      { parent := some ⟨2⟩, kind := .function (call 6 0 (some ⟨0⟩)) },
      { parent := some ⟨3⟩, kind := .closure (call 8 1 (some ⟨0⟩)) },
      { parent := some ⟨4⟩, kind := .function (call 10 0 none) },
      { parent := some ⟨4⟩, kind := .lambda (call 12 2 none) },
      { parent := some ⟨6⟩, kind := .function (call 14 0 none) },
      { parent := some ⟨1⟩, kind := .template ⟨16⟩ }]⟩ }

theorem rooted_nested : nested.Rooted := by
  intro c
  obtain ⟨n⟩ := c
  match n with
  | 0 | 1 | 2 | 3 | 4 | 5 | 6 | 7 | 8 => decide
  | n + 9 => exact fun _ => rfl

/-- From the function in the closure, the variables of the component come before the request scope. -/
theorem searches_follow_frames_nested :
    nested.Rooted ∧ (nested.captureFrame ⟨5⟩).scopes = [⟨10⟩, ⟨11⟩, ⟨8⟩, ⟨9⟩, ⟨6⟩, ⟨7⟩, ⟨3⟩] ∧
      nested.requestStop ⟨5⟩ = [⟨2⟩] ∧
      (nested.findNearby (.of "x") false (nested.ancestry ⟨5⟩)).map (·.scope) = some ⟨3⟩ ∧
      nested.findNearby (.of "x") false (nested.ancestry ⟨5⟩) =
        nested.lookupIn ((nested.captureFrame ⟨5⟩).scopes ++ nested.requestStop ⟨5⟩) (.of "x") ∧
      nested.findNearby (.of "x") true (nested.ancestry ⟨5⟩) =
        nested.lookupIn (nested.captureFrame ⟨5⟩).scopes (.of "x") := by
  refine ⟨rooted_nested, ?_, ?_, ?_, searches_follow_frames nested rooted_nested ⟨5⟩ (.of "x")⟩
  · decide +kernel
  · decide +kernel
  · decide +kernel

end World

theorem resolve_apply (host : Host) (c : ContextId) {key : Key} (plain : key.isScopeName = false) (w : World) :
    resolve host c key none w = match w.findNearby key false (w.ancestry c) with
      | some found => (.ok found, w)
      | none => (.error (.failed (.keyNotFound key.name)), w) := by
  simp only [resolve, plain, Bool.false_eq_true, if_false, bind_apply, get_apply]
  cases w.findNearby key false (w.ancestry c) <;> rfl

end ScopeEngine
