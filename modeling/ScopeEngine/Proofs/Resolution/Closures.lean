import ScopeEngine.Proofs.Resolution.Growth

/-! Closures are lexically scoped. What a closure finds at a call does not depend on who calls it, as long as the caller
belongs to the request that the closure was declared in: apart from the scopes of the call itself, names mean what they
mean at the place of the declaration. -/

namespace ScopeEngine

open ScopeEngine.Action World

namespace World

variable {w later : World} {c d r : ContextId} {key : Key}

/-- Contexts refer to functions and components that exist, and servers and spliced nodes are below nothing. -/
structure Linked (w : World) : Prop where
  rooted : w.Rooted
  function : ∀ c call, (w.context c).call? = some call → call.function.number < w.functions.size
  component : ∀ c k, w.enclosingComponent c = some k → k.number < w.components.size

def isolated (w : World) (c : ContextId) : Bool :=
  (w.ground c).any fun t => (w.context t).type == .lambda

section Growing

variable (grows : w.Grows later)
include grows

theorem Grows.kind {kind : ContextKind} (issued : c.number < w.contexts.size) (before : (w.context c).kind = kind)
    (inner : (w.context c).request? = none) : (later.context c).kind = kind := by
  have same := grows.outline c issued
  rw [before] at same
  cases after : (later.context c).kind <;> cases kind <;>
    simp_all [ContextKind.outline, Context.request?]

theorem Grows.requestAt {request : Request} (issued : c.number < w.contexts.size)
    (at_ : (w.context c).request? = some request) :
    ∃ now, (later.context c).request? = some now ∧ now.vars = request.vars ∧ now.scope = request.scope := by
  have same := grows.request issued
  rw [at_] at same
  obtain ⟨now, there, equal⟩ := Option.map_eq_some_iff.mp same
  exact ⟨now, there, congrArg Prod.fst equal, congrArg Prod.snd equal⟩

theorem Grows.handsOn (issued : c.number < w.contexts.size) : (later.context c).handsOn = (w.context c).handsOn :=
  grows.view issued (fun kind => Context.handsOn { parent := none, kind }) fun kind => by cases kind <;> rfl

theorem Grows.type (issued : c.number < w.contexts.size) : (later.context c).type = (w.context c).type :=
  grows.view issued ContextKind.type fun kind => by cases kind <;> rfl

section

variable (functions : ∀ c call, (w.context c).kind = .closure call → call.function.number < w.functions.size)
  (members : ∀ c k, w.enclosingComponent c = some k → k.number < w.components.size)
include functions members

theorem Grows.frameOf (contexts : List ContextId)
    (issued : ∀ t ∈ contexts, t.number < w.contexts.size) : later.frameOf contexts = w.frameOf contexts := by
  induction contexts with
  | nil => rfl
  | cons c above ih =>
    have inside := issued c (by simp)
    have further := ih fun t member => issued t (List.mem_cons_of_mem _ member)
    have components : ∀ k, w.enclosingComponent c = some k → later.component k = w.component k := fun k belongs =>
      grows.component k (members c k belongs)
    cases before : (w.context c).kind with
    | request request =>
      obtain ⟨now, there, vars, -⟩ := grows.requestAt inside (request?_eq_some.mpr before)
      simp only [World.frameOf, before, request?_eq_some.mp there, vars]
    | component k =>
      have after := grows.kind inside before (by simp [Context.request?, before])
      simp only [World.frameOf, before, after, components k (by simp [enclosingComponent, before])]
    | function call =>
      have after := grows.kind inside before (by simp [Context.request?, before])
      cases belongs : call.component with
      | some k =>
        simp only [World.frameOf, before, after, belongs, components k (by simp [enclosingComponent, before, belongs])]
      | none => simp only [World.frameOf, before, after, belongs, further]
    | closure call =>
      have after := grows.kind inside before (by simp [Context.request?, before])
      simp only [World.frameOf, before, after, grows.function call.function (functions c call before)]
    | template vars | lambda call | server server | application a | session s =>
      have after := grows.kind inside before (by simp [Context.request?, before])
      simp only [World.frameOf, before, after]

theorem Grows.captureFrame (issued : d.number < w.contexts.size) : later.captureFrame d = w.captureFrame d := by
  rw [World.captureFrame, World.captureFrame, grows.extends_.ancestry d issued]
  apply grows.frameOf functions members
  intro t member
  exact Nat.lt_of_le_of_lt (w.le_of_mem_ancestry d t member) issued

end

theorem Grows.ground (issued : d.number < w.contexts.size) : later.ground d = w.ground d := by
  rw [World.ground, World.ground, groundOf, groundOf, grows.extends_.ancestry d issued]
  have alike : ∀ t ∈ w.ancestry d, (later.context t).handsOn = (w.context t).handsOn := fun t member =>
    grows.handsOn (Nat.lt_of_le_of_lt (w.le_of_mem_ancestry d t member) issued)
  generalize w.ancestry d = way at alike
  induction way with
  | nil => rfl
  | cons t rest ih =>
    simp only [List.find?_cons, alike t (by simp)]
    rw [ih fun t member => alike t (List.mem_cons_of_mem _ member)]

theorem Grows.isolated (issued : d.number < w.contexts.size) : later.isolated d = w.isolated d := by
  rw [World.isolated, World.isolated, grows.ground issued]
  cases found : w.ground d with
  | none => rfl
  | some t =>
    have inside := Nat.lt_of_le_of_lt (w.le_of_mem_ancestry d t (List.mem_of_find?_eq_some found)) issued
    simp only [Option.any_some, grows.type inside]

end Growing

/-- Where code of a request is not cut off by a lambda, a search comes to the request scope. -/
theorem ground_admits (rooted : w.Rooted) (home : w.home c = some r) (connected : w.isolated c = false) :
    ((w.ground c).any fun t => (w.context t).admitsRequest) = true := by
  induction c using w.ancestry_induction with
  | alone c way =>
    rw [home_eq_find, way] at home
    simp only [List.find?_cons, List.find?_nil] at home
    cases there : (w.context c).request? with
    | none => simp [there] at home
    | some request =>
      have kind := request?_eq_some.mp there
      simp [ground, groundOf, way, Context.handsOn, Context.admitsRequest, kind]
  | below c parent above _ way ih =>
    have below := rooted.below above
    cases onward : (w.context c).handsOn with
    | true =>
      have further : w.ground c = w.ground parent := by simp [ground, groundOf, way, onward]
      have plain : (w.context c).request? = none := by
        cases kind : (w.context c).kind <;> simp_all [Context.handsOn, Context.request?]
      rw [further]
      apply ih
      · rw [home_eq_find, way, List.find?_cons, plain] at home
        rw [home_eq_find]
        exact home
      · rw [isolated, ← further]
        exact connected
    | false =>
      have here : w.ground c = some c := by simp [ground, groundOf, way, onward]
      rw [isolated, here] at connected
      rw [here]
      cases kind : (w.context c).kind <;>
        simp_all [Context.admitsRequest, Context.isRoot, Context.type, ContextKind.type]

theorem requestStop_of_home {request : Request} (rooted : w.Rooted) (found : w.requestOf c = some (r, request))
    (connected : w.isolated c = false) : w.requestStop c = [request.scope] := by
  have home : w.home c = some r := by rw [home, found]; rfl
  rw [requestStop, if_pos (ground_admits rooted home connected), found]
  rfl

end World

theorem bindFunction_closure {d : ContextId} {function : Function} {f : FunctionId} {w bound : World}
    (closure : function.kind = .closure) (binds : bindFunction d function w = (.ok f, bound)) :
    w.Grows bound ∧ f.number < bound.functions.size ∧
      bound.function f = { function with frame := some (w.captureFrame d) } := by
  have captures : w.bound d function = { function with frame := some (w.captureFrame d) } := by
    simp only [World.bound, closure]
  have runs : bindFunction d function w = (.ok w.functions.next, (w.addFunction (w.bound d function)).2) := rfl
  rw [runs] at binds
  cases binds
  refine ⟨w.grows_addFunction _, ?_, ?_⟩
  · exact Table.next_lt_size_add ..
  · rw [← captures]
    exact Table.get_add_next ..

theorem callContext_closure {f : FunctionId} {c e : ContextId} {arguments : ScopeId} {w opened : World}
    (closure : (w.function f).kind = .closure) (opens : callContext f c arguments w = (.ok e, opened)) :
    ∃ call, call.function = f ∧ (opened.context e).kind = .closure call := by
  let framed := (w.addScope (.new ScopeName.locals.key)).2
  let call : Call := {
    locals := w.scopes.next, arguments, function := f
    component := framed.followLink ((w.function f).frame.bind (·.component)) }
  let context : Context := { parent := some c, kind := .closure call, templates := (w.function f).source.toList }
  have runs : callContext f c arguments w = (.ok framed.contexts.next, (framed.addContext context).2) := by
    simp only [context]
    show (Except.ok _, _) = _
    rw [closure]
    rfl
  rw [runs] at opens
  cases opens
  refine ⟨call, rfl, ?_⟩
  rw [context_addContext, if_pos rfl]

namespace World

/-- After the function was bound it was called from the request at `r`, and the call now runs at `e`. -/
def Called (bound : World) (f : FunctionId) (r : ContextId) (now : World) (e : ContextId) : Prop :=
  ∃ before entered opened c arguments scope, bound.Grows before ∧ before.home c = some r ∧
    bindArguments f arguments before = (.ok scope, entered) ∧ callContext f c scope entered = (.ok e, opened) ∧
    opened.Grows now

def Unbound (w : World) (e : ContextId) (key : Key) : Prop :=
  ∀ call, (w.context e).call? = some call →
    (w.scope call.locals).get key = none ∧ (w.scope call.arguments).get key = none

variable {w bound now : World} {d e r : ContextId} {f : FunctionId} {key : Key}

theorem Called.spec (called : bound.Called f r now e) (issued : f.number < bound.functions.size)
    (closure : (bound.function f).kind = .closure) : bound.Grows now ∧ now.home e = some r ∧
      ∃ call, call.function = f ∧ (now.context e).kind = .closure call := by
  obtain ⟨before, entered, opened, c, arguments, scope, grown, home, binds, opens, goes⟩ := called
  have enters : before.Grows entered := by
    have grows := grows_order.scopes.bindArguments f arguments before
    rwa [binds] at grows
  have entered_home : entered.home c = some r := by
    rw [enters.extends_.home (issued_of_home home), home]
  have still : (entered.function f).kind = .closure := by
    rw [(grown.trans enters).function f issued, closure]
  have known := issued_of_home entered_home
  have calls := after_callContext (w := entered) f scope known
  have grows := grows_order.callContext f c scope entered
  rw [opens] at grows
  simp only [After, opens] at calls
  obtain ⟨-, inside, same⟩ := calls
  obtain ⟨call, runs, kind⟩ := callContext_closure still opens
  refine ⟨((grown.trans enters).trans grows).trans goes, ?_, call, runs, ?_⟩
  · rw [goes.extends_.home inside, same, entered_home]
  · exact goes.kind inside kind (by simp [Context.request?, kind])

/-- The call of a closure sees its own scopes, then what was captured, then the request scope. -/
theorem findNearby_closure {call : Call} {captured : Frame} {request : Request} (key : Key) (rooted : now.Rooted)
    (kind : (now.context e).kind = .closure call) (frame : (now.function call.function).frame = some captured)
    (found : now.requestOf e = some (r, request)) : now.findNearby key false (now.ancestry e) =
      now.lookupIn (call.locals :: call.arguments :: (captured.scopes ++ [request.scope])) key := by
  obtain ⟨rest, way⟩ := now.ancestry_eq_cons e
  have here : now.ground e = some e := by simp [ground, groundOf, way, Context.handsOn, kind]
  have connected : now.isolated e = false := by simp [isolated, here, Context.type, kind, ContextKind.type]
  rw [findNearby_ancestry rooted, requestStop_of_home rooted found connected, captureFrame, way]
  simp [frameOf, kind, frame]

/-- In the call of a closure a search finds what it finds at the place of the declaration, unless the call binds the
name. -/
theorem Called.findNearby (called : bound.Called f r now e) (unbound : now.Unbound e key) (linked : w.Linked)
    (home : w.home d = some r) (connected : w.isolated d = false) {function : Function}
    (closure : function.kind = .closure) (binds : bindFunction d function w = (.ok f, bound)) :
    now.findNearby key false (now.ancestry e) = now.findNearby key false (now.ancestry d) := by
  obtain ⟨adds, issued, captures⟩ := bindFunction_closure closure binds
  obtain ⟨later, at_home, call, runs, kind⟩ := called.spec issued (by rw [captures]; exact closure)
  have declared := issued_of_home home
  have grows := adds.trans later
  have rooted := grows.rooted linked.rooted
  obtain ⟨request, found, there⟩ := requestOf_home at_home
  have frame : (now.function call.function).frame = some (w.captureFrame d) := by
    rw [runs, later.function f issued, captures]
  -- both places lie in one request, so both searches end in one request scope
  have found_d : now.requestOf d = some (r, request) := by
    have home_d : now.home d = some r := by rw [grows.extends_.home declared, home]
    obtain ⟨other, found_d, there_d⟩ := requestOf_home home_d
    rw [there] at there_d
    cases there_d
    exact found_d
  have connected_d : now.isolated d = false := (grows.isolated declared).trans connected
  obtain ⟨locals, arguments⟩ := unbound call (by simp [Context.call?, kind])
  calc now.findNearby key false (now.ancestry e)
    _ = now.lookupIn (call.locals :: call.arguments :: ((w.captureFrame d).scopes ++ [request.scope])) key :=
      findNearby_closure key rooted kind frame found
    _ = now.lookupIn ((w.captureFrame d).scopes ++ [request.scope]) key := by
      rw [lookupIn_cons, lookupIn_cons]
      simp [lookup, locals, arguments]
    _ = now.lookupIn ((now.captureFrame d).scopes ++ now.requestStop d) key := by
      have functions : ∀ c call, (w.context c).kind = .closure call → call.function.number < w.functions.size :=
        fun c call kind => linked.function c call (by simp [Context.call?, kind])
      rw [grows.captureFrame functions linked.component declared, requestStop_of_home rooted found_d connected_d]
    _ = now.findNearby key false (now.ancestry d) := (findNearby_ancestry rooted d key).symm

end World

/-- In a call of a closure that was declared at `d`, a name that the call does not bind itself means what it means at `d`,
whoever in the request of `d` made the call and whatever happened to scopes since. -/
theorem closures_are_lexical (host : Host) (w bound : World) (d r : ContextId) (function : Function) (f : FunctionId)
    (key : Key) (linked : w.Linked) (home : w.home d = some r) (connected : w.isolated d = false)
    (closure : function.kind = .closure) (binds : bindFunction d function w = (.ok f, bound))
    (plain : key.isScopeName = false) :
    (∀ now e, bound.Called f r now e → now.Unbound e key →
      resolve host e key none now = resolve host d key none now) ∧
    ∀ now e e', bound.Called f r now e → bound.Called f r now e' → now.Unbound e key → now.Unbound e' key →
      resolve host e key none now = resolve host e' key none now := by
  have lexical : ∀ now e, bound.Called f r now e → now.Unbound e key →
      resolve host e key none now = resolve host d key none now := by
    intro now e called unbound
    rw [resolve_apply host e plain, resolve_apply host d plain,
      called.findNearby unbound linked home connected closure binds]
  refine ⟨lexical, ?_⟩
  intro now e e' called called' unbound unbound'
  rw [lexical now e called unbound, lexical now e' called' unbound']

theorem World.linked_nested : nested.Linked where
  rooted := rooted_nested
  function := by
    intro c call there
    obtain ⟨n⟩ := c
    match n with
    | 3 | 4 | 5 | 6 | 7 =>
      cases there
      decide
    | 0 | 1 | 2 | 8 => cases there
    | n + 9 => cases there
  component := by
    intro c k belongs
    obtain ⟨n⟩ := c
    match n with
    | 2 | 3 | 4 =>
      cases belongs
      decide
    | 0 | 1 | 5 | 6 | 7 | 8 => cases belongs
    | n + 9 => cases belongs

/-- A closure is declared in a function in a closure in a method, and called from a template. -/
theorem closures_are_lexical_nested :
    let host := Script.hostOf (Script.execute 0)
    let function : Function := {
      name := .of "g", kind := .closure, access := .exposed, params := [], body := [], source := none, frame := none
      component := none }
    let bound := (bindFunction ⟨5⟩ function nested).2
    let entered := (bindArguments ⟨3⟩ .none bound).2
    let now := (callContext ⟨3⟩ ⟨8⟩ ⟨17⟩ entered).2
    bound.Called ⟨3⟩ ⟨1⟩ now ⟨9⟩ ∧ now.Unbound ⟨9⟩ (.of "x") ∧
      (resolve host ⟨8⟩ (.of "x") none now).1.toOption.map (·.scope) = some ⟨16⟩ ∧
      (resolve host ⟨9⟩ (.of "x") none now).1.toOption.map (·.scope) = some ⟨3⟩ ∧
      resolve host ⟨9⟩ (.of "x") none now = resolve host ⟨5⟩ (.of "x") none now := by
  intro host function bound entered now
  have called : bound.Called ⟨3⟩ ⟨1⟩ now ⟨9⟩ := by
    refine ⟨bound, entered, now, ⟨8⟩, .none, ⟨17⟩, .refl bound, ?_, ?_, ?_, .refl now⟩
    · decide +kernel
    · rfl
    · rfl
  have unbound : now.Unbound ⟨9⟩ (.of "x") := by
    have free : ((now.context ⟨9⟩).call?.all fun call => ((now.scope call.locals).get (.of "x")).isNone &&
        ((now.scope call.arguments).get (.of "x")).isNone) = true := by decide +kernel
    intro call there
    rw [there] at free
    simpa using free
  refine ⟨called, unbound, by decide +kernel, by decide +kernel, ?_⟩
  exact (closures_are_lexical host nested bound ⟨5⟩ ⟨1⟩ function ⟨3⟩ (.of "x") linked_nested
    (by decide +kernel) (by decide +kernel) rfl rfl (by decide +kernel)).1 now ⟨9⟩ called unbound

end ScopeEngine
