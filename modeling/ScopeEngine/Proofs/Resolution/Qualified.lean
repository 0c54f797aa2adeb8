import ScopeEngine.Proofs.Resolution.Owners

/-! Scopes by name. Apart from the application and the session, what a scope name stands for is read off the contexts and
the frames of closures. Variables, locals and arguments are those of the frame that a closure declared at the same place
would capture: a qualified name never leads to another scope of that name than an unqualified search would come to. -/

namespace ScopeEngine

open ScopeEngine.Action World

variable {key : Key} {name : ScopeName}

def World.nearbyOf (w : World) (key : Key) (name : ScopeName) (contexts : List ContextId) : Option ScopeId :=
  match w.reach key (some name) contexts with
  | .here s => some s
  | .global contexts => w.globalOf name contexts
  | .nowhere => none

theorem scopeNearby_apply (host : Host) (c : ContextId) (named : key.scopeName? = some name)
    (outer : name ≠ .application ∧ name ≠ .session) (w : World) :
    scopeNearby host c key w = orScopeNotFound key (w.nearbyOf key name (w.ancestry c)) w := by
  simp only [scopeNearby, bind_apply, get_apply, named, nearbyOf]
  cases w.reach key (some name) (w.ancestry c) with
  | here s => rfl
  | global contexts => exact globalScope_apply host key outer contexts w
  | nowhere => rfl

def ScopeName.isFramed : ScopeName → Bool
  | .vars | .locals | .arguments => true
  | _ => false

theorem Key.scopeName?_eq (named : key.scopeName? = some name) (other : ScopeName) :
    (other.key == key) = decide (other = name) := by
  have apart : ∀ first second : ScopeName, (first.key == second.key) = decide (first = second) := by
    intro first second
    cases first <;> cases second <;> decide +kernel
  have alike : (name.key == key) = true := List.find?_some (p := fun name : ScopeName => name.key == key) named
  have same : name.key.folded = key.folded := beq_iff_eq.mp alike
  rw [← apart other name]
  exact congrArg (other.key.folded == ·) same.symm

namespace World

variable {w : World} {c : ContextId} {s : ScopeId} {key : Key} {name : ScopeName}

theorem Reachable.rooted (reachable : w.Reachable) : w.Rooted := by
  induction reachable with
  | program program fuel clock => exact rooted_program program fuel clock
  | command _ fuel inBody c command rooted => exact (grows_order.programs.execute fuel inBody c command _).rooted rooted
  | engine _ _ _ rooted => exact rooted
  | holding _ _ rooted => exact rooted

theorem globalOf_framed (framed : name.isFramed = true) (contexts : List ContextId) : w.globalOf name contexts = none :=
  List.findSome?_eq_none_iff.mpr fun c _ => by
    cases name <;> cases framed <;> cases (w.context c).kind <;> rfl

section Frames

variable (parted : w.Parted) (named : key.scopeName? = some name)
variable {k : ComponentId} {other : ScopeName}
include parted named

theorem Parted.label (searched : other.isSearched = true) (serves : w.Serves other s) :
    ((w.scope s).name == key) = decide (other = name) := by
  rw [parted.labels other s searched serves, Key.scopeName?_eq named]

theorem Parted.label_own (searched : other.isSearched = true)
    (own : (w.context c).kind.scope? other = some s) : ((w.scope s).name == key) = decide (other = name) :=
  parted.label named searched (serves_of_kind searched own)

theorem Parted.label_vars (issued : k.number < w.components.size) :
    ((w.scope (w.component k).vars).name == key) = decide (ScopeName.vars = name) :=
  parted.label named rfl (.component issued rfl)

/-- The variables of the component that a call of a closure belongs to are among what the closure captured. -/
theorem Parted.label_captured {call : Call} (kind : (w.context c).kind = .closure call)
    (belongs : call.component = some k) : (((w.function call.function).frame.map (·.scopes)).getD []).find?
      (fun s => (w.scope s).name == key) = none → name ≠ .vars := by
  obtain ⟨closes, component⟩ := parted.closures c call kind
  obtain ⟨frame, captured, same⟩ := Option.bind_eq_some_iff.mp (component k belongs)
  obtain ⟨issued, member⟩ := (parted.frames _ frame closes captured).component k same
  rintro missing rfl
  rw [captured] at missing
  have unlike := List.find?_eq_none.mp missing _ member
  rw [parted.label_vars named issued] at unlike
  exact unlike rfl

/-- Asking for the scope by name and reading it off the frame are two recursions over the way to the root. -/
theorem nearbyOf_eq_find (framed : name.isFramed = true) (contexts : List ContextId) :
    w.nearbyOf key name contexts = (w.frameOf contexts).scopes.find? fun s => (w.scope s).name == key := by
  have nowhere : ∀ contexts, w.globalOf name contexts = none := globalOf_framed framed
  induction contexts with
  | nil => rfl
  | cons c above ih =>
    have own : ∀ (other : ScopeName) (s : ScopeId), other.isSearched = true →
        (w.context c).kind.scope? other = some s → ((w.scope s).name == key) = decide (other = name) :=
      fun _ _ => parted.label_own named
    have ofComponent : ∀ k : ComponentId, (w.context c).kind.component? = some k →
        ((w.scope (w.component k).vars).name == key) = decide (ScopeName.vars = name) := fun k member =>
      parted.label_vars named (parted.members c k member)
    cases kind : (w.context c).kind with
    | request request =>
      have vars := own .vars request.vars rfl (by rw [kind]; rfl)
      cases name <;> cases framed <;> simp [nearbyOf, reach, frameOf, kind, vars, nowhere]
    | template v =>
      have vars := own .vars v rfl (by rw [kind]; rfl)
      cases name <;> cases framed <;> simp [nearbyOf, reach, frameOf, kind, vars, nowhere]
    | component k =>
      have vars := ofComponent k (by rw [kind]; rfl)
      cases name <;> cases framed <;> simp [nearbyOf, reach, frameOf, kind, vars, nowhere, Component.scope?]
    | function call =>
      have locals := own .locals call.locals rfl (by rw [kind]; rfl)
      have arguments := own .arguments call.arguments rfl (by rw [kind]; rfl)
      cases member : call.component with
      | some k =>
        have vars := ofComponent k (by rw [kind]; exact member)
        cases name <;> cases framed <;>
          simp [nearbyOf, reach, frameOf, kind, member, locals, arguments, vars, Component.scope?]
      | none =>
        cases name <;> cases framed <;> simp [nearbyOf, reach, frameOf, kind, member, locals, arguments]
        exact ih
    | closure call =>
      have locals := own .locals call.locals rfl (by rw [kind]; rfl)
      have arguments := own .arguments call.arguments rfl (by rw [kind]; rfl)
      have beyond : (((w.function call.function).frame).getD {}).scopes =
          ((w.function call.function).frame.map (·.scopes)).getD [] := by
        cases (w.function call.function).frame <;> rfl
      have ofCaptured := fun k belongs => parted.label_captured (k := k) named kind belongs
      cases name <;> cases framed <;> simp [nearbyOf, reach, frameOf, kind, locals, arguments, beyond]
      cases found : (((w.function call.function).frame.map (·.scopes)).getD []).find? fun s => (w.scope s).name == key with
      | some s => rfl
      | none =>
        cases belongs : call.component with
        | some k => exact absurd rfl (ofCaptured k belongs found)
        | none => simp [nowhere]
    | lambda call =>
      have locals := own .locals call.locals rfl (by rw [kind]; rfl)
      have arguments := own .arguments call.arguments rfl (by rw [kind]; rfl)
      cases name <;> cases framed <;> simp [nearbyOf, reach, frameOf, kind, locals, arguments, nowhere]
    | server | application | session =>
      cases name <;> cases framed <;> simp [nearbyOf, reach, frameOf, kind, nowhere]

end Frames

end World

/-- What `variables`, `local` and `arguments` stand for at a place is the first scope of that name in the frame that would be
captured there, and without one the name stands for nothing. An unqualified search at the same place looks into the scope
as soon as it has gone through those before it in the frame. -/
theorem qualified_names_follow_frames {w : World} (reachable : w.Reachable) (host : Host) (c : ContextId) {key : Key}
    {name : ScopeName} (named : key.scopeName? = some name) (framed : name ∈ [ScopeName.vars, .locals, .arguments]) :
    scopeNearby host c key w =
      (match (w.captureFrame c).scopes.find? fun s => (w.scope s).name == key with
        | some s => (.ok s, w)
        | none => (.error (.failed (.scopeNotFound key.name)), w)) ∧
    ∀ s, scopeNearby host c key w = (.ok s, w) →
      ∃ before after, (w.captureFrame c).scopes = before ++ s :: after ∧
        (∀ t ∈ before, ((w.scope t).name == key) = false) ∧
        ∀ other value, other.isScopeName = false → (∀ t ∈ before, (w.scope t).get other = none) →
          (w.scope s).get other = some value →
          resolve host c other none w = (.ok { scope := s, key := other, value }, w) := by
  have framed : name.isFramed = true := by
    revert framed
    cases name <;> decide
  have outer : name ≠ .application ∧ name ≠ .session := by
    revert framed
    cases name <;> decide
  have reads : scopeNearby host c key w = _ := scopeNearby_apply host c named outer w
  rw [nearbyOf_eq_find reachable.parted named framed, ← captureFrame] at reads
  constructor
  · rw [reads]
    cases (w.captureFrame c).scopes.find? fun s => (w.scope s).name == key <;> rfl
  · intro s answers
    rw [reads] at answers
    cases found : (w.captureFrame c).scopes.find? fun s => (w.scope s).name == key with
    | none =>
      rw [found] at answers
      cases answers
    | some first =>
      rw [found] at answers
      cases answers
      obtain ⟨_, before, after, split, unlike⟩ := List.find?_eq_some_iff_append.mp found
      refine ⟨before, after, split, fun t member => by simpa using unlike t member, ?_⟩
      intro other value plain free bound
      rw [resolve_apply host c plain, findNearby_ancestry reachable.rooted, split, List.append_assoc, List.cons_append,
        lookupIn_of_split (fun t member _ => free t member) bound]

/-- In the closure that was kept in the application and is called from the second request, `variables` are those of the
first. -/
theorem qualified_names_follow_frames_crossing :
    let host := Script.hostOf (Script.execute 0)
    let w := (crossing.action 9 (start default)).2
    w.Reachable ∧ (w.context ⟨5⟩).type = .closure ∧ (w.captureFrame ⟨3⟩).scopes = [⟨8⟩] ∧
      scopeNearby host ⟨5⟩ ScopeName.vars.key w = (.ok ⟨5⟩, w) ∧
      ∃ before after, (w.captureFrame ⟨5⟩).scopes = before ++ ⟨5⟩ :: after ∧
        (∀ t ∈ before, ((w.scope t).name == ScopeName.vars.key) = false) ∧
        ∀ other value, other.isScopeName = false → (∀ t ∈ before, (w.scope t).get other = none) →
          (w.scope ⟨5⟩).get other = some value →
          resolve host ⟨5⟩ other none w = (.ok { scope := ⟨5⟩, key := other, value }, w) := by
  intro host w
  have reachable : w.Reachable := .program crossing 9 default
  have named : ScopeName.vars.key.scopeName? = some .vars := by decide +kernel
  have first : (w.captureFrame ⟨5⟩).scopes.find? (fun s => (w.scope s).name == ScopeName.vars.key) = some ⟨5⟩ := by
    decide +kernel
  obtain ⟨reads, consults⟩ := qualified_names_follow_frames reachable host ⟨5⟩ named (by decide)
  rw [first] at reads
  exact ⟨reachable, by decide +kernel, by decide +kernel, reads, consults ⟨5⟩ reads⟩

end ScopeEngine
