import ScopeEngine.Bindings
import ScopeEngine.Error
import ScopeEngine.Value

/-!
Scopes: named containers of values. Every scope keeps its bindings in order. In a positional scope a number from one
to the size of the scope addresses the entry at that place. In a partly locked scope a fixed set of keys cannot be
written; all other keys can.
-/

namespace ScopeEngine

inductive ScopeKind where
  | generic
  | positional
  | partlyLocked (locked : List Key)

structure Scope where
  name : Key
  kind : ScopeKind
  bindings : Bindings Value

namespace Scope

instance : Inhabited Scope := ⟨⟨default, .generic, .empty⟩⟩

def new (name : Key) : Scope := ⟨name, .generic, .empty⟩

def newArguments : Scope := ⟨ScopeName.arguments.key, .positional, .empty⟩

def newLocked (name : Key) (entries : List (Key × Value)) : Scope :=
  ⟨name, .partlyLocked (entries.map (·.1)), .ofList entries⟩

def isPositional (scope : Scope) : Bool :=
  match scope.kind with
  | .positional => true
  | _ => false

def isLocked (scope : Scope) (key : Key) : Bool :=
  match scope.kind with
  | .partlyLocked locked => locked.any (· == key)
  | _ => false

/-- The key that `key` stands for: in a positional scope a number within the size stands for the key at that place. -/
def realKey (scope : Scope) (key : Key) : Key :=
  match scope.kind, key.number with
  | .positional, some n =>
    if 1 ≤ n.toInt then
      match scope.bindings.entries[n.toInt.toNat - 1]? with
      | some (real, _) => real
      | none => key
    else
      key
  | _, _ => key

def get (scope : Scope) (key : Key) : Option Value :=
  scope.bindings.find? (scope.realKey key)

def contains (scope : Scope) (key : Key) : Bool :=
  scope.bindings.contains (scope.realKey key)

def size (scope : Scope) : Nat := scope.bindings.size

def keys (scope : Scope) : List Key := scope.bindings.keys

def locked (scope : Scope) (key : Key) : Error :=
  .lockedKey scope.name.name key.name

/-- Binds `key` to `value`; the result also holds what was bound before. -/
def put (scope : Scope) (key : Key) (value : Value) : Except Error (Option Value × Scope) :=
  let real := scope.realKey key
  if scope.isLocked real then .error (scope.locked real)
  else .ok (scope.bindings.find? real, { scope with bindings := scope.bindings.insert real value })

/-- Binds `key` only if it is unbound; the result also holds what is bound afterwards. -/
def putIfAbsent (scope : Scope) (key : Key) (value : Value) : Except Error (Value × Scope) :=
  let real := scope.realKey key
  match scope.bindings.find? real with
  | some bound => .ok (bound, scope)
  | none =>
    if scope.isLocked real then .error (scope.locked real)
    else .ok (value, { scope with bindings := scope.bindings.insert real value })

/-- Replaces the value under `key` by what `change` makes of it. -/
def update (scope : Scope) (key : Key) (change : Option Value → Value) : Except Error (Value × Scope) :=
  let real := scope.realKey key
  if scope.isLocked real then .error (scope.locked real)
  else
    let value := change (scope.bindings.find? real)
    .ok (value, { scope with bindings := scope.bindings.insert real value })

def remove (scope : Scope) (key : Key) : Except Error (Option Value × Scope) :=
  let real := scope.realKey key
  if scope.isLocked real then .error (scope.locked real)
  else .ok (scope.bindings.find? real, { scope with bindings := scope.bindings.erase real })

def clear (scope : Scope) : Scope :=
  { scope with bindings := ⟨scope.bindings.entries.filter fun entry => scope.isLocked entry.1⟩ }

end Scope

end ScopeEngine
