import ScopeEngine.Key

/-!
Ordered bindings: a finite map from keys that remembers the order in which keys first came, and the spelling they
first came with. Writing to a bound key changes its value and nothing else.
-/

namespace ScopeEngine

structure Bindings (α : Type) where
  entries : List (Key × α)

namespace Bindings

variable {α : Type}

instance : Inhabited (Bindings α) := ⟨⟨[]⟩⟩

def empty : Bindings α := ⟨[]⟩

def size (bindings : Bindings α) : Nat := bindings.entries.length

def isEmpty (bindings : Bindings α) : Bool := bindings.entries.isEmpty

def keys (bindings : Bindings α) : List Key := bindings.entries.map (·.1)

def values (bindings : Bindings α) : List α := bindings.entries.map (·.2)

def find? (bindings : Bindings α) (key : Key) : Option α :=
  (bindings.entries.find? fun entry => entry.1 == key).map (·.2)

def contains (bindings : Bindings α) (key : Key) : Bool :=
  bindings.entries.any fun entry => entry.1 == key

/-- The entries with `value` under `key`: in place if the key is bound, else at the end. -/
def insertEntry (key : Key) (value : α) : List (Key × α) → List (Key × α)
  | [] => [(key, value)]
  | (bound, old) :: rest =>
    if bound == key then (bound, value) :: rest else (bound, old) :: insertEntry key value rest

def insert (bindings : Bindings α) (key : Key) (value : α) : Bindings α :=
  ⟨insertEntry key value bindings.entries⟩

def erase (bindings : Bindings α) (key : Key) : Bindings α :=
  ⟨bindings.entries.eraseP fun entry => entry.1 == key⟩

/-- Later values of a repeated key win, its first place and spelling stay. -/
def ofList (entries : List (Key × α)) : Bindings α :=
  entries.foldl (fun bindings (key, value) => bindings.insert key value) empty

end Bindings

end ScopeEngine
