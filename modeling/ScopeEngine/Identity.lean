/-!
Identities. Scopes, functions and the other long-lived things of an engine are told apart by who they are and not
by what they hold: two empty scopes of one name are two scopes. An identity is a number that is tagged with the
kind of thing it stands for.
-/

namespace ScopeEngine

inductive Entity where
  | scope
  | function
  | component
  | context
  | listener
  | application
  | session

structure Id (kind : Entity) where
  number : Nat
deriving DecidableEq, Inhabited, Repr

abbrev ScopeId := Id .scope
abbrev FunctionId := Id .function
abbrev ComponentId := Id .component
abbrev ContextId := Id .context
abbrev ListenerId := Id .listener
abbrev ApplicationId := Id .application
abbrev SessionId := Id .session

/-- What each identity of one kind stands for, in order of creation. -/
structure Table (kind : Entity) (α : Type) where
  rows : Array α

namespace Table

variable {kind : Entity} {α : Type}

instance : Inhabited (Table kind α) := ⟨⟨#[]⟩⟩

def empty : Table kind α := ⟨#[]⟩

def size (table : Table kind α) : Nat := table.rows.size

def get? (table : Table kind α) (id : Id kind) : Option α :=
  table.rows[id.number]?

/-- An identity that was never issued reads as the default. -/
def get [Inhabited α] (table : Table kind α) (id : Id kind) : α :=
  (table.get? id).getD default

def set (table : Table kind α) (id : Id kind) (row : α) : Table kind α :=
  ⟨table.rows.setIfInBounds id.number row⟩

def modify (table : Table kind α) (id : Id kind) (change : α → α) : Table kind α :=
  ⟨table.rows.modify id.number change⟩

def next (table : Table kind α) : Id kind := ⟨table.rows.size⟩

def add (table : Table kind α) (row : α) : Table kind α :=
  ⟨table.rows.push row⟩

end Table

end ScopeEngine
