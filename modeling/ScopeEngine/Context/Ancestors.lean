import ScopeEngine.Identity
import ScopeEngine.Script.Syntax

/-!
The nodes spliced in above a request, nearest first. A node takes the place of the one of its type that is there; otherwise it
is put at the end and the list is sorted by rank. A list that was built in this way is in strict order of rank, so it has at
most one node of either type and can be read as two places.
-/

namespace ScopeEngine

namespace ContextType

def isSpliceable : ContextType → Bool
  | .application | .session => true
  | _ => false

/-- Sessions come first. -/
def rank : ContextType → Nat
  | .session => 0
  | _ => 1

end ContextType

structure Ancestor where
  type : ContextType
  node : ContextId
  spliceable : type.isSpliceable = true

namespace Ancestor

abbrev session (node : ContextId) : Ancestor := ⟨.session, node, rfl⟩

abbrev application (node : ContextId) : Ancestor := ⟨.application, node, rfl⟩

def insertByRank (new : Ancestor) : List Ancestor → List Ancestor
  | [] => [new]
  | next :: rest =>
    if new.type.rank ≤ next.type.rank then new :: next :: rest else next :: insertByRank new rest

/-- Nodes of one rank stay in their order. -/
def sortByRank (nodes : List Ancestor) : List Ancestor := nodes.foldr insertByRank []

def inject (new : Ancestor) (nodes : List Ancestor) : List Ancestor :=
  match nodes.findIdx? (·.type == new.type) with
  | some place => nodes.set place new
  | none => sortByRank (nodes ++ [new])

def remove (type : ContextType) (nodes : List Ancestor) : List Ancestor :=
  match nodes.findIdx? (·.type == type) with
  | some place => nodes.eraseIdx place
  | none => nodes

def Ordered (nodes : List Ancestor) : Prop := nodes.Pairwise fun near far => near.type.rank < far.type.rank

theorem eq_session_or_application (ancestor : Ancestor) :
    ancestor = .session ancestor.node ∨ ancestor = .application ancestor.node := by
  obtain ⟨type, node, spliceable⟩ := ancestor
  cases type <;> first | exact .inl rfl | exact .inr rfl | cases spliceable

theorem Ordered.shape {nodes : List Ancestor} (ordered : Ordered nodes) : nodes = [] ∨ (∃ s, nodes = [.session s]) ∨
    (∃ a, nodes = [.application a]) ∨ ∃ s a, nodes = [.session s, .application a] := by
  match nodes, ordered with
  | [], _ => exact .inl rfl
  | [one], _ =>
    rcases one.eq_session_or_application with is | is
    · exact .inr (.inl ⟨_, congrArg (fun one => [one]) is⟩)
    · exact .inr (.inr (.inl ⟨_, congrArg (fun one => [one]) is⟩))
  | near :: far :: rest, ordered =>
    obtain ⟨below, further⟩ := List.pairwise_cons.mp ordered
    have less := below far List.mem_cons_self
    rcases near.eq_session_or_application with isNear | isNear <;> rcases far.eq_session_or_application with isFar | isFar <;>
      rw [isNear, isFar] at less <;> simp only [ContextType.rank, Nat.lt_irrefl, Nat.not_lt_zero] at less
    cases rest with
    | nil => exact .inr (.inr (.inr ⟨_, _, by rw [← isNear, ← isFar]⟩))
    | cons last rest =>
      have beyond := (List.pairwise_cons.mp further).1 last List.mem_cons_self
      rw [isFar] at beyond
      rcases last.eq_session_or_application with is | is <;> rw [is] at beyond <;>
        simp only [ContextType.rank, Nat.lt_irrefl, Nat.not_lt_zero] at beyond

/-- Replacing a node of the same type changes no rank, and sorting puts a node of a new type where it belongs. -/
theorem Ordered.inject {nodes : List Ancestor} (ordered : Ordered nodes) (new : Ancestor) : Ordered (new.inject nodes) := by
  rcases ordered.shape with rfl | ⟨s, rfl⟩ | ⟨a, rfl⟩ | ⟨s, a, rfl⟩ <;> rcases new.eq_session_or_application with is | is <;>
    rw [is] <;> simp [Ancestor.inject, Ordered, sortByRank, insertByRank, ContextType.rank, List.findIdx?_cons]

theorem Ordered.remove {nodes : List Ancestor} (ordered : Ordered nodes) (type : ContextType) :
    Ordered (Ancestor.remove type nodes) := by
  unfold Ancestor.remove
  split
  · exact ordered.sublist (List.eraseIdx_sublist ..)
  · exact ordered

end Ancestor

structure Ancestors where
  nodes : List Ancestor
  ordered : Ancestor.Ordered nodes

namespace Ancestors

def empty : Ancestors := ⟨[], .nil⟩

def find (ancestors : Ancestors) (type : ContextType) : Option ContextId :=
  (ancestors.nodes.find? (·.type == type)).map (·.node)

def inject (ancestors : Ancestors) (new : Ancestor) : Ancestors := ⟨new.inject ancestors.nodes, ancestors.ordered.inject new⟩

def remove (ancestors : Ancestors) (type : ContextType) : Ancestors :=
  ⟨Ancestor.remove type ancestors.nodes, ancestors.ordered.remove type⟩

/-- Puts a node at the end without looking at the others, which is right where it is farther than all of them. -/
def push (ancestors : Ancestors) (new : Ancestor) (farthest : ∀ other ∈ ancestors.nodes, other.type.rank < new.type.rank) :
    Ancestors :=
  ⟨ancestors.nodes ++ [new], List.pairwise_append.mpr ⟨ancestors.ordered, List.pairwise_singleton .., fun other held _ last =>
    List.mem_singleton.mp last ▸ farthest other held⟩⟩

variable (ancestors : Ancestors)

theorem find_inject (new : Ancestor) (type : ContextType) :
    (ancestors.inject new).find type = if new.type = type then some new.node else ancestors.find type := by
  obtain ⟨nodes, ordered⟩ := ancestors
  rcases ordered.shape with rfl | ⟨s, rfl⟩ | ⟨a, rfl⟩ | ⟨s, a, rfl⟩ <;> rcases new.eq_session_or_application with is | is <;>
    rw [is] <;> cases type <;> rfl

theorem find_remove (type other : ContextType) :
    (ancestors.remove type).find other = if type = other then none else ancestors.find other := by
  obtain ⟨nodes, ordered⟩ := ancestors
  rcases ordered.shape with rfl | ⟨s, rfl⟩ | ⟨a, rfl⟩ | ⟨s, a, rfl⟩ <;> cases type <;> cases other <;> rfl

theorem nodes_eq : ancestors.nodes =
    ((ancestors.find .session).map .session).toList ++ ((ancestors.find .application).map .application).toList := by
  obtain ⟨nodes, ordered⟩ := ancestors
  rcases ordered.shape with rfl | ⟨s, rfl⟩ | ⟨a, rfl⟩ | ⟨s, a, rfl⟩ <;> rfl

theorem map_node : ancestors.nodes.map (·.node) =
    (ancestors.find .session).toList ++ (ancestors.find .application).toList := by
  rw [nodes_eq]
  cases ancestors.find .session <;> cases ancestors.find .application <;> rfl

theorem eq_of_find {ancestors others : Ancestors} (session : ancestors.find .session = others.find .session)
    (application : ancestors.find .application = others.find .application) : ancestors = others := by
  have nodes : ancestors.nodes = others.nodes := by rw [nodes_eq, session, application, ← nodes_eq]
  cases ancestors
  cases nodes
  rfl

theorem remove_remove (type : ContextType) : (ancestors.remove type).remove type = ancestors.remove type := by
  apply eq_of_find <;> simp only [find_remove] <;> split <;> rfl

theorem inject_remove (new : Ancestor) : (ancestors.remove new.type).inject new = ancestors.inject new := by
  apply eq_of_find <;> simp only [find_inject, find_remove] <;> split <;> rfl

theorem remove_inject (new : Ancestor) : (ancestors.inject new).remove new.type = ancestors.remove new.type := by
  apply eq_of_find <;> simp only [find_inject, find_remove] <;> split <;> rfl

end Ancestors

end ScopeEngine
