import ScopeEngine.Resolution.Ancestry

/-!
Unqualified names. A name is searched in the scopes of its context and then as far as the kind of context allows:
a plain function goes on with its caller, a closure with the scopes captured where it was declared, a lambda stops.
The request scope comes last. Session, application and server scopes are never searched.
-/

namespace ScopeEngine

/-- Where a name was found: the owning scope, so that an assignment can write back without searching again. -/
structure Finding where
  scope : ScopeId
  key : Key
  value : Value
  /-- The name itself denoted the scope. -/
  isScope : Bool := false

namespace World

def lookup (w : World) (s : ScopeId) (key : Key) : Option Finding :=
  ((w.scope s).get key).map fun value => { scope := s, key, value }

def lookupIn (w : World) (scopes : List ScopeId) (key : Key) : Option Finding :=
  scopes.findSome? fun s => w.lookup s key

def findGlobal (w : World) (key : Key) : List ContextId → Option Finding
  | [] => none
  | c :: above =>
    match (w.context c).kind with
    | .request request => w.lookup request.scope key
    | .server _ | .application _ | .session _ => none
    | _ => w.findGlobal key above

/-- Searches from the first of a context and its ancestors; `shallow` leaves out the request scope. -/
def findNearby (w : World) (key : Key) (shallow : Bool) : List ContextId → Option Finding
  | [] => none
  | c :: above =>
    let orGlobal (own : Option Finding) (contexts : List ContextId) : Option Finding :=
      if own.isSome || shallow then own else w.findGlobal key contexts
    match (w.context c).kind with
    | .request request => orGlobal (w.lookup request.vars key) (c :: above)
    | .template vars => orGlobal (w.lookup vars key) above
    | .component k => orGlobal (w.lookup (w.component k).vars key) above
    | .function call =>
      match call.component with
      | some k => orGlobal (w.lookupIn [call.locals, call.arguments, (w.component k).vars] key) above
      | none => (w.lookupIn [call.locals, call.arguments] key).or (w.findNearby key shallow above)
    | .closure call =>
      let captured := ((w.function call.function).frame.map (·.scopes)).getD []
      orGlobal (w.lookupIn (call.locals :: call.arguments :: captured) key) above
    | .lambda call => w.lookupIn [call.locals, call.arguments] key
    | .server _ | .application _ | .session _ => none

end World

end ScopeEngine
