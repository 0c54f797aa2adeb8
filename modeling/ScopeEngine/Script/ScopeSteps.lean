import ScopeEngine.Script.Evaluation
import ScopeEngine.Script.Inspection

/-!
Steps on values and scopes. A step's value is evaluated before its scope is looked up.
-/

namespace ScopeEngine.Script

open ScopeEngine.Action

def keepValue (as : Option String) : Value → Action Unit
  | .struct s => keepScope as s
  | .function f => keepFunction as f
  | _ => pure ()

def ValueStep.run (host : Host) (c : ContextId) : ValueStep → Action Reply
  | .inspect value => do
    let value ← evaluate host c value
    let duplicate ← modifyGet (·.duplicate value)
    pure (.inspected ((← get).valueReport value duplicate))
  | .equal a b => do
    let a ← evaluate host c a
    let b ← evaluate host c b
    pure (.flag (a == b))
  | .duplicate value as => do
    let value ← evaluate host c value
    let duplicate ← modifyGet (·.duplicate value)
    keepValue as duplicate
    pure (.value ((← get).snapshot duplicate))

/-- The current value's text when another text is appended to it. -/
def appendedTo (w : World) : Option Value → String
  | none => ""
  | some (.struct _) => "[struct]"
  | some value => w.displayText value

/-- The new value that an update computes from the current and the given one. -/
def UpdateMode.combine (w : World) (mode : UpdateMode) (given : Value) (current : Option Value) : Value :=
  match mode with
  | .add => .integer (((current.bind Value.toInt?).getD 0) + (given.toInt?.getD 0))
  | .concat => .string (appendedTo w current ++ w.displayText given)
  | .keep => current.getD .null
  | .replace => given

def ScopeStep.run (host : Host) (c : ContextId) : ScopeStep → Action Reply
  | .new name as => do
    keepScope as (← newScope (.new name))
    pure .nothing
  | .newArguments as => do
    keepScope as (← newScope .newArguments)
    pure .nothing
  | .newLocked name entries as => do
    let entries ← evaluateEntries host c entries
    let s ← newScope (.newLocked name entries)
    keepScope as s
    pure (.value ((← get).snapshotScope s))
  | .alias scope as => do
    let s ← scopeAt host c scope
    keepScope as s
    pure (.text ((← get).scope s).name.name)
  | .read scope key => do
    let s ← scopeAt host c scope
    let w ← get
    pure (.option (((w.scope s).get key).map w.snapshot))
  | .readOr scope key value => do
    let value ← evaluate host c value
    let s ← scopeAt host c scope
    let w ← get
    pure (.value (w.snapshot (((w.scope s).get key).getD value)))
  | .put scope key value => do
    let value ← evaluate host c value
    let s ← scopeAt host c scope
    let old ← putIn s key value
    pure (.option (old.map (← get).snapshot))
  | .putIfAbsent scope key value => do
    let value ← evaluate host c value
    let s ← scopeAt host c scope
    let bound ← writeScope s (·.putIfAbsent key value)
    pure (.value ((← get).snapshot bound))
  | .remove scope key => do
    let s ← scopeAt host c scope
    let old ← writeScope s (·.remove key)
    pure (.option (old.map (← get).snapshot))
  | .contains scope key => do
    let s ← scopeAt host c scope
    pure (.flag (((← get).scope s).contains key))
  | .isLocked scope key => do
    let s ← scopeAt host c scope
    pure (.flag (((← get).scope s).isLocked key))
  | .clear scope => do
    let s ← scopeAt host c scope
    modify fun w => w.setScope s (w.scope s).clear
    pure .nothing
  | .duplicate scope as => do
    let s ← scopeAt host c scope
    let duplicate ← modifyGet (·.duplicate (.struct s))
    keepValue as duplicate
    pure (.value ((← get).snapshot duplicate))
  | .same a b => do
    let a ← scopeAt host c a
    let b ← scopeAt host c b
    pure (.flag (a == b))
  | .debug scope => do
    let s ← scopeAt host c scope
    pure (.text ((← get).scopeText s))
  | .update scope key mode value => do
    let value ← evaluate host c value
    let s ← scopeAt host c scope
    let w ← get
    let result ← writeScope s (·.update key (mode.combine w value))
    pure (.value ((← get).snapshot result))
  | .dump scope => do
    let s ← scopeAt host c scope
    pure (.scope ((← get).scopeReport s))

end ScopeEngine.Script
