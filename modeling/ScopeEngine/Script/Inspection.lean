import ScopeEngine.Copying
import ScopeEngine.Describing
import ScopeEngine.DrawnId
import ScopeEngine.Liveness
import ScopeEngine.Resolution.Frame
import ScopeEngine.Resolution.Search

/-!
Reports about values, scopes, contexts and the rest, as scripts see them.
-/

namespace ScopeEngine.World

open Script

mutual

/-- The snapshot of a value, given the structs met before it. Structs nest no deeper than there are scopes. -/
def snapshotFrom (w : World) : (fuel : Nat) → (met : List ScopeId) → Value → Snapshot × List ScopeId
  | _, met, .null => (.null, met)
  | _, met, .boolean b => (.boolean b, met)
  | _, met, .integer n => (.integer n, met)
  | _, met, .float x => (.float (Decimal.floatText x), met)
  | _, met, .string s => (.string s, met)
  | _, met, .dateTime t => (.dateTime t, met)
  | _, met, .function f => (.function (w.function f).name.name (w.function f).kind, met)
  | 0, met, .struct _ => (.null, met)
  | fuel + 1, met, .struct s =>
    match met.findIdx? (· == s) with
    | some number => (.again number, met)
    | none =>
      let (entries, after) := w.snapshotEntries fuel (met ++ [s]) (w.scope s).bindings.entries
      (.struct (w.scope s).name.name met.length entries, after)

def snapshotEntries (w : World) : (fuel : Nat) → (met : List ScopeId) → List (Key × Value) →
    List (String × Snapshot) × List ScopeId
  | _, met, [] => ([], met)
  | fuel, met, (key, value) :: rest =>
    let (first, met) := w.snapshotFrom fuel met value
    let (others, met) := w.snapshotEntries fuel met rest
    ((key.name, first) :: others, met)

end

def snapshot (w : World) (value : Value) : Snapshot :=
  (w.snapshotFrom (w.scopes.size + 1) [] value).1

def snapshotScope (w : World) (s : ScopeId) : Snapshot := w.snapshot (.struct s)

def keyNames (w : World) (s : ScopeId) : List String := (w.scope s).keys.map Key.name

def valueReport (w : World) (value duplicate : Value) : ValueReport where
  value := w.snapshot value
  display := w.displayText value
  debug := w.valueText value
  isNull := match value with
    | .null => true
    | _ => false
  asInteger := value.toInt?
  asString := match value with
    | .string s => some s
    | _ => none
  asBoolean := match value with
    | .boolean b => some b
    | _ => none
  asStruct := match value with
    | .struct s => some (w.scope s).name.name
    | _ => none
  asFunction := match value with
    | .function f => some (w.function f).name.name
    | _ => none
  equalsSelf := value == value
  equalsDuplicate := value == duplicate

def scopeReport (w : World) (s : ScopeId) : ScopeReport where
  scope := w.snapshotScope s
  keys := w.keyNames s
  positional := (w.scope s).isPositional

def placeReport (w : World) (c : ContextId) (s : ScopeId) : PlaceReport where
  name := (w.scope s).name.name
  visible := (w.visibleScopes c).findIdx? (· == s)

def findingReport (w : World) (c : ContextId) (found : Finding) : FindingReport where
  place := w.placeReport c found.scope
  key := found.key.name
  value := if found.isScope then none else some (w.snapshot found.value)

def namedKeys (w : World) (scopes : List ScopeId) : List (String × List String) :=
  scopes.map fun s => ((w.scope s).name.name, w.keyNames s)

def linkName (w : World) (link : Option ComponentId) : Option String :=
  (w.followLink link).map fun k => (w.component k).name.name

def frameReport (w : World) (frame : Frame) : FrameReport where
  scopes := w.namedKeys frame.scopes
  component := w.linkName frame.component

def contextReport (w : World) (c : ContextId) : ContextReport :=
  let context := w.context c
  { type := context.type
    parent := context.parent.map fun p => (w.context p).type
    lineage := (w.lineage c).map fun c => (w.context c).type
    templates := w.templates c
    closest := w.closestTemplate c
    base := w.baseTemplate c
    hasTemplates := !context.templates.isEmpty
    function := (w.functionName c).map Key.name
    hasRegistry := (w.serverOf c).isSome
    debug := w.contextText c }

def functionReport (w : World) (f : FunctionId) : FunctionReport :=
  let function := w.function f
  { name := function.name.name
    kind := function.kind
    access := function.access
    params := function.params.map fun param =>
      { name := param.name.name, required := param.required, default := param.default.map w.snapshot }
    source := function.source
    frame := function.frame.map fun frame =>
      (frame.scopes.map fun s => (w.scope s).name.name, w.linkName frame.component)
    component := w.linkName function.component
    debug := w.functionText f }

def componentReport (w : World) (k : ComponentId) : ComponentReport :=
  let component := w.component k
  { name := component.name.name
    vars := w.keyNames component.vars
    self := w.keyNames component.self
    shared := w.keyNames component.shared
    debug := w.componentText k }

def applicationReport (w : World) (a : ApplicationId) : ApplicationReport :=
  let application := w.application a
  { application
    listener := application.listener.map fun l => (w.listener l).name
    sessionIds := DrawnId.last id ((Key.sort application.sessions.keys).map Key.name)
    scope := w.snapshotScope application.scope
    debug := application.debugText }

def sessionReport (w : World) (s : SessionId) : SessionReport where
  session := w.session s
  scope := w.snapshotScope (w.session s).scope
  debug := (w.session s).debugText

end ScopeEngine.World
