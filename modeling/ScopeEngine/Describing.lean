import ScopeEngine.World

/-!
Text for people: how values read in output, and how the parts of an engine show themselves when they are inspected.
-/

namespace ScopeEngine

def openBrace : String := String.singleton (Char.ofNat 0x7B)

def closeBrace : String := String.singleton (Char.ofNat 0x7D)

def recordText (name : String) (fields : List (String × String)) : String :=
  name ++ " " ++ openBrace ++ " " ++ ", ".intercalate (fields.map fun (field, text) => field ++ ": " ++ text) ++ " " ++
    closeBrace

def listText (items : List String) : String :=
  "[" ++ ", ".intercalate items ++ "]"

def boolText (b : Bool) : String :=
  if b then "true" else "false"

def FunctionKind.debugText : FunctionKind → String
  | .plain => "Udf"
  | .closure => "Closure"
  | .lambda => "Lambda"

def Access.debugText : Access → String
  | .exposed => "Public"
  | .hidden => "Private"

namespace Value

/-- The integer a value stands for: an integer, or an integral float brought into range. -/
def toInt? : Value → Option Int64
  | .integer n => some n
  | .float x => (Decimal.floatInteger? x).map clampInt
  | _ => none

end Value

namespace World

def displayText (w : World) : Value → String
  | .null => "null"
  | .boolean b => boolText b
  | .integer n => Decimal.intText n.toInt
  | .float x => Decimal.floatText x
  | .string s => s
  | .dateTime t => t.text
  | .struct s => "struct[" ++ (w.scope s).name.name ++ "](" ++ Decimal.natText (w.scope s).size ++ " keys)"
  | .function f => "function " ++ (w.function f).name.name

def entryText (w : World) : Value → String
  | .null => "Value::Null"
  | .boolean b => "Value::Boolean(" ++ boolText b ++ ")"
  | .integer n => "Value::Integer(" ++ Decimal.intText n.toInt ++ ")"
  | .float x => "Value::Float(" ++ Decimal.floatText x ++ ")"
  | .string s => "Value::String(" ++ Text.quoted s ++ ")"
  | .dateTime t => "Value::DateTime(" ++ t.text ++ ")"
  | .struct s => Text.quoted ("struct[" ++ (w.scope s).name.name ++ "]")
  | .function f => "Value::Function(" ++ (w.function f).name.name ++ ")"

def scopeText (w : World) (s : ScopeId) : String :=
  let scope := w.scope s
  let entries := scope.bindings.entries.map fun (key, value) => key.debugText ++ ": " ++ w.entryText value
  scope.name.name ++ " " ++ openBrace ++ ", ".intercalate entries ++ closeBrace

def valueText (w : World) : Value → String
  | .struct s => "Value::Struct(" ++ w.scopeText s ++ ")"
  | value => w.entryText value

def paramText (w : World) (param : Param) : String :=
  let default := match param.default with
    | some value => "Some(" ++ w.valueText value ++ ")"
    | none => "None"
  recordText "Param" [("name", param.name.debugText), ("required", boolText param.required), ("default", default)]

def functionText (w : World) (f : FunctionId) : String :=
  let function := w.function f
  recordText "Function" [
    ("name", function.name.debugText), ("kind", function.kind.debugText), ("access", function.access.debugText),
    ("params", listText (function.params.map w.paramText))]

def componentText (w : World) (k : ComponentId) : String :=
  let component := w.component k
  recordText "BoxClass" [
    ("name", component.name.debugText), ("this", listText ((w.scope component.self).keys.map Key.debugText))]

def contextText (w : World) (c : ContextId) : String :=
  let context := w.context c
  recordText "Context" [
    ("type", context.type.text), ("templates", listText (context.templates.map Text.quoted)),
    ("has_parent", boolText context.parent.isSome)]

end World

def Application.debugText (application : Application) : String :=
  recordText "Application" [
    ("name", application.name.debugText), ("started", boolText application.started),
    ("sessions", Decimal.natText application.sessions.size)]

def Session.debugText (session : Session) : String :=
  recordText "Session" [
    ("id", session.id.debugText), ("application", session.application.debugText),
    ("started", boolText session.started), ("shut_down", boolText session.shutDown)]

end ScopeEngine
