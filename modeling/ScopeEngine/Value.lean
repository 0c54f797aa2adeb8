import ScopeEngine.Identity
import ScopeEngine.Instant

/-!
Values of scripts. Structs and functions are held by identity, so copying a value that is a struct makes an alias.
-/

namespace ScopeEngine

inductive Value where
  | null
  | boolean (b : Bool)
  | integer (n : Int64)
  | float (x : Float)
  | string (s : String)
  | dateTime (t : Instant)
  | struct (scope : ScopeId)
  | function (function : FunctionId)
deriving Inhabited

namespace Value

/-- Script equality: kinds never mix, floats compare as numbers, structs and functions by identity. -/
def same : Value → Value → Bool
  | .null, .null => true
  | .boolean a, .boolean b => a == b
  | .integer a, .integer b => a == b
  | .float a, .float b => a == b
  | .string a, .string b => a == b
  | .dateTime a, .dateTime b => a == b
  | .struct a, .struct b => a == b
  | .function a, .function b => a == b
  | _, _ => false

instance : BEq Value := ⟨same⟩

/-- The nearest 64-bit integer. -/
def clampInt (n : Int) : Int64 :=
  if n < Int64.minValue.toInt then Int64.minValue
  else if Int64.maxValue.toInt < n then Int64.maxValue
  else Int64.ofInt n

end Value

end ScopeEngine
