import ScopeEngine.Text.Hidden

/-!
Quoted text: a text between double quotes in which quotes, backslashes and characters that cannot be shown are
written as escapes.
-/

namespace ScopeEngine.Text

def hexDigits (code : Nat) : List Char :=
  Nat.toDigits 16 code

def escapeChar (c : Char) : List Char :=
  if c = '"' then ['\\', '"']
  else if c = '\\' then ['\\', '\\']
  else if c = '\n' then ['\\', 'n']
  else if c = '\r' then ['\\', 'r']
  else if c = '\t' then ['\\', 't']
  else if c = Char.ofNat 0 then ['\\', '0']
  else if isHidden c then ['\\', 'u', Char.ofNat 0x7B] ++ hexDigits c.toNat ++ [Char.ofNat 0x7D]
  else [c]

def quoted (text : String) : String :=
  String.ofList ('"' :: text.toList.flatMap escapeChar ++ ['"'])

end ScopeEngine.Text
