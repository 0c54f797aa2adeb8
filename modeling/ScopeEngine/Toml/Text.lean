import ScopeEngine.Toml.Blank

/-!
TOML strings: basic ones between double quotes, with escapes, and literal ones between single quotes, each on one line
or, between tripled quotes, on several. One or two quotes may stand next to the closing ones.
-/

namespace ScopeEngine.Toml

def apostrophe : Char := Char.ofNat 39

def hexValue? (c : Char) : Option Nat :=
  if c.isDigit then some (c.toNat - '0'.toNat)
  else if 'a' ≤ c && c ≤ 'f' then some (c.toNat - 'a'.toNat + 10)
  else if 'A' ≤ c && c ≤ 'F' then some (c.toNat - 'A'.toNat + 10)
  else none

/-- The character whose code the digits spell; surrogates and codes out of range are none. -/
def charOfHex? (digits : List Char) : Option Char := do
  let values ← digits.mapM hexValue?
  let code := values.foldl (fun n digit => 16 * n + digit) 0
  if code.isValidChar then some (Char.ofNat code) else none

def simpleEscape? (c : Char) : Option Char :=
  if c == '"' || c == '\\' then some c
  else if c == 'b' then some (Char.ofNat 8)
  else if c == 't' then some '\t'
  else if c == 'n' then some '\n'
  else if c == 'f' then some (Char.ofNat 12)
  else if c == 'r' then some '\r'
  else none

/-- A basic string on one line, after its opening quote. `done` holds the characters read, the last one first. -/
def readBasic (done : List Char) : Reader String
  | [] => none
  | '\\' :: 'u' :: a :: b :: c :: d :: rest =>
    match charOfHex? [a, b, c, d] with
    | some char => readBasic (char :: done) rest
    | none => none
  | '\\' :: 'U' :: a :: b :: c :: d :: e :: f :: g :: h :: rest =>
    match charOfHex? [a, b, c, d, e, f, g, h] with
    | some char => readBasic (char :: done) rest
    | none => none
  | '\\' :: c :: rest =>
    match simpleEscape? c with
    | some char => readBasic (char :: done) rest
    | none => none
  | c :: rest =>
    if c == '"' then some (String.ofList done.reverse, rest)
    else if c != '\\' && isPlain c then readBasic (c :: done) rest
    else none

def readLiteral (done : List Char) : Reader String
  | [] => none
  | c :: rest =>
    if c == apostrophe then some (String.ofList done.reverse, rest)
    else if isPlain c then readLiteral (c :: done) rest
    else none

/-- Up to two quotes after three closing ones belong to the string. -/
def closing (quote : Char) (done rest : List Char) : String × List Char :=
  match rest with
  | a :: b :: others =>
    if a == quote && b == quote then (String.ofList (quote :: quote :: done).reverse, others)
    else if a == quote then (String.ofList (quote :: done).reverse, b :: others)
    else (String.ofList done.reverse, rest)
  | [a] => if a == quote then (String.ofList (quote :: done).reverse, []) else (String.ofList done.reverse, rest)
  | [] => (String.ofList done.reverse, [])

/-- Where a reader of a basic string on several lines stands. -/
inductive LineState where
  | inText
  /-- After a backslash, before the line end that it hides. -/
  | beforeHidden
  /-- After a hidden line end, skipping spaces and line ends. -/
  | afterHidden

/-- A basic string on several lines, after its opening quotes. -/
def readBasicLines (done : List Char) : LineState → Reader String
  | .beforeHidden, cs =>
    match cs with
    | '\r' :: '\n' :: rest => readBasicLines done .afterHidden rest
    | c :: rest =>
      if c == '\n' then readBasicLines done .afterHidden rest
      else if isSpace c then readBasicLines done .beforeHidden rest
      else none
    | [] => none
  | state, cs =>
    match cs with
    | [] => none
    | '"' :: '"' :: '"' :: rest => some (closing '"' done rest)
    | '\r' :: '\n' :: rest =>
      match state with
      | .afterHidden => readBasicLines done .afterHidden rest
      | _ => readBasicLines ('\n' :: done) .inText rest
    | '\\' :: 'u' :: a :: b :: c :: d :: rest =>
      match charOfHex? [a, b, c, d] with
      | some char => readBasicLines (char :: done) .inText rest
      | none => none
    | '\\' :: 'U' :: a :: b :: c :: d :: e :: f :: g :: h :: rest =>
      match charOfHex? [a, b, c, d, e, f, g, h] with
      | some char => readBasicLines (char :: done) .inText rest
      | none => none
    | '\\' :: '\r' :: '\n' :: rest => readBasicLines done .afterHidden rest
    | '\\' :: c :: rest =>
      match simpleEscape? c with
      | some char => readBasicLines (char :: done) .inText rest
      | none =>
        if c == '\n' then readBasicLines done .afterHidden rest
        else if isSpace c then readBasicLines done .beforeHidden rest
        else none
    | c :: rest =>
      match state with
      | .afterHidden =>
        if c == '\n' || isSpace c then readBasicLines done .afterHidden rest
        else if c != '\\' && isPlain c then readBasicLines (c :: done) .inText rest
        else none
      | _ =>
        if c == '\n' || (c != '\\' && isPlain c) then readBasicLines (c :: done) .inText rest
        else none
termination_by _ cs => cs.length

def readLiteralLines (done : List Char) : Reader String
  | [] => none
  | '\r' :: '\n' :: rest => readLiteralLines ('\n' :: done) rest
  | c :: rest =>
    if c == apostrophe && rest.take 2 == [apostrophe, apostrophe] then some (closing apostrophe done (rest.drop 2))
    else if c == '\n' || isPlain c then readLiteralLines (c :: done) rest
    else none

/-- A line end right after tripled opening quotes does not count. -/
def dropFirstNewline (cs : List Char) : List Char :=
  (afterNewline? cs).getD cs

def readString : Reader String
  | '"' :: '"' :: '"' :: rest => readBasicLines [] .inText (dropFirstNewline rest)
  | '"' :: rest => readBasic [] rest
  | c :: rest =>
    if c == apostrophe then
      if rest.take 2 == [apostrophe, apostrophe] then readLiteralLines [] (dropFirstNewline (rest.drop 2))
      else readLiteral [] rest
    else
      none
  | [] => none

end ScopeEngine.Toml
