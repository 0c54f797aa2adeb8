/-!
What separates the parts of a TOML document: spaces and tabs, line ends, comments. A line ends with a line feed, which
a carriage return may precede.
-/

namespace ScopeEngine.Toml

/-- Reads a part of a document from its front; the result holds what is left. -/
abbrev Reader (α : Type) := List Char → Option (α × List Char)

def isSpace (c : Char) : Bool := c == ' ' || c == '\t'

/-- Printable, a tab, or beyond ASCII. -/
def isPlain (c : Char) : Bool := c == '\t' || (32 ≤ c.toNat && c.toNat ≠ 127)

def skipSpaces (cs : List Char) : List Char := cs.dropWhile isSpace

def afterNewline? : List Char → Option (List Char)
  | '\n' :: rest => some rest
  | '\r' :: '\n' :: rest => some rest
  | _ => none

/-- What follows the end of a line, with a comment before it or not. The last line may end without a line end. -/
def afterLine? (cs : List Char) : Option (List Char) :=
  let rest := match skipSpaces cs with
    | '#' :: comment => comment.dropWhile isPlain
    | other => other
  if rest.isEmpty then some [] else afterNewline? rest

/-- Skips spaces, line ends and comments; `inComment` tells whether a comment is being skipped. Fails on a comment that
no line end closes. -/
def skipLines (inComment : Bool) : List Char → Option (List Char)
  | [] => if inComment then none else some []
  | '\r' :: '\n' :: rest => skipLines false rest
  | c :: rest =>
    if c == '\n' then skipLines false rest
    else if inComment then
      if isPlain c then skipLines true rest else none
    else if isSpace c then skipLines false rest
    else if c == '#' then skipLines true rest
    else some (c :: rest)

end ScopeEngine.Toml
