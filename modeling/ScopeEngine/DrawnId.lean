/-!
Random session ids. A drawn id has the form of a random universally unique identifier: five groups of hexadecimal
digits, the third beginning with the version and the fourth with the variant. Which digits are drawn is of no
consequence, so ids are numbered; reports put drawn ids behind all others because their order means nothing.
-/

namespace ScopeEngine.DrawnId

def isHex (c : Char) : Bool :=
  c.isDigit || ('a' ≤ c && c ≤ 'f')

def form : List (Char → Bool) :=
  let hex (n : Nat) : List (Char → Bool) := List.replicate n isHex
  let dash : Char → Bool := (· == '-')
  hex 8 ++ [dash] ++ hex 4 ++ [dash, (· == '4')] ++ hex 3 ++ [dash, fun c => "89ab".toList.contains c] ++ hex 3 ++
    [dash] ++ hex 12

def length : Nat := 36

def text (n : Nat) : String :=
  let digits := Nat.toDigits 16 n
  "00000000-0000-4000-8000-" ++ String.ofList (List.replicate (12 - digits.length) '0' ++ digits)

def startsText (cs : List Char) : Bool :=
  length ≤ (cs.take length).length && (form.zip cs).all fun (accepts, c) => accepts c

def occursIn : List Char → Bool
  | [] => false
  | c :: rest => startsText (c :: rest) || occursIn rest

def isIn (text : String) : Bool := occursIn text.toList

inductive Piece where
  | char (c : Char)
  | id (text : String)

/-- The pieces of a text; `skip` characters belong to an id already found. -/
def piecesFrom : (skip : Nat) → List Char → List Piece
  | _, [] => []
  | skip + 1, _ :: rest => piecesFrom skip rest
  | 0, c :: rest =>
    if startsText (c :: rest) then .id (String.ofList ((c :: rest).take length)) :: piecesFrom (length - 1) rest
    else .char c :: piecesFrom 0 rest

def pieces (text : String) : List Piece := piecesFrom 0 text.toList

/-- The items in the same order, but those whose text contains a drawn id behind the others. -/
def last {α : Type} (text : α → String) (items : List α) : List α :=
  items.filter (fun item => !isIn (text item)) ++ items.filter (fun item => isIn (text item))

def sortBy {α : Type} (text : α → String) (items : List α) : List α :=
  last text (items.mergeSort fun a b => (compare (text a) (text b)).isLE)

end ScopeEngine.DrawnId
