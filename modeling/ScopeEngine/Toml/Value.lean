import ScopeEngine.Toml.Number

/-!
TOML values: strings, scalars, arrays and inline tables, nested up to a fixed depth. Tables are built by inserting
values under dotted keys; a table that such a key creates may be extended by further dotted keys, any other may not.
-/

namespace ScopeEngine.Toml

inductive Value where
  | string (s : String)
  | integer (n : Int)
  | float (x : Float)
  | boolean (b : Bool)
  | dateTime
  | array (items : List Value)
  | table (entries : List (String × Value))
deriving Inhabited

inductive Item where
  | value (value : Value)
  /-- `implicit` tables came into being on the way to something below them, `dotted` ones within a dotted key. -/
  | table (implicit dotted : Bool) (entries : List (String × Item))
  /-- The tables that headers in double brackets add to one another. -/
  | tables (items : List (List (String × Item)))

abbrev Entries := List (String × Item)

def Entries.set (key : String) (item : Item) : Entries → Entries
  | [] => [(key, item)]
  | (other, old) :: rest => if other == key then (key, item) :: rest else (other, old) :: Entries.set key item rest

/-- A table as an operation on it sees it: whether it is dotted, and its entries. -/
abbrev Edit := Bool → Entries → Option Entries

/-- Applies an edit to the table that a path leads to, creating tables that are missing. Dotted keys do not enter
tables that were defined on their own. -/
def editAt (inKey : Bool) (edit : Edit) : List String → Edit
  | [], dotted, entries => edit dotted entries
  | key :: path, _, entries =>
    match entries.lookup key with
    | none => do
      let below ← editAt inKey edit path inKey []
      some (Entries.set key (.table true inKey below) entries)
    | some (.value _) => none
    | some (.tables items) => do
      let lastItem ← items.getLast?
      let below ← editAt inKey edit path false lastItem
      some (Entries.set key (.tables (items.dropLast ++ [below])) entries)
    | some (.table implicit dotted below) =>
      if inKey && !implicit then none
      else do
        let below ← editAt inKey edit path dotted below
        some (Entries.set key (.table implicit dotted below) entries)

/-- Binds a dotted key in a table. The last table on its way has to be one of dotted keys, and the key has to be new. -/
def bindKey (path : List String) (value : Value) (entries : Entries) : Option Entries :=
  match path.getLast? with
  | none => none
  | some key =>
    let way := path.dropLast
    let add : Edit := fun dotted entries =>
      if dotted == way.isEmpty || (entries.lookup key).isSome then none
      else some (entries ++ [(key, .value value)])
    editAt true add way false entries

mutual

def Item.toValue : Item → Value
  | .value value => value
  | .table _ _ entries => .table (entriesToValues entries)
  | .tables items => .array (tablesToValues items)

def entriesToValues : List (String × Item) → List (String × Value)
  | [] => []
  | (key, item) :: rest => (key, item.toValue) :: entriesToValues rest

def tablesToValues : List (List (String × Item)) → List Value
  | [] => []
  | entries :: rest => .table (entriesToValues entries) :: tablesToValues rest

end

def isBareKeyChar (c : Char) : Bool := c.isAlphanum || c == '_' || c == '-'

/-- One segment of a key: bare, or a quoted string on one line. -/
def readSegment : Reader String
  | [] => none
  | c :: rest =>
    if c == '"' then readBasic [] rest
    else if c == apostrophe then readLiteral [] rest
    else if isBareKeyChar c then
      some (String.ofList ((c :: rest).takeWhile isBareKeyChar), (c :: rest).dropWhile isBareKeyChar)
    else
      none

/-- The most values that may nest and segments that a key may have, plus one. -/
def depthLimit : Nat := 80

/-- A dotted key of fewer segments than `fuel`, with spaces around its segments. -/
def readKeySegments : (fuel : Nat) → Reader (List String)
  | 0, _ => none
  | 1, _ => none
  | fuel + 2, cs => do
    let (segment, rest) ← readSegment (skipSpaces cs)
    match skipSpaces rest with
    | '.' :: rest =>
      let (segments, rest) ← readKeySegments (fuel + 1) rest
      some (segment :: segments, rest)
    | rest => some ([segment], rest)

def readKey : Reader (List String) := readKeySegments depthLimit

/-- The items of an array after its opening bracket, each read by `item`; every round takes at least one character. -/
def readItems (item : Reader Value) : (fuel : Nat) → Reader (List Value)
  | 0, _ => none
  | fuel + 1, cs => do
    match ← skipLines false cs with
    | ']' :: rest => some ([], rest)
    | cs =>
      let (first, rest) ← item cs
      match ← skipLines false rest with
      | ',' :: rest =>
        let (others, rest) ← readItems item fuel rest
        some (first :: others, rest)
      | ']' :: rest => some ([first], rest)
      | _ => none

/-- A key, an equals sign and a value, with spaces around them. -/
def readPair (item : Reader Value) : Reader (List String × Value) := fun cs => do
  let (key, rest) ← readKey cs
  let rest ← readMark '=' rest
  let (value, rest) ← item (skipSpaces rest)
  some ((key, value), rest)

/-- The pairs of an inline table after its opening brace. A comma has to be followed by another pair. -/
def readPairs (item : Reader Value) : (fuel : Nat) → Entries → Reader Entries
  | 0, _, _ => none
  | fuel + 1, entries, cs => do
    let ((key, value), rest) ← readPair item cs
    let entries ← bindKey key value entries
    match skipSpaces rest with
    | c :: rest =>
      if c == ',' then readPairs item fuel entries rest
      else if c == Char.ofNat 0x7D then some (entries, rest)
      else none
    | [] => none

def readInlineTable (item : Reader Value) : Reader Value := fun cs =>
  match skipSpaces cs with
  | c :: rest =>
    if c == Char.ofNat 0x7D then some (.table [], rest)
    else do
      let (entries, rest) ← readPairs item cs.length [] cs
      some (.table (entriesToValues entries), rest)
  | [] => none

/-- A value in which at most `depth` others nest. -/
def readValue : (depth : Nat) → Reader Value
  | 0, _ => none
  | _, [] => none
  | depth + 1, c :: rest =>
    if c == '"' || c == apostrophe then do
      let (text, rest) ← readString (c :: rest)
      some (.string text, rest)
    else if c == '[' then
      if depth = 0 then none
      else do
        let (items, rest) ← readItems (readValue depth) (rest.length + 1) rest
        some (.array items, rest)
    else if c == Char.ofNat 0x7B then
      if depth = 0 then none else readInlineTable (readValue depth) rest
    else if c == 't' then (after? "true".toList (c :: rest)).map (Value.boolean true, ·)
    else if c == 'f' then (after? "false".toList (c :: rest)).map (Value.boolean false, ·)
    else do
      let (scalar, rest) ← readScalar (c :: rest)
      match scalar with
      | .integer n => some (.integer n, rest)
      | .float x => some (.float x, rest)
      | .dateTime => some (.dateTime, rest)

end ScopeEngine.Toml
