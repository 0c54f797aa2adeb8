import ScopeEngine.Toml.Value

/-!
TOML documents: lines of keys with values, and headers that open a table or add one to an array of tables. A table is
defined once. A header may open a table that only came into being on the way to another one.
-/

namespace ScopeEngine.Toml

/-- A document being read: everything above the last header, and the table below it. -/
structure Draft where
  root : Entries := []
  /-- The header of the current table; empty before the first header. -/
  path : List String := []
  inArray : Bool := false
  current : Entries := []

def Draft.close (draft : Draft) : Option Entries :=
  match draft.path.getLast? with
  | none => some draft.current
  | some key =>
    let put : Edit := fun _ entries =>
      match entries.lookup key, draft.inArray with
      | some (.tables items), true => some (Entries.set key (.tables (items ++ [draft.current])) entries)
      | none, true => some (Entries.set key (.tables [draft.current]) entries)
      | none, false => some (Entries.set key (.table false false draft.current) entries)
      | _, _ => none
    editAt false put draft.path.dropLast false draft.root

def Draft.openTable (draft : Draft) (path : List String) : Option Draft := do
  let root ← draft.close
  let key ← path.getLast?
  let find : Edit := fun _ entries =>
    match entries.lookup key with
    | none => some entries
    | some (.table true false _) => some entries
    | some _ => none
  let root ← editAt false find path.dropLast false root
  let current := match itemAt path root with
    | some (.table _ _ entries) => entries
    | _ => []
  let remove : Edit := fun _ entries => some (entries.filter (·.1 != key))
  let root ← editAt false remove path.dropLast false root
  some { root, path, inArray := false, current }
where
  /-- What a path leads to, through the last of every array of tables. -/
  itemAt : List String → Entries → Option Item
    | [], _ => none
    | [key], entries => entries.lookup key
    | key :: path, entries =>
      match entries.lookup key with
      | some (.table _ _ below) => itemAt path below
      | some (.tables items) => (items.getLast?).bind (itemAt path)
      | _ => none

def Draft.openElement (draft : Draft) (path : List String) : Option Draft := do
  let root ← draft.close
  let key ← path.getLast?
  let find : Edit := fun _ entries =>
    match entries.lookup key with
    | none => some entries
    | some (.tables _) => some entries
    | some _ => none
  let root ← editAt false find path.dropLast false root
  some { root, path, inArray := true, current := [] }

/-- Reads lines until none is left; every round takes at least one character. -/
def readLines : (fuel : Nat) → Draft → List Char → Option Draft
  | 0, _, _ => none
  | fuel + 1, draft, cs =>
    match skipSpaces cs with
    | [] => some draft
    | '[' :: '[' :: rest => do
      let (path, rest) ← readKey rest
      let rest ← readMark ']' rest
      let rest ← readMark ']' rest
      let rest ← afterLine? rest
      readLines fuel (← draft.openElement path) rest
    | '[' :: rest => do
      let (path, rest) ← readKey rest
      let rest ← readMark ']' rest
      let rest ← afterLine? rest
      readLines fuel (← draft.openTable path) rest
    | c :: rest =>
      if c == '#' || c == '\n' || c == '\r' then do
        readLines fuel draft (← afterLine? (c :: rest))
      else do
        let ((key, value), rest) ← readPair (readValue depthLimit) (c :: rest)
        let rest ← afterLine? rest
        readLines fuel { draft with current := ← bindKey key value draft.current } rest

/-- The entries of a document. A byte order mark in front is skipped. -/
def parse? (text : String) : Option (List (String × Value)) := do
  let cs := match text.toList with
    | c :: rest => if c.toNat = 0xFEFF then rest else c :: rest
    | [] => []
  let draft ← readLines (cs.length + 1) {} cs
  return entriesToValues (← draft.close)

end ScopeEngine.Toml
