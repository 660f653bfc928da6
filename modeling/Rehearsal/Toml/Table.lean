import Rehearsal.Toml.Basic
/-!
Tables in the making.

A text may come back to a table: a header adds to one that so far only stood on the way to
others, and a dotted key to one made by dotted keys. Everything else is given once.
-/

namespace Rehearsal.Toml

inductive Origin where
  | header
  /-- It stands on the way to a table with a header. -/
  | passage
  /-- It stands in front of a dot in the key of a value. -/
  | dotted
  deriving DecidableEq, Repr

inductive Item where
  | value (value : Value)
  | table (origin : Origin) (entries : List (String × Item))
  /-- Tables that share a header; the last one is open to further entries. -/
  | tables (before : List (List (String × Item))) (last : List (String × Item))
  deriving Inhabited

abbrev Entries := List (String × Item)

namespace Entries

def get? (name : String) : Entries → Option Item
  | [] => none
  | (key, item) :: rest => if key = name then some item else get? name rest

def put (name : String) (item : Item) : Entries → Entries
  | [] => [(name, item)]
  | (key, old) :: rest =>
      if key = name then (name, item) :: rest else (key, old) :: put name item rest

/-- Gives a value to a dotted key. The table next to the value has to be made by dotted keys;
on the way to it there may also be tables that have no header, and the last of several tables
that share one. -/
def assign (value : Value) : (key : List String) → Entries → Result Entries
  | [], entries => .ok entries
  | [name], entries =>
      match get? name entries with
      | none => .ok (put name (.value value) entries)
      | some _ => .error (.repeatedKey name)
  | name :: next :: rest, entries => do
      match get? name entries with
      | none => return put name (.table .dotted (← assign value (next :: rest) [])) entries
      | some (.table .dotted inner) =>
          return put name (.table .dotted (← assign value (next :: rest) inner)) entries
      | some (.table .passage inner) =>
          if rest.isEmpty then .error (.repeatedKey name)
          else return put name (.table .passage (← assign value (next :: rest) inner)) entries
      | some (.tables before last) =>
          if rest.isEmpty then .error (.repeatedKey name)
          else return put name (.tables before (← assign value (next :: rest) last)) entries
      | some (.table .header _) => .error (.repeatedKey name)
      | some (.value _) => .error (.noTable name)

/-- Changes the item that a header names; tables on the way that are missing are made. -/
def place (change : Option Item → Result Item) : (path : List String) → Entries → Result Entries
  | [], entries => .ok entries
  | [name], entries => do return put name (← change (get? name entries)) entries
  | name :: next :: rest, entries => do
      match get? name entries with
      | none => return put name (.table .passage (← place change (next :: rest) [])) entries
      | some (.table origin inner) =>
          return put name (.table origin (← place change (next :: rest) inner)) entries
      | some (.tables before last) =>
          return put name (.tables before (← place change (next :: rest) last)) entries
      | some (.value _) => .error (.noTable name)

def assignAll (pairs : List (List String × Value)) (entries : Entries) : Result Entries :=
  pairs.foldlM (fun entries (key, value) => assign value key entries) entries

end Entries

mutual

def Item.toValue : Item → Value
  | .value value => value
  | .table _ entries => .table (entriesOf entries)
  | .tables before last => .array (tablesOf before ++ [.table (entriesOf last)])

def entriesOf : List (String × Item) → List (String × Value)
  | [] => []
  | (name, item) :: rest => (name, item.toValue) :: entriesOf rest

def tablesOf : List (List (String × Item)) → List Value
  | [] => []
  | entries :: rest => .table (entriesOf entries) :: tablesOf rest

end

inductive Heading where
  /-- Nothing: the values belong to the document itself. -/
  | none
  | table (path : List String)
  /-- One more of several tables that share the header. -/
  | element (path : List String)
  deriving Repr

structure Section where
  heading : Heading
  values : List (List String × Value)
  deriving Repr

def tableOf (name : String) (values : List (List String × Value)) : Option Item → Result Item
  | none => do return .table .header (← Entries.assignAll values [])
  | some (.table .passage entries) => do
      return .table .header (← Entries.assignAll values entries)
  | some _ => .error (.repeatedKey name)

def elementOf (name : String) (values : List (List String × Value)) : Option Item → Result Item
  | none => do return .tables [] (← Entries.assignAll values [])
  | some (.tables before last) => do
      return .tables (before ++ [last]) (← Entries.assignAll values [])
  | some _ => .error (.repeatedKey name)

def Section.addTo (s : Section) (entries : Entries) : Result Entries :=
  match s.heading with
  | .none => entries.assignAll s.values
  | .table path => entries.place (tableOf (path.getLast?.getD "") s.values) path
  | .element path => entries.place (elementOf (path.getLast?.getD "") s.values) path

def document (sections : List Section) : Result Value := do
  let entries ← sections.foldlM (fun entries (s : Section) => s.addTo entries) []
  return .table (entriesOf entries)

end Rehearsal.Toml
