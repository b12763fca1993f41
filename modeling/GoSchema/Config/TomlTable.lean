/-
# Tables of a TOML document

Tables are defined by headers and by keys with dots. A table that only a header of a table inside it
has called for may still get a header of its own; a table that keys with dots have made may get
further such keys; apart from that, no table is defined twice and no key is given twice.

Key definitions: `Toml.Node`, `Toml.insert`, `Toml.insertAt`, `Toml.defineTable`,
`Toml.appendTable`, `Toml.Node.toDatum`.
-/
import GoSchema.Config.Datum

namespace GoSchema.Toml

/-- How a table came to be. -/
inductive Origin
  /-- Some table inside it has a header. -/
  | implied
  /-- It has a header. -/
  | header
  /-- Keys with dots lead through it. -/
  | dotted
  deriving DecidableEq, Repr

/-- What a key stands for. -/
inductive Node
  | value (d : Datum)
  | table (origin : Origin) (entries : List (String × Node))
  /-- A list of tables with a header each. -/
  | tables (items : List (List (String × Node)))
  deriving Repr, Inhabited

/-- The entries of a table. -/
abbrev Entries : Type := List (String × Node)

/-- The entries with one entry replaced or added at the end. -/
def put (key : String) (node : Node) : Entries → Entries
  | [] => [(key, node)]
  | (k, old) :: rest => if k = key then (k, node) :: rest else (k, old) :: put key node rest

/-- The last item of a list and those before it. -/
def unsnoc? {α : Type} (xs : List α) : Option (List α × α) :=
  xs.getLast?.map fun last => (xs.dropLast, last)

/-- Gives a value to the key `last` in the table that the keys `path` lead to. -/
def insert (last : String) (d : Datum) : (path : List String) → Entries → Option Entries
  | [], entries =>
    match entries.lookup last with
    | none => some (put last (.value d) entries)
    | some _ => none
  | key :: path, entries =>
    match entries.lookup key with
    | none => (insert last d path []).map fun es => put key (.table .dotted es) entries
    | some (.table origin es) =>
      if origin = .header || (path.isEmpty && origin ≠ .dotted) then none
      else (insert last d path es).map fun es => put key (.table origin es) entries
    | some (.tables items) =>
      if path.isEmpty then none
      else
        (unsnoc? items).bind fun (before, es) =>
          (insert last d path es).map fun es => put key (.tables (before ++ [es])) entries
    | some (.value _) => none

/-- Changes the table that the keys of a header lead to; a list of tables leads to its last one. -/
def changeAt (change : Entries → Option Entries) : (path : List String) → Entries → Option Entries
  | [], entries => change entries
  | key :: path, entries =>
    match entries.lookup key with
    | none => (changeAt change path []).map fun es => put key (.table .implied es) entries
    | some (.table origin es) =>
      (changeAt change path es).map fun es => put key (.table origin es) entries
    | some (.tables items) =>
      (unsnoc? items).bind fun (before, es) =>
        (changeAt change path es).map fun es => put key (.tables (before ++ [es])) entries
    | some (.value _) => none

/-- Gives a value to a key with dots in the table under a header. -/
def insertAt (header path : List String) (last : String) (d : Datum) :
    Entries → Option Entries :=
  changeAt (insert last d path) header

/-- Takes the header of a table. -/
def defineTable (path : List String) (last : String) : Entries → Option Entries :=
  changeAt (fun entries =>
    match entries.lookup last with
    | none => some (put last (.table .header []) entries)
    | some (.table .implied es) => some (put last (.table .header es) entries)
    | some _ => none) path

/-- Takes the header of one more table of a list. -/
def appendTable (path : List String) (last : String) : Entries → Option Entries :=
  changeAt (fun entries =>
    match entries.lookup last with
    | none => some (put last (.tables [[]]) entries)
    | some (.tables items) => some (put last (.tables (items ++ [[]])) entries)
    | some _ => none) path

mutual

/-- The value that a node stands for. -/
def Node.toDatum : Node → Datum
  | .value d => d
  | .table _ entries => .table (entriesToData entries)
  | .tables items => .list (tablesToData items)

/-- The values of a table. -/
def entriesToData : List (String × Node) → List (String × Datum)
  | [] => []
  | (key, node) :: rest => (key, node.toDatum) :: entriesToData rest

/-- The values of a list of tables. -/
def tablesToData : List (List (String × Node)) → List Datum
  | [] => []
  | entries :: rest => .table (entriesToData entries) :: tablesToData rest

end

end GoSchema.Toml
