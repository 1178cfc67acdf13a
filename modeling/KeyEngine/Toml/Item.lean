import KeyEngine.Document

/-!
# Tables in TOML

The lines of a TOML text add to tables that earlier lines started, within limits: a header names a
table once, tables that keys with points made cannot be named by a header, a value cannot be replaced,
and what stands between brackets is complete. So a table remembers how it came to be.
-/

namespace KeyEngine.Toml

/-- How a table came to be. -/
inductive Origin where
  /-- Its own header names it. -/
  | header
  /-- The header of a table inside of it names it. -/
  | outerHeader
  /-- A key with points names it. -/
  | points
deriving DecidableEq

/-- What a key stands for. -/
inductive Item where
  /-- A complete value. -/
  | value (document : Document)
  /-- A table that may grow. -/
  | table (origin : Origin) (entries : List (String × Item))
  /-- A list of tables, of which the last one may grow. -/
  | tables (front : List (List (String × Item))) (last : List (String × Item))

/-- What the keys of a table stand for. -/
abbrev Entries := List (String × Item)

mutual

/-- The value of an item. -/
def Item.document : Item → Document
  | .value document => document
  | .table _ entries => .table (entryDocuments entries)
  | .tables front last => .list (tableDocuments front ++ [.table (entryDocuments last)])

/-- The values of the entries of a table. -/
def entryDocuments : List (String × Item) → List (Option String × Document)
  | [] => []
  | (key, item) :: rest => (some key, item.document) :: entryDocuments rest

/-- The values of tables. -/
def tableDocuments : List (List (String × Item)) → List Document
  | [] => []
  | entries :: rest => .table (entryDocuments entries) :: tableDocuments rest

end

namespace Entries

/-- The table of some entries. -/
def document (entries : Entries) : Document := .table (entryDocuments entries)

/-- Puts an item under a key, in place of the one that was there. -/
def put (entries : Entries) (key : String) (item : Item) : Entries :=
  if entries.any (·.1 == key) then
    entries.map fun entry => if entry.1 == key then (key, item) else entry
  else entries ++ [(key, item)]

/-- Changes the table that the keys of a header lead to. Tables on the way that are missing are made;
a list of tables leads to its last one. -/
def within (path : List String) (change : Entries → Option Entries) (entries : Entries) :
    Option Entries :=
  match path with
  | [] => change entries
  | key :: path =>
    match entries.lookup key with
    | none => (within path change []).map fun inner => entries.put key (.table .outerHeader inner)
    | some (.table origin inner) =>
      (within path change inner).map fun inner => entries.put key (.table origin inner)
    | some (.tables front last) =>
      (within path change last).map fun last => entries.put key (.tables front last)
    | some (.value _) => none

/-- Starts a table by its header. -/
def startTable (key : String) (entries : Entries) : Option Entries :=
  match entries.lookup key with
  | none => some (entries.put key (.table .header []))
  | some (.table .outerHeader inner) => some (entries.put key (.table .header inner))
  | _ => none

/-- Starts the next table of a list by its header. -/
def startNext (key : String) (entries : Entries) : Option Entries :=
  match entries.lookup key with
  | none => some (entries.put key (.tables [] []))
  | some (.tables front last) => some (entries.put key (.tables (front ++ [last]) []))
  | _ => none

/-- Adds a value under a key that is not there yet. -/
def add (key : String) (value : Document) (entries : Entries) : Option Entries :=
  if entries.any (·.1 == key) then none else some (entries.put key (.value value))

/-- Adds a value under a key with points in front. The last table on the way must have come to be by
such a key, and none of the others by its own header. -/
def addAt (path : List String) (key : String) (value : Document) (entries : Entries) :
    Option Entries :=
  match path with
  | [] => entries.add key value
  | first :: path =>
    match entries.lookup first with
    | none => (addAt path key value []).map fun inner => entries.put first (.table .points inner)
    | some (.table origin inner) =>
      if origin = .header ∨ (path = [] ∧ origin ≠ .points) then none
      else (addAt path key value inner).map fun inner => entries.put first (.table origin inner)
    | some (.tables front last) =>
      if path = [] then none
      else (addAt path key value last).map fun last => entries.put first (.tables front last)
    | some (.value _) => none

end Entries

end KeyEngine.Toml
