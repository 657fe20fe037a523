import Workflow.Document.Basic

/-!
# Tables under construction

While a TOML text is read, its tables are built up key by key. A table remembers how it came about,
because that decides what may still be added to it: a table that a header names is complete at the
next header, a table that only lies on the way to another may still get a header of its own, and a
table that dotted keys make takes further dotted keys only.
-/
namespace Workflow.Toml

/-- How a table came about. -/
inductive TableOrigin where
  | header
  /-- It lies on the way to a table with a header. -/
  | passage
  | dotted
  deriving DecidableEq, Repr

/-- What a key stands for. -/
inductive Item where
  | value (d : Document)
  | table (origin : TableOrigin) (entries : List (String × Item))
  /-- A list of tables, the last of which takes what follows. -/
  | tables (earlier : List (List (String × Item))) (last : List (String × Item))

abbrev Entries := List (String × Item)

namespace Entries

/-- Replace the item of a key that is present. -/
def replace (entries : Entries) (key : String) (item : Item) : Entries :=
  entries.map fun e => if e.1 = key then (key, item) else e

/-- Follow a path to a table and change what is there. Tables that are missing on the way are made
with `origin`. The change sees how the table came about. Dotted keys do not enter tables that have a
header. -/
def enter? (origin : TableOrigin) (change : TableOrigin → Entries → Option Entries) :
    List String → TableOrigin → Entries → Option Entries
  | [], here, entries => change here entries
  | key :: rest, _, entries =>
    match entries.lookup key with
    | none => do
      let inner ← enter? origin change rest origin []
      return entries ++ [(key, .table origin inner)]
    | some (.value _) => none
    | some (.table there inner) =>
      if origin = .dotted ∧ there = .header then none
      else do
        let inner ← enter? origin change rest there inner
        return replace entries key (.table there inner)
    | some (.tables earlier last) => do
      let last ← enter? origin change rest .header last
      return replace entries key (.tables earlier last)

/-- Add a key that is not there yet. -/
def add? (entries : Entries) (key : String) (item : Item) : Option Entries :=
  if (entries.lookup key).isSome then none else some (entries ++ [(key, item)])

/-- Add a value under a dotted key. Only tables that dotted keys made take keys with a path. -/
def addDotted? (path : List String) (key : String) (d : Document) (here : TableOrigin)
    (entries : Entries) : Option Entries :=
  enter? .dotted (fun there inner =>
    if decide (there = .dotted) == path.isEmpty then none else inner.add? key (.value d))
    path here entries

def addUnder? (header path : List String) (key : String) (d : Document) (entries : Entries) :
    Option Entries :=
  enter? .passage (fun _ inner => addDotted? path key d .header inner) header .header entries

/-- Open the table of a header. -/
def openTable? (path : List String) (key : String) (entries : Entries) : Option Entries :=
  enter? .passage (fun _ inner =>
    match inner.lookup key with
    | none => some (inner ++ [(key, .table .header [])])
    | some (.table .passage es) => some (replace inner key (.table .header es))
    | some _ => none) path .header entries

/-- Open the next table of a list of tables. -/
def openNext? (path : List String) (key : String) (entries : Entries) : Option Entries :=
  enter? .passage (fun _ inner =>
    match inner.lookup key with
    | none => some (inner ++ [(key, .tables [] [])])
    | some (.tables earlier last) => some (replace inner key (.tables (earlier ++ [last]) []))
    | some _ => none) path .header entries

end Entries

mutual

def Item.document : Item → Document
  | .value d => d
  | .table _ entries => .mapping (entriesDocuments entries)
  | .tables earlier last =>
    .sequence (tablesDocuments earlier ++ [.mapping (entriesDocuments last)])

def entriesDocuments : List (String × Item) → List (Document × Document)
  | [] => []
  | e :: rest => entryDocuments e :: entriesDocuments rest

def entryDocuments : String × Item → Document × Document
  | (key, item) => (.text key, item.document)

def tablesDocuments : List (List (String × Item)) → List Document
  | [] => []
  | t :: rest => .mapping (entriesDocuments t) :: tablesDocuments rest

end

end Workflow.Toml
