import RowConsole.Toml.Basic

/-!
# Building Tables

How lines add to tables: every key is given once, a header or a pair of braces defines a table once, and a
dotted key may pass only through tables that other dotted keys or longer headers brought about.
-/

namespace RowConsole.Toml

/-- The entries of a table. -/
abbrev Entries := OrderedMap Toml

/-- A value at the end of a path of keys. -/
structure Entry where
  path : List String
  key : String
  value : Toml

/-! ## Section 1: Changing a Table along a Path -/

/-- Changes the table at the end of a path. Missing tables are made on the way; `dotted` tells whether the path
is that of a dotted key or of a header. Of tables under a doubled header the last is meant. -/
def changeAt (dotted : Bool) (change : Origin → Entries → Option Entries) :
    List String → Origin → Entries → Option Entries
  | [], origin, entries => change origin entries
  | key :: path, _, entries =>
    match OrderedMap.get? entries key with
    | none =>
      let origin := if dotted then .dotted else .implied
      (changeAt dotted change path origin []).map fun inner =>
        OrderedMap.insert entries key (.table origin inner)
    | some (.table origin inner) =>
      if origin = .closed || (dotted && origin = .header) then none
      else
        (changeAt dotted change path origin inner).map fun inner =>
          OrderedMap.insert entries key (.table origin inner)
    | some (.tables elements) =>
      match elements.getLast? with
      | none => none
      | some last =>
        (changeAt dotted change path .header last).map fun inner =>
          OrderedMap.insert entries key (.tables (elements.dropLast ++ [inner]))
    | some _ => none

/-- Adds an entry to a table with a header or in braces. -/
def addEntry (entries : Entries) (e : Entry) : Option Entries :=
  changeAt true
    (fun origin inner =>
      if (origin = .dotted) = (e.path = []) || OrderedMap.contains inner e.key then none
      else some (OrderedMap.insert inner e.key e.value))
    e.path .header entries

/-- A table in braces. -/
def closedTable (entries : List Entry) : Option Toml :=
  (entries.foldlM addEntry []).map (.table .closed)

/-! ## Section 2: Sections -/

/-- A header, with single or double brackets, and the entries below it. -/
structure Block where
  doubled : Bool
  path : List String
  name : String
  entries : List Entry

/-- Adds the table of a block to the document. -/
def addBlock (root : Entries) (b : Block) : Option Entries :=
  changeAt false
    (fun _ outer =>
      match OrderedMap.get? outer b.name, b.doubled with
      | none, true =>
        (b.entries.foldlM addEntry []).map fun t => OrderedMap.insert outer b.name (.tables [t])
      | some (.tables elements), true =>
        (b.entries.foldlM addEntry []).map fun t =>
          OrderedMap.insert outer b.name (.tables (elements ++ [t]))
      | none, false =>
        (b.entries.foldlM addEntry []).map fun t =>
          OrderedMap.insert outer b.name (.table .header t)
      | some (.table .implied inner), false =>
        (b.entries.foldlM addEntry inner).map fun t =>
          OrderedMap.insert outer b.name (.table .header t)
      | _, _ => none)
    b.path .header root

/-- The document of the entries before the first header and the blocks. -/
def document (entries : List Entry) (blocks : List Block) : Option Entries := do
  blocks.foldlM addBlock (← entries.foldlM addEntry [])

end RowConsole.Toml
