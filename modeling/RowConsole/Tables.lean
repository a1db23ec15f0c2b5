import RowConsole.Files
import RowConsole.Json.Reader
import RowConsole.Session.Loop

/-!
# Tables

Row sets named on the command line: each is a variable name and a file that holds a JSON document. All are
read before the session starts. Each is bound to its own name and all of them, by name, to the name of the
data source.
-/

namespace RowConsole.Tables

open Script (Value)
open Session (Outcome)

/-! ## Section 1: Sources -/

/-- Where a table comes from. -/
structure Source where
  name : String
  path : String
  deriving DecidableEq, Repr

/-- Why a text does not describe a source. -/
inductive SourceError where
  | form (text : String)
  | badName (name : String)
  /-- The name is that of the data source. -/
  | dataSource (name : String)
  deriving DecidableEq, Repr

/-- What the user is told about a text that does not describe a source. -/
def SourceError.message : SourceError → String
  | .form text => "Expected NAME=FILE, got '" ++ text ++ "'"
  | .badName name => "'" ++ name ++ "' is not a valid variable name"
  | .dataSource name => "'" ++ name ++ "' is reserved for the map of all loaded tables"

/-- Reads `NAME=FILE`, cut at the first equals sign. Blanks around the name are dropped. -/
def Source.parse (text : String) : Except SourceError Source :=
  let cs := text.toList
  match cs.dropWhile (· ≠ '=') with
  | [] | [_] => .error (.form text)
  | _ :: path =>
    let name := String.ofList (Text.trimChars (cs.takeWhile (· ≠ '=')))
    match Session.checkName name with
    | .error _ => .error (.badName name)
    | .ok () =>
      if name = Session.Workspace.dataSourceName then .error (.dataSource name)
      else .ok ⟨name, String.ofList path⟩

/-! ## Section 2: Reading -/

/-- Why a table was not read. -/
inductive LoadError where
  | unreadable (path : String) (fault : FileFault)
  | notJson (path : String)
  deriving DecidableEq, Repr

/-- What the user is told about a table that was not read, and the reasons behind it. -/
def LoadError.messages : LoadError → List String
  | .unreadable path fault => ["Cannot read " ++ path ++ ": " ++ fault.message, fault.message]
  | .notJson path => ["Invalid JSON in " ++ path]

/-- The table in the content of a file. -/
def ofContent (path : String) : Except FileFault String → Except LoadError Value
  | .error fault => .error (.unreadable path fault)
  | .ok text =>
    match Json.read? text with
    | some document => .ok document.toValue
    | none => .error (.notJson path)

/-- Reads tables in order up to the first failure: what was read, and the failure. -/
def readAll {m : Type → Type} [Monad m] (read : String → m (Except FileFault String)) :
    List Source → m (List (Source × Value) × Option LoadError)
  | [] => return ([], none)
  | source :: rest => do
    match ofContent source.path (← read source.path) with
    | .error e => return ([], some e)
    | .ok table =>
      let (others, failure) ← readAll read rest
      return ((source, table) :: others, failure)

/-- The tables by name. Of several with one name the last counts, at the place of the first. -/
def byName (tables : List (Source × Value)) : OrderedMap Value :=
  OrderedMap.ofEntries (tables.map fun (source, table) => (source.name, table))

/-! ## Section 3: Binding -/

variable {ε : Type}

/-- Binds values to their names, up to the first that is refused. -/
def bindEach (s : Session ε) :
    List (String × Value) → Outcome Unit × Session ε
  | [] => (.ok (), s)
  | (name, v) :: rest =>
    match s.setVariable name v with
    | (.error f, s) => (.error f, s)
    | (.ok (), s) => bindEach s rest

/-- Binds each table to its name and then the map of all tables; without tables nothing is bound. -/
def seed (s : Session ε) (tables : OrderedMap Value) :
    Outcome Unit × Session ε :=
  if tables.isEmpty then (.ok (), s)
  else bindEach s (tables ++ [(Session.Workspace.dataSourceName, .map tables)])

end RowConsole.Tables
