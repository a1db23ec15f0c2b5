import RowConsole.Session.Loop
import RowConsole.Toml.Reader

/-!
# Settings

What a user can set in a file: how the console looks and behaves, and the functions that are registered when
it starts. Everything has a default, and entries that mean nothing here are ignored.
-/

namespace RowConsole

/-- The settings. -/
structure Settings where
  prompts : Session.Prompts := {}
  historySize : Nat := 1000
  historyFile : Option String := none
  viMode : Bool := false
  colors : Bool := true
  debug : Bool := false
  /-- Names and bodies, by name in ascending order. -/
  functions : List (String × String) := [("welcome", "println('Welcome to rowscope!')")]

namespace Settings

open Toml (Entries)

/-! ## Section 1: Single Entries -/

/-- An entry that may be missing, and has to be of the right type otherwise. -/
def optionalEntry {α : Type} (read : Toml → Option α) (entries : Entries) (key : String) :
    Option (Option α) :=
  match OrderedMap.get? entries key with
  | none => some none
  | some v => (read v).map some

/-- A text. -/
def text? : Toml → Option String
  | .string s => some s
  | _ => none

/-- A truth value. -/
def flag? : Toml → Option Bool
  | .boolean b => some b
  | _ => none

/-- A count. -/
def count? : Toml → Option Nat
  | .integer n => if n.toInt < 0 then none else some n.toInt.toNat
  | _ => none

/-! ## Section 2: Tables -/

/-- The keys of the console's table, in the order in which an array lists their values. -/
def consoleKeys : List String :=
  ["history_size", "history_file", "prompt", "continuation_prompt", "vi_mode", "colors", "debug"]

/-- The entries of the console's table. An array gives the first of them by position, and a date has none
of them. -/
def consoleEntries? : Toml → Option Entries
  | .table _ entries => some entries
  | .array items => some (consoleKeys.zip items)
  | .datetime _ => some []
  | .tables elements => some (consoleKeys.zip (elements.map (.table .header)))
  | .string _ | .integer _ | .float _ | .boolean _ => none

/-- The key under which a date passes for a table with a single entry. -/
def datetimeKey : String := "$__toml_private_datetime"

/-- Functions by name: a table of texts. -/
def functions? : Toml → Option (List (String × String))
  | .table _ entries =>
    (entries.mapM fun (entry : String × Toml) =>
        (text? entry.2).map fun body => (entry.1, body)).map fun functions =>
      functions.mergeSort fun a b => decide (a.1 ≤ b.1)
  | .datetime text => some [(datetimeKey, text)]
  | .string _ | .integer _ | .float _ | .boolean _ | .array _ | .tables _ => none

/-- The settings in a document. -/
def ofDocument? (root : Entries) : Option Settings := do
  let console := (← optionalEntry consoleEntries? root "repl").getD []
  let size ← optionalEntry count? console "history_size"
  let file ← optionalEntry text? console "history_file"
  let prompt ← optionalEntry text? console "prompt"
  let continuation ← optionalEntry text? console "continuation_prompt"
  let viMode ← optionalEntry flag? console "vi_mode"
  let colors ← optionalEntry flag? console "colors"
  let debug ← optionalEntry flag? console "debug"
  let functions ← optionalEntry functions? root "functions"
  let default : Settings := {}
  return {
    prompts := ⟨prompt.getD default.prompts.start,
      continuation.getD default.prompts.continuation⟩
    historySize := size.getD default.historySize
    historyFile := file
    viMode := viMode.getD default.viMode
    colors := colors.getD default.colors
    debug := debug.getD default.debug
    functions := functions.getD default.functions }

/-- The settings in a text. -/
def read? (text : String) : Option Settings :=
  (Toml.read? text).bind ofDocument?

end Settings

end RowConsole
