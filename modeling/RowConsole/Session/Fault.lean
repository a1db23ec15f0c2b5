import RowConsole.Script.Error
import RowConsole.Session.Bindings

/-!
# Session Faults

What can go wrong while a session handles its input. Every fault but a failure of input or output is
reported, and the session carries on.
-/

namespace RowConsole.Session

open Script (ScriptError)

/-- A failure of a session. -/
inductive Fault where
  /-- An expression or an assignment failed. -/
  | evaluation (e : ScriptError)
  /-- The initial value of a declaration failed. -/
  | declaration (name : String) (e : ScriptError)
  | functionDefinition (e : ScriptError)
  | binding (e : BindingError)
  | unknownCommand (command : String)
  /-- A command lacks its argument. -/
  | usage (form : String)
  | inspect (name : String) (e : ScriptError)
  | tables (e : ScriptError)
  | io (message : String)
  deriving DecidableEq, Repr

namespace Fault

/-- The name of a fault. -/
def name : Fault → String
  | .evaluation _ => "Evaluation"
  | .declaration _ _ => "Declaration"
  | .functionDefinition _ => "FunctionDefinition"
  | .binding _ => "Binding"
  | .unknownCommand _ => "UnknownCommand"
  | .usage _ => "Usage"
  | .inspect _ _ => "Inspect"
  | .tables _ => "Tables"
  | .io _ => "Io"

/-- What the user is told. -/
def message : Fault → String
  | .evaluation e => "Error evaluating expression: " ++ e.message
  | .declaration name e => "Error declaring variable '" ++ name ++ "': " ++ e.message
  | .functionDefinition e => "Error defining function: " ++ e.message
  | .binding e => e.message
  | .unknownCommand command => "Unknown command: " ++ command
  | .usage form => "Usage: " ++ form
  | .inspect name e => "Cannot inspect '" ++ name ++ "': " ++ e.message
  | .tables e => "Error listing tables: " ++ e.message
  | .io message => "IO error: " ++ message

/-- The failure of a script behind a fault. -/
def script? : Fault → Option ScriptError
  | .evaluation e | .declaration _ e | .functionDefinition e | .inspect _ e | .tables e => some e
  | .binding _ | .unknownCommand _ | .usage _ | .io _ => none

/-- The diagnostic of the failure of a script behind a fault. -/
def diagnostic? (f : Fault) : Option String :=
  f.script?.map ScriptError.diagnostic

/-- Whether a fault ends the session. -/
def isFatal : Fault → Bool
  | .io _ => true
  | _ => false

end Fault

/-- A result of a session that may be a fault. -/
abbrev Outcome (α : Type) := Except Fault α

end RowConsole.Session
