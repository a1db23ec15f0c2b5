import RowConsole.Session.Console
import RowConsole.Session.Workspace

/-!
# Commands

The commands behind a colon. They tell about the session and change nothing of it but the debug flag.
-/

namespace RowConsole.Session

variable {ε : Type} [Engine ε]

/-! ## Section 1: Names and Help -/

/-- The commands. -/
inductive Command where
  | help | functions | vars | inspect | tables | clear | debug
  deriving DecidableEq, Repr

/-- Every command. -/
def Command.all : List Command :=
  [.help, .functions, .vars, .inspect, .tables, .clear, .debug]

/-- The name of a command, without the colon. -/
def Command.name : Command → String
  | .help => "help"
  | .functions => "functions"
  | .vars => "vars"
  | .inspect => "inspect"
  | .tables => "tables"
  | .clear => "clear"
  | .debug => "debug"

/-- The command of a name in any mixture of small and capital letters. -/
def Command.ofName? (name : String) : Option Command :=
  Command.all.find? fun c => Text.equalIgnoringAsciiCase c.name name

/-- The help text. -/
def helpText : String :=
  "\n".intercalate
    ["Available commands:",
     "  :help           - Show this help and usage examples",
     "  :functions      - List registered functions",
     "  :vars           - List defined variables",
     "  :inspect <name> - Inspect a variable or database object",
     "  :tables         - List available database tables",
     "  :clear          - Clear the screen",
     "  :debug          - Toggle debug mode",
     "  exit/quit       - Exit the REPL",
     "",
     "Examples:",
     "  def x = 10",
     "  var y = 20",
     "  x = 30  (Python-style assignment)",
     "  def myFunction() \x7b println 'Hello' \x7d",
     "  rows.filter \x7b r -> r.age > 30 \x7d.map \x7b it.name \x7d",
     "",
     "Any other input will be evaluated as a script."]

/-! ## Section 2: Execution -/

/-- What a listing of names looks like: a note if there are none, and otherwise a title and the names. -/
def listing (console : Console) (none title : String) (names : List String) : Console :=
  if names.isEmpty then console.line none else (console.line title).eachLine names

/-- Executes a command. -/
def Command.execute (w : Workspace ε) (console : Console) (command : Command) (args : String) :
    Outcome (Context × Console) :=
  let ctx := w.context
  match command with
  | .help => .ok (ctx, console.line helpText)
  | .functions =>
    .ok (ctx, listing console "No functions registered" "Registered functions:"
      (ctx.functions.keys.map fun name => "  " ++ name ++ "()"))
  | .vars =>
    .ok (ctx, listing console "No variables registered" "Defined variables:"
      (ctx.bindings.userNames.map fun name => "  " ++ name))
  | .inspect =>
    match Text.words args with
    | [] => .error (.usage ":inspect <variable-name>")
    | name :: _ =>
      match w.inspect name with
      | .error f => .error f
      | .ok (some dump) => .ok (ctx, console.line dump)
      | .ok none => .ok (ctx, console.line ("Variable '" ++ name ++ "' is null"))
  | .tables =>
    match w.tables with
    | .error f => .error f
    | .ok none => .ok (ctx, console.line "No database connection available")
    | .ok (some []) => .ok (ctx, console.line "No tables found")
    | .ok (some names) => .ok (ctx, console.eachLine (names.map fun name => "  " ++ name))
  | .clear => .ok (ctx, console.clear)
  | .debug =>
    let ctx := ctx.toggleDebug
    let state := if ctx.debug then "enabled" else "disabled"
    .ok (ctx, console.line ("Debug mode " ++ state))

/-- Handles a command by its name. Faults are reported; an unknown command is answered with the help text. -/
def dispatchCommand (w : Workspace ε) (console : Console) (name args : String) :
    Context × Console :=
  match Command.ofName? name with
  | none =>
    let console := console.report (.unknownCommand (":" ++ name)) w.context.debug
    (w.context, console.line helpText)
  | some command =>
    match command.execute w console args with
    | .ok result => result
    | .error f => (w.context, console.report f w.context.debug)

end RowConsole.Session
