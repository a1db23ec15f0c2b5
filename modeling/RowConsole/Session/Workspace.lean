import RowConsole.Session.Context
import RowConsole.Session.Engine
import RowConsole.Session.Fault

/-!
# The Workspace

An engine and the context that it works on. Every operation either completes or leaves the bindings and the
functions as they were.
-/

namespace RowConsole.Session

open Script (ScriptResult Value)

variable {ε : Type} [Engine ε]

/-- An engine together with the context of a session. -/
structure Workspace (ε : Type) where
  engine : ε
  context : Context

namespace Workspace

/-! ## Section 1: Running Code -/

/-- Runs code on the bindings. They are copied first, and the copy is put back if the code fails, which may
have written some of them by then. -/
def runAtomic (w : Workspace ε) (code : String) : Option (ScriptResult Value × Workspace ε) :=
  let snapshot := w.context.bindings
  match Engine.evaluate w.engine code snapshot with
  | none => none
  | some (result, bindings, engine) =>
    let written : Context := { w.context with bindings := bindings }
    match result with
    | .error e => some (.error e, ⟨engine, { written with bindings := snapshot }⟩)
    | .ok v => some (.ok v, ⟨engine, written⟩)

/-- Evaluates an expression or a script. -/
def evaluate (w : Workspace ε) (code : String) : Option (Outcome Value × Workspace ε) :=
  match w.runAtomic code with
  | none => none
  | some (.error e, w) => some (.error (.evaluation e), w)
  | some (.ok v, w) => some (.ok v, w)

/-- Runs a statement that binds a name and reads the name back, so that further statements in the same text
cannot change which value is reported. -/
def bindStatement (w : Workspace ε) (name statement : String) :
    Option (ScriptResult Value × Workspace ε) :=
  match w.runAtomic statement with
  | none => none
  | some (.error e, w) => some (.error e, w)
  | some (.ok _, w) => some (.ok ((w.context.bindings.get? name).getD .null), w)

/-- Evaluates an expression and declares a name with its value. -/
def declareVariable (w : Workspace ε) (name expr : String) :
    Option (Outcome Value × Workspace ε) :=
  match checkName name with
  | .error e => some (.error (.binding e), w)
  | .ok () =>
    match w.bindStatement name ("def " ++ name ++ " = " ++ expr) with
    | none => none
    | some (.error e, w) => some (.error (.declaration name e), w)
    | some (.ok v, w) => some (.ok v, w)

/-- Evaluates an expression and assigns its value to a name. -/
def assign (w : Workspace ε) (name expr : String) : Option (Outcome Value × Workspace ε) :=
  match checkName name with
  | .error e => some (.error (.binding e), w)
  | .ok () =>
    match w.bindStatement name (name ++ " = " ++ expr) with
    | none => none
    | some (.error e, w) => some (.error (.evaluation e), w)
    | some (.ok v, w) => some (.ok v, w)

/-! ## Section 2: Defining Functions -/

/-- Compiles a function, binds it and registers it with its source. -/
def declareFunction (w : Workspace ε) (name source : String) : Outcome Unit × Workspace ε :=
  match checkName name with
  | .error e => (.error (.binding e), w)
  | .ok () =>
    match Engine.compileFunction w.engine name source with
    | (.error e, engine) => (.error (.functionDefinition e), { w with engine := engine })
    | (.ok handle, engine) =>
      match w.context.bindings.set name handle with
      | .error e => (.error (.binding e), { w with engine := engine })
      | .ok bindings =>
        let functions := Functions.register w.context.functions ⟨name, source, handle⟩
        (.ok (), ⟨engine, { w.context with bindings := bindings, functions := functions }⟩)

/-- The source under which a script is registered: the trimmed body if it starts like a definition of the
name, and otherwise a definition around it. -/
def scriptSource (name body : String) : String :=
  let trimmed := Text.trim body
  if Text.startsWith ("def " ++ name).toList trimmed.toList then trimmed
  else Script.wrapBody name trimmed

/-- Registers a function from a script body. -/
def registerScript (w : Workspace ε) (name body : String) : Outcome Unit × Workspace ε :=
  w.declareFunction name (scriptSource name body)

/-! ## Section 3: Values from Outside -/

omit [Engine ε] in
/-- Binds a value from outside the session. -/
def setVariable (w : Workspace ε) (name : String) (v : Value) : Outcome Unit × Workspace ε :=
  match w.context.bindings.set name v with
  | .error e => (.error (.binding e), w)
  | .ok bindings => (.ok (), { w with context := { w.context with bindings := bindings } })

/-- A structural dump of what a name is bound to; none if it is unbound or bound to null. -/
def inspect (w : Workspace ε) (name : String) : Outcome (Option String) :=
  match w.context.bindings.get? name with
  | none | some .null => .ok none
  | some v =>
    match Engine.inspect w.engine v with
    | .ok dump => .ok (some dump)
    | .error e => .error (.inspect name e)

/-- The name of the data source. -/
def dataSourceName : String := "db"

/-- The tables of the data source; none if no data source is bound. -/
def tables (w : Workspace ε) : Outcome (Option (List String)) :=
  match w.context.bindings.get? dataSourceName with
  | none | some .null => .ok none
  | some v =>
    match Engine.listTables w.engine v with
    | .ok names => .ok (some names)
    | .error e => .error (.tables e)

end Workspace

end RowConsole.Session
