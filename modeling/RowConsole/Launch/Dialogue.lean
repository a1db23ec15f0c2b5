import RowConsole.Files
import RowConsole.History
import RowConsole.Launch.Display
import RowConsole.Launch.Report
import RowConsole.Session.Loop
import RowConsole.Text.Backspace

/-!
# Dialogues

A session on a terminal: what the terminal is sent for each line that is read, and what remains of the session
when it is over.
-/

namespace RowConsole.Launch

open Script (Runtime)
open Session (ReadEvent)

/-- A session on a terminal. -/
structure Dialogue where
  session : Session Runtime
  /-- The history before the session. -/
  history : History
  historyPath : Option String
  colors : Bool
  logLevel : LogLevel

namespace Dialogue

/-! ## Section 1: Showing -/

/-- The notes that are shown at the dialogue's level. -/
def note (d : Dialogue) (level : LogLevel) (text : String) : Written :=
  .ofErrors (logText d.logLevel [⟨level, text⟩])

/-- Sends what the scripts have written and what the console has recorded since. -/
def flush (colors : Bool) (s : Session Runtime) : Written × Session Runtime :=
  let (output, engine) := s.workspace.engine.takeOutput
  (.ofOutput (output ++ showConsole colors s.console),
    { s with workspace := { s.workspace with engine := engine }, console := .empty })

/-- Whether the session has ended. -/
def isOver (d : Dialogue) : Bool :=
  d.session.phase = .exited

/-- Shows what happened and, unless the session has ended, the prompt for the next line. -/
def proceed (d : Dialogue) : Written × Dialogue :=
  let (written, s) := flush d.colors d.session
  if s.phase = .exited then (written, { d with session := s })
  else (written ++ .ofOutput s.prompt, { d with session := s.beginRead })

/-! ## Section 2: Steps -/

/-- Greets the user and shows the first prompt. -/
def start (d : Dialogue) : Written × Dialogue :=
  let (written, d) := { d with session := d.session.greet }.proceed
  (d.note .info "session started" ++ written, d)

/-- Handles what was read. -/
def feed (d : Dialogue) (e : ReadEvent) : Option (Written × Dialogue) :=
  match d.session.receive e with
  | none => none
  | some s =>
    let noted := match e with
      | .failed message => d.note .warn ("line input failed: " ++ message)
      | .line _ | .interrupted | .endOfInput => {}
    let (written, d) := { d with session := s }.proceed
    some (noted ++ written, d)

/-- The lines of an input as they are left after their backspaces. -/
def typedLines (input : String) : List ReadEvent :=
  (Text.lines input).map fun line => .line (Text.applyBackspaces line)

/-- Handles events in order until the session has ended; behind the last event the input ends. -/
def feedAll (d : Dialogue) (events : List ReadEvent) : Option (Written × Dialogue) :=
  if d.isOver then some ({}, d)
  else
    match events with
    | [] => d.feed .endOfInput
    | e :: rest =>
      match d.feed e with
      | none => none
      | some (written, d) => (d.feedAll rest).map fun (more, d) => (written ++ more, d)

/-! ## Section 3: The End -/

/-- The path and the content of the history file, if it has to be written. -/
def historyFile? (d : Dialogue) : Option (String × String) :=
  match d.historyPath with
  | none => none
  | some path =>
    let history := d.session.reader.history.foldl History.add d.history
    if history.changed then some (path, history.fileText) else none

/-- The notes at the end, where `failure` tells why the history file could not be written. -/
def finish (d : Dialogue) (failure : Option FileFault) : Written :=
  let warning := match failure with
    | some fault => d.note .warn ("Failed to save history: " ++ fault.message)
    | none => {}
  warning ++ d.note .info "session ended"

end Dialogue

end RowConsole.Launch
