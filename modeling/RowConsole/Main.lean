import RowConsole.Launch.Start

/-!
# The Program

Input and output around the library: the environment and the files are read, the terminal is served line by
line, and the history is written at the end.
-/

open RowConsole

namespace RowConsole.Program

/-- What a failure of the system means for a file. -/
def fileFault : IO.Error → FileFault
  | .noFileOrDirectory _ _ _ => .notFound
  | e => .other (toString e)

/-- Reads a file. -/
def readFile (path : String) : IO (Except FileFault String) := do
  try
    return .ok (← IO.FS.readFile path)
  catch e => return .error (fileFault e)

/-- Writes a file; the failure, if there is one. -/
def writeFile (path content : String) : IO (Option FileFault) := do
  try
    IO.FS.writeFile path content
    return none
  catch e => return some (fileFault e)

/-- Writes to both output channels. -/
def emit (w : Launch.Written) : IO Unit := do
  let output ← IO.getStdout
  output.putStr w.output
  output.flush
  let errors ← IO.getStderr
  errors.putStr w.errors
  errors.flush

/-- Reads a line. -/
def readEvent (input : IO.FS.Stream) : IO Session.ReadEvent := do
  try
    return (Launch.Dialogue.typedLines (← input.getLine)).headD .endOfInput
  catch e => return .failed (toString e)

/-- Holds a dialogue until it is over. -/
partial def hold (input : IO.FS.Stream) (d : Launch.Dialogue) : IO Launch.Dialogue := do
  if d.isOver then return d
  match d.feed (← readEvent input) with
  | none => return d
  | some (written, d) =>
    emit written
    hold input d

/-- The environment that decides about places. -/
def environment : IO Environment := do
  return ⟨← IO.getEnv "HOME", ← IO.getEnv "USERPROFILE", ← IO.getEnv "XDG_CONFIG_HOME",
    ← IO.getEnv "APPDATA"⟩

/-- Runs the program with its arguments. -/
def run (arguments : List String) : IO UInt32 := do
  match ← Launch.start readFile (← environment) arguments with
  | none => return 1
  | some (.finished report) =>
    emit report.written
    return report.exitCode.toUInt32
  | some (.dialogue before d) =>
    let (greeting, d) := d.start
    emit (before ++ greeting)
    let d ← hold (← IO.getStdin) d
    let failure ← match d.historyFile? with
      | some (path, content) => writeFile path content
      | none => pure none
    emit (d.finish failure)
    return 0

end RowConsole.Program

/-- The entry point. -/
def main (arguments : List String) : IO UInt32 :=
  RowConsole.Program.run arguments
