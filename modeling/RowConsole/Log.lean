/-!
# The Log

Notes about a run for whoever supervises it, apart from the console's own messages.
-/

namespace RowConsole

/-! ## Section 1: Levels -/

/-- How much a note matters. -/
inductive LogLevel where
  | trace | debug | info | warn | error
  deriving DecidableEq, Repr

namespace LogLevel

/-- The name of a level. -/
def name : LogLevel → String
  | .trace => "Trace"
  | .debug => "Debug"
  | .info => "Info"
  | .warn => "Warn"
  | .error => "Error"

/-- How a level is shown in front of a note, five characters wide. -/
def label : LogLevel → String
  | .trace => "TRACE"
  | .debug => "DEBUG"
  | .info => " INFO"
  | .warn => " WARN"
  | .error => "ERROR"

/-- The place of a level, the least important first. -/
def rank : LogLevel → Nat
  | .trace => 0
  | .debug => 1
  | .info => 2
  | .warn => 3
  | .error => 4

/-- The least level that is shown when verbosity was asked for a number of times. -/
def ofVerbosity : Nat → LogLevel
  | 0 => .warn
  | 1 => .info
  | 2 => .debug
  | _ => .trace

end LogLevel

/-! ## Section 2: Notes -/

/-- A note. -/
structure LogNote where
  level : LogLevel
  text : String
  deriving DecidableEq, Repr

/-- The hexadecimal digits of a number. -/
def hexText (n : Nat) : String :=
  String.ofList (Nat.toDigits 16 n)

/-- How a character of a note is shown: control characters that a terminal might obey are spelled out. -/
def showNoteChar (c : Char) : String :=
  if c = '\x1b' || c = '\x07' || c = '\x08' || c = '\x0c' || c = '\x7f' then
    (if c.toNat < 0x10 then "\\x0" else "\\x") ++ hexText c.toNat
  else if 0x80 ≤ c.toNat && c.toNat ≤ 0x9f then "\\u\x7b" ++ hexText c.toNat ++ "\x7d"
  else String.singleton c

/-- The line of a note. -/
def LogNote.line (note : LogNote) : String :=
  note.level.label ++ " " ++ String.join (note.text.toList.map showNoteChar) ++ "\n"

/-- The lines of the notes that matter enough. -/
def logText (least : LogLevel) (notes : List LogNote) : String :=
  String.join ((notes.filter fun note => least.rank ≤ note.level.rank).map LogNote.line)

end RowConsole
