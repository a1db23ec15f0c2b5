import RowConsole.Log

/-!
# What a Run Writes

The text on the two output channels, and the failures that keep a session from starting.
-/

namespace RowConsole.Launch

/-! ## Section 1: Channels -/

/-- Text for the standard output and for the error output. -/
structure Written where
  output : String := ""
  errors : String := ""

namespace Written

/-- One text after the other, on each channel. -/
def append (a b : Written) : Written :=
  ⟨a.output ++ b.output, a.errors ++ b.errors⟩

instance : Append Written := ⟨append⟩

/-- Text on the standard output. -/
def ofOutput (text : String) : Written := { output := text }

/-- Text on the error output. -/
def ofErrors (text : String) : Written := { errors := text }

end Written

/-- A finished run: its exit code and what it has written. -/
structure Report where
  exitCode : Nat := 0
  written : Written

/-! ## Section 2: Failures -/

/-- A failure with what was being done, and the reasons behind it, the nearest first. -/
structure Failure where
  context : String
  reasons : List String := []

/-- A reason, indented. With several reasons each has its number, and its further lines are indented beyond
it. -/
def indentReason (number : Option Nat) (reason : String) : String :=
  let first := match number with
    | some n => "    " ++ toString n ++ ": "
    | none => "    "
  let further := match number with
    | some _ => "\n       "
    | none => "\n    "
  first ++ further.intercalate (reason.splitToList (· == '\n'))

namespace Failure

/-- The text of a failure. -/
def text (f : Failure) : String :=
  let reasons := match f.reasons with
    | [] => ""
    | [reason] => "\n\nCaused by:\n" ++ indentReason none reason
    | reasons =>
      "\n\nCaused by:" ++ String.join (reasons.zipIdx.map fun (reason, n) =>
        "\n" ++ indentReason (some n) reason)
  "Error: " ++ f.context ++ reasons ++ "\n"

/-- The report of a run that ends with a failure. -/
def report (f : Failure) (written : Written) : Report :=
  ⟨1, written ++ Written.ofErrors f.text⟩

end Failure

end RowConsole.Launch
