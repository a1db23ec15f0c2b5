import RowConsole.Session.Command
import RowConsole.Text.Alphanumeric

/-!
# Completion

The words that can be completed, and the completions of the word before the cursor. Places in a line are
counted in bytes of its encoding.
-/

namespace RowConsole.Session

/-! ## Section 1: Candidates -/

/-- The words that are always candidates: the commands and the two exit words. -/
def fixedCandidates : List String :=
  Command.all.map (fun c => ":" ++ c.name) ++ ["exit", "quit"]

/-- All candidates for the current state, in ascending order and without repetitions. -/
def candidates (ctx : Context) : List String :=
  ((fixedCandidates ++ ctx.functions.keys ++ ctx.bindings.userNames).mergeSort
    fun a b => decide (a ≤ b)).eraseReps

/-! ## Section 2: The Word before the Cursor -/

/-- The number of bytes of a text. -/
def byteLength (cs : List Char) : Nat :=
  cs.foldl (fun n c => n + c.utf8Size) 0

/-- The part of a line that takes a number of bytes, if it ends between characters. -/
def takeBytes? : List Char → Nat → Option (List Char)
  | _, 0 => some []
  | [], _ + 1 => none
  | c :: rest, n + 1 =>
    if c.utf8Size ≤ n + 1 then (takeBytes? rest (n + 1 - c.utf8Size)).map (c :: ·) else none

/-- Whether a character belongs to a word that can be completed. -/
def isWordChar (c : Char) : Bool :=
  Text.isAlphanumeric c || c == '_' || c == ':'

/-- The start, in bytes, of the word before the cursor and the candidates that begin with it. A cursor behind
the end of the line or inside a character counts as being at the end. -/
def completeWord (line : String) (cursor : Nat) (candidates : List String) : Nat × List String :=
  let cs := line.toList
  let head := (takeBytes? cs cursor).getD cs
  let word := (head.reverse.takeWhile isWordChar).reverse
  let start := byteLength head - byteLength word
  if word.isEmpty then (start, [])
  else (start, candidates.filter fun c => Text.startsWith word c.toList)

end RowConsole.Session
