import RowConsole.Text.Cluster

/-!
# Backspaces

A line in which backspaces were typed: each of them takes back the grapheme cluster before it.
-/

namespace RowConsole.Text

/-- The text, given from its end, without its last `count` bytes. -/
def dropBytes (count : Nat) : List Char → List Char
  | [] => []
  | c :: before => if count = 0 then c :: before else dropBytes (count - c.utf8Size) before

/-- A line while it is typed: its text, reversed, and the sizes of the clusters that can be taken back, the
last one first. -/
structure TypedLine where
  text : List Char := []
  sizes : List Nat := []

/-- The line after one more cluster. A backspace takes back as many bytes as the last cluster has; a size is
kept in one byte, so that only a cluster of less than 256 bytes is taken back whole. -/
def TypedLine.type (line : TypedLine) (cluster : List Char) : TypedLine :=
  if cluster = ['\x08'] then
    match line.sizes with
    | [] => line
    | size :: sizes => ⟨dropBytes size line.text, sizes⟩
  else
    ⟨cluster.reverse ++ line.text, (cluster.foldl (fun n c => n + c.utf8Size) 0 % 256) :: line.sizes⟩

/-- The text that is left of a line after its backspaces. -/
def applyBackspaces (line : String) : String :=
  if line.toList.contains '\x08' then
    String.ofList ((Cluster.clusters line.toList).foldl TypedLine.type {}).text.reverse
  else line

end RowConsole.Text
