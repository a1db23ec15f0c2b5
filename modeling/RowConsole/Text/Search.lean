/-!
# Searching and Cutting Text

Finding one text in another, cutting a text at a separator, and the division of a text into lines.
-/

namespace RowConsole.Text

/-! ## Section 1: Occurrences -/

/-- What follows `start` in a text that begins with it. -/
def stripStart? : List Char → List Char → Option (List Char)
  | [], cs => some cs
  | _ :: _, [] => none
  | p :: start, c :: cs => if p = c then stripStart? start cs else none

/-- A text begins with its own first part. -/
theorem stripStart?_append (start rest : List Char) :
    stripStart? start (start ++ rest) = some rest := by
  induction start with
  | nil => rfl
  | cons p start ih => simp [stripStart?, ih]

/-- Taking a first part off leaves the rest. -/
theorem eq_append_of_stripStart? {start cs rest : List Char}
    (h : stripStart? start cs = some rest) : cs = start ++ rest := by
  induction start generalizing cs with
  | nil => simpa [stripStart?] using h
  | cons p start ih =>
    cases cs with
    | nil => simp [stripStart?] at h
    | cons c cs =>
      by_cases hpc : p = c
      · subst hpc
        simp only [stripStart?, if_true] at h
        simp [ih h]
      · simp [stripStart?, hpc] at h

/-- Whether a text begins with `start`. -/
def startsWith (start cs : List Char) : Bool :=
  (stripStart? start cs).isSome

theorem startsWith_iff {start cs : List Char} : startsWith start cs = true ↔ start <+: cs := by
  constructor
  · intro h
    obtain ⟨rest, hrest⟩ := Option.isSome_iff_exists.mp h
    exact ⟨rest, (eq_append_of_stripStart? hrest).symm⟩
  · rintro ⟨rest, rfl⟩
    rw [startsWith, stripStart?_append]
    rfl

/-- Whether a text ends with `ending`. -/
def endsWith (ending cs : List Char) : Bool :=
  startsWith ending.reverse cs.reverse

/-- Whether `part` occurs somewhere in a text. -/
def occursIn (part : List Char) : List Char → Bool
  | [] => part.isEmpty
  | c :: rest => startsWith part (c :: rest) || occursIn part rest

/-! ## Section 2: Cutting at a Separator -/

/-- The pieces between the occurrences of a non-empty separator, found from left to right without overlap.
`skip` counts the characters of the last occurrence still to be passed and `piece` holds the piece being
read, reversed. -/
def piecesFrom (separator : List Char) (skip : Nat) (piece : List Char) :
    List Char → List (List Char)
  | [] => [piece.reverse]
  | c :: rest =>
    match skip with
    | k + 1 => piecesFrom separator k piece rest
    | 0 =>
      if startsWith separator (c :: rest) then
        piece.reverse :: piecesFrom separator (separator.length - 1) [] rest
      else piecesFrom separator 0 (c :: piece) rest

/-- The pieces of a text between the occurrences of a separator. An empty separator occurs at both ends and
between any two characters. -/
def piecesBetween (separator cs : List Char) : List (List Char) :=
  if separator.isEmpty then [] :: (cs.map fun c => [c]) ++ [[]]
  else piecesFrom separator 0 [] cs

/-- The pieces of a string between the occurrences of a separator. -/
def splitBy (separator s : String) : List String :=
  (piecesBetween separator.toList s.toList).map String.ofList

/-- A string with every occurrence of `old` replaced by `new`. -/
def replaceAll (old new s : String) : String :=
  String.intercalate new (splitBy old s)

/-! ## Section 3: Lines -/

/-- The lines of a text: each ends before a line feed, a carriage return directly before the line feed is
dropped, and nothing is left over after the last line feed. `line` holds the line being read, reversed. -/
def linesFrom (line : List Char) : List Char → List (List Char)
  | [] => if line.isEmpty then [] else [line.reverse]
  | c :: rest =>
    if c == '\n' then
      let line := match line with
        | '\r' :: before => before
        | _ => line
      line.reverse :: linesFrom [] rest
    else linesFrom (c :: line) rest

/-- The lines of a string. -/
def lines (s : String) : List String :=
  (linesFrom [] s.toList).map String.ofList

end RowConsole.Text
