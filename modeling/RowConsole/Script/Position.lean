/-!
# Positions in Source Text

Lines and columns count from one, and a column counts characters. A source is read as a list of glyphs,
characters that carry their own position, so that whatever is made of a piece of it starts where the first
glyph of that piece stands.
-/

namespace RowConsole.Script

/-! ## Section 1: Positions -/

/-- A line and a column, both counted from one. -/
structure Pos where
  line : Nat
  col : Nat
  deriving DecidableEq, Repr, Inhabited

/-- The position of the first character of a text. -/
def Pos.start : Pos := ⟨1, 1⟩

/-- The position behind a character: a line feed starts a new line. -/
def Pos.next (p : Pos) (c : Char) : Pos :=
  if c = '\n' then ⟨p.line + 1, 1⟩ else ⟨p.line, p.col + 1⟩

/-- The position behind a piece of text. -/
def Pos.after (p : Pos) (cs : List Char) : Pos :=
  cs.foldl Pos.next p

theorem Pos.after_append (p : Pos) (cs ds : List Char) : p.after (cs ++ ds) = (p.after cs).after ds :=
  List.foldl_append

/-- How a position is named in messages. -/
def Pos.text (p : Pos) : String :=
  "line " ++ toString p.line ++ ", column " ++ toString p.col

/-! ## Section 2: Glyphs -/

/-- A character of a source and where it stands. -/
structure Glyph where
  char : Char
  pos : Pos
  deriving DecidableEq, Repr

/-- The glyphs of a text whose first character stands at `p`. -/
def locate (p : Pos) : List Char → List Glyph
  | [] => []
  | c :: cs => ⟨c, p⟩ :: locate (p.next c) cs

@[simp] theorem length_locate (p : Pos) (cs : List Char) : (locate p cs).length = cs.length := by
  induction cs generalizing p with
  | nil => rfl
  | cons c cs ih => simp [locate, ih]

/-- Locating a text in two pieces: the second one starts behind the first. -/
theorem locate_append (p : Pos) (cs ds : List Char) :
    locate p (cs ++ ds) = locate p cs ++ locate (p.after cs) ds := by
  induction cs generalizing p with
  | nil => rfl
  | cons c cs ih => simp [locate, ih, Pos.after]

end RowConsole.Script
