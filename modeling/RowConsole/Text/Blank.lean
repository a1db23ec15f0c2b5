import RowConsole.Text.Ranges

/-!
# White Space

The characters with the property `White_Space`, and the operations on text that depend on them: trimming
either end and splitting into words.
-/

namespace RowConsole.Text

/-! ## Section 1: The Property -/

/-- The ranges of the property `White_Space`. -/
def blankTable : Ranges :=
  [(0x9, 0xd), (0x20, 0x20), (0x85, 0x85), (0xa0, 0xa0), (0x1680, 0x1680), (0x2000, 0x200a),
   (0x2028, 0x2029), (0x202f, 0x202f), (0x205f, 0x205f), (0x3000, 0x3000)]

/-- A character is blank when it has the property `White_Space`. -/
def isBlank (c : Char) : Bool :=
  blankTable.contains c

/-! ## Section 2: Trimming and Words -/

/-- The text after its leading blanks. -/
def dropBlanks (cs : List Char) : List Char :=
  cs.dropWhile isBlank

/-- The text before its trailing blanks. -/
def dropBlanksEnd (cs : List Char) : List Char :=
  (cs.reverse.dropWhile isBlank).reverse

/-- The text between its leading and its trailing blanks. -/
def trimChars (cs : List Char) : List Char :=
  dropBlanksEnd (dropBlanks cs)

/-- A string without its leading and trailing blanks. -/
def trim (s : String) : String :=
  String.ofList (trimChars s.toList)

/-- A string is blank throughout when nothing is left after trimming. -/
def isBlankString (s : String) : Bool :=
  s.toList.all isBlank

/-- The maximal blank-free pieces of a text, in order. `word` holds the piece being read, reversed. -/
def wordsFrom (word : List Char) : List Char → List (List Char)
  | [] => if word.isEmpty then [] else [word.reverse]
  | c :: rest =>
    if isBlank c then
      if word.isEmpty then wordsFrom [] rest else word.reverse :: wordsFrom [] rest
    else wordsFrom (c :: word) rest

/-- The words of a string: its maximal blank-free pieces, in order. -/
def words (s : String) : List String :=
  (wordsFrom [] s.toList).map String.ofList

end RowConsole.Text
