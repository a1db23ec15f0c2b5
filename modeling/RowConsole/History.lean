import RowConsole.Text.Blank
import RowConsole.Text.Search

/-!
# The Line History

The lines that a user has entered, over several sessions, and the file in which they are kept: a first line
that names the format and then one entry on each line. Main statement: what is written for an entry reads back
as that entry.
-/

namespace RowConsole

/-- A line history, the oldest entry first. -/
structure History where
  /-- The largest number of entries. -/
  limit : Nat
  entries : List String := []
  /-- Whether there are entries that the file lacks. -/
  changed : Bool := false

namespace History

/-! ## Section 1: Entries -/

/-- Whether a line is no entry: an empty line, one that starts with a blank, and a repetition of the newest
entry. -/
def skips (h : History) (line : String) : Bool :=
  h.limit = 0 || line.toList.head?.all Text.isBlank || h.entries.getLast? = some line

/-- Adds a line. The oldest entry makes room when there are too many. -/
def add (h : History) (line : String) : History :=
  if h.skips line then h
  else
    let kept := if h.entries.length = h.limit then h.entries.drop 1 else h.entries
    { h with entries := kept ++ [line], changed := true }

/-! ## Section 2: Entries on One Line -/

/-- An entry on one line: line feeds and backslashes are written with a backslash. -/
def encode : List Char → List Char
  | [] => []
  | '\n' :: rest => '\\' :: 'n' :: encode rest
  | '\\' :: rest => '\\' :: '\\' :: encode rest
  | c :: rest => c :: encode rest

/-- The entry of a line, unless a backslash stands before anything else. -/
def decode? : List Char → Option (List Char)
  | [] => some []
  | '\\' :: 'n' :: rest => (decode? rest).map ('\n' :: ·)
  | '\\' :: '\\' :: rest => (decode? rest).map ('\\' :: ·)
  | c :: rest => if c = '\\' then none else (decode? rest).map (c :: ·)

/-- What is written for an entry reads back as that entry. -/
theorem decode?_encode (cs : List Char) : decode? (encode cs) = some cs := by
  fun_induction encode cs with
  | case1 => rfl
  | case2 rest ih => simp [decode?, ih]
  | case3 rest ih => simp [decode?, ih]
  | case4 c rest _ h ih =>
    rw [decode?]
    · rw [if_neg (show ¬ c = '\\' from h), ih]
      rfl
    · exact fun _ e => absurd e h
    · exact fun _ e => absurd e h

/-! ## Section 3: The File -/

/-- The first line of the file. -/
def fileHeader : String := "#V2"

/-- The content of the file. -/
def fileText (h : History) : String :=
  String.join ((fileHeader :: h.entries.map fun e => String.ofList (encode e.toList)).map (· ++ "\n"))

/-- The entry of a line of the file, and the line itself if it is not well-formed. -/
def readLine (line : String) : String × List String :=
  match decode? line.toList with
  | some entry => (String.ofList entry, [])
  | none => (line, [line])

/-- Reads the content of a file into a history: the lines that are not well-formed, and the history. A file
without the format's first line holds its entries literally. -/
def load (h : History) (content : String) : List String × History :=
  let (entries, malformed) := match Text.lines content with
    | [] => ([], [])
    | first :: rest =>
      if first = fileHeader then
        let read := (rest.filter (· ≠ "")).map readLine
        (read.map Prod.fst, read.flatMap Prod.snd)
      else (first :: rest, [])
  (malformed, { entries.foldl add h with changed := false })

end History

end RowConsole
