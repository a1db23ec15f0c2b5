import RowConsole.Toml.Scalar
import RowConsole.Toml.Table

/-!
# Reading TOML

Documents of TOML 1.0, line by line: blank lines, headers and keys with their values.
-/

namespace RowConsole.Toml

/-! ## Section 1: Keys -/

/-- The characters of keys without quotes. -/
def isBareKeyChar (c : Char) : Bool :=
  c.isAlphanum || c = '_' || c = '-'

/-- One part of a key. -/
def readSimpleKey (cs : List Char) : Option (String × List Char) :=
  match readLineString cs with
  | some found => some found
  | none =>
    let word := cs.takeWhile isBareKeyChar
    if word.isEmpty then none else some (String.ofList word, cs.dropWhile isBareKeyChar)

/-- The parts of a key, separated by points, and the text behind it and its spaces. -/
def readKeyParts (fuel : Nat) (cs : List Char) : Option (List String × List Char) :=
  match fuel with
  | 0 => none
  | fuel + 1 => do
    let (part, rest) ← readSimpleKey (skipSpaces cs)
    match skipSpaces rest with
    | '.' :: rest =>
      let (parts, rest) ← readKeyParts fuel rest
      return (part :: parts, rest)
    | rest => return ([part], rest)

/-- Arrays, tables in braces and the parts of keys may be nested less deep than this. -/
def nestingLimit : Nat := 80

/-- A key: the names on the way and the last one. -/
def readKey (cs : List Char) : Option (List String × String × List Char) := do
  let (parts, rest) ← readKeyParts (nestingLimit - 1) cs
  return (parts.dropLast, ← parts.getLast?, rest)

/-! ## Section 2: Values -/

/-- The text behind spaces, line ends and comments. -/
def skipGaps (fuel : Nat) (cs : List Char) : List Char :=
  match fuel with
  | 0 => cs
  | fuel + 1 =>
    let cs := skipSpaces cs
    -- A comment counts only if a line end follows it.
    match skipNewline? (skipComment cs) with
    | some rest => skipGaps fuel rest
    | none => cs

/-- The text behind gaps of any length. -/
def skipAllGaps (cs : List Char) : List Char :=
  skipGaps (cs.length + 1) cs

mutual

/-- A value, inside of which arrays and tables may be nested up to a depth. -/
def readValue (fuel depth : Nat) (cs : List Char) : Option (Toml × List Char) :=
  match fuel, cs with
  | 0, _ | _, [] => none
  | fuel + 1, c :: rest =>
    if c = '[' then
      match depth with
      | 0 => none
      | depth + 1 => do
        let (items, rest) ← readItems fuel depth (skipAllGaps rest)
        return (.array items, rest)
    else if c = '{' then
      match depth with
      | 0 => none
      | depth + 1 =>
        match skipSpaces rest with
        | '}' :: rest => return (← closedTable [], rest)
        | rest => do
          let (entries, rest) ← readEntries fuel depth rest
          return (← closedTable entries, rest)
    else if isQuote c then (readString (c :: rest)).map fun (s, rest) => (.string s, rest)
    else readWord (c :: rest)
termination_by structural fuel

/-- The items of an array up to the closing bracket; a comma may follow the last. -/
def readItems (fuel depth : Nat) (cs : List Char) : Option (List Toml × List Char) :=
  match fuel with
  | 0 => none
  | fuel + 1 =>
    match cs with
    | ']' :: rest => some ([], rest)
    | cs => do
      let (item, rest) ← readValue fuel depth cs
      match skipAllGaps rest with
      | ',' :: rest =>
        let (items, rest) ← readItems fuel depth (skipAllGaps rest)
        return (item :: items, rest)
      | ']' :: rest => return ([item], rest)
      | _ => none
termination_by structural fuel

/-- The entries of a table in braces up to the closing brace. -/
def readEntries (fuel depth : Nat) (cs : List Char) : Option (List Entry × List Char) :=
  match fuel with
  | 0 => none
  | fuel + 1 => do
    let (path, key, rest) ← readKey cs
    match rest with
    | '=' :: rest =>
      let (value, rest) ← readValue fuel depth (skipSpaces rest)
      match skipSpaces rest with
      | ',' :: rest =>
        let (entries, rest) ← readEntries fuel depth rest
        return (⟨path, key, value⟩ :: entries, rest)
      | '}' :: rest => return ([⟨path, key, value⟩], rest)
      | _ => none
    | _ => none
termination_by structural fuel

end

/-! ## Section 3: Lines -/

/-- The text behind the rest of a line, which holds nothing but spaces and a comment. -/
def endLine? (cs : List Char) : Option (List Char) :=
  match skipComment (skipSpaces cs) with
  | [] => some []
  | cs => skipNewline? cs

/-- A header up to the end of its line: whether its brackets are doubled, and its key. -/
def readHeader (cs : List Char) : Option (Bool × List String × String × List Char) :=
  match cs with
  | '[' :: '[' :: rest => do
    let (path, name, rest) ← readKey rest
    match rest with
    | ']' :: ']' :: rest => return (true, path, name, ← endLine? rest)
    | _ => none
  | '[' :: rest => do
    let (path, name, rest) ← readKey rest
    match rest with
    | ']' :: rest => return (false, path, name, ← endLine? rest)
    | _ => none
  | _ => none

/-- A key and its value up to the end of the line. -/
def readEntry (cs : List Char) : Option (Entry × List Char) := do
  let (path, key, rest) ← readKey cs
  match rest with
  | '=' :: rest =>
    let (value, rest) ← readValue (2 * rest.length + 1) (nestingLimit - 1) (skipSpaces rest)
    return (⟨path, key, value⟩, ← endLine? rest)
  | _ => none

/-- The entries before the first header, and the blocks that the headers start. -/
def readLines (fuel : Nat) (cs : List Char) : Option (List Entry × List Block) :=
  match fuel with
  | 0 => none
  | fuel + 1 =>
    match skipSpaces cs with
    | [] => some ([], [])
    | c :: rest =>
      if c = '[' then do
        let (doubled, path, name, rest) ← readHeader (c :: rest)
        let (entries, blocks) ← readLines fuel rest
        -- The entries up to the next header belong to this one.
        return ([], ⟨doubled, path, name, entries⟩ :: blocks)
      else
        match endLine? (c :: rest) with
        | some rest => readLines fuel rest
        | none => do
          let (e, rest) ← readEntry (c :: rest)
          let (entries, blocks) ← readLines fuel rest
          return (e :: entries, blocks)

/-- The document that a text holds. A byte order mark may come first. -/
def read? (text : String) : Option Entries := do
  let cs := match text.toList with
    | '\ufeff' :: rest => rest
    | cs => cs
  let (entries, blocks) ← readLines (cs.length + 1) cs
  document entries blocks

end RowConsole.Toml
