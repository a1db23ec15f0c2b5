import RowConsole.Json.Number

/-!
# Reading JSON

A strict reader of documents: no comments, no trailing commas, no control characters in strings, no escapes
that stand for half a character, and a limit on nesting.
-/

namespace RowConsole.Json

/-! ## Section 1: Blanks and Strings -/

/-- The characters that may stand between the parts of a document. -/
def isGap (c : Char) : Bool :=
  c = ' ' || c = '\t' || c = '\n' || c = '\r'

/-- The text behind leading gaps. -/
def skipGaps (cs : List Char) : List Char :=
  cs.dropWhile isGap

/-- The value of a hexadecimal digit. -/
def hexValue? (c : Char) : Option Nat :=
  if c.isDigit then some (c.toNat - '0'.toNat)
  else if 'a' ≤ c ∧ c ≤ 'f' then some (c.toNat - 'a'.toNat + 10)
  else if 'A' ≤ c ∧ c ≤ 'F' then some (c.toNat - 'A'.toNat + 10)
  else none

/-- The number that four hexadecimal digits stand for. -/
def readHex4 : List Char → Option (Nat × List Char)
  | a :: b :: c :: d :: rest => do
    let a ← hexValue? a
    let b ← hexValue? b
    let c ← hexValue? c
    let d ← hexValue? d
    return (((a * 16 + b) * 16 + c) * 16 + d, rest)
  | _ => none

/-- The character behind the start of a numeric escape; two escapes make one character above `FFFF`. -/
def readNumericEscape (cs : List Char) : Option (Char × List Char) := do
  let (n, rest) ← readHex4 cs
  if 0xD800 ≤ n ∧ n < 0xDC00 then
    match rest with
    | '\\' :: 'u' :: rest =>
      let (low, rest) ← readHex4 rest
      if 0xDC00 ≤ low ∧ low < 0xE000 then
        return (Char.ofNat (0x10000 + (n - 0xD800) * 0x400 + (low - 0xDC00)), rest)
      else none
    | _ => none
  else if 0xDC00 ≤ n ∧ n < 0xE000 then none
  else return (Char.ofNat n, rest)

/-- The character behind a backslash. -/
def readEscape : List Char → Option (Char × List Char)
  | '\x22' :: rest => some ('\x22', rest)
  | '\\' :: rest => some ('\\', rest)
  | '/' :: rest => some ('/', rest)
  | 'b' :: rest => some ('\x08', rest)
  | 'f' :: rest => some ('\x0c', rest)
  | 'n' :: rest => some ('\n', rest)
  | 'r' :: rest => some ('\r', rest)
  | 't' :: rest => some ('\t', rest)
  | 'u' :: rest => readNumericEscape rest
  | _ => none

/-- The rest of a string up to its closing quote; `read` holds the characters so far, reversed. -/
def readStringFrom (fuel : Nat) (read : List Char) (cs : List Char) :
    Option (String × List Char) :=
  match fuel, cs with
  | 0, _ => none
  | _, [] => none
  | fuel + 1, c :: rest =>
    if c = '\x22' then some (String.ofList read.reverse, rest)
    else if c = '\\' then do
      let (e, rest) ← readEscape rest
      readStringFrom fuel (e :: read) rest
    else if c.toNat < 0x20 then none
    else readStringFrom fuel (c :: read) rest

/-- A string in its quotes. -/
def readString : List Char → Option (String × List Char)
  | '\x22' :: rest => readStringFrom (rest.length + 1) [] rest
  | _ => none

/-! ## Section 2: Values -/

/-- Arrays and objects may be nested one less deep than this. -/
def nestingLimit : Nat := 128

/-- A word of the language and what it stands for. -/
def readWord (word : String) (j : Json) (cs : List Char) : Option (Json × List Char) :=
  let size := word.toList.length
  if cs.take size = word.toList then some (j, cs.drop size) else none

mutual

/-- A value, behind gaps, inside arrays and objects of which `depth` more may be opened. -/
def readValue (fuel depth : Nat) (cs : List Char) : Option (Json × List Char) :=
  match fuel with
  | 0 => none
  | fuel + 1 =>
    match skipGaps cs with
    | [] => none
    | c :: rest =>
      if c = '[' then
        -- A depth of one is left for values that hold no others.
        if depth ≤ 1 then none
        else
          match skipGaps rest with
          | ']' :: rest => some (.array [], rest)
          | rest => do
            let (items, rest) ← readItems fuel (depth - 1) rest
            return (.array items, rest)
      else if c = '{' then
        if depth ≤ 1 then none
        else
          match skipGaps rest with
          | '}' :: rest => some (.object [], rest)
          | rest => do
            let (members, rest) ← readMembers fuel (depth - 1) rest
            return (.object members, rest)
      else if c = '\x22' then do
        let (s, rest) ← readString (c :: rest)
        return (.string s, rest)
      else if c = 'n' then readWord "null" .null (c :: rest)
      else if c = 't' then readWord "true" (.bool true) (c :: rest)
      else if c = 'f' then readWord "false" (.bool false) (c :: rest)
      else do
        let (n, rest) ← readNumeral (c :: rest)
        return (← n.toJson?, rest)
termination_by structural fuel

/-- Items separated by commas, up to the closing bracket. -/
def readItems (fuel depth : Nat) (cs : List Char) : Option (List Json × List Char) :=
  match fuel with
  | 0 => none
  | fuel + 1 => do
    let (item, rest) ← readValue fuel depth cs
    match skipGaps rest with
    | ',' :: rest =>
      let (items, rest) ← readItems fuel depth rest
      return (item :: items, rest)
    | ']' :: rest => return ([item], rest)
    | _ => none
termination_by structural fuel

/-- Members separated by commas, up to the closing brace. -/
def readMembers (fuel depth : Nat) (cs : List Char) : Option (List (String × Json) × List Char) :=
  match fuel with
  | 0 => none
  | fuel + 1 => do
    let (name, rest) ← readString (skipGaps cs)
    match skipGaps rest with
    | ':' :: rest =>
      let (value, rest) ← readValue fuel depth rest
      match skipGaps rest with
      | ',' :: rest =>
        let (members, rest) ← readMembers fuel depth rest
        return ((name, value) :: members, rest)
      | '}' :: rest => return ([(name, value)], rest)
      | _ => none
    | _ => none
termination_by structural fuel

end

/-- The document that a text holds, with nothing but gaps around it. -/
def read? (text : String) : Option Json := do
  let cs := text.toList
  let (j, rest) ← readValue (2 * cs.length + 1) nestingLimit cs
  if (skipGaps rest).isEmpty then return j else none

end RowConsole.Json
