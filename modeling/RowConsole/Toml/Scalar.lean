import RowConsole.Json.Reader
import RowConsole.Toml.Basic
import RowConsole.Toml.Datetime

/-!
# Scalars of TOML

The values that hold no others: strings in four notations, and the words that stand for numbers, truth values,
dates and times.
-/

namespace RowConsole.Toml

open Decimal (ofDigits)

/-! ## Section 1: Blanks and Line Ends -/

/-- The characters that may separate the parts of a line. -/
def isSpace (c : Char) : Bool :=
  c = ' ' || c = '\t'

/-- The text behind leading spaces. -/
def skipSpaces (cs : List Char) : List Char :=
  cs.dropWhile isSpace

/-- The characters that may stand in comments and strings: all but control characters, of which only the tab
is allowed. -/
def isPlain (c : Char) : Bool :=
  c = '\t' || (0x20 ≤ c.toNat && c.toNat ≠ 0x7f)

/-- The text behind a line end. -/
def skipNewline? : List Char → Option (List Char)
  | '\n' :: rest => some rest
  | '\r' :: '\n' :: rest => some rest
  | _ => none

/-- The text behind a comment, if there is one. -/
def skipComment : List Char → List Char
  | '#' :: rest => rest.dropWhile isPlain
  | cs => cs

/-! ## Section 2: Strings -/

/-- The character behind a backslash and a letter for a number of hexadecimal digits. -/
def readCodePoint (count : Nat) (cs : List Char) : Option (Char × List Char) := do
  let digits ← (cs.take count).mapM Json.hexValue?
  if digits.length ≠ count then none
  let n := digits.foldl (fun n d => n * 16 + d) 0
  if n.isValidChar then return (Char.ofNat n, cs.drop count) else none

/-- The character behind a backslash. -/
def readEscape : List Char → Option (Char × List Char)
  | 'b' :: rest => some ('\x08', rest)
  | 't' :: rest => some ('\t', rest)
  | 'n' :: rest => some ('\n', rest)
  | 'f' :: rest => some ('\x0c', rest)
  | 'r' :: rest => some ('\r', rest)
  | '\x22' :: rest => some ('\x22', rest)
  | '\\' :: rest => some ('\\', rest)
  | 'u' :: rest => readCodePoint 4 rest
  | 'U' :: rest => readCodePoint 8 rest
  | _ => none

/-- The rest of a string on one line, up to the closing quote. Backslashes start escapes between double
quotes only. `read` holds the characters so far, reversed. -/
def readLineFrom (quote : Char) (fuel : Nat) (read cs : List Char) : Option (String × List Char) :=
  match fuel, cs with
  | 0, _ | _, [] => none
  | fuel + 1, c :: rest =>
    if c = quote then some (String.ofList read.reverse, rest)
    else if c = '\\' && quote = '\x22' then do
      let (e, rest) ← readEscape rest
      readLineFrom quote fuel (e :: read) rest
    else if isPlain c then readLineFrom quote fuel (c :: read) rest
    else none

/-- The text behind a line end and all spaces and line ends after it, when nothing but spaces comes before
that line end. -/
def joinLines? (cs : List Char) : Option (List Char) :=
  match skipNewline? (skipSpaces cs) with
  | some rest => some (rest.dropWhile fun c => isSpace c || c = '\n' || c = '\r')
  | none => none

/-- The rest of a string over several lines, up to three closing quotes, before which up to two more belong
to the string. Line ends count as line feeds. -/
def readBlockFrom (quote : Char) (fuel : Nat) (read cs : List Char) :
    Option (String × List Char) :=
  match fuel, cs with
  | 0, _ | _, [] => none
  | fuel + 1, c :: rest =>
    if c = quote then
      -- Of up to five quotes in a row the last three close the string.
      let run := min ((c :: rest).takeWhile (· = quote)).length 5
      if 3 ≤ run then
        some (String.ofList (read.reverse ++ List.replicate (run - 3) quote), (c :: rest).drop run)
      else readBlockFrom quote fuel (c :: read) rest
    else if c = '\\' && quote = '\x22' then
      match joinLines? rest with
      | some rest => readBlockFrom quote fuel read rest
      | none => do
        let (e, rest) ← readEscape rest
        readBlockFrom quote fuel (e :: read) rest
    else
      match skipNewline? (c :: rest) with
      | some rest => readBlockFrom quote fuel ('\n' :: read) rest
      | none => if isPlain c then readBlockFrom quote fuel (c :: read) rest else none

/-- Whether a character opens a string. -/
def isQuote (c : Char) : Bool :=
  c = '\x22' || c = '\x27'

/-- A string on one line. -/
def readLineString : List Char → Option (String × List Char)
  | [] => none
  | c :: rest => if isQuote c then readLineFrom c (rest.length + 1) [] rest else none

/-- A string in any notation. A line end right behind three opening quotes is dropped. -/
def readString (cs : List Char) : Option (String × List Char) :=
  match cs with
  | a :: b :: c :: rest =>
    if isQuote a && b = a && c = a then
      readBlockFrom a (rest.length + 1) [] ((skipNewline? rest).getD rest)
    else readLineString cs
  | _ => readLineString cs

/-! ## Section 3: Numbers -/

/-- Digits with single underscores between them, without the underscores. -/
def joinDigits? (isDigit : Char → Bool) : List Char → Option (List Char)
  | [] => none
  | [c] => if isDigit c then some [c] else none
  | c :: '_' :: rest => if isDigit c then (joinDigits? isDigit rest).map (c :: ·) else none
  | c :: rest => if isDigit c then (joinDigits? isDigit rest).map (c :: ·) else none

/-- Decimal digits, with a leading zero only if it is the only digit. -/
def wholeDigits? (cs : List Char) : Option (List Char) :=
  match joinDigits? Char.isDigit cs with
  | some ['0'] => some ['0']
  | some ('0' :: _) => none
  | digits => digits

/-- The value of digits to a base, each with a value below the base. -/
def readBase (base : Nat) (cs : List Char) : Option Nat := do
  let isDigit := fun c => match Json.hexValue? c with
    | some d => d < base
    | none => false
  let digits ← joinDigits? isDigit cs
  return (← digits.mapM Json.hexValue?).foldl (fun n d => n * base + d) 0

/-- An integer of 64 bits. -/
def readInteger (word : List Char) : Option Int64 :=
  match word with
  | '0' :: 'x' :: rest => (readBase 16 rest).bind fun n => Decimal.toInt64? n
  | '0' :: 'o' :: rest => (readBase 8 rest).bind fun n => Decimal.toInt64? n
  | '0' :: 'b' :: rest => (readBase 2 rest).bind fun n => Decimal.toInt64? n
  | _ =>
    let (negative, digits) := Decimal.splitSign word
    (wholeDigits? digits).bind fun digits =>
      let n : Int := ofDigits digits
      Decimal.toInt64? (if negative then -n else n)

/-- The exponent behind its letter. -/
def readPower (cs : List Char) : Option Int :=
  let (negative, digits) := Decimal.splitSign cs
  (joinDigits? Char.isDigit digits).map fun digits =>
    let n : Int := ofDigits digits
    if negative then -n else n

/-- The double of a whole part with a fraction, an exponent or both. -/
def readDecimal (cs : List Char) : Option Float := do
  let isMark := fun c : Char => c = 'e' || c = 'E'
  let mantissa := cs.takeWhile fun c => !isMark c
  let power ← match cs.dropWhile fun c => !isMark c with
    | [] => some 0
    | _ :: power => readPower power
  let whole ← wholeDigits? (mantissa.takeWhile (· ≠ '.'))
  let fraction ← match mantissa.dropWhile (· ≠ '.') with
    | [] => if cs.any isMark then some [] else none
    | _ :: fraction => joinDigits? Char.isDigit fraction
  return Decimal.nearestFloat (ofDigits (whole ++ fraction)) (power - fraction.length)

/-- A double. One above all finite doubles is refused. -/
def readFloat (word : List Char) : Option Float := do
  let (negative, body) := Decimal.splitSign word
  let size ←
    if body = "inf".toList then some (1.0 / 0.0)
    else if body = "nan".toList then some (0.0 / 0.0)
    else
      match readDecimal body with
      -- A negative one below all finite doubles is let through as infinite.
      | some x => if x == 1.0 / 0.0 && !negative then none else some x
      | none => none
  return if negative then -size else size

/-! ## Section 4: Words -/

/-- The characters of words. -/
def isWordChar (c : Char) : Bool :=
  c.isAlphanum || c = '+' || c = '-' || c = '_' || c = '.' || c = ':'

/-- What a word stands for. -/
def wordValue? (word : List Char) : Option Toml :=
  if word = "true".toList then some (.boolean true)
  else if word = "false".toList then some (.boolean false)
  else
    match readDatetime word, readInteger word, readFloat word with
    | some text, _, _ => some (.datetime text)
    | none, some n, _ => some (.integer n)
    | none, none, some x => some (.float x)
    | none, none, none => none

/-- A value that is written as one word, or as a date and a time with a space between them. -/
def readWord (cs : List Char) : Option (Toml × List Char) :=
  let word := cs.takeWhile isWordChar
  let rest := cs.dropWhile isWordChar
  -- A space may stand for the `T` between a date and a time, if a digit follows it.
  match readDate word, rest with
  | some (_, []), ' ' :: c :: more =>
    if c.isDigit then
      let time := (c :: more).takeWhile isWordChar
      (wordValue? (word ++ 'T' :: time)).map fun v => (v, (c :: more).dropWhile isWordChar)
    else (wordValue? word).map fun v => (v, rest)
  | _, _ => (wordValue? word).map fun v => (v, rest)

end RowConsole.Toml
