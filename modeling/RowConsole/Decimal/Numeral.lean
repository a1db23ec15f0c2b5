/-!
# Numerals

Reading numbers from text: signed integers of 64 bits, and doubles in decimal with an optional exponent or
one of the words for infinity and for what is not a number.
-/

namespace RowConsole.Decimal

/-! ## Section 1: Digits -/

/-- The value of a decimal digit. -/
def digitValue (c : Char) : Nat :=
  c.toNat - '0'.toNat

/-- Appends decimal digits to a number. -/
def appendDigits (n : Nat) (digits : List Char) : Nat :=
  digits.foldl (fun n c => n * 10 + digitValue c) n

/-- The number that decimal digits stand for. -/
def ofDigits (digits : List Char) : Nat :=
  appendDigits 0 digits

/-- The leading decimal digits of a text, and the rest. -/
def spanDigits (cs : List Char) : List Char × List Char :=
  cs.span Char.isDigit

/-! ## Section 2: Integers of 64 Bits -/

/-- Whether an integer lies in the range of 64 bits with sign. -/
def fits64 (n : Int) : Bool :=
  Int64.minValue.toInt ≤ n && n ≤ Int64.maxValue.toInt

/-- An integer as a 64-bit integer, when it is in range. -/
def toInt64? (n : Int) : Option Int64 :=
  if fits64 n then some (Int64.ofInt n) else none

/-- The sign in front of a text, and the text behind it. -/
def splitSign : List Char → Bool × List Char
  | '-' :: rest => (true, rest)
  | '+' :: rest => (false, rest)
  | cs => (false, cs)

/-- Reads an integer: an optional sign and at least one digit, the value within 64 bits. -/
def readInt (cs : List Char) : Option Int64 :=
  let (negative, digits) := splitSign cs
  if digits.isEmpty || !digits.all Char.isDigit then none
  else
    let n : Int := ofDigits digits
    toInt64? (if negative then -n else n)

/-! ## Section 3: Doubles -/

/-- The double nearest to `digits * 10 ^ exponent`. Far outside the range of doubles the answer does not
depend on the digits. -/
def nearestFloat (digits : Nat) (exponent : Int) : Float :=
  if digits = 0 then 0.0
  else
    let order : Int := (Nat.toDigits 10 digits).length + exponent
    if order < -330 then 0.0
    else if 400 < order then 1.0 / 0.0
    else if 0 ≤ exponent then Float.ofScientific (digits * Nat.pow 10 exponent.toNat) false 0
    else Float.ofScientific digits true (-exponent).toNat

/-- Reads what may follow the digits of a double: nothing, or an exponent with its optional sign. -/
def readExponent : List Char → Option Int
  | [] => some 0
  | c :: rest =>
    if c == 'e' || c == 'E' then
      let (negative, digits) := splitSign rest
      if digits.isEmpty || !digits.all Char.isDigit then none
      else
        let n : Int := ofDigits digits
        some (if negative then -n else n)
    else none

/-- Reads a double without sign: digits with an optional point among or beside them, then an optional
exponent; at least one digit stands before the exponent. -/
def readDecimal (cs : List Char) : Option Float :=
  let (whole, rest) := spanDigits cs
  let (fraction, rest) :=
    match rest with
    | '.' :: rest => spanDigits rest
    | _ => ([], rest)
  if whole.isEmpty && fraction.isEmpty then none
  else
    (readExponent rest).map fun exponent =>
      nearestFloat (ofDigits (whole ++ fraction)) (exponent - fraction.length)

/-- Reads a double: an optional sign, then a decimal or one of the words `inf`, `infinity` and `nan` in any
mixture of small and capital letters. -/
def readFloat (cs : List Char) : Option Float :=
  let (negative, body) := splitSign cs
  let word := body.map Char.toLower
  let size? :=
    if word = "inf".toList || word = "infinity".toList then some (1.0 / 0.0)
    else if word = "nan".toList then some (0.0 / 0.0)
    else readDecimal body
  size?.map fun size => if negative then -size else size

end RowConsole.Decimal
