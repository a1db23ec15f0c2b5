import RowConsole.Decimal.Numeral
import RowConsole.Json.Basic

/-!
# JSON Numbers

The grammar of numbers and their values. A number with a fraction or an exponent, or too long for an
integer, is a double: its leading digits, as many as fit in 64 bits without sign, times a power of ten that is
applied in one multiplication or division. That is not always the double nearest to the number.
-/

namespace RowConsole.Json

open Decimal (digitValue spanDigits)

/-! ## Section 1: Grammar -/

/-- A number as written. -/
structure Numeral where
  negative : Bool
  whole : List Char
  /-- The digits behind the point, if there is one. -/
  fraction : Option (List Char)
  /-- The sign and the digits of the exponent, if there is one. -/
  exponent : Option (Bool × List Char)

/-- Reads the digits before the point: a zero alone, or digits that do not start with a zero. -/
def readWhole (cs : List Char) : Option (List Char × List Char) :=
  match spanDigits cs with
  | ([], _) => none
  | ('0' :: _ :: _, _) => none
  | (digits, rest) => some (digits, rest)

/-- Reads a point and the digits behind it, at least one, if a point stands here. -/
def readFraction : List Char → Option (Option (List Char) × List Char)
  | '.' :: rest =>
    match spanDigits rest with
    | ([], _) => none
    | (digits, rest) => some (some digits, rest)
  | cs => some (none, cs)

/-- Reads an exponent, at least one digit, if one stands here. -/
def readExponent : List Char → Option (Option (Bool × List Char) × List Char)
  | c :: rest =>
    if c = 'e' ∨ c = 'E' then
      let (negative, rest) := Decimal.splitSign rest
      match spanDigits rest with
      | ([], _) => none
      | (digits, rest) => some (some (negative, digits), rest)
    else some (none, c :: rest)
  | [] => some (none, [])

/-- Reads a number. -/
def readNumeral (cs : List Char) : Option (Numeral × List Char) := do
  let (negative, cs) := match cs with
    | '-' :: rest => (true, rest)
    | cs => (false, cs)
  let (whole, cs) ← readWhole cs
  let (fraction, cs) ← readFraction cs
  let (exponent, cs) ← readExponent cs
  return (⟨negative, whole, fraction, exponent⟩, cs)

/-! ## Section 2: Values -/

/-- The largest integer of 64 bits without sign. -/
def largestWord : Nat := Nat.pow 2 64 - 1

/-- Appends digits to a significand as long as it fits in 64 bits, and how many digits were appended. -/
def appendFitting (significand : Nat) : List Char → Nat × Nat
  | [] => (significand, 0)
  | c :: rest =>
    let next := significand * 10 + digitValue c
    if next ≤ largestWord then
      let (n, count) := appendFitting next rest
      (n, count + 1)
    else (significand, 0)

/-- Scales a double by a power of ten, by at most `10 ^ 308` at once. There is no result when it is too large
for a double. -/
def scaleBy (fuel : Nat) (x : Float) (exponent : Int) : Option Float :=
  match fuel with
  | 0 => some x
  | fuel + 1 =>
    if exponent.natAbs ≤ 308 then
      let power := Float.ofScientific 1 false exponent.natAbs
      if 0 ≤ exponent then
        let y := x * power
        if y.isInf then none else some y
      else some (x / power)
    else if x == 0.0 then some x
    else if 0 ≤ exponent then none
    else scaleBy fuel (x / Float.ofScientific 1 false 308) (exponent + 308)

/-- The largest exponent that is read exactly; the digits of a larger one no longer matter. -/
def largestExponent : Nat := Nat.pow 2 31 - 1

/-- The magnitude of a number as a double, if it is not too large. -/
def Numeral.size? (n : Numeral) : Option Float :=
  let (significand, taken) := appendFitting 0 n.whole
  let (significand, places) := appendFitting significand (n.fraction.getD [])
  let start : Int := (n.whole.length - taken : Nat) - (places : Int)
  match n.exponent with
  | none => scaleBy 8 (Float.ofNat significand) start
  | some (negative, digits) =>
    let e := Decimal.ofDigits digits
    if largestExponent < e then
      if significand ≠ 0 ∧ negative = false then none else some 0.0
    else scaleBy 8 (Float.ofNat significand) (if negative then start - e else start + e)

/-- The value of a number. An integer that fits in 64 bits is one, except for a negative zero. -/
def Numeral.toJson? (n : Numeral) : Option Json :=
  let whole : Int := Decimal.ofDigits n.whole
  let value : Int := if n.negative then -whole else whole
  match n.fraction, n.exponent, Decimal.toInt64? value with
  | none, none, some i =>
    if n.negative && whole = 0 then some (.float (-0.0)) else some (.int i)
  | _, _, _ => n.size?.map fun x => .float (if n.negative then -x else x)

end RowConsole.Json
