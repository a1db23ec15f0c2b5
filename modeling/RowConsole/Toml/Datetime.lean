import RowConsole.Decimal.Numeral

/-!
# Dates and Times of TOML

A date, a time of day, or a date with a time of day and possibly an offset from universal time. The normal
form separates date and time by a capital letter, drops trailing zeros of a fraction and has at most nine
digits of it.
-/

namespace RowConsole.Toml

open Decimal (digitValue ofDigits)

/-! ## Section 1: Fields -/

/-- A field of two digits within bounds. -/
def readField (low high : Nat) : List Char → Option (List Char × List Char)
  | a :: b :: rest =>
    if a.isDigit && b.isDigit && low ≤ ofDigits [a, b] && ofDigits [a, b] ≤ high then
      some ([a, b], rest)
    else none
  | _ => none

/-- The rest of a text behind a character. -/
def readMark (c : Char) : List Char → Option (List Char)
  | d :: rest => if d = c then some rest else none
  | [] => none

/-- The number of days of a month. -/
def daysIn (year month : Nat) : Nat :=
  if month = 2 then
    if year % 4 = 0 && (year % 100 ≠ 0 || year % 400 = 0) then 29 else 28
  else if month = 4 || month = 6 || month = 9 || month = 11 then 30
  else 31

/-! ## Section 2: Dates and Times -/

/-- A date that the calendar has. -/
def readDate : List Char → Option (List Char × List Char)
  | a :: b :: c :: d :: rest => do
    let year := [a, b, c, d]
    if !year.all Char.isDigit then none
    let rest ← readMark '-' rest
    let (month, rest) ← readField 1 12 rest
    let rest ← readMark '-' rest
    let (day, rest) ← readField 1 31 rest
    if daysIn (ofDigits year) (ofDigits month) < ofDigits day then none
    return (year ++ '-' :: month ++ '-' :: day, rest)
  | _ => none

/-- The normal form of the digits of a fraction of a second, with its point. -/
def normalFraction (digits : List Char) : List Char :=
  match ((digits.take 9).reverse.dropWhile (· = '0')).reverse with
  | [] => []
  | kept => '.' :: kept

/-- A time of day; seconds may be leap seconds. -/
def readTime (cs : List Char) : Option (List Char × List Char) := do
  let (hour, rest) ← readField 0 23 cs
  let rest ← readMark ':' rest
  let (minute, rest) ← readField 0 59 rest
  let rest ← readMark ':' rest
  let (second, rest) ← readField 0 60 rest
  let whole := hour ++ ':' :: minute ++ ':' :: second
  match rest with
  | '.' :: rest =>
    let (digits, rest) := Decimal.spanDigits rest
    if digits.isEmpty then none
    return (whole ++ normalFraction digits, rest)
  | _ => return (whole, rest)

/-- An offset from universal time, which may be missing, up to the end of the text. -/
def readOffset : List Char → Option (List Char)
  | [] => some []
  | ['Z'] | ['z'] => some ['Z']
  | sign :: rest => do
    if sign ≠ '+' && sign ≠ '-' then none
    let (hour, rest) ← readField 0 23 rest
    let rest ← readMark ':' rest
    let (minute, rest) ← readField 0 59 rest
    if !rest.isEmpty then none
    let sign := if ofDigits hour = 0 && ofDigits minute = 0 then '+' else sign
    return sign :: hour ++ ':' :: minute

/-- The normal form of a date, a time, or both. -/
def readDatetime (cs : List Char) : Option String :=
  match readDate cs with
  | some (date, []) => some (String.ofList date)
  | some (date, mark :: rest) => do
    if mark ≠ 'T' && mark ≠ 't' then none
    let (time, rest) ← readTime rest
    let offset ← readOffset rest
    return String.ofList (date ++ 'T' :: time ++ offset)
  | none =>
    match readTime cs with
    | some (time, []) => some (String.ofList time)
    | _ => none

end RowConsole.Toml
