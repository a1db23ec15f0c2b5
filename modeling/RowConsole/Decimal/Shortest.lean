import RowConsole.Decimal.Binary

/-!
# Shortest Decimals

The decimal with the fewest digits that reads back as a given double; of several, the one nearest to it, and
of two equally near, the larger. All comparisons are made on integers, so nothing is rounded on the way.

A double `m * 2 ^ e` is read back from every real strictly between the midpoints to its two neighbours, and
from the midpoints themselves when `m` is even. For each number of digits only two decimals need to be tried:
the last one not above the double, and its successor.
-/

namespace RowConsole.Decimal

/-- The decimal `digits * 10 ^ exponent`. -/
structure Scientific where
  digits : Nat
  exponent : Int
  deriving DecidableEq, Repr

/-- A positive quantity and the interval of quantities that round to it, over a common denominator. -/
structure Interval where
  low : Nat
  middle : Nat
  high : Nat
  unit : Nat
  /-- Whether the ends belong to the interval. -/
  closed : Bool

/-- The quantities that round to the double `m * 2 ^ e`. -/
def Interval.ofFinite (m : Nat) (e : Int) (boundary : Bool) : Interval :=
  let up := Nat.pow 2 (e - 2).toNat
  { low := (4 * m - if boundary then 1 else 2) * up
    middle := 4 * m * up
    high := (4 * m + 2) * up
    unit := Nat.pow 2 (2 - e).toNat
    closed := m % 2 = 0 }

/-- The interval counted in units of `10 ^ k`. -/
def Interval.scale (i : Interval) (k : Int) : Interval :=
  let down := Nat.pow 10 (-k).toNat
  { i with
    low := i.low * down
    middle := i.middle * down
    high := i.high * down
    unit := i.unit * Nat.pow 10 k.toNat }

/-- Whether the interval holds the whole number `n`. -/
def Interval.holds (i : Interval) (n : Nat) : Bool :=
  if i.closed then i.low ≤ n * i.unit && n * i.unit ≤ i.high
  else i.low < n * i.unit && n * i.unit < i.high

/-- The whole number of the interval nearest to its middle, among the two around the middle. -/
def Interval.nearest? (i : Interval) : Option Nat :=
  let below := i.middle / i.unit
  let above := below + 1
  match i.holds below, i.holds above with
  | true, true =>
    if i.middle - below * i.unit < above * i.unit - i.middle then some below else some above
  | true, false => some below
  | false, true => some above
  | false, false => none

/-- How often a positive quantity below one must be multiplied by ten to reach one. -/
def leadingZeros (fuel : Nat) (numerator denominator : Nat) : Nat :=
  match fuel with
  | 0 => 0
  | fuel + 1 =>
    if denominator ≤ numerator then 0 else leadingZeros fuel (numerator * 10) denominator + 1

/-- The number `k` for which the middle of the interval lies from `10 ^ (k - 1)` to below `10 ^ k`. -/
def Interval.order (i : Interval) : Int :=
  if i.unit ≤ i.middle then (Nat.toDigits 10 (i.middle / i.unit)).length
  else 1 - leadingZeros 400 i.middle i.unit

/-- The first decimal found with at least `count` digits, after which `more` further lengths are tried. -/
def Interval.shortestFrom (i : Interval) (order : Int) (count more : Nat) : Scientific :=
  let exponent := order - count
  match (i.scale exponent).nearest? with
  | some digits => ⟨digits, exponent⟩
  | none =>
    match more with
    | 0 => ⟨(i.scale exponent).middle / (i.scale exponent).unit, exponent⟩
    | more + 1 => i.shortestFrom order (count + 1) more

/-- A decimal without its trailing zeros. -/
def Scientific.trim (fuel : Nat) (s : Scientific) : Scientific :=
  match fuel with
  | 0 => s
  | fuel + 1 =>
    if s.digits % 10 = 0 ∧ s.digits ≠ 0 then
      Scientific.trim fuel ⟨s.digits / 10, s.exponent + 1⟩
    else s

/-- The shortest decimal of the positive double `m * 2 ^ e`; seventeen digits always suffice. -/
def shortest (m : Nat) (e : Int) (boundary : Bool) : Scientific :=
  let i := Interval.ofFinite m e boundary
  (i.shortestFrom i.order 1 16).trim 20

end RowConsole.Decimal
