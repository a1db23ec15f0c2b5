import RowConsole.Decimal.Shortest

/-!
# Layouts of Decimals

How the shortest decimal of a double is laid out as text: when it is written positionally and when with an
exponent, and whether a whole number keeps a fraction.
-/

namespace RowConsole.Decimal

/-- The decisions of a layout. -/
structure Layout where
  /-- The least power of ten of the leading digit that is still written positionally. -/
  least? : Option Int
  /-- The greatest power of ten of the leading digit that is still written positionally. -/
  greatest? : Option Int
  /-- Whether a whole number written positionally ends in `.0`. -/
  keepsFraction : Bool

/-- Values are shown positionally from `0.0001` to below `10 ^ 16`, whole numbers with a fraction, and with
an exponent outside of that range. -/
def Layout.exact : Layout := ⟨some (-4), some 15, true⟩

/-- Numbers in messages are always positional, and whole numbers have no fraction. -/
def Layout.plain : Layout := ⟨none, none, false⟩

/-- A run of zeros. -/
def zeros (n : Nat) : String :=
  String.ofList (List.replicate n '0')

/-- A decimal with the point at its place. -/
def Scientific.positional (s : Scientific) (keepsFraction : Bool) : String :=
  let digits := toString s.digits
  if 0 ≤ s.exponent then
    digits ++ zeros s.exponent.toNat ++ if keepsFraction then ".0" else ""
  else
    let places := (-s.exponent).toNat
    if places < digits.length then
      String.ofList (digits.toList.take (digits.length - places)) ++ "."
        ++ String.ofList (digits.toList.drop (digits.length - places))
    else "0." ++ zeros (places - digits.length) ++ digits

/-- A decimal with one digit before the point and an exponent. -/
def Scientific.withExponent (s : Scientific) : String :=
  let digits := toString s.digits
  let power := s.exponent + (digits.length - 1 : Nat)
  let fraction := String.ofList (digits.toList.drop 1)
  String.ofList (digits.toList.take 1) ++ (if fraction.isEmpty then "" else "." ++ fraction)
    ++ "e" ++ toString power

/-- The text of a decimal in a layout. -/
def Layout.ofScientific (layout : Layout) (s : Scientific) : String :=
  let power := s.exponent + ((toString s.digits).length - 1 : Nat)
  if layout.least?.all (· ≤ power) && layout.greatest?.all (power ≤ ·) then
    s.positional layout.keepsFraction
  else s.withExponent

/-- The text of a double in a layout. -/
def Layout.ofFloat (layout : Layout) (x : Float) : String :=
  match magnitude x with
  | .undefined => "NaN"
  | .infinite => if isNegative x then "-inf" else "inf"
  | .finite m e boundary =>
    let text :=
      if m = 0 then if layout.keepsFraction then "0.0" else "0"
      else layout.ofScientific (shortest m e boundary)
    if isNegative x then "-" ++ text else text

end RowConsole.Decimal
