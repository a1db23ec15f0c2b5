/-!
# Doubles as Integers Times Powers of Two

The bits of a double spelled out: its sign, and either a special value or an exact magnitude
`mantissa * 2 ^ exponent` with natural mantissa and integer exponent.
-/

namespace RowConsole.Decimal

/-- What a double stands for, its sign aside. -/
inductive Magnitude where
  /-- Not a number. -/
  | undefined
  /-- An infinite quantity. -/
  | infinite
  /-- The quantity `mantissa * 2 ^ exponent`. `boundary` marks a power of two whose lower neighbour lies only
  half as far away as its upper one. -/
  | finite (mantissa : Nat) (exponent : Int) (boundary : Bool)
  deriving DecidableEq, Repr

/-- The magnitude that 63 bits below the sign stand for. -/
def Magnitude.ofBits (bits : Nat) : Magnitude :=
  let field : Nat := bits / Nat.pow 2 52 % Nat.pow 2 11
  let fraction : Nat := bits % Nat.pow 2 52
  if field = 2047 then
    if fraction = 0 then .infinite else .undefined
  else if field = 0 then .finite fraction (-1074) false
  else .finite (fraction + Nat.pow 2 52) (field - 1075) (fraction = 0 ∧ 1 < field)

/-- Whether the sign bit of a double is set. -/
def isNegative (x : Float) : Bool :=
  x.toBits.toNat / Nat.pow 2 63 = 1

/-- The magnitude of a double. -/
def magnitude (x : Float) : Magnitude :=
  Magnitude.ofBits (x.toBits.toNat % Nat.pow 2 63)

/-! ## Remainder -/

/-- The double `n * 2 ^ e`, for a quantity that a double can hold exactly. -/
def ofInteger (n : Nat) (e : Int) : Float :=
  Float.scaleB (Float.ofNat n) e

/-- The remainder of the division of one double by another, the quotient being cut off at the integer
toward zero. It is exact and has the sign of the dividend; there is none by zero or of an infinite quantity. -/
def remainder (x y : Float) : Float :=
  match magnitude x, magnitude y with
  | .finite m e _, .finite n f _ =>
    if n = 0 then 0.0 / 0.0
    else
      let low := min e f
      let rest := (m * Nat.pow 2 (e - low).toNat) % (n * Nat.pow 2 (f - low).toNat)
      let size := ofInteger rest low
      if isNegative x then -size else size
  | .finite _ _ _, .infinite => x
  | _, _ => 0.0 / 0.0

end RowConsole.Decimal
