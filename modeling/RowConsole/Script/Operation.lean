import RowConsole.Decimal.Numeral
import RowConsole.Script.Value.Text

/-!
# Operations on Values

Arithmetic, comparison and joining of two values. Arithmetic on integers is exact and fails where the result
does not fit in 64 bits; a division of integers that leaves a remainder is a division of doubles. Two operations
break down where they should fail: a division asks for the remainder before it looks at the quotient, and a
string is repeated without a look at its length.
-/

namespace RowConsole.Script

/-! ## Section 1: Integers -/

/-- An exact result as an integer of 64 bits. -/
def checked (n : Int) : Attempt Value :=
  match Decimal.toInt64? n with
  | some n => .ok (.int n)
  | none => failure .overflow

/-- The failure of an operator on values of the wrong types. -/
def operandFailure (op : BinaryOp) (left right : Value) : Attempt Value :=
  failure (.operands op left.type right.type)

/-- Arithmetic on two integers. -/
def intArithmetic (op : BinaryOp) (a b : Int64) : Attempt Value :=
  match op with
  | .add => checked (a.toInt + b.toInt)
  | .sub => checked (a.toInt - b.toInt)
  | .mul => checked (a.toInt * b.toInt)
  | .div =>
    if b = 0 then failure .divisionByZero
    -- The remainder is taken first, and breaks down where the quotient does not fit.
    else if !Decimal.fits64 (a.toInt.tdiv b.toInt) then crash .remainderOverflow
    else if a.toInt.tmod b.toInt ≠ 0 then .ok (.float (Value.floatOfInt a / Value.floatOfInt b))
    else checked (a.toInt.tdiv b.toInt)
  | .rem =>
    if b = 0 then failure .divisionByZero
    -- The quotient has to fit as well.
    else if Decimal.fits64 (a.toInt.tdiv b.toInt) then checked (a.toInt.tmod b.toInt)
    else failure .overflow
  | _ => operandFailure op (.int a) (.int b)

/-- The negative of a number. -/
def negate : Value → Attempt Value
  | .int n => checked (-n.toInt)
  | .float x => .ok (.float (-x))
  | v => failure (.cannotNegate v.type)

/-! ## Section 2: Numbers -/

/-- Arithmetic on two doubles that stand for given values. -/
def floatArithmetic (op : BinaryOp) (left right : Value) (x y : Float) : Attempt Value :=
  match op with
  | .add => .ok (.float (x + y))
  | .sub => .ok (.float (x - y))
  | .mul => .ok (.float (x * y))
  | .div => if y == 0.0 then failure .divisionByZero else .ok (.float (x / y))
  | .rem => if y == 0.0 then failure .divisionByZero else .ok (.float (Decimal.remainder x y))
  | _ => operandFailure op left right

/-- Arithmetic on two values that have to be numbers. -/
def arithmetic (op : BinaryOp) (left right : Value) : Attempt Value :=
  match left, right with
  | .int a, .int b => intArithmetic op a b
  | _, _ =>
    match left.asFloat?, right.asFloat? with
    | some x, some y => floatArithmetic op left right x y
    | _, _ => operandFailure op left right

/-! ## Section 3: All Operators -/

/-- A question about the order of two values, which have to be comparable. -/
def ordered (holds : Ordering → Bool) (left right : Value) : Attempt Value :=
  match left.compare right with
  | some o => .ok (.bool (holds o))
  | none => failure (.incomparable left.type right.type)

/-- The number of bytes that a string can have at most. -/
def stringCapacity : Nat := Nat.pow 2 63 - 1

/-- A string repeated; the empty string stays empty. A string that is too long for any memory breaks the program
down. -/
def repeated (s : String) (n : Nat) : Attempt String :=
  if s.isEmpty then .ok ""
  else if stringCapacity < s.utf8ByteSize * n then crash .capacityOverflow
  else .ok (String.join (List.replicate n s))

/-- The sum of two values: strings take the display of the other side, lists are joined or extended, maps are
merged, and numbers are added. -/
def add (left right : Value) : Attempt Value :=
  match left, right with
  | .str a, b => .ok (.str (a ++ b.display))
  | .int a, .str b => .ok (.str ((Value.int a).display ++ b))
  | .float a, .str b => .ok (.str ((Value.float a).display ++ b))
  | .list a, .list b => .ok (.list (a ++ b))
  | .list a, b => .ok (.list (a ++ [b]))
  | .map a, .map b => .ok (.map (OrderedMap.merge a b))
  | left, right => arithmetic .add left right

/-- The difference of two values: a list without the items of another list or without a value, or the
difference of numbers. -/
def subtract (left right : Value) : Attempt Value :=
  match left, right with
  | .list a, .list b => .ok (.list (a.filter fun item => !Value.isIn b item))
  | .list a, b => .ok (.list (a.filter fun item => !item.equals b))
  | left, right => arithmetic .sub left right

/-- The product of two values: a string repeated, or the product of numbers. -/
def multiply (left right : Value) : Attempt Value :=
  match left, right with
  | .str s, .int n =>
    if n < 0 then failure .negativeRepeat
    else do return .str (← repeated s n.toInt.toNat)
  | left, right => arithmetic .mul left right

/-- An operator applied to two values. -/
def applyBinary (op : BinaryOp) (left right : Value) : Attempt Value :=
  match op with
  | .eq => .ok (.bool (left.equals right))
  | .ne => .ok (.bool (!left.equals right))
  | .lt => ordered Ordering.isLT left right
  | .le => ordered Ordering.isLE left right
  | .gt => ordered Ordering.isGT left right
  | .ge => ordered Ordering.isGE left right
  | .add => add left right
  | .sub => subtract left right
  | .mul => multiply left right
  | .div => arithmetic .div left right
  | .rem => arithmetic .rem left right

/-- An operator applied to one value. -/
def applyUnary (op : UnaryOp) (v : Value) : Attempt Value :=
  match op with
  | .not => .ok (.bool (!v.truthy))
  | .neg => negate v

end RowConsole.Script
