import RowConsole.Data.OrderedMap
import RowConsole.Decimal.Layout
import RowConsole.Script.Error
import RowConsole.Script.Tree

/-!
# Values

The values of the scripting language. Values never change: an update makes a new value. A function is
compared by identity, so every function value carries the serial number of its creation.
-/

namespace RowConsole.Script

/-! ## Section 1: The Type -/

/-- The functions that the language comes with. -/
inductive Builtin where
  | println | print | len | str | int | float | type | keys | range | inspect
  deriving DecidableEq, Repr

/-- Every builtin function. -/
def Builtin.all : List Builtin :=
  [.println, .print, .len, .str, .int, .float, .type, .keys, .range, .inspect]

/-- The name of a builtin function. -/
def Builtin.name : Builtin → String
  | .println => "println"
  | .print => "print"
  | .len => "len"
  | .str => "str"
  | .int => "int"
  | .float => "float"
  | .type => "type"
  | .keys => "keys"
  | .range => "range"
  | .inspect => "inspect"

/-- The builtin function of a name. -/
def Builtin.ofName? (name : String) : Option Builtin :=
  Builtin.all.find? fun b => b.name == name

/-- The objects of a session that scripts can name but not use. -/
inductive Handle where
  | repl | terminal | reader
  deriving DecidableEq, Repr

/-- Every handle, in the order in which a session binds them. -/
def Handle.all : List Handle := [.repl, .terminal, .reader]

/-- The name of a handle. -/
def Handle.name : Handle → String
  | .repl => "repl"
  | .terminal => "terminal"
  | .reader => "reader"

/-- Values. -/
inductive Value where
  | null
  | bool (b : Bool)
  | int (n : Int64)
  | float (x : Float)
  | str (s : String)
  | list (items : List Value)
  | map (entries : List (String × Value))
  /-- A function: what it runs, the serial number of its creation, and the locals that it keeps. -/
  | function (routine : Routine) (serial : Nat) (captured : List (String × Value))
  | builtin (b : Builtin)
  | handle (h : Handle)
  deriving Inhabited

namespace Value

/-! ## Section 2: Questions -/

/-- Whether a value is null. -/
def isNull : Value → Bool
  | .null => true
  | _ => false

/-- Whether a value can be called. -/
def isCallable : Value → Bool
  | .function _ _ _ | .builtin _ => true
  | _ => false

/-- The type of a value. -/
def type : Value → ValueType
  | .null => .null
  | .bool _ => .bool
  | .int _ => .int
  | .float _ => .float
  | .str _ => .string
  | .list _ => .list
  | .map _ => .map
  | .function routine _ _ => if routine.isClosure then .closure else .function
  | .builtin _ => .builtin
  | .handle _ => .handle

/-- What counts as true: all but null, false, zero and what is empty. -/
def truthy : Value → Bool
  | .null => false
  | .bool b => b
  | .int n => n != 0
  | .float x => x != 0.0
  | .str s => s != ""
  | .list items => !items.isEmpty
  | .map entries => !entries.isEmpty
  | .function _ _ _ | .builtin _ | .handle _ => true

/-- The double nearest to an integer. -/
def floatOfInt (n : Int64) : Float :=
  Float.ofInt n.toInt

/-- A number as a double. -/
def asFloat? : Value → Option Float
  | .int n => some (floatOfInt n)
  | .float x => some x
  | _ => none

/-! ## Section 3: Equality and Order -/

mutual

/-- Equality of values. Numbers are equal as doubles unless both are integers, maps are equal in any order of
their entries, and functions are equal only to themselves. -/
def equals : Value → Value → Bool
  | .null, .null => true
  | .bool a, .bool b => a == b
  | .int a, .int b => a == b
  | .str a, .str b => a == b
  | .list xs, .list ys => itemsEqual xs ys
  | .map m, .map n => m.length == n.length && entriesFound m n
  | .function _ a _, .function _ b _ => a == b
  | .builtin a, .builtin b => a == b
  | .handle a, .handle b => a == b
  | .int a, .float y => floatOfInt a == y
  | .float x, .int b => x == floatOfInt b
  | .float x, .float y => x == y
  | _, _ => false

/-- Equality of lists, item by item. -/
def itemsEqual : List Value → List Value → Bool
  | [], [] => true
  | x :: xs, y :: ys => equals x y && itemsEqual xs ys
  | _, _ => false

/-- Whether every entry of the first map has an equal value at its key in the second one. -/
def entriesFound : List (String × Value) → List (String × Value) → Bool
  | [], _ => true
  | (key, x) :: rest, n =>
    (match n.lookup key with
      | some y => equals x y
      | none => false) && entriesFound rest n

end

/-- The order of two doubles, if neither is undefined. -/
def compareFloats (x y : Float) : Option Ordering :=
  if x < y then some .lt
  else if y < x then some .gt
  else if x == y then some .eq
  else none

/-- The order of two values, if they are comparable: numbers among themselves, strings among themselves by
their characters, truth values with false first, and null before every other value. -/
def compare : Value → Value → Option Ordering
  | .int a, .int b => some (Ord.compare a.toInt b.toInt)
  | .str a, .str b => some (Ord.compare a b)
  | .bool a, .bool b => some (Ord.compare a b)
  | .null, .null => some .eq
  | .null, _ => some .lt
  | _, .null => some .gt
  | a, b =>
    match a.asFloat?, b.asFloat? with
    | some x, some y => compareFloats x y
    | _, _ => none

/-- Whether a list has an item equal to a value. -/
def isIn (items : List Value) (v : Value) : Bool :=
  items.any fun item => equals item v

end Value

end RowConsole.Script
