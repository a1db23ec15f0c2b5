import RowConsole.Script.Operation
import RowConsole.Text.Blank

/-!
# Builtin Functions

What the functions of the language compute from their arguments. None of them calls back into a script; the
two that write return the text that they write.
-/

namespace RowConsole.Script

/-! ## Section 1: Arguments -/

/-- Fails unless the number of arguments lies between two bounds. -/
def checkArity (name : String) (args : List Value) (least most : Nat) : Attempt Unit :=
  if args.length < least ∨ most < args.length then
    let expected :=
      if least = most then toString least else toString least ++ " to " ++ toString most
    failure (.arity name expected args.length)
  else .ok ()

/-- The only argument of a function. -/
def oneArg (name : String) : List Value → Attempt Value
  | [v] => .ok v
  | args => failure (.arity name "1" args.length)

/-- An argument that has to be an integer. -/
def intArg (name : String) : Value → Attempt Int64
  | .int n => .ok n
  | v => failure (.expectsInt name v.type)

/-! ## Section 2: Conversions and Sizes -/

/-- The number of items, entries or characters of a value. -/
def sizeOf? : Value → Attempt Nat
  | .list items => .ok items.length
  | .map entries => .ok entries.length
  | .str s => .ok s.length
  | v => failure (.noSize v.type)

/-- A count as a value. -/
def countValue (n : Nat) : Value :=
  .int (Int64.ofNat n)

/-- A value as an integer: a double is cut off toward zero and brought into range, a truth value counts as
zero or one, and a string is read. -/
def toIntValue : Value → Attempt Value
  | .int n => .ok (.int n)
  | .float x =>
    if x.isFinite then .ok (.int x.toInt64) else failure (.cannotConvert .float .int)
  | .bool b => .ok (.int (if b then 1 else 0))
  | .str s =>
    match Decimal.readInt (Text.trimChars s.toList) with
    | some n => .ok (.int n)
    | none => failure (.unreadableNumber s .int)
  | v => failure (.cannotConvert v.type .int)

/-- A value as a double: a number, or a string that is read. -/
def toFloatValue : Value → Attempt Value
  | .str s =>
    match Decimal.readFloat (Text.trimChars s.toList) with
    | some x => .ok (.float x)
    | none => failure (.unreadableNumber s .float)
  | v =>
    match v.asFloat? with
    | some x => .ok (.float x)
    | none => failure (.cannotConvert v.type .float)

/-- The keys of a map. -/
def keysOf : Value → Attempt Value
  | .map entries => .ok (.list ((OrderedMap.keys entries).map .str))
  | v => failure (.keysOf v.type)

/-- The length of the longest list of consecutive integers. -/
def rangeLimit : Nat := 1000000

/-- The integers from a start to before an end. -/
def rangeValue (start finish : Int64) : Attempt Value :=
  let count := finish.toInt - start.toInt
  if rangeLimit < count then failure (.rangeTooLong rangeLimit)
  else
    .ok (.list ((List.range count.toNat).map fun (i : Nat) => .int (Int64.ofInt (start.toInt + i))))

/-! ## Section 3: Application -/

/-- The displays of values with a space between them. -/
def joinDisplays (args : List Value) : String :=
  " ".intercalate (args.map Value.display)

/-- The value of a builtin function for its arguments, and what it writes if it writes. -/
def Builtin.apply (b : Builtin) (args : List Value) : Attempt (Value × Option String) :=
  match b with
  | .println => .ok (.null, some (joinDisplays args ++ "\n"))
  | .print => .ok (.null, some (joinDisplays args))
  | .len => do
    let size ← sizeOf? (← oneArg "len" args)
    return (countValue size, none)
  | .str => do return (.str (← oneArg "str" args).display, none)
  | .int => do return (← toIntValue (← oneArg "int" args), none)
  | .float => do return (← toFloatValue (← oneArg "float" args), none)
  | .type => do return (.str (← oneArg "type" args).type.name, none)
  | .keys => do return (← keysOf (← oneArg "keys" args), none)
  | .range =>
    match args with
    | [finish] => do return (← rangeValue 0 (← intArg "range" finish), none)
    | [start, finish] => do
      let start ← intArg "range" start
      return (← rangeValue start (← intArg "range" finish), none)
    | _ => failure (.arity "range" "1 to 2" args.length)
  | .inspect => do return (.str (← oneArg "inspect" args).inspect, none)

end RowConsole.Script
