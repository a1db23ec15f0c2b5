import RowConsole.Script.Value

/-!
# Values as Text

Three texts of a value: how it is displayed, how it appears inside other values, where strings are quoted,
and a structural dump that names types and shows nesting by indentation.
-/

namespace RowConsole.Script

/-- The text of a double: the fewest digits that read back, with an exponent outside `0.0001` to `10 ^ 16`. -/
def floatText (x : Float) : String :=
  Decimal.Layout.exact.ofFloat x

namespace Value

/-! ## Section 1: Display -/

/-- The text of a function: its type, its name and its parameters. -/
def functionText (r : Routine) : String :=
  let type := if r.isClosure then ValueType.closure else ValueType.function
  "<" ++ type.name ++ " " ++ r.displayName ++ "(" ++ ", ".intercalate r.params ++ ")>"

mutual

/-- The text of a value; a string stands in quotes only if `quoted`, but always inside another value. -/
def text (quoted : Bool) : Value → String
  | .null => "null"
  | .bool b => if b then "true" else "false"
  | .int n => toString n
  | .float x => floatText x
  | .str s => if quoted then "'" ++ s ++ "'" else s
  | .list items => "[" ++ ", ".intercalate (itemTexts items) ++ "]"
  | .map entries =>
    if entries.isEmpty then "[:]" else "[" ++ ", ".intercalate (entryTexts entries) ++ "]"
  | .function r _ _ => functionText r
  | .builtin b => "<builtin " ++ b.name ++ ">"
  | .handle h => "<" ++ h.name ++ ">"

/-- The texts of the items of a list. -/
def itemTexts : List Value → List String
  | [] => []
  | v :: rest => text true v :: itemTexts rest

/-- The texts of the entries of a map. -/
def entryTexts : List (String × Value) → List String
  | [] => []
  | (key, v) :: rest => (key ++ ":" ++ text true v) :: entryTexts rest

end

/-- How a value is displayed: a string as it is. -/
def display (v : Value) : String := text false v

/-- How a value appears inside another one: a string in single quotes. -/
def repr (v : Value) : String := text true v

/-- The key of a map that a value stands for: its display. -/
def keyText (v : Value) : String := v.display

/-- The type of a value around its representation. -/
def debugText (v : Value) : String :=
  v.type.name ++ "(" ++ v.repr ++ ")"

/-! ## Section 2: Structural Dumps -/

/-- Containers nested deeper than this are not opened in a dump. -/
def dumpDepth : Nat := 6

/-- The number of items or entries of one container that a dump shows. -/
def dumpItems : Nat := 50

/-- The start of a line of a dump inside `depth + 1` containers. -/
def dumpLine (depth : Nat) : String :=
  "\n" ++ String.join (List.replicate (depth + 1) "  ")

mutual

/-- The dump of a value inside `depth` containers. -/
def dump (depth : Nat) : Value → String
  | .null => "null"
  | .list items =>
    "list (" ++ toString items.length ++ " items)"
      ++ if dumpDepth ≤ depth then " ..." else dumpItemsFrom depth 0 items
  | .map entries =>
    "map (" ++ toString entries.length ++ " entries)"
      ++ if dumpDepth ≤ depth then " ..." else dumpEntriesFrom depth 0 entries
  | .bool b => "bool " ++ (Value.bool b).repr
  | .int n => "int " ++ (Value.int n).repr
  | .float x => "float " ++ (Value.float x).repr
  | .str s => "string " ++ (Value.str s).repr
  | .function r serial captured =>
    (Value.function r serial captured).type.name ++ " " ++ functionText r
  | .builtin b => "builtin " ++ (Value.builtin b).repr
  | .handle h => "handle " ++ (Value.handle h).repr

/-- The dumps of the items of a list from an index onwards. -/
def dumpItemsFrom (depth index : Nat) : List Value → String
  | [] => ""
  | v :: rest =>
    if dumpItems ≤ index then dumpLine depth ++ "... " ++ toString (rest.length + 1) ++ " more"
    else dumpLine depth ++ "[" ++ toString index ++ "] " ++ dump (depth + 1) v
      ++ dumpItemsFrom depth (index + 1) rest

/-- The dumps of the entries of a map from an index onwards. -/
def dumpEntriesFrom (depth index : Nat) : List (String × Value) → String
  | [] => ""
  | (key, v) :: rest =>
    if dumpItems ≤ index then dumpLine depth ++ "... " ++ toString (rest.length + 1) ++ " more"
    else dumpLine depth ++ key ++ ": " ++ dump (depth + 1) v
      ++ dumpEntriesFrom depth (index + 1) rest

end

/-- The structural dump of a value. -/
def inspect (v : Value) : String := dump 0 v

end Value

end RowConsole.Script
