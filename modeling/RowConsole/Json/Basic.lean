import RowConsole.Data.OrderedMap
import RowConsole.Script.Value

/-!
# JSON Values

Documents as trees, and the script values that they stand for. Members of an object keep their order; a
repeated name keeps its first place and takes its last value.
-/

namespace RowConsole

/-- JSON documents. Numbers are integers of 64 bits where they are written as such and fit, and doubles
otherwise. -/
inductive Json where
  | null
  | bool (b : Bool)
  | int (n : Int64)
  | float (x : Float)
  | string (s : String)
  | array (items : List Json)
  /-- The members as written. -/
  | object (members : List (String × Json))

namespace Json

open Script (Value)

mutual

/-- The script value of a document: arrays are lists and objects are maps. -/
def toValue : Json → Value
  | .null => .null
  | .bool b => .bool b
  | .int n => .int n
  | .float x => .float x
  | .string s => .str s
  | .array items => .list (itemValues items)
  | .object members => .map (OrderedMap.ofEntries (memberValues members))

/-- The script values of the items of an array. -/
def itemValues : List Json → List Value
  | [] => []
  | j :: rest => toValue j :: itemValues rest

/-- The script values of the members of an object. -/
def memberValues : List (String × Json) → List (String × Value)
  | [] => []
  | (name, j) :: rest => (name, toValue j) :: memberValues rest

end

end Json

end RowConsole
