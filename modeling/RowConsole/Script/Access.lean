import RowConsole.Script.Value.Text

/-!
# Parts of Values

Reading and replacing the parts of lists, maps and strings, and the elements that a loop visits. A negative
index counts from the end.
-/

namespace RowConsole.Script

/-! ## Section 1: Positions -/

/-- The place that an index names among `length` elements. -/
def resolveIndex (index : Int64) (length : Nat) : Option Nat :=
  let place : Int := if index < 0 then length + index.toInt else index.toInt
  if 0 ≤ place ∧ place < length then some place.toNat else none

/-! ## Section 2: Reading -/

mutual

/-- The property of a value: the value at a key of a map, or null; for a list, the list of the properties of
its items. -/
def member (name : String) : Value → Attempt Value
  | .map entries => .ok ((entries.lookup name).getD .null)
  | .list items => do return .list (← memberOfEach name items)
  | .null => failure (.propertyOfNull name)
  | v => failure (.noProperty name v.type)

/-- The property of every item of a list. -/
def memberOfEach (name : String) : List Value → Attempt (List Value)
  | [] => .ok []
  | v :: rest => do
    let first ← member name v
    return first :: (← memberOfEach name rest)

end

/-- The element of a value at an index: null where a list or a map has none, and a failure where a string has
none. -/
def elementAt (container index : Value) : Attempt Value :=
  match container, index with
  | .list items, .int i =>
    .ok (((resolveIndex i items.length).bind fun place => items[place]?).getD .null)
  | .map entries, key => .ok ((entries.lookup key.keyText).getD .null)
  | .str s, .int i =>
    let cs := s.toList
    match (resolveIndex i cs.length).bind fun place => cs[place]? with
    | some c => .ok (.str (String.singleton c))
    | none => failure (.stringIndexOutOfRange i)
  | .null, _ => failure .indexOfNull
  | container, index => failure (.cannotIndex container.type index.type)

/-! ## Section 3: Replacing -/

/-- A map with a property written. -/
def setMember (container : Value) (name : String) (v : Value) : Attempt Value :=
  match container with
  | .map entries => .ok (.map (OrderedMap.insert entries name v))
  | other => failure (.cannotSetProperty name other.type)

/-- A list or a map with an element written; the index one behind the last item extends a list. -/
def setElement (container index v : Value) : Attempt Value :=
  match container, index with
  | .list items, .int i =>
    match resolveIndex i items.length with
    | some place => .ok (.list (items.set place v))
    | none =>
      if i.toInt = items.length then .ok (.list (items ++ [v]))
      else failure (.listIndexOutOfRange i)
  | .map entries, key => .ok (.map (OrderedMap.insert entries key.keyText v))
  | container, index => failure (.cannotIndex container.type index.type)

/-! ## Section 4: Visiting -/

/-- An entry of a map as a map of its key and its value. -/
def entryValue (key : String) (v : Value) : Value :=
  .map [("key", .str key), ("value", v)]

/-- The elements that a loop over a value visits: items, entries or characters, and none of null. -/
def elements : Value → Attempt (List Value)
  | .list items => .ok items
  | .map entries => .ok (entries.map fun (key, v) => entryValue key v)
  | .str s => .ok (s.toList.map fun c => .str (String.singleton c))
  | .null => .ok []
  | v => failure (.cannotIterate v.type)

end RowConsole.Script
