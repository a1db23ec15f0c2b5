import RowConsole.Script.Access
import RowConsole.Script.Builtin
import RowConsole.Script.Machine
import RowConsole.Script.Sort
import RowConsole.Text.LetterCase
import RowConsole.Text.Search

/-!
# Methods

The methods of lists, maps, strings and numbers. Some methods of lists and maps call a function for each
element; how a function is called is a parameter of this module.
-/

namespace RowConsole.Script

variable {γ : Type}

/-- How a value is called with arguments. -/
abbrev Caller (γ : Type) := Value → List Value → Run γ Value

/-! ## Section 1: Arguments -/

/-- The only argument, which has to be callable. -/
def closureArg (method : String) : List Value → Attempt Value
  | [f] => if f.isCallable then .ok f else failure (.expectsClosure method)
  | _ => failure (.expectsClosure method)

/-- The argument at a place, which has to be a string. -/
def stringArg (method : String) (args : List Value) (place : Nat) : Attempt String :=
  match args[place]? with
  | some (.str s) => .ok s
  | _ => failure (.expectsString method)

/-! ## Section 2: Calling a Function for Each Item -/

/-- Calls a function for every item in order; every item with the result for it. -/
def callEach (call : Caller γ) (f : Value) (items : List Value) :
    Run γ (List (Value × Value)) :=
  items.mapM fun item => do return (item, ← call f [item])

/-- Calls a function for the items in order until a result counts as true; that item, or null. -/
def findFirst (call : Caller γ) (f : Value) : List Value → Run γ Value
  | [] => return .null
  | item :: rest => do
    let result ← call f [item]
    if result.truthy then return item else findFirst call f rest

/-- The items whose result counts as true. -/
def chosen (results : List (Value × Value)) : List Value :=
  (results.filter fun r => r.2.truthy).map Prod.fst

/-- The items grouped by the displays of their results, in the order in which the displays first occur. -/
def grouped (results : List (Value × Value)) : OrderedMap (List Value) :=
  results.foldl (fun groups r =>
    let key := r.2.display
    OrderedMap.insert groups key ((OrderedMap.get? groups key).getD [] ++ [r.1])) []

/-! ## Section 3: Methods by Receiver -/

/-- The items of a list without those equal to an earlier one. -/
def uniqueItems (items : List Value) : List Value :=
  items.foldl (fun seen item => if Value.isIn seen item then seen else seen ++ [item]) []

/-- The sum of the items of a list, from zero and from the left. -/
def sumItems (items : List Value) : Attempt Value :=
  items.foldlM add (.int 0)

/-- The list of the second values, sorted by the first ones. -/
def sortedList (keyed : List (Value × Value)) : Attempt Value := do
  return .list (← sortByKey keyed)

/-- Sorts a list by its items, or by what a function makes of them. -/
def sortItems (call : Caller γ) (items args : List Value) : Run γ Value := do
  Run.ofResult (checkArity "sort" args 0 1)
  let keyed ← match args with
    | [] => pure (items.map fun item => (item, item))
    | f :: _ => do
      -- All keys are made before any are compared.
      let results ← callEach call f items
      pure (results.map fun r => (r.2, r.1))
  Run.ofResult (sortedList keyed)

/-- The methods of lists. -/
def listMethod (call : Caller γ) (items : List Value) (name : String) (args : List Value) :
    Run γ Value :=
  match name with
  | "size" => return countValue items.length
  | "isEmpty" => return .bool items.isEmpty
  | "first" => return items.head?.getD .null
  | "last" => return items.getLast?.getD .null
  | "get" => Run.ofResult do elementAt (.list items) (← oneArg "get" args)
  | "contains" => Run.ofResult do return .bool (Value.isIn items (← oneArg "contains" args))
  | "reverse" => return .list items.reverse
  | "unique" => return .list (uniqueItems items)
  | "take" => Run.ofResult do
    let n ← intArg "take" (← oneArg "take" args)
    -- A negative number takes nothing.
    return .list (items.take n.toInt.toNat)
  | "drop" => Run.ofResult do
    let n ← intArg "drop" (← oneArg "drop" args)
    return .list (items.drop n.toInt.toNat)
  | "join" => Run.ofResult do
    checkArity "join" args 0 1
    let separator := (args.head?.map Value.display).getD ""
    return .str (separator.intercalate (items.map Value.display))
  | "sum" => Run.ofResult (sumItems items)
  | "sort" => sortItems call items args
  | "find" => do findFirst call (← Run.ofResult (closureArg name args)) items
  | "filter" | "findAll" => do
    return .list (chosen (← callEach call (← Run.ofResult (closureArg name args)) items))
  | "map" | "collect" => do
    let results ← callEach call (← Run.ofResult (closureArg name args)) items
    return .list (results.map Prod.snd)
  | "each" => do
    -- The results are dropped; the list itself is the value.
    let _ ← callEach call (← Run.ofResult (closureArg name args)) items
    return .list items
  | "any" => do
    let results ← callEach call (← Run.ofResult (closureArg name args)) items
    return .bool (results.any fun r => r.2.truthy)
  | "every" => do
    let results ← callEach call (← Run.ofResult (closureArg name args)) items
    return .bool (results.all fun r => r.2.truthy)
  | "count" => do
    let results ← callEach call (← Run.ofResult (closureArg name args)) items
    return countValue (chosen results).length
  | "groupBy" => do
    let results ← callEach call (← Run.ofResult (closureArg name args)) items
    return .map ((grouped results).map fun (key, group) => (key, .list group))
  | _ => Run.fail (.noMethod name .list)

/-- What a function is called with for an entry of a map: key and value if it has two parameters, and
otherwise the entry as a map. -/
def entryArgs (f : Value) (key : String) (v : Value) : List Value :=
  match f with
  | .function routine _ _ =>
    if routine.params.length = 2 then [.str key, v] else [entryValue key v]
  | _ => [entryValue key v]

/-- The methods of maps. -/
def mapMethod (call : Caller γ) (entries : OrderedMap Value) (name : String) (args : List Value) :
    Run γ Value :=
  match name with
  | "size" => return countValue entries.length
  | "isEmpty" => return .bool entries.isEmpty
  | "keys" | "keySet" => Run.ofResult (keysOf (.map entries))
  | "values" => return .list (OrderedMap.values entries)
  | "get" => Run.ofResult do
    checkArity "get" args 1 2
    let found ← elementAt (.map entries) (args.head?.getD .null)
    match found, args[1]? with
    -- A null entry counts as missing here.
    | .null, some fallback => return fallback
    | found, _ => return found
  | "containsKey" => Run.ofResult do
    let key ← oneArg "containsKey" args
    return .bool (OrderedMap.contains entries key.keyText)
  | "each" => do
    let f ← Run.ofResult (closureArg "each" args)
    entries.forM fun (key, v) => do let _ ← call f (entryArgs f key v)
    return .map entries
  | _ => Run.fail (.noMethod name .map)

/-- The methods of strings. -/
def stringMethod (s : String) (name : String) (args : List Value) : Attempt Value :=
  match name with
  | "size" | "length" => .ok (countValue s.length)
  | "isEmpty" => .ok (.bool (s == ""))
  | "toUpperCase" => .ok (.str (Text.toUpper s))
  | "toLowerCase" => .ok (.str (Text.toLower s))
  | "trim" => .ok (.str (Text.trim s))
  | "contains" => do
    return .bool (Text.occursIn (← stringArg name args 0).toList s.toList)
  | "startsWith" => do
    return .bool (Text.startsWith (← stringArg name args 0).toList s.toList)
  | "endsWith" => do
    return .bool (Text.endsWith (← stringArg name args 0).toList s.toList)
  | "replace" => do
    let old ← stringArg name args 0
    return .str (Text.replaceAll old (← stringArg name args 1) s)
  | "split" =>
    match args with
    | [] => .ok (.list ((Text.words s).map .str))
    | _ => do return .list ((Text.splitBy (← stringArg name args 0) s).map .str)
  | "toInteger" => toIntValue (.str s)
  | _ => failure (.noMethod name .string)

/-- A method of a value. -/
def invokeMethod (call : Caller γ) (receiver : Value) (name : String) (args : List Value) :
    Run γ Value :=
  match name with
  | "toString" => return .str receiver.display
  | "inspect" => return .str receiver.inspect
  | _ =>
    match receiver with
    | .list items => listMethod call items name args
    | .map entries => mapMethod call entries name args
    | .str s => Run.ofResult (stringMethod s name args)
    | .null => Run.fail (.methodOfNull name)
    | .int n =>
      -- The least integer has no absolute value among the integers.
      if name = "abs" then Run.ofResult (checked n.toInt.natAbs)
      else Run.fail (.noMethod name .int)
    | .float x =>
      if name = "abs" then return .float x.abs else Run.fail (.noMethod name .float)
    | f =>
      if f.isCallable && name = "call" then call f args else Run.fail (.noMethod name f.type)

end RowConsole.Script
