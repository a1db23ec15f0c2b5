import RowConsole.Proofs.Script.Positions
import RowConsole.Script.Access
import RowConsole.Script.Builtin

/-!
# Values at Moved Positions

A value holds positions only in the bodies of its functions, and no operation on values looks at them: what it
makes of values with moved positions is what it makes of the values, with moved positions.

Main statements: one for each operation, among them `equals_mapPos`, `applyBinary_mapPos` and
`builtin_mapPos`.
-/

namespace RowConsole.Script

/-! ## Section 1: Moved Values -/

/-- A routine whose positions are moved. -/
def Routine.mapPos (f : Pos → Pos) (r : Routine) : Routine :=
  { r with body := mapPosStmts f r.body }

mutual

/-- A value whose positions are moved. -/
def Value.mapPos (f : Pos → Pos) : Value → Value
  | .list items => .list (mapPosItems f items)
  | .map entries => .map (mapPosFields f entries)
  | .function routine serial captured => .function (routine.mapPos f) serial (mapPosFields f captured)
  | v => v

/-- Items whose positions are moved. -/
def mapPosItems (f : Pos → Pos) : List Value → List Value
  | [] => []
  | v :: rest => v.mapPos f :: mapPosItems f rest

/-- Entries whose positions are moved. -/
def mapPosFields (f : Pos → Pos) : List (String × Value) → List (String × Value)
  | [] => []
  | (key, v) :: rest => (key, v.mapPos f) :: mapPosFields f rest

end

/-- Entries with other values at their keys. -/
def mapValues {α β : Type} (g : α → β) (m : OrderedMap α) : OrderedMap β :=
  m.map (Prod.map id g)

section Moved

variable (f : Pos → Pos)

/-- Items are moved one by one, so that what the library knows of `List.map` holds of them. -/
private theorem mapPosItems_eq (items : List Value) : mapPosItems f items = items.map (Value.mapPos f) := by
  induction items with
  | nil => rfl
  | cons v rest ih => rw [mapPosItems, ih, List.map_cons]

/-- Entries are moved as the values of a map, under the keys they had. -/
theorem mapPosFields_eq (entries : List (String × Value)) :
    mapPosFields f entries = mapValues (Value.mapPos f) entries := by
  induction entries with
  | nil => rfl
  | cons entry rest ih => rw [mapPosFields, ih, mapValues, mapValues, List.map_cons, Prod.map, id]

@[simp] theorem mapPos_null : Value.null.mapPos f = .null := rfl

@[simp] theorem mapPos_bool (b : Bool) : (Value.bool b).mapPos f = .bool b := rfl

@[simp] theorem mapPos_int (n : Int64) : (Value.int n).mapPos f = .int n := rfl

@[simp] theorem mapPos_float (x : Float) : (Value.float x).mapPos f = .float x := rfl

@[simp] theorem mapPos_str (s : String) : (Value.str s).mapPos f = .str s := rfl

@[simp] theorem mapPos_list (items : List Value) :
    (Value.list items).mapPos f = .list (items.map (Value.mapPos f)) := by
  rw [Value.mapPos, mapPosItems_eq]

@[simp] theorem mapPos_map (entries : OrderedMap Value) :
    (Value.map entries).mapPos f = .map (mapValues (Value.mapPos f) entries) := by
  rw [Value.mapPos, mapPosFields_eq]

@[simp] theorem mapPos_function (routine : Routine) (serial : Nat) (captured : OrderedMap Value) :
    (Value.function routine serial captured).mapPos f =
      .function (routine.mapPos f) serial (mapValues (Value.mapPos f) captured) := by
  rw [Value.mapPos, mapPosFields_eq]

@[simp] theorem mapPos_builtin (b : Builtin) : (Value.builtin b).mapPos f = .builtin b := rfl

@[simp] theorem mapPos_handle (h : Handle) : (Value.handle h).mapPos f = .handle h := rfl

/-! ## Section 2: Maps of Moved Values -/

variable {α β : Type} (g : α → β)

/-- No entry is lost where values are replaced. -/
@[simp] theorem length_mapValues (m : OrderedMap α) : (mapValues g m).length = m.length :=
  List.length_map _

@[simp] theorem isEmpty_mapValues (m : OrderedMap α) : (mapValues g m).isEmpty = m.isEmpty :=
  List.isEmpty_map

@[simp] theorem keys_mapValues (m : OrderedMap α) : OrderedMap.keys (mapValues g m) = OrderedMap.keys m := by
  simp [OrderedMap.keys, mapValues]

/-- The values of the new map are the new values, in the same order. -/
@[simp] theorem values_mapValues (m : OrderedMap α) :
    OrderedMap.values (mapValues g m) = (OrderedMap.values m).map g := by
  simp [OrderedMap.values, mapValues]

/-- Replacing values and looking a key up may change places. -/
theorem lookup_mapValues (m : OrderedMap α) (key : String) :
    List.lookup key (mapValues g m) = (m.lookup key).map g := by
  induction m with
  | nil => rfl
  | cons entry rest ih =>
    obtain ⟨k, v⟩ := entry
    -- both lookups stop at the same entry, or neither does
    show List.lookup key ((k, g v) :: mapValues g rest) = _
    rw [List.lookup_cons, List.lookup_cons]
    split
    · rfl
    · exact ih

@[simp] theorem get?_mapValues (m : OrderedMap α) (key : String) :
    OrderedMap.get? (mapValues g m) key = (OrderedMap.get? m key).map g :=
  lookup_mapValues g m key

/-- Which keys are there does not depend on the values. -/
@[simp] theorem contains_mapValues (m : OrderedMap α) (key : String) :
    OrderedMap.contains (mapValues g m) key = OrderedMap.contains m key := by
  simp [OrderedMap.contains]

/-- A new entry goes to the same place, whatever the values of the others are. -/
theorem insert_mapValues (m : OrderedMap α) (key : String) (a : α) :
    OrderedMap.insert (mapValues g m) key (g a) = mapValues g (OrderedMap.insert m key a) := by
  induction m with
  | nil => rfl
  | cons entry rest ih =>
    obtain ⟨k, v⟩ := entry
    -- the key is met here or further on, in both maps alike
    show OrderedMap.insert ((k, g v) :: mapValues g rest) key (g a) = _
    rw [OrderedMap.insert, OrderedMap.insert, ih]
    split <;> rfl

/-- Maps are merged by their keys: which entry is written over does not depend on the values. -/
theorem merge_mapValues (m other : OrderedMap α) :
    OrderedMap.merge (mapValues g m) (mapValues g other) = mapValues g (OrderedMap.merge m other) := by
  induction other generalizing m with
  | nil => rfl
  | cons entry rest ih =>
    show OrderedMap.merge (OrderedMap.insert (mapValues g m) entry.1 (g entry.2)) (mapValues g rest) = _
    rw [insert_mapValues, ih]
    rfl

/-- The map that a list of entries makes, from the merge with the empty map. -/
theorem ofEntries_mapValues (entries : List (String × α)) :
    OrderedMap.ofEntries (mapValues g entries) = mapValues g (OrderedMap.ofEntries entries) :=
  merge_mapValues g [] entries

/-! ## Section 3: Questions -/

@[simp] theorem isClosure_mapPos (r : Routine) : (r.mapPos f).isClosure = r.isClosure := rfl

@[simp] theorem displayName_mapPos (r : Routine) : (r.mapPos f).displayName = r.displayName := rfl

@[simp] theorem params_mapPos (r : Routine) : (r.mapPos f).params = r.params := rfl

/-- The only question on a routine whose answer is moved. -/
@[simp] theorem body_mapPos (r : Routine) : (r.mapPos f).body = mapPosStmts f r.body := rfl

@[simp] theorem isNull_mapPos (v : Value) : (v.mapPos f).isNull = v.isNull := by
  cases v <;> rfl

@[simp] theorem isCallable_mapPos (v : Value) : (v.mapPos f).isCallable = v.isCallable := by
  cases v <;> rfl

/-- A value keeps its form, and with it everything that is told from the form alone. -/
@[simp] theorem type_mapPos (v : Value) : (v.mapPos f).type = v.type := by
  cases v <;> rfl

/-- Lists and maps count by their lengths, which are kept. -/
@[simp] theorem truthy_mapPos (v : Value) : (v.mapPos f).truthy = v.truthy := by
  cases v <;> simp [Value.truthy]

@[simp] theorem asFloat?_mapPos (v : Value) : (v.mapPos f).asFloat? = v.asFloat? := by
  cases v <;> rfl

mutual

/-- Values are written without positions. A function shows its name only. -/
@[simp] theorem text_mapPos (quoted : Bool) (v : Value) : (v.mapPos f).text quoted = v.text quoted := by
  cases v with
  | list items => rw [Value.mapPos, Value.text, Value.text, itemTexts_mapPos items]
  | map entries =>
    -- an empty map is written as such, before any entry is looked at
    have hempty : (mapPosFields f entries).isEmpty = entries.isEmpty := by cases entries <;> rfl
    rw [Value.mapPos, Value.text, Value.text, hempty, entryTexts_mapPos entries]
  | _ => rfl

/-- The texts of items, with those of the items they hold. -/
private theorem itemTexts_mapPos (items : List Value) :
    Value.itemTexts (mapPosItems f items) = Value.itemTexts items := by
  cases items with
  | nil => rfl
  | cons v rest => rw [mapPosItems, Value.itemTexts, Value.itemTexts, text_mapPos true v, itemTexts_mapPos rest]

/-- The texts of entries, with those of the values they hold. -/
private theorem entryTexts_mapPos (entries : List (String × Value)) :
    Value.entryTexts (mapPosFields f entries) = Value.entryTexts entries := by
  cases entries with
  | nil => rfl
  | cons entry rest =>
    obtain ⟨key, v⟩ := entry
    rw [mapPosFields, Value.entryTexts, Value.entryTexts, text_mapPos true v, entryTexts_mapPos rest]

end

@[simp] theorem display_mapPos (v : Value) : (v.mapPos f).display = v.display := text_mapPos f false v

@[simp] theorem repr_mapPos (v : Value) : (v.mapPos f).repr = v.repr := text_mapPos f true v

@[simp] theorem keyText_mapPos (v : Value) : (v.mapPos f).keyText = v.keyText := display_mapPos f v

mutual

/-- The long form of a value: lengths decide where the lines break, and they are kept. -/
private theorem dump_mapPos (depth : Nat) (v : Value) : (v.mapPos f).dump depth = v.dump depth := by
  cases v with
  | list items =>
    have hlength : (mapPosItems f items).length = items.length := by simp [mapPosItems_eq]
    rw [Value.mapPos, Value.dump, Value.dump, hlength, dumpItemsFrom_mapPos depth 0 items]
  | map entries =>
    have hlength : (mapPosFields f entries).length = entries.length := by simp [mapPosFields_eq]
    rw [Value.mapPos, Value.dump, Value.dump, hlength, dumpEntriesFrom_mapPos depth 0 entries]
  | _ => rfl

private theorem dumpItemsFrom_mapPos (depth index : Nat) (items : List Value) :
    Value.dumpItemsFrom depth index (mapPosItems f items) = Value.dumpItemsFrom depth index items := by
  cases items with
  | nil => rfl
  | cons v rest =>
    have hlength : (mapPosItems f rest).length = rest.length := by simp [mapPosItems_eq]
    rw [mapPosItems, Value.dumpItemsFrom, Value.dumpItemsFrom, hlength, dump_mapPos (depth + 1) v,
      dumpItemsFrom_mapPos depth (index + 1) rest]

private theorem dumpEntriesFrom_mapPos (depth index : Nat) (entries : List (String × Value)) :
    Value.dumpEntriesFrom depth index (mapPosFields f entries) = Value.dumpEntriesFrom depth index entries := by
  cases entries with
  | nil => rfl
  | cons entry rest =>
    obtain ⟨key, v⟩ := entry
    have hlength : (mapPosFields f rest).length = rest.length := by simp [mapPosFields_eq]
    rw [mapPosFields, Value.dumpEntriesFrom, Value.dumpEntriesFrom, hlength, dump_mapPos (depth + 1) v,
      dumpEntriesFrom_mapPos depth (index + 1) rest]

end

@[simp] theorem inspect_mapPos (v : Value) : (v.mapPos f).inspect = v.inspect := dump_mapPos f 0 v

mutual

/-- Values with moved positions are equal exactly if the values are. -/
theorem equals_mapPos (v w : Value) : (v.mapPos f).equals (w.mapPos f) = v.equals w := by
  cases v with
  | list xs =>
    cases w with
    | list ys => rw [Value.mapPos, Value.mapPos, Value.equals, Value.equals, itemsEqual_mapPos xs ys]
    | _ => rfl
  | map m =>
    cases w with
    | map n =>
      have hlength : ∀ entries, (mapPosFields f entries).length = entries.length := by simp [mapPosFields_eq]
      rw [Value.mapPos, Value.mapPos, Value.equals, Value.equals, hlength, hlength, entriesFound_mapPos m n]
    | _ => rfl
  | _ => cases w <;> rfl

/-- Items are compared in pairs. -/
private theorem itemsEqual_mapPos (xs ys : List Value) :
    Value.itemsEqual (mapPosItems f xs) (mapPosItems f ys) = Value.itemsEqual xs ys := by
  cases xs with
  | nil => cases ys <;> rfl
  | cons x xs =>
    cases ys with
    | nil => rfl
    | cons y ys =>
      rw [mapPosItems, mapPosItems, Value.itemsEqual, Value.itemsEqual, equals_mapPos x y, itemsEqual_mapPos xs ys]

/-- Each entry is looked up under its key in the other map, which holds the moved value there. -/
private theorem entriesFound_mapPos (m n : List (String × Value)) :
    Value.entriesFound (mapPosFields f m) (mapPosFields f n) = Value.entriesFound m n := by
  cases m with
  | nil => rfl
  | cons entry rest =>
    obtain ⟨key, x⟩ := entry
    -- the other map is asked for a moved value by a lemma on lists, not by recursion on it
    rw [mapPosFields, Value.entriesFound, Value.entriesFound, entriesFound_mapPos rest n, mapPosFields_eq f n,
      lookup_mapValues]
    cases n.lookup key with
    | none => rfl
    | some y => exact congrArg (· && _) (equals_mapPos x y)

end

/-- A moved value is among moved items exactly if the value is among the items. -/
@[simp] theorem isIn_mapPos (items : List Value) (v : Value) :
    Value.isIn (items.map (Value.mapPos f)) (v.mapPos f) = Value.isIn items v := by
  simp [Value.isIn, List.any_map, Function.comp_def, equals_mapPos]

/-- Only null, numbers and texts are ordered, and they hold no position. -/
@[simp] theorem compare_mapPos (v w : Value) : (v.mapPos f).compare (w.mapPos f) = v.compare w := by
  cases v <;> cases w <;> rfl

end Moved

end RowConsole.Script
