import RowConsole.Proofs.Script.Moved.Values
import RowConsole.Script.Method

/-!
# Operations at Moved Positions

What the operators, the parts of values, the builtin functions and the methods that call nothing make of values
with moved positions is what they make of the values, with moved positions.

Main statements: `applyBinary_mapPos`, `elementAt_mapPos`, `setElement_mapPos`, `builtin_mapPos` and
`sortByKey_mapPos`.
-/

namespace RowConsole.Script

/-- A result that is a value, at moved positions. -/
abbrev moveValue (f : Pos → Pos) : Attempt Value → Attempt Value :=
  moveAttempt f (Value.mapPos f)

section Operators

variable (f : Pos → Pos)

/-! ## Section 1: Operators -/

/-- An integer that is in range has no position, and neither has an overflow. -/
@[simp] theorem moveValue_checked (n : Int) : moveValue f (checked n) = checked n := by
  unfold checked
  split <;> rfl

/-- A refusal names the types of the operands, which are kept. -/
@[simp] theorem operandFailure_mapPos (op : BinaryOp) (left right : Value) :
    operandFailure op (left.mapPos f) (right.mapPos f) = moveValue f (operandFailure op left right) := by
  simp [operandFailure]

/-- Arithmetic on integers makes numbers and failures without positions. -/
private theorem moveValue_intArithmetic (op : BinaryOp) (a b : Int64) :
    moveValue f (intArithmetic op a b) = intArithmetic op a b := by
  -- in the order of the definition: addition, subtraction, product, quotient, remainder, and no arithmetic at all
  unfold intArithmetic
  split
  · exact moveValue_checked f _
  · exact moveValue_checked f _
  · exact moveValue_checked f _
  · split
    · rfl
    · split
      · rfl
      · split
        · rfl
        · exact moveValue_checked f _
  · split
    · rfl
    · split
      · exact moveValue_checked f _
      · rfl
  · exact (operandFailure_mapPos f op (.int a) (.int b)).symm

/-- The operands themselves are only named in a refusal. -/
private theorem floatArithmetic_mapPos (op : BinaryOp) (left right : Value) (x y : Float) :
    floatArithmetic op (left.mapPos f) (right.mapPos f) x y = moveValue f (floatArithmetic op left right x y) := by
  unfold floatArithmetic
  split
  · rfl
  · rfl
  · rfl
  · split <;> rfl
  · split <;> rfl
  · exact operandFailure_mapPos f op left right

@[simp] theorem mapPos_eq_int_iff {v : Value} {n : Int64} : v.mapPos f = .int n ↔ v = .int n := by
  cases v <;> simp

/-- Arithmetic on values that are not both integers. -/
theorem arithmetic_eq {op : BinaryOp} {left right : Value} (h : ∀ a b, left = .int a → right ≠ .int b) :
    arithmetic op left right =
      match left.asFloat?, right.asFloat? with
      | some x, some y => floatArithmetic op left right x y
      | _, _ => operandFailure op left right := by
  unfold arithmetic
  split
  · next a b => exact absurd rfl (h a b rfl)
  · rfl

/-- Moved operands are both integers exactly if the operands are. -/
private theorem arithmetic_mapPos (op : BinaryOp) (left right : Value) :
    arithmetic op (left.mapPos f) (right.mapPos f) = moveValue f (arithmetic op left right) := by
  -- the match on the operands is opened only where it is known how it goes
  by_cases h : ∀ a b, left = .int a → right ≠ .int b
  · have hmoved : ∀ a b, left.mapPos f = .int a → right.mapPos f ≠ .int b := by simpa using h
    rw [arithmetic_eq h, arithmetic_eq hmoved, asFloat?_mapPos, asFloat?_mapPos, operandFailure_mapPos]
    cases left.asFloat? with
    | none => rfl
    | some x =>
      cases right.asFloat? with
      | none => rfl
      | some y => exact floatArithmetic_mapPos f op left right x y
  · obtain ⟨a, b, rfl, rfl⟩ : ∃ a b, left = .int a ∧ right = .int b := by
      simpa only [not_forall, not_not, exists_prop, ne_eq] using h
    exact (moveValue_intArithmetic f op a b).symm

/-- Only numbers have a negative. -/
private theorem negate_mapPos (v : Value) : negate (v.mapPos f) = moveValue f (negate v) := by
  cases v with
  | int n => exact (moveValue_checked f _).symm
  | _ => rfl

/-- The order of two values does not depend on positions, nor does the refusal of two that have none. -/
private theorem ordered_mapPos (holds : Ordering → Bool) (left right : Value) :
    ordered holds (left.mapPos f) (right.mapPos f) = moveValue f (ordered holds left right) := by
  simp only [ordered, compare_mapPos, type_mapPos]
  split <;> rfl

/-- Addition joins texts, lists and maps, and computes with numbers. -/
private theorem add_mapPos (left right : Value) : add (left.mapPos f) (right.mapPos f) = moveValue f
    (add left right) := by
  have harithmetic := arithmetic_mapPos f .add left right
  have hlist : ∀ items (v : Value), (Value.list (items ++ [v])).mapPos f =
      .list (items.map (Value.mapPos f) ++ [v.mapPos f]) := by simp
  -- Texts, lists and maps have sums of their own; the rest is arithmetic.
  cases left with
  | str a => simp [add]
  | list a =>
    cases right with
    | list b => simp [add]
    | _ =>
      simp only [mapPos_list, add, moveValue, moveAttempt_ok, hlist]
      rfl
  | map a =>
    cases right with
    | map b => simp [add, merge_mapValues]
    | _ => exact harithmetic
  | int a =>
    cases right with
    | str b => rfl
    | _ => exact harithmetic
  | float x =>
    cases right with
    | str b => rfl
    | _ => exact harithmetic
  | _ => cases right <;> exact harithmetic

/-- Items are chosen by a test that does not see positions. -/
private theorem filter_mapPos {test : Value → Bool} {test' : Value → Bool} (h : ∀ v, test' (v.mapPos f) = test v)
    (items : List Value) :
    (items.map (Value.mapPos f)).filter test' = (items.filter test).map (Value.mapPos f) := by
  rw [List.filter_map]
  simp only [Function.comp_def, h]

/-- Subtraction takes items out of a list, and computes with numbers. -/
private theorem subtract_mapPos (left right : Value) :
    subtract (left.mapPos f) (right.mapPos f) = moveValue f (subtract left right) := by
  -- Taking values out of a list compares them, which does not depend on positions.
  have hone : ∀ (items : List Value) (v : Value),
      (items.map (Value.mapPos f)).filter (fun item => !item.equals (v.mapPos f)) =
        (items.filter fun item => !item.equals v).map (Value.mapPos f) := by
    intro items v
    exact filter_mapPos f (fun w => congrArg not (equals_mapPos f w v)) items
  have harithmetic := arithmetic_mapPos f .sub left right
  cases left with
  | list a =>
    cases right with
    | list b =>
      have hall : (a.map (Value.mapPos f)).filter (fun v => !Value.isIn (b.map (Value.mapPos f)) v) =
          (a.filter fun v => !Value.isIn b v).map (Value.mapPos f) :=
        filter_mapPos f (fun v => congrArg not (isIn_mapPos f b v)) a
      simp only [mapPos_list, subtract, moveValue, moveAttempt_ok, hall]
    | _ =>
      simp only [mapPos_list, subtract, moveValue, moveAttempt_ok, ← hone]
      rfl
  | _ => exact harithmetic

/-- A string has no positions, and neither has a breakdown. -/
theorem moveAttempt_repeated (s : String) (n : Nat) : moveAttempt f id (repeated s n) = repeated s n := by
  unfold repeated
  split
  · rfl
  · split <;> rfl

/-- Multiplication repeats texts, and computes with numbers. -/
private theorem multiply_mapPos (left right : Value) :
    multiply (left.mapPos f) (right.mapPos f) = moveValue f (multiply left right) := by
  have harithmetic := arithmetic_mapPos f .mul left right
  cases left with
  | str s =>
    cases right with
    | int n =>
      simp only [mapPos_str, mapPos_int, multiply]
      split
      · rfl
      · conv => lhs; rw [← moveAttempt_repeated f]
        exact moveAttempt_bind f id fun _ => rfl
    | _ => exact harithmetic
  | _ => cases right <;> exact harithmetic

/-- An operator on values with moved positions. -/
theorem applyBinary_mapPos (op : BinaryOp) (left right : Value) :
    applyBinary op (left.mapPos f) (right.mapPos f) = moveValue f (applyBinary op left right) := by
  cases op with
  | eq =>
    rw [applyBinary, equals_mapPos]
    rfl
  | ne =>
    rw [applyBinary, equals_mapPos]
    rfl
  | lt => exact ordered_mapPos f _ left right
  | le => exact ordered_mapPos f _ left right
  | gt => exact ordered_mapPos f _ left right
  | ge => exact ordered_mapPos f _ left right
  | add => exact add_mapPos f left right
  | sub => exact subtract_mapPos f left right
  | mul => exact multiply_mapPos f left right
  | div => exact arithmetic_mapPos f .div left right
  | rem => exact arithmetic_mapPos f .rem left right

/-- An operator in front of a value with moved positions. -/
theorem applyUnary_mapPos (op : UnaryOp) (v : Value) :
    applyUnary op (v.mapPos f) = moveValue f (applyUnary op v) := by
  cases op with
  | not =>
    rw [applyUnary, truthy_mapPos]
    rfl
  | neg => exact negate_mapPos f v

/-! ## Section 2: Parts of Values -/

mutual

/-- A member of a map is moved with it. That of a list is the list of the members of its items. -/
theorem member_mapPos (name : String) (v : Value) :
    member name (v.mapPos f) = moveValue f (member name v) := by
  cases v with
  | map entries =>
    rw [Value.mapPos, member, member, mapPosFields_eq, lookup_mapValues]
    cases List.lookup name entries <;> rfl
  | list items =>
    rw [Value.mapPos, member, member, memberOfEach_mapPos name items]
    cases memberOfEach name items with
    | error e => rfl
    | ok made => exact congrArg Except.ok (mapPos_list f made).symm
  | _ => rfl

/-- The first item without the member fails, on both sides the same one. -/
private theorem memberOfEach_mapPos (name : String) (items : List Value) :
    memberOfEach name (mapPosItems f items) =
      moveAttempt f (List.map (Value.mapPos f)) (memberOfEach name items) := by
  cases items with
  | nil => rfl
  | cons v rest =>
    rw [mapPosItems, memberOfEach, memberOfEach, member_mapPos name v, memberOfEach_mapPos name rest]
    cases member name v with
    | error e => rfl
    | ok first => cases memberOfEach name rest <;> rfl

end

/-- An index is resolved by the length of the list, a key by its text. -/
theorem elementAt_mapPos (container index : Value) :
    elementAt (container.mapPos f) (index.mapPos f) = moveValue f (elementAt container index) := by
  cases container with
  | list items =>
    cases index with
    | int i =>
      simp only [mapPos_list, mapPos_int, elementAt, List.length_map, moveValue, moveAttempt_ok]
      -- the index counts from the end if it is negative, by the same length on both sides
      cases resolveIndex i items.length with
      | none => rfl
      | some place =>
        simp only [Option.bind_some, List.getElem?_map]
        cases items[place]? <;> rfl
    | _ => rfl
  | map entries =>
    -- Keys are compared by their texts, and a moved key has the same text.
    have hlookup : List.lookup (index.mapPos f).keyText (mapPosFields f entries) =
        (List.lookup index.keyText entries).map (Value.mapPos f) := by
      rw [mapPosFields_eq, lookup_mapValues, keyText_mapPos]
    rw [Value.mapPos, elementAt, elementAt, hlookup]
    cases List.lookup index.keyText entries <;> rfl
  | str s =>
    cases index with
    | int i =>
      simp only [mapPos_str, mapPos_int, elementAt]
      split <;> rfl
    | _ => rfl
  | _ => cases index <;> rfl

/-- A moved value written under a name of a moved map. -/
theorem setMember_mapPos (container : Value) (name : String) (v : Value) :
    setMember (container.mapPos f) name (v.mapPos f) = moveValue f (setMember container name v) := by
  cases container with
  | map entries => simp [setMember, insert_mapValues]
  | _ => rfl

/-- A moved value written at an index or under a key. -/
theorem setElement_mapPos (container index v : Value) :
    setElement (container.mapPos f) (index.mapPos f) (v.mapPos f) =
      moveValue f (setElement container index v) := by
  cases container with
  | list items =>
    cases index with
    | int i =>
      simp only [mapPos_list, mapPos_int, setElement, List.length_map]
      cases resolveIndex i items.length with
      | some place => simp [List.map_set]
      | none =>
        -- An index just behind the last element appends; any other is refused.
        dsimp only
        split
        · simp
        · rfl
    | _ => rfl
  | map entries =>
    have hinsert := insert_mapValues (Value.mapPos f) entries index.keyText v
    simp only [mapPos_map, setElement, keyText_mapPos, hinsert, moveValue, moveAttempt_ok]
  | _ => cases index <;> rfl

private theorem entryValue_mapPos (key : String) (v : Value) :
    entryValue key (v.mapPos f) = (entryValue key v).mapPos f := by
  simp [entryValue, mapValues]

/-- What a loop visits moves along: items, entries and characters. -/
theorem elements_mapPos (v : Value) :
    elements (v.mapPos f) = moveAttempt f (List.map (Value.mapPos f)) (elements v) := by
  cases v with
  | list items => simp [elements]
  | map entries =>
    simp only [mapPos_map, elements, moveAttempt_ok, mapValues, List.map_map]
    rfl
  | str s => simp [elements]
  | _ => rfl

/-! ## Section 3: Builtin Functions -/

/-- Arguments are counted, not looked at. -/
@[simp] theorem checkArity_map (name : String) (args : List Value) (least most : Nat) :
    checkArity name (args.map (Value.mapPos f)) least most = moveAttempt f id (checkArity name args least most) := by
  simp only [checkArity, List.length_map]
  split <;> rfl

/-- The only argument of a function, moved, or the refusal of another number of them. -/
private theorem oneArg_map (name : String) (args : List Value) :
    oneArg name (args.map (Value.mapPos f)) = moveValue f (oneArg name args) := by
  match args with
  | [] => rfl
  | [_] => rfl
  | _ :: _ :: _ => simp [oneArg, moveValue]

/-- An integer as an argument has no position. -/
theorem intArg_mapPos (name : String) (v : Value) :
    intArg name (v.mapPos f) = moveAttempt f id (intArg name v) := by
  cases v <;> rfl

/-- Moving keeps lengths. -/
private theorem sizeOf?_mapPos (v : Value) : sizeOf? (v.mapPos f) = moveAttempt f id (sizeOf? v) := by
  cases v with
  | list items => simp [sizeOf?]
  | map entries => simp [sizeOf?]
  | _ => rfl

/-- What is converted is a number or a text. -/
private theorem toIntValue_mapPos (v : Value) : toIntValue (v.mapPos f) = moveValue f (toIntValue v) := by
  cases v with
  | float x =>
    simp only [mapPos_float, toIntValue]
    split <;> rfl
  | str s =>
    simp only [mapPos_str, toIntValue]
    split <;> rfl
  | _ => rfl

private theorem toFloatValue_mapPos (v : Value) : toFloatValue (v.mapPos f) = moveValue f (toFloatValue v) := by
  cases v with
  | str s =>
    simp only [mapPos_str, toFloatValue]
    split <;> rfl
  | _ => rfl

theorem keysOf_mapPos (v : Value) : keysOf (v.mapPos f) = moveValue f (keysOf v) := by
  cases v with
  | map entries => simp [keysOf, Function.comp_def]
  | _ => rfl

/-- A range is made of integers. -/
private theorem moveValue_rangeValue (start finish : Int64) :
    moveValue f (rangeValue start finish) = rangeValue start finish := by
  unfold rangeValue
  dsimp only
  split
  · rfl
  · simp [Function.comp_def]

/-- Arguments are written by their displays, which show no positions. -/
private theorem joinDisplays_map (args : List Value) : joinDisplays
    (args.map (Value.mapPos f)) = joinDisplays args := by
  simp [joinDisplays, Function.comp_def]

/-- A function of one argument at moved positions. -/
theorem oneArg_bind_map {α β : Type} {g : α → β} {name : String} {next : Value → Attempt α}
    {next' : Value → Attempt β} (h : ∀ v, next' (v.mapPos f) = moveAttempt f g (next v)) (args : List Value) :
    (oneArg name (args.map (Value.mapPos f)) >>= next') = moveAttempt f g (oneArg name args >>= next) := by
  rw [oneArg_map]
  exact moveAttempt_bind f (Value.mapPos f) h

/-- A range takes one bound or two, and refuses other numbers of arguments. -/
private theorem range_map (args : List Value) :
    Builtin.range.apply (args.map (Value.mapPos f)) =
      moveAttempt f (Prod.map (Value.mapPos f) id) (Builtin.range.apply args) := by
  -- A range holds integers, which have no positions to move.
  have hrange : ∀ start finish : Int64,
      (do return (← rangeValue start finish, none) : Attempt (Value × Option String)) =
        moveAttempt f (Prod.map (Value.mapPos f) id) (do return (← rangeValue start finish, none)) := by
    intro start finish
    have hmoved : (moveValue f (rangeValue start finish) >>= fun v => pure (v, (none : Option String))) =
        moveAttempt f (Prod.map (Value.mapPos f) id) (rangeValue start finish >>= fun v => pure (v, none)) :=
      moveAttempt_bind f (Value.mapPos f) fun _ => rfl
    rwa [moveValue_rangeValue] at hmoved
  match args with
  | [] => rfl
  | [finish] =>
    simp only [List.map_cons, List.map_nil, Builtin.apply, intArg_mapPos]
    exact moveAttempt_bind f id fun n => hrange 0 n
  | [start, finish] =>
    simp only [List.map_cons, List.map_nil, Builtin.apply, intArg_mapPos]
    exact moveAttempt_bind f id fun n => moveAttempt_bind f id fun n' => hrange n n'
  | _ :: _ :: _ :: _ => simp [Builtin.apply]

/-- What a builtin function computes, and what it writes, for arguments with moved positions. -/
theorem builtin_mapPos (b : Builtin) (args : List Value) :
    b.apply (args.map (Value.mapPos f)) = moveAttempt f (Prod.map (Value.mapPos f) id) (b.apply args) := by
  -- The conversions differ in what they make of the value only.
  have hvalue : ∀ {convert : Value → Attempt Value}, (∀ v, convert (v.mapPos f) = moveValue f (convert v)) →
      ∀ v, (do return (← convert (v.mapPos f), none) : Attempt (Value × Option String)) =
        moveAttempt f (Prod.map (Value.mapPos f) id) (do return (← convert v, none)) := by
    intro convert hconvert v
    rw [hconvert]
    exact moveAttempt_bind f (Value.mapPos f) fun _ => rfl
  cases b with
  | println => simp [Builtin.apply, joinDisplays_map]
  | print => simp [Builtin.apply, joinDisplays_map]
  | len =>
    apply oneArg_bind_map
    intro v
    rw [sizeOf?_mapPos]
    exact moveAttempt_bind f id fun _ => rfl
  | str =>
    apply oneArg_bind_map
    intro v
    rw [display_mapPos]
    rfl
  | int => exact oneArg_bind_map f (hvalue (toIntValue_mapPos f)) args
  | float => exact oneArg_bind_map f (hvalue (toFloatValue_mapPos f)) args
  | type =>
    apply oneArg_bind_map
    intro v
    rw [type_mapPos]
    rfl
  | keys => exact oneArg_bind_map f (hvalue (keysOf_mapPos f)) args
  | range => exact range_map f args
  | inspect =>
    apply oneArg_bind_map
    intro v
    rw [inspect_mapPos]
    rfl

/-! ## Section 4: Methods That Call Nothing -/

/-- Whether an argument is a function is told from its form. -/
theorem closureArg_map (method : String) (args : List Value) :
    closureArg method (args.map (Value.mapPos f)) = moveValue f (closureArg method args) := by
  match args with
  | [] => rfl
  | [g] =>
    simp only [List.map_cons, List.map_nil, closureArg, isCallable_mapPos]
    split <;> rfl
  | _ :: _ :: _ => rfl

/-- A text as an argument has no position. -/
private theorem stringArg_map (method : String) (args : List Value) (place : Nat) :
    stringArg method (args.map (Value.mapPos f)) place = moveAttempt f id (stringArg method args place) := by
  simp only [stringArg, List.getElem?_map]
  cases args[place]? with
  | none => rfl
  | some v => cases v <;> rfl

/-- An item is left out if an equal one was kept before, and moved items are equal exactly if the items are. -/
theorem uniqueItems_map (items : List Value) :
    uniqueItems (items.map (Value.mapPos f)) = (uniqueItems items).map (Value.mapPos f) := by
  -- on the items, with whatever has been kept before them
  have hfold : ∀ seen : List Value,
      (items.map (Value.mapPos f)).foldl (fun seen item => if Value.isIn seen item then seen else seen ++ [item])
          (seen.map (Value.mapPos f)) =
        (items.foldl (fun seen item => if Value.isIn seen item then seen else seen ++ [item]) seen).map
          (Value.mapPos f) := by
    induction items with
    | nil => exact fun seen => rfl
    | cons item rest ih =>
      intro seen
      rw [List.map_cons, List.foldl_cons, List.foldl_cons, ← ih, isIn_mapPos]
      split <;> simp
  exact hfold []

/-- A sum of moved items, from the addition of each of them. -/
theorem sumItems_map (items : List Value) :
    sumItems (items.map (Value.mapPos f)) = moveValue f (sumItems items) := by
  have hfold : ∀ sum : Value,
      (items.map (Value.mapPos f)).foldlM add (sum.mapPos f) = moveValue f (items.foldlM add sum) := by
    induction items with
    | nil => exact fun sum => rfl
    | cons item rest ih =>
      intro sum
      rw [List.map_cons, List.foldlM_cons, List.foldlM_cons, add_mapPos]
      exact moveAttempt_bind f (Value.mapPos f) ih
  exact hfold (.int 0)

/-- Results for items, all with moved positions. -/
def mapPosResults (results : List (Value × Value)) : List (Value × Value) :=
  results.map (Prod.map (Value.mapPos f) (Value.mapPos f))

/-- Items are chosen by the truth of their results. -/
theorem chosen_map (results : List (Value × Value)) :
    chosen (mapPosResults f results) = (chosen results).map (Value.mapPos f) := by
  simp [chosen, mapPosResults, List.filter_map, Function.comp_def]

/-- Items are put under the displays of their results, which show no positions. -/
theorem grouped_map (results : List (Value × Value)) :
    grouped (mapPosResults f results) = mapValues (List.map (Value.mapPos f)) (grouped results) := by
  -- on the results, with whatever groups there are
  have hfold : ∀ groups : OrderedMap (List Value),
      (mapPosResults f results).foldl (fun groups r =>
          OrderedMap.insert groups r.2.display ((OrderedMap.get? groups r.2.display).getD [] ++ [r.1]))
          (mapValues (List.map (Value.mapPos f)) groups) =
        mapValues (List.map (Value.mapPos f)) (results.foldl (fun groups r =>
          OrderedMap.insert groups r.2.display ((OrderedMap.get? groups r.2.display).getD [] ++ [r.1])) groups) := by
    induction results with
    | nil => exact fun groups => rfl
    | cons r rest ih =>
      intro groups
      rw [List.foldl_cons, ← ih, ← insert_mapValues]
      -- the group of this result, with the item at its end, in both maps
      simp only [mapPosResults, List.map_cons, List.foldl_cons, Prod.map, display_mapPos, get?_mapValues]
      congr 2
      cases OrderedMap.get? groups r.2.display <;> simp
  exact hfold []

private theorem mapPos_strs (parts : List String) :
    (Value.list (parts.map .str)).mapPos f = .list (parts.map .str) := by
  simp [Function.comp_def]

/-- Methods of texts see positions in none of their arguments. -/
theorem stringMethod_map (s name : String) (args : List Value) :
    stringMethod s name (args.map (Value.mapPos f)) = moveValue f (stringMethod s name args) := by
  unfold stringMethod
  -- The methods without arguments come first; those with one move it before they look at its text.
  split
  · rfl
  · rfl
  · rfl
  · rfl
  · rfl
  · rfl
  · rw [stringArg_map]
    exact moveAttempt_bind f id fun _ => rfl
  · rw [stringArg_map]
    exact moveAttempt_bind f id fun _ => rfl
  · rw [stringArg_map]
    exact moveAttempt_bind f id fun _ => rfl
  · rw [stringArg_map, stringArg_map]
    exact moveAttempt_bind f id fun _ => moveAttempt_bind f id fun _ => rfl
  · cases args with
    | nil => exact congrArg Except.ok (mapPos_strs f _).symm
    | cons first rest =>
      rw [stringArg_map]
      exact moveAttempt_bind f id fun _ => congrArg Except.ok (mapPos_strs f _).symm
  · exact toIntValue_mapPos f (.str s)
  · rfl

/-! ## Section 5: Sorting -/

/-- The places of a sort have no positions. -/
theorem sortPlaces_map {n : Nat} (compare? : Fin n → Fin n → Option Ordering) :
    moveAttempt f id (sortPlaces compare?) = sortPlaces compare? := by
  unfold sortPlaces
  split <;> rfl

/-- Sorting by keys with moved positions. -/
theorem sortByKey_map (keyed : List (Value × Value)) :
    sortByKey (mapPosResults f keyed) = moveAttempt f (List.map (Value.mapPos f)) (sortByKey keyed) := by
  have hlength : keyed.length = (mapPosResults f keyed).length := by simp [mapPosResults]
  have hget : ∀ i : Fin keyed.length, (mapPosResults f keyed).get (i.cast hlength) =
      ((keyed.get i).1.mapPos f, (keyed.get i).2.mapPos f) := by
    intro i
    exact List.getElem_map _
  -- the keys compare alike, so the same places are found
  rw [sortByKey_eq hlength, sortByKey_eq rfl]
  simp only [hget, compare_mapPos]
  rw [← sortPlaces_map f]
  apply moveAttempt_bind
  intro order
  simp [pure, Except.pure]

/-- A function is given an entry or its two parts, which is decided by its number of parameters. -/
theorem entryArgs_mapPos (g : Value) (key : String) (v : Value) :
    entryArgs (g.mapPos f) key (v.mapPos f) = (entryArgs g key v).map (Value.mapPos f) := by
  cases g with
  | function routine serial captured =>
    simp only [mapPos_function, entryArgs, params_mapPos, apply_ite (List.map (Value.mapPos f)), List.map_cons,
      List.map_nil, entryValue_mapPos, mapPos_str]
  | _ => simp [entryArgs, entryValue_mapPos]

end Operators

end RowConsole.Script
