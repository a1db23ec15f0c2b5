import RowConsole.Script.Method

/-!
# What Values Are Made Of

A standard asks something of every function and of the keys of every map that a value holds, at any nesting
in lists, maps and the locals that functions keep. Main statements: every operation of the language makes
values that meet a standard from values that meet it.
-/

namespace RowConsole.Script

/-! ## Section 1: Standards -/

/-- What is asked of the functions and of the keys of the maps in a value. Keys are asked for nothing that a
map loses when a new key is written. -/
structure Standard where
  routine : Routine → Prop
  keys : List String → Prop
  keys_nil : keys []
  keys_snoc : ∀ {ks : List String} {key : String}, keys ks → key ∉ ks → keys (ks ++ [key])

/-- A value meets a standard if all functions and all maps in it do. -/
inductive Value.Meets (std : Standard) : Value → Prop where
  | null : Meets std .null
  | bool (b : Bool) : Meets std (.bool b)
  | int (n : Int64) : Meets std (.int n)
  | float (x : Float) : Meets std (.float x)
  | str (s : String) : Meets std (.str s)
  | builtin (b : Builtin) : Meets std (.builtin b)
  | handle (h : Handle) : Meets std (.handle h)
  | list {items : List Value} : (∀ v ∈ items, Meets std v) → Meets std (.list items)
  | map {entries : List (String × Value)} : std.keys (OrderedMap.keys entries) →
      (∀ entry ∈ entries, Meets std entry.2) → Meets std (.map entries)
  | function {routine : Routine} {serial : Nat} {captured : List (String × Value)} :
      std.routine routine → (∀ entry ∈ captured, Meets std entry.2) →
      Meets std (.function routine serial captured)

/-- The results of an operation meet a standard. -/
def ResultMeets (std : Standard) (r : Attempt Value) : Prop :=
  ∀ v, r = .ok v → v.Meets std

/-- The values of some entries meet a standard. -/
def EntriesMeet (std : Standard) (entries : List (String × Value)) : Prop :=
  ∀ entry ∈ entries, entry.2.Meets std

variable {std : Standard}

/-- A standard that asks for nothing. -/
def Standard.anything : Standard where
  routine _ := True
  keys _ := True
  keys_nil := trivial
  keys_snoc _ _ := trivial

/-- Every value meets the standard that asks for nothing. -/
theorem Value.meets_anything (v : Value) : v.Meets Standard.anything := by
  refine @Value.rec (fun v => v.Meets Standard.anything)
    (fun items => ∀ v ∈ items, v.Meets Standard.anything)
    (fun entries => ∀ entry ∈ entries, entry.2.Meets Standard.anything)
    (fun entry => entry.2.Meets Standard.anything)
    .null .bool .int .float .str (fun _ ih => .list ih) (fun _ ih => .map trivial ih)
    (fun _ _ _ ih => .function trivial ih) .builtin .handle ?_ ?_ ?_ ?_ (fun _ _ ih => ih) v
  · intro v hv
    contradiction
  · intro head tail hhead htail v hv
    rcases List.mem_cons.mp hv with rfl | hv
    · exact hhead
    · exact htail v hv
  · intro entry hentry
    contradiction
  · intro head tail hhead htail entry hentry
    rcases List.mem_cons.mp hentry with rfl | hentry
    · exact hhead
    · exact htail entry hentry

/-- The items of a list meet the standard of the list. -/
theorem Value.Meets.of_list {items : List Value} (h : (Value.list items).Meets std) :
    ∀ v ∈ items, v.Meets std := by
  cases h with
  | list h => exact h

/-- The values of the entries of a map meet the standard of the map. -/
theorem Value.Meets.of_map {entries : List (String × Value)} (h : (Value.map entries).Meets std) :
    EntriesMeet std entries := by
  cases h with
  | map _ h => exact h

/-- The keys of a map are as the standard wants them. -/
private theorem Value.Meets.keys_of_map {entries : List (String × Value)} (h : (Value.map entries).Meets std) :
    std.keys (OrderedMap.keys entries) := by
  cases h with
  | map h _ => exact h

/-- A value as a result is judged by itself. -/
theorem resultMeets_ok {v : Value} (h : v.Meets std) : ResultMeets std (.ok v) := by
  intro w hw
  cases hw
  exact h

/-- A failure gives no value that could be judged. -/
private theorem resultMeets_error (e : Failure) : ResultMeets std (.error e) := by
  intro v hv
  contradiction

/-- The failure of an operation gives no value that could be judged. -/
theorem resultMeets_failure (cause : Cause) : ResultMeets std (failure cause) :=
  resultMeets_error _

/-- A sequence of operations ends in a value that meets a standard if its last one does. -/
theorem resultMeets_bind {α : Type} {r : Attempt α} {f : α → Attempt Value}
    (h : ∀ a, r = .ok a → ResultMeets std (f a)) : ResultMeets std (r >>= f) := by
  cases r with
  | error e => exact resultMeets_error e
  | ok a => exact h a rfl

/-! ## Section 2: Entries -/

/-- No entries have no values to ask about. -/
theorem entriesMeet_nil : EntriesMeet std [] := by
  intro entry h
  contradiction

/-- What is found at a key meets the standard of the entries. -/
theorem EntriesMeet.lookup {entries : List (String × Value)} {key : String} {v : Value}
    (h : EntriesMeet std entries) (hv : entries.lookup key = some v) : v.Meets std := by
  exact h (key, v) (OrderedMap.mem_of_get? hv)

/-- What is found at a key, or null, meets the standard of the entries. -/
theorem EntriesMeet.lookup_getD {entries : List (String × Value)} (h : EntriesMeet std entries)
    (key : String) : ((entries.lookup key).getD .null).Meets std := by
  cases hv : entries.lookup key with
  | none => exact .null
  | some v => exact h.lookup hv

/-- Writing an entry keeps the standard if the value that is written meets it. -/
theorem EntriesMeet.insert {entries : List (String × Value)} (h : EntriesMeet std entries)
    (key : String) {v : Value} (hv : v.Meets std) : EntriesMeet std (OrderedMap.insert entries key v) := by
  intro entry hentry
  rcases OrderedMap.eq_or_mem_of_mem_insert hentry with rfl | hentry
  · exact hv
  · exact h entry hentry

/-- Writing all entries of another map keeps the standard if that map meets it. -/
theorem EntriesMeet.merge {entries other : List (String × Value)} (h : EntriesMeet std entries)
    (hother : EntriesMeet std other) : EntriesMeet std (OrderedMap.merge entries other) := by
  unfold OrderedMap.merge
  induction other generalizing entries with
  | nil => exact h
  | cons entry rest ih =>
    exact ih (h.insert entry.1 (hother entry (List.mem_cons_self ..)))
      (fun e he => hother e (List.mem_cons_of_mem _ he))

/-- A map that is made from entries meets the standard of the entries. -/
theorem EntriesMeet.ofEntries {entries : List (String × Value)} (h : EntriesMeet std entries) :
    EntriesMeet std (OrderedMap.ofEntries entries) :=
  entriesMeet_nil.merge h

/-- Writing an entry adds a key only where it is new, so keys stay as a standard wants them. -/
theorem Standard.keys_insert {α : Type} {m : OrderedMap α} (h : std.keys m.keys) (key : String) (a : α) :
    std.keys (OrderedMap.keys (m.insert key a)) := by
  rw [OrderedMap.keys_insert]
  split
  · exact h
  · next hkey => exact std.keys_snoc h hkey

/-- Writing entries one after the other leaves keys as a standard wants them. -/
theorem Standard.keys_merge {α : Type} {m : OrderedMap α} (h : std.keys m.keys) (other : OrderedMap α) :
    std.keys (OrderedMap.keys (m.merge other)) := by
  unfold OrderedMap.merge
  induction other generalizing m with
  | nil => exact h
  | cons entry rest ih => exact ih (std.keys_insert h entry.1 entry.2)

/-- The keys of a map that is made from entries are as a standard wants them. -/
theorem Standard.keys_ofEntries {α : Type} (entries : List (String × α)) :
    std.keys (OrderedMap.keys (OrderedMap.ofEntries entries)) :=
  std.keys_merge (m := []) std.keys_nil entries

/-! ## Section 3: Operators -/

/-- Integers meet every standard, and so does an overflow. -/
theorem checked_meets (n : Int) : ResultMeets std (checked n) := by
  unfold checked
  split
  · exact resultMeets_ok (.int _)
  · exact resultMeets_failure _

/-- Arithmetic on integers gives numbers, failures and one crash. -/
private theorem intArithmetic_meets (op : BinaryOp) (a b : Int64) : ResultMeets std (intArithmetic op a b) := by
  cases op <;> simp only [intArithmetic]
  case add | sub | mul => exact checked_meets _
  case div =>
    split
    · exact resultMeets_failure _
    · split
      · exact resultMeets_error _
      · split
        · exact resultMeets_ok (.float _)
        · exact checked_meets _
  case rem =>
    split
    · exact resultMeets_failure _
    · split
      · exact checked_meets _
      · exact resultMeets_failure _
  all_goals exact resultMeets_failure _

/-- Arithmetic on floats gives numbers and failures. -/
private theorem floatArithmetic_meets (op : BinaryOp) (left right : Value) (x y : Float) :
    ResultMeets std (floatArithmetic op left right x y) := by
  cases op <;> simp only [floatArithmetic]
  case add | sub | mul => exact resultMeets_ok (.float _)
  case div | rem =>
    split
    · exact resultMeets_failure _
    · exact resultMeets_ok (.float _)
  all_goals exact resultMeets_failure _

/-- Arithmetic on mixed operands gives numbers, failures and one crash. -/
private theorem arithmetic_meets (op : BinaryOp) (left right : Value) :
    ResultMeets std (arithmetic op left right) := by
  unfold arithmetic
  split
  · exact intArithmetic_meets op _ _
  · split
    · exact floatArithmetic_meets op _ _ _ _
    · exact resultMeets_failure _

/-- Comparisons give truth values. -/
private theorem ordered_meets (holds : Ordering → Bool) (left right : Value) :
    ResultMeets std (ordered holds left right) := by
  unfold ordered
  split
  · exact resultMeets_ok (.bool _)
  · exact resultMeets_failure _

/-- A sum is a number, a text, a list of the items of both operands, or a map of the entries of both. -/
theorem add_meets {left right : Value} (hleft : left.Meets std) (hright : right.Meets std) :
    ResultMeets std (add left right) := by
  unfold add
  -- A text on either side makes a text; a list takes the items of a list, or any other value as its last item.
  split
  · exact resultMeets_ok (.str _)
  · exact resultMeets_ok (.str _)
  · exact resultMeets_ok (.str _)
  · refine resultMeets_ok (.list fun v hv => ?_)
    rcases List.mem_append.mp hv with hv | hv
    · exact hleft.of_list v hv
    · exact hright.of_list v hv
  · refine resultMeets_ok (.list fun v hv => ?_)
    rcases List.mem_append.mp hv with hv | hv
    · exact hleft.of_list v hv
    · rw [List.mem_singleton.mp hv]
      exact hright
  · exact resultMeets_ok (.map (std.keys_merge hleft.keys_of_map _) (hleft.of_map.merge hright.of_map))
  · exact arithmetic_meets .add _ _

/-- A difference is a number or a list with fewer items. -/
private theorem subtract_meets {left right : Value} (hleft : left.Meets std) :
    ResultMeets std (subtract left right) := by
  unfold subtract
  split
  · exact resultMeets_ok (.list fun v hv => hleft.of_list v ((List.mem_filter.mp hv).1))
  · exact resultMeets_ok (.list fun v hv => hleft.of_list v ((List.mem_filter.mp hv).1))
  · exact arithmetic_meets .sub _ _

/-- A product is a number or a text. -/
private theorem multiply_meets (left right : Value) : ResultMeets std (multiply left right) := by
  unfold multiply
  split
  · split
    · exact resultMeets_failure _
    · exact resultMeets_bind fun _ _ => resultMeets_ok (.str _)
  · exact arithmetic_meets .mul _ _

/-- Operators on two values keep a standard. -/
theorem applyBinary_meets (op : BinaryOp) {left right : Value} (hleft : left.Meets std)
    (hright : right.Meets std) : ResultMeets std (applyBinary op left right) := by
  cases op with
  | add => exact add_meets hleft hright
  | sub => exact subtract_meets hleft
  | mul => exact multiply_meets left right
  | div => exact arithmetic_meets .div left right
  | rem => exact arithmetic_meets .rem left right
  | eq | ne => exact resultMeets_ok (.bool _)
  | lt | le | gt | ge => exact ordered_meets _ left right

/-- Operators on one value make numbers and truth values only. -/
theorem applyUnary_meets (op : UnaryOp) (v : Value) : ResultMeets std (applyUnary op v) := by
  cases op with
  | not => exact resultMeets_ok (.bool _)
  | neg =>
    simp only [applyUnary, negate]
    split
    · exact checked_meets _
    · exact resultMeets_ok (.float _)
    · exact resultMeets_failure _

/-! ## Section 4: Parts of Values -/

/-- The properties of items meet a standard if those of each item do. -/
theorem memberOfEach_meets {name : String} {items made : List Value}
    (h : ∀ item ∈ items, ResultMeets std (member name item)) (hmade : memberOfEach name items = .ok made) :
    ∀ v ∈ made, v.Meets std := by
  induction items generalizing made with
  | nil =>
    cases hmade
    intro v hv
    contradiction
  | cons item rest ih =>
    simp only [memberOfEach] at hmade
    -- The list is made only if the member is found in every item.
    cases hfirst : member name item with
    | error e => simp [hfirst, bind, Except.bind] at hmade
    | ok first =>
      cases hothers : memberOfEach name rest with
      | error e => simp [hfirst, hothers, bind, Except.bind] at hmade
      | ok others =>
        simp only [hfirst, hothers, bind, Except.bind, pure, Except.pure, Except.ok.injEq] at hmade
        subst hmade
        intro v hv
        rcases List.mem_cons.mp hv with rfl | hv
        · exact h item (List.mem_cons_self ..) _ hfirst
        · exact ih (fun i hi => h i (List.mem_cons_of_mem _ hi)) hothers v hv

/-- Properties keep a standard, those of a list item by item. -/
theorem member_meets (name : String) {v : Value} (h : v.Meets std) : ResultMeets std (member name v) := by
  -- On how the value meets the standard: a property of a list is a list of those of its items.
  induction h with
  | map _ hentries _ => exact resultMeets_ok (EntriesMeet.lookup_getD hentries name)
  | list _ ih =>
    simp only [member]
    exact resultMeets_bind fun made hmade => resultMeets_ok (.list (memberOfEach_meets ih hmade))
  | _ => exact resultMeets_failure _

/-- Elements keep a standard. -/
theorem elementAt_meets {container : Value} (h : container.Meets std) (index : Value) :
    ResultMeets std (elementAt container index) := by
  unfold elementAt
  split
  · next items i =>
    refine resultMeets_ok ?_
    cases hfound : (resolveIndex i items.length).bind fun place => items[place]? with
    | none => exact .null
    | some v =>
      obtain ⟨place, _, hplace⟩ := Option.bind_eq_some_iff.mp hfound
      exact h.of_list v (List.mem_of_getElem? hplace)
  · exact resultMeets_ok (h.of_map.lookup_getD _)
  · simp only
    split
    · exact resultMeets_ok (.str _)
    · exact resultMeets_failure _
  · exact resultMeets_failure _
  · exact resultMeets_failure _

/-- Writing a property keeps a standard. -/
theorem setMember_meets {container v : Value} (h : container.Meets std) (name : String)
    (hv : v.Meets std) : ResultMeets std (setMember container name v) := by
  unfold setMember
  split
  · exact resultMeets_ok (.map (std.keys_insert h.keys_of_map _ _) (h.of_map.insert name hv))
  · exact resultMeets_failure _

/-- Writing an element keeps a standard. -/
theorem setElement_meets {container v : Value} (h : container.Meets std) (index : Value)
    (hv : v.Meets std) : ResultMeets std (setElement container index v) := by
  unfold setElement
  split
  · split
    -- An item is replaced, or the index is one behind the last item and the list grows.
    · refine resultMeets_ok (.list fun w hw => ?_)
      rcases List.mem_or_eq_of_mem_set hw with hw | rfl
      · exact h.of_list w hw
      · exact hv
    · split
      · refine resultMeets_ok (.list fun w hw => ?_)
        rcases List.mem_append.mp hw with hw | hw
        · exact h.of_list w hw
        · rw [List.mem_singleton.mp hw]
          exact hv
      · exact resultMeets_failure _
  · exact resultMeets_ok (.map (std.keys_insert h.keys_of_map _ _) (h.of_map.insert _ hv))
  · exact resultMeets_failure _

/-- An entry as a value meets a standard if its value does. -/
theorem entryValue_meets (key : String) {v : Value} (hv : v.Meets std) : (entryValue key v).Meets std := by
  refine .map ?_ ?_
  · exact std.keys_snoc (std.keys_snoc std.keys_nil List.not_mem_nil) (by simp)
  · intro entry hentry
    simp only [List.mem_cons, List.not_mem_nil, or_false] at hentry
    rcases hentry with rfl | rfl
    · exact .str key
    · exact hv

/-- The elements that a loop visits meet the standard of the value that it runs over. -/
theorem elements_meet {v : Value} (h : v.Meets std) {items : List Value} (hitems : elements v = .ok items) :
    ∀ item ∈ items, item.Meets std := by
  unfold elements at hitems
  split at hitems
  · cases hitems
    exact h.of_list
  -- A loop over a map visits pairs of a key and a value, and one over a text its characters.
  · cases hitems
    intro item hitem
    obtain ⟨⟨key, w⟩, hmem, rfl⟩ := List.mem_map.mp hitem
    exact entryValue_meets key (h.of_map (key, w) hmem)
  · cases hitems
    intro item hitem
    obtain ⟨c, _, rfl⟩ := List.mem_map.mp hitem
    exact .str _
  · cases hitems
    intro item hitem
    contradiction
  · contradiction

/-! ## Section 5: Builtin Functions -/

/-- Conversions to integers give integers. -/
theorem toIntValue_meets (v : Value) : ResultMeets std (toIntValue v) := by
  unfold toIntValue
  split
  · exact resultMeets_ok (.int _)
  · split
    · exact resultMeets_ok (.int _)
    · exact resultMeets_failure _
  · exact resultMeets_ok (.int _)
  · split
    · exact resultMeets_ok (.int _)
    · exact resultMeets_failure _
  · exact resultMeets_failure _

/-- Conversions to floats give floats. -/
private theorem toFloatValue_meets (v : Value) : ResultMeets std (toFloatValue v) := by
  unfold toFloatValue
  split
  · split
    · exact resultMeets_ok (.float _)
    · exact resultMeets_failure _
  · split
    · exact resultMeets_ok (.float _)
    · exact resultMeets_failure _

/-- The keys of a map are a list of texts. -/
theorem keysOf_meets (v : Value) : ResultMeets std (keysOf v) := by
  unfold keysOf
  split
  · refine resultMeets_ok (.list fun v hv => ?_)
    obtain ⟨key, _, rfl⟩ := List.mem_map.mp hv
    exact .str key
  · exact resultMeets_failure _

/-- A range is a list of integers. -/
private theorem rangeValue_meets (start finish : Int64) : ResultMeets std (rangeValue start finish) := by
  simp only [rangeValue]
  split
  · exact resultMeets_failure _
  · refine resultMeets_ok (.list fun v hv => ?_)
    obtain ⟨i, _, rfl⟩ := List.mem_map.mp hv
    exact .int _

/-- A sequence of operations that ends in a pair gives a first part that meets a standard if its last one
does. -/
theorem fst_meets_of_bind {α : Type} {r : Attempt α} {f : α → Attempt (Value × Option String)}
    {v : Value} {written : Option String} (h : (r >>= f) = .ok (v, written))
    (hf : ∀ a, r = .ok a → f a = .ok (v, written) → v.Meets std) : v.Meets std := by
  cases r with
  | error e => contradiction
  | ok a => exact hf a rfl h

/-- The values of builtin functions hold nothing that a standard asks about. -/
theorem builtin_meets {b : Builtin} {args : List Value} {v : Value} {written : Option String}
    (h : b.apply args = .ok (v, written)) : v.Meets std := by
  -- What is written does not matter here, only the value that comes with it.
  cases b <;> simp only [Builtin.apply] at h
  case println | print =>
    cases h
    exact .null
  case len =>
    refine fst_meets_of_bind h fun _ _ h => fst_meets_of_bind h fun _ _ h => ?_
    cases h
    exact .int _
  case str | type | inspect =>
    refine fst_meets_of_bind h fun _ _ h => ?_
    cases h
    exact .str _
  case int =>
    refine fst_meets_of_bind h fun _ _ h => fst_meets_of_bind h fun _ hr h => ?_
    cases h
    exact toIntValue_meets _ _ hr
  case float =>
    refine fst_meets_of_bind h fun _ _ h => fst_meets_of_bind h fun _ hr h => ?_
    cases h
    exact toFloatValue_meets _ _ hr
  case keys =>
    refine fst_meets_of_bind h fun _ _ h => fst_meets_of_bind h fun _ hr h => ?_
    cases h
    exact keysOf_meets _ _ hr
  case range =>
    split at h
    · refine fst_meets_of_bind h fun _ _ h => fst_meets_of_bind h fun _ hr h => ?_
      cases h
      exact rangeValue_meets _ _ _ hr
    · refine fst_meets_of_bind h fun _ _ h => fst_meets_of_bind h fun _ _ h =>
        fst_meets_of_bind h fun _ hr h => ?_
      cases h
      exact rangeValue_meets _ _ _ hr
    · contradiction

end RowConsole.Script
