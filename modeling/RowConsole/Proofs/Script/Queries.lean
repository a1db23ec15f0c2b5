import RowConsole.Proofs.Script.Observed.Interpreter
import RowConsole.Proofs.Script.Callbacks

/-!
# Queries over Lists

The methods of lists that ask a function about the items share one loop: the function is called for one item after the
other, and a call that fails ends the method at once. What a method makes of the results differs. Where the function
answers each item in one way and leaves the bindings alone, all of them say the same about the list.

To say which calls a method makes, it is run with a caller that keeps a record of them.

Main statement: `callMethod_queries`.
-/

namespace RowConsole.Script

variable {γ ν α : Type}

/-! ## Section 1: Recorded Calls -/

/-- A record of calls, the first one first: what was called, and with which arguments. -/
abbrev CallRecord := List (Value × List Value)

/-- The same run on a store that is watched. What is seen is not touched. -/
def Run.watched (run : Run γ α) : Run (Watched γ ν) α := fun m =>
  (run (m.withStore m.globals.store)).map fun o => (o.1, o.2.watched m.globals.seen)

/-- The same way to call values, with a record of all calls. -/
def recorded (call : Caller γ) : Caller (Watched γ CallRecord) := fun f args => do
  see (· ++ [(f, args)])
  (call f args).watched

variable {call : Caller γ} {f : Value} {items results : List Value} {m m' : Machine γ}

private theorem Run.watched_apply {run : Run γ α} {r : Attempt α} (h : run m = some (r, m')) (seen : ν) :
    run.watched (m.watched seen) = some (r, m'.watched seen) := by
  have hstore : (m.watched seen).withStore (m.watched seen).globals.store = m := rfl
  rw [Run.watched, hstore, h]
  rfl

/-- A recorded call does what the call does, and it stands last in the record. -/
theorem recorded_apply {args : List Value} {r : Attempt Value} (h : call f args m = some (r, m'))
    (seen : CallRecord) : recorded call f args (m.watched seen) = some (r, m'.watched (seen ++ [(f, args)])) := by
  rw [recorded, see_bind_apply]
  exact Run.watched_apply h _

/-- The record of a function that is called for some items, once for each of them and in their order. -/
def callsFor (f : Value) (items : List Value) : CallRecord :=
  items.map fun item => (f, [item])

private theorem callsFor_concat (f : Value) (items : List Value) (item : Value) :
    callsFor f (items ++ [item]) = [] ++ callsFor f items ++ [(f, [item])] := by
  simp [callsFor]

/-- A function that makes something of some items makes the same of them while its calls are recorded. -/
theorem KeysMade.recorded (h : KeysMade call f items m results m') (seen : CallRecord) :
    KeysMade (recorded call) f items (m.watched seen) results (m'.watched (seen ++ callsFor f items)) := by
  -- each call starts with the record that the calls before it have left
  induction h generalizing seen with
  | nil m =>
    rw [callsFor, List.map_nil, List.append_nil]
    exact .nil _
  | @cons item result items results m m₁ m₂ hcall _ ih =>
    have hrest := ih (seen ++ [(f, [item])])
    rw [List.append_assoc] at hrest
    exact .cons (recorded_apply hcall seen) hrest

/-- A method of a list, called with a function, has an outcome. For this it calls the function for some items, once for
each of them and in their order, and it makes no other calls. -/
structure Answers (call : Caller γ) (p : Pos) (f : Value) (items : List Value) (m : Machine γ) (name : String)
    (asked : List Value) (r : Attempt Value) (m' : Machine γ) : Prop where
  outcome : callMethod call p (.list items) name [f] m = some (r, m')
  calls : callMethod (recorded call) p (.list items) name [f] (m.watched []) =
    some (r, m'.watched (callsFor f asked))

/-! ## Section 2: One Call after the Other -/

section Loops

variable {before : List Value} {item result : Value} {e : Failure} {m₁ m₂ : Machine γ}

/-- A call that fails ends the loop. -/
theorem KeysMade.callEach_error (h : KeysMade call f before m results m₁)
    (hfails : call f [item] m₁ = some (.error e, m₂)) (after : List Value) :
    Script.callEach call f (before ++ item :: after) m = some (.error e, m₂) := by
  induction h with
  | nil m =>
    rw [Script.callEach, List.nil_append, List.mapM_cons]
    exact Run.bind_of_error (Run.bind_of_error hfails)
  | cons hcall _ ih =>
    rw [List.cons_append, callEach_cons hcall]
    exact Run.bind_of_error (ih hfails)

/-- The search goes on as long as no result counts as true. -/
theorem KeysMade.findFirst_append (h : KeysMade call f before m results m₁) (hfalse : ∀ r ∈ results, r.truthy = false)
    (after : List Value) : findFirst call f (before ++ after) m = findFirst call f after m₁ := by
  induction h with
  | nil m => rfl
  | cons hcall _ ih =>
    obtain ⟨hresult, hresults⟩ := List.forall_mem_cons.mp hfalse
    rw [List.cons_append, findFirst, Run.bind_of_ok hcall, hresult]
    exact ih hresults

/-- The search ends at the first item whose result counts as true. -/
theorem findFirst_found (hcall : call f [item] m = some (.ok result, m₁)) (htrue : result.truthy = true)
    (after : List Value) : findFirst call f (item :: after) m = some (.ok item, m₁) := by
  rw [findFirst, Run.bind_of_ok hcall, htrue]
  rfl

/-- A call that fails ends the search. -/
private theorem findFirst_error (hfails : call f [item] m = some (.error e, m₁)) (after : List Value) :
    findFirst call f (item :: after) m = some (.error e, m₁) :=
  Run.bind_of_error hfails

end Loops

/-! ## Section 3: Methods That Collect -/

/-- A method of lists calls its function for every item, and then makes its value of the items with their results. -/
def Collects (name : String) (made : List Value → List (Value × Value) → Value) : Prop :=
  ∀ (γ : Type) (call : Caller γ) (items args : List Value), invokeMethod call (.list items) name args = do
    let f ← Run.ofResult (closureArg name args)
    let results ← callEach call f items
    return made items results

/-- The chosen items are a list. -/
private theorem collects_filter : Collects "filter" fun _ results => .list (chosen results) := fun _ _ _ _ => rfl

private theorem collects_findAll : Collects "findAll" fun _ results => .list (chosen results) := fun _ _ _ _ => rfl

/-- The results are a list in the order of the items. -/
private theorem collects_map : Collects "map" fun _ results => .list (results.map Prod.snd) := fun _ _ _ _ => rfl

private theorem collects_collect : Collects "collect" fun _ results => .list
    (results.map Prod.snd) := fun _ _ _ _ => rfl

/-- The list itself is the value, whatever the results are. -/
private theorem collects_each : Collects "each" fun items _ => .list items := fun _ _ _ _ => rfl

/-- One result that counts as true is enough. -/
private theorem collects_any : Collects "any" fun _ results => .bool
    (results.any fun r => r.2.truthy) := fun _ _ _ _ => rfl

private theorem collects_every : Collects "every" fun _ results => .bool (results.all fun r => r.2.truthy) :=
  fun _ _ _ _ => rfl

private theorem collects_count : Collects "count" fun _ results => countValue
    (chosen results).length := fun _ _ _ _ => rfl

theorem collects_groupBy :
    Collects "groupBy" fun _ results => .map ((grouped results).map fun (key, group) => (key, .list group)) :=
  fun _ _ _ _ => rfl

/-- The methods of lists that call a function for the items. -/
def queryMethods : List String :=
  ["filter", "findAll", "map", "collect", "find", "each", "any", "every", "count", "groupBy"]

/-- All of them collect but one, which ends at the first item that it finds. -/
theorem collects_of_mem {name : String} (h : name ∈ queryMethods) (hfind : name ≠ "find") :
    ∃ made, Collects name made := by
  simp only [queryMethods, List.mem_cons, List.not_mem_nil, or_false] at h
  rcases h with rfl | rfl | rfl | rfl | rfl | rfl | rfl | rfl | rfl | rfl
  · exact ⟨_, collects_filter⟩
  · exact ⟨_, collects_findAll⟩
  · exact ⟨_, collects_map⟩
  · exact ⟨_, collects_collect⟩
  · exact absurd rfl hfind
  · exact ⟨_, collects_each⟩
  · exact ⟨_, collects_any⟩
  · exact ⟨_, collects_every⟩
  · exact ⟨_, collects_count⟩
  · exact ⟨_, collects_groupBy⟩

section Methods

variable {name : String} {made : List Value → List (Value × Value) → Value} {before : List Value} {item : Value}
  {e : Failure} {m₁ m₂ : Machine γ}

private theorem ofResult_closureArg (hf : f.isCallable = true) (name : String) :
    (Run.ofResult (closureArg name [f]) : Run γ Value) = pure f := by
  rw [closureArg, if_pos hf]
  rfl

private theorem callMethod_of_ok (p : Pos) {v : Value}
    (h : invokeMethod call (.list items) name [f] m = some (.ok v, m')) :
    callMethod call p (.list items) name [f] m = some (.ok v, m') := by
  show (invokeMethod call (.list items) name [f]).located p m = _
  rw [Run.located, Run.mapFailure_apply, h]
  rfl

private theorem callMethod_of_error (p : Pos) (h : invokeMethod call (.list items) name [f] m = some (.error e, m')) :
    callMethod call p (.list items) name [f] m = some (.error (e.located p), m') := by
  show (invokeMethod call (.list items) name [f]).located p m = _
  rw [Run.located, Run.mapFailure_apply, h]
  rfl

/-- A method that collects has a value if all calls do. -/
theorem Collects.invokeMethod (h : Collects name made) (hf : f.isCallable = true)
    (hmade : KeysMade call f items m results m') :
    Script.invokeMethod call (.list items) name [f] m = some (.ok (made items (items.zip results)), m') := by
  rw [h, ofResult_closureArg hf, pure_bind, Run.bind_of_ok hmade.callEach]
  rfl

/-- A method that collects fails with the first call that does. -/
theorem Collects.invokeMethod_error (h : Collects name made) (hf : f.isCallable = true)
    (hmade : KeysMade call f before m results m₁) (hfails : call f [item] m₁ = some (.error e, m₂))
    (after : List Value) :
    Script.invokeMethod call (.list (before ++ item :: after)) name [f] m = some (.error e, m₂) := by
  rw [h, ofResult_closureArg hf, pure_bind]
  exact Run.bind_of_error (hmade.callEach_error hfails after)

/-- The search stops by itself. -/
private theorem invokeMethod_find (hf : f.isCallable = true) :
    Script.invokeMethod call (.list items) "find" [f] = findFirst call f items := by
  show (Run.ofResult (closureArg "find" [f]) >>= fun f => findFirst call f items) = _
  rw [ofResult_closureArg hf, pure_bind]

/-- A method that collects asks about all items. -/
theorem Collects.answers (h : Collects name made) (p : Pos) (hf : f.isCallable = true)
    (hmade : KeysMade call f items m results m') :
    Answers call p f items m name items (.ok (made items (items.zip results))) m' where
  outcome := callMethod_of_ok p (h.invokeMethod hf hmade)
  calls := callMethod_of_ok p (h.invokeMethod hf (hmade.recorded []))

/-- The search asks about the items up to the one that it finds. -/
theorem answers_find_found (p : Pos) (hf : f.isCallable = true) {result : Value}
    (hmade : KeysMade call f before m results m₁) (hfalse : ∀ r ∈ results, r.truthy = false)
    (hcall : call f [item] m₁ = some (.ok result, m₂)) (htrue : result.truthy = true) (after : List Value) :
    Answers call p f (before ++ item :: after) m "find" (before ++ [item]) (.ok item) m₂ := by
  have hrecorded := recorded_apply hcall ([] ++ callsFor f before)
  rw [← callsFor_concat] at hrecorded
  constructor
  · apply callMethod_of_ok
    rw [invokeMethod_find hf, hmade.findFirst_append hfalse]
    exact findFirst_found hcall htrue after
  · apply callMethod_of_ok
    rw [invokeMethod_find hf, (hmade.recorded []).findFirst_append hfalse]
    exact findFirst_found hrecorded htrue after

/-- The search asks about all items if it finds none of them. -/
theorem answers_find_null (p : Pos) (hf : f.isCallable = true) (hmade : KeysMade call f items m results m')
    (hfalse : ∀ r ∈ results, r.truthy = false) : Answers call p f items m "find" items (.ok .null) m' := by
  have hend := hmade.findFirst_append hfalse []
  have hend' := (hmade.recorded []).findFirst_append hfalse []
  rw [List.append_nil] at hend hend'
  constructor
  · apply callMethod_of_ok
    rw [invokeMethod_find hf, hend]
    rfl
  · apply callMethod_of_ok
    rw [invokeMethod_find hf, hend']
    rfl

/-- A call that fails ends every method, and it is the last one. -/
theorem answers_error (hname : name ∈ queryMethods) (p : Pos) (hf : f.isCallable = true)
    (hmade : KeysMade call f before m results m₁) (hfind : name = "find" → ∀ r ∈ results, r.truthy = false)
    (hfails : call f [item] m₁ = some (.error e, m₂)) (after : List Value) :
    Answers call p f (before ++ item :: after) m name (before ++ [item]) (.error (e.located p)) m₂ := by
  have hrecorded := recorded_apply hfails ([] ++ callsFor f before)
  rw [← callsFor_concat] at hrecorded
  by_cases hcase : name = "find"
  · subst hcase
    constructor
    · apply callMethod_of_error
      rw [invokeMethod_find hf, hmade.findFirst_append (hfind rfl)]
      exact findFirst_error hfails after
    · apply callMethod_of_error
      rw [invokeMethod_find hf, (hmade.recorded []).findFirst_append (hfind rfl)]
      exact findFirst_error hrecorded after
  · -- the other methods do not look at results before they have all of them
    obtain ⟨made, hcollects⟩ := collects_of_mem hname hcase
    exact ⟨callMethod_of_error p (hcollects.invokeMethod_error hf hmade hfails after),
      callMethod_of_error p (hcollects.invokeMethod_error hf (hmade.recorded []) hrecorded after)⟩

end Methods

/-! ## Section 4: Functions That Answer -/

/-- The same names are bound to the same values. What has been written and the next serial number may differ. -/
structure Machine.SameBindings (m m' : Machine γ) : Prop where
  globals : m'.globals = m.globals
  frame : m'.frame = m.frame
  callers : m'.callers = m.callers

/-- A machine has its own bindings. -/
theorem Machine.SameBindings.refl (m : Machine γ) : m.SameBindings m := ⟨rfl, rfl, rfl⟩

/-- Bindings that are kept twice are kept. -/
theorem Machine.SameBindings.trans {m₁ m₂ m₃ : Machine γ} (h : m₁.SameBindings m₂) (h' : m₂.SameBindings m₃) :
    m₁.SameBindings m₃ :=
  ⟨h'.globals.trans h.globals, h'.frame.trans h.frame, h'.callers.trans h.callers⟩

/-- A machine is reached from another one by calls of a function for some items, any of them and in any order. -/
inductive CalledFor (call : Caller γ) (f : Value) (items : List Value) (m : Machine γ) : Machine γ → Prop where
  | start : CalledFor call f items m m
  | call {item : Value} {r : Attempt Value} {m₁ m₂ : Machine γ} : CalledFor call f items m m₁ → item ∈ items →
      call f [item] m₁ = some (r, m₂) → CalledFor call f items m m₂

/-- A function gives each of some items one answer, however often it has been called for them, and it changes no
binding. -/
def Repeatable (call : Caller γ) (f : Value) (answer : Value → Value) (items : List Value) (m : Machine γ) : Prop :=
  ∀ item ∈ items, ∀ m₁, CalledFor call f items m m₁ →
    ∃ m₂, call f [item] m₁ = some (.ok (answer item), m₂) ∧ m₁.SameBindings m₂

section Answering

variable {answer : Value → Value}

/-- It is enough that a function answers on all machines with an invariant that its calls keep. -/
theorem repeatable_of_invariant {I : Machine γ → Prop} (hm : I m)
    (h : ∀ item ∈ items, ∀ m₁, I m₁ →
      ∃ m₂, call f [item] m₁ = some (.ok (answer item), m₂) ∧ m₁.SameBindings m₂ ∧ I m₂) :
    Repeatable call f answer items m := by
  have hkept : ∀ m₁, CalledFor call f items m m₁ → I m₁ := by
    intro m₁ hm₁
    induction hm₁ with
    | start => exact hm
    | call _ hitem hcall ih =>
      -- The call is the one that is known to keep the invariant.
      obtain ⟨m₂, hanswer, _, hm₂⟩ := h _ hitem _ ih
      cases hcall.symm.trans hanswer
      exact hm₂
  intro item hitem m₁ hm₁
  obtain ⟨m₂, hanswer, hsame, _⟩ := h item hitem m₁ (hkept m₁ hm₁)
  exact ⟨m₂, hanswer, hsame⟩

/-- Such a function can be called for any of the items, one after the other. -/
theorem Repeatable.keysMade (h : Repeatable call f answer items m) {part : List Value} (hpart : part ⊆ items)
    {m₁ : Machine γ} (hm₁ : CalledFor call f items m m₁) :
    ∃ m', KeysMade call f part m₁ (part.map answer) m' ∧ CalledFor call f items m m' ∧ m₁.SameBindings m' := by
  -- each call starts on the machine that the calls before it have left
  induction part generalizing m₁ with
  | nil => exact ⟨m₁, .nil m₁, hm₁, .refl m₁⟩
  | cons item rest ih =>
    obtain ⟨hitem, hrest⟩ := List.cons_subset.mp hpart
    obtain ⟨m₂, hcall, hsame⟩ := h item hitem m₁ hm₁
    obtain ⟨m', hmade, hm', hsame'⟩ := ih hrest (.call hm₁ hitem hcall)
    exact ⟨m', .cons hcall hmade, hm', hsame.trans hsame'⟩

/-- The search calls such a function up to the first item whose answer counts as true. -/
theorem Repeatable.answers_find (h : Repeatable call f answer items m) (p : Pos) (hf : f.isCallable = true) :
    ∃ m', m.SameBindings m' ∧ Answers call p f items m "find"
      (items.take (items.findIdx (fun item => (answer item).truthy) + 1))
      (.ok ((items.filter fun item => (answer item).truthy).head?.getD .null)) m' := by
  -- The first item with a true answer is where the search stops, or there is none.
  rw [List.head?_filter]
  cases hfind : items.find? fun item => (answer item).truthy with
  | none =>
    -- No item is found, so all of them are asked about.
    have hfalse : ∀ item ∈ items, (answer item).truthy = false := by simpa using hfind
    obtain ⟨m', hmade, _, hsame⟩ := h.keysMade (List.Subset.refl items) .start
    refine ⟨m', hsame, ?_⟩
    rw [List.findIdx_eq_length.mpr hfalse, List.take_of_length_le (Nat.le_succ _)]
    exact answers_find_null p hf hmade (by simpa using hfalse)
  | some item =>
    obtain ⟨htrue, before, after, rfl, hbefore⟩ := List.find?_eq_some_iff_append.mp hfind
    have hfalse : ∀ item ∈ before, (answer item).truthy = false := by simpa using hbefore
    have hidx : (before ++ item :: after).findIdx (fun item => (answer item).truthy) = before.length := by
      rw [List.findIdx_append, List.findIdx_eq_length.mpr hfalse, if_neg (Nat.lt_irrefl _), List.findIdx_cons, htrue]
      exact Nat.zero_add _
    have hasked : (before ++ item :: after).take (before.length + 1) = before ++ [item] := by
      rw [List.take_append, List.take_of_length_le (Nat.le_succ _), Nat.add_sub_cancel_left]
      rfl
    -- the items before it are asked about in vain, and none behind it
    obtain ⟨m₁, hmade, hm₁, hsame⟩ := h.keysMade (List.subset_append_left before _) .start
    obtain ⟨m₂, hcall, hsame'⟩ := h item (by simp) m₁ hm₁
    refine ⟨m₂, hsame.trans hsame', ?_⟩
    rw [hidx, hasked]
    exact answers_find_found p hf hmade (by simpa using hfalse) hcall htrue after

/-- The items whose answers count as true. -/
theorem chosen_zip_map (answer : Value → Value) (items : List Value) :
    chosen (items.zip (items.map answer)) = items.filter fun item => (answer item).truthy := by
  rw [chosen, ← List.map_prod_left_eq_zip, List.filter_map, List.map_map]
  exact List.map_id _

/-- The methods of lists that ask a function agree on what they say about a list. Where the function answers each item
in one way and changes no binding, the items with true answers are one list: `filter` gives it, `count` is its length,
`any` asks whether it has an item and `every` whether it has all of them, and `find` gives its first item and calls the
function up to this item only; `map` gives all answers in the order of the items. Whatever the function, a call that
fails is the last one, and the method fails as the call did. -/
theorem callMethod_queries (call : Caller γ) (p : Pos) {f : Value} (hf : f.isCallable = true) (m : Machine γ) :
    (∀ items answer, Repeatable call f answer items m →
      let picked := items.filter fun item => (answer item).truthy
      ∃ m', m.SameBindings m' ∧
        (∀ name ∈ ["filter", "findAll"], Answers call p f items m name items (.ok (.list picked)) m') ∧
        (∀ name ∈ ["map", "collect"], Answers call p f items m name items (.ok (.list (items.map answer))) m') ∧
        Answers call p f items m "count" items (.ok (countValue picked.length)) m' ∧
        Answers call p f items m "any" items (.ok (.bool (decide (0 < picked.length)))) m' ∧
        Answers call p f items m "every" items (.ok (.bool (decide (picked.length = items.length)))) m' ∧
        ∃ m₁, m.SameBindings m₁ ∧
          Answers call p f items m "find" (items.take (items.findIdx (fun item => (answer item).truthy) + 1))
            (.ok (picked.head?.getD .null)) m₁) ∧
      ∀ name ∈ queryMethods, ∀ before item after results e m₁ m₂, KeysMade call f before m results m₁ →
        call f [item] m₁ = some (.error e, m₂) → (name = "find" → ∀ r ∈ results, r.truthy = false) →
          Answers call p f (before ++ item :: after) m name (before ++ [item]) (.error (e.located p)) m₂ := by
  refine ⟨?_, ?_⟩
  · intro items answer hanswer picked
    -- One run of the closure over all elements answers for all methods but `find`, which stops early.
    obtain ⟨m', hmade, _, hsame⟩ := hanswer.keysMade (List.Subset.refl items) .start
    have hpicked : chosen (items.zip (items.map answer)) = picked := chosen_zip_map answer items
    have hany : (items.zip (items.map answer)).any (fun r => r.2.truthy) = decide (0 < picked.length) := by
      rw [Bool.eq_iff_iff, decide_eq_true_iff, List.length_filter_pos_iff, ← List.map_prod_left_eq_zip]
      simp
    have hevery : (items.zip (items.map answer)).all (fun r => r.2.truthy) =
        decide (picked.length = items.length) := by
      rw [Bool.eq_iff_iff, decide_eq_true_iff, List.length_filter_eq_length_iff, ← List.map_prod_left_eq_zip]
      simp
    have hresults : (items.zip (items.map answer)).map Prod.snd = items.map answer :=
      List.map_snd_zip (Nat.le_of_eq (List.length_map _))
    have hfilter := collects_filter.answers p hf hmade
    have hfindAll := collects_findAll.answers p hf hmade
    have hmap := collects_map.answers p hf hmade
    have hcollect := collects_collect.answers p hf hmade
    have hcount := collects_count.answers p hf hmade
    rw [hpicked] at hfilter hfindAll hcount
    rw [hresults] at hmap hcollect
    refine ⟨m', hsame, ?_, ?_, hcount, hany ▸ collects_any.answers p hf hmade,
      hevery ▸ collects_every.answers p hf hmade, hanswer.answers_find p hf⟩
    · simpa using ⟨hfilter, hfindAll⟩
    · simpa using ⟨hmap, hcollect⟩
  · intro name hname before item after results e m₁ m₂ hmade hfails hfind
    exact answers_error hname p hf hmade hfind hfails after

/-- A closure prints an item and asks whether it is greater than one. Of a list with a word in it, all items up to the
word are asked about. -/
theorem callMethod_queries_greater :
    let p : Pos := ⟨1, 5⟩
    let call : Caller (OrderedMap Value) := callWith 10 (runBlock (exec 10 20) .null) p
    let m : Machine (OrderedMap Value) := Machine.start [] 0
    let f : Value := .function ⟨none, [], [.expr (.call (.var "print" p) [.var "it" p] p),
      .expr (.binary .gt (.var "it" p) (.int 1) p)]⟩ 0 []
    let answer : Value → Value := fun v => .bool (v.compare (.int 1) == some .gt)
    let items : List Value := [.int 0, .int 2, .int 1, .int 3]
    f.isCallable = true ∧ Repeatable call f answer items m ∧
      (∃ m', m.SameBindings m' ∧ Answers call p f items m "filter" items (.ok (.list [.int 2, .int 3])) m' ∧
        Answers call p f items m "count" items (.ok (.int 2)) m') ∧
      (∃ m', m.SameBindings m' ∧ Answers call p f items m "find" [.int 0, .int 2] (.ok (.int 2)) m') ∧
      ∃ e m₁ m₂, KeysMade call f [.int 2] m [.bool true] m₁ ∧ call f [.str "a"] m₁ = some (.error e, m₂) ∧
        Answers call p f [.int 2, .str "a", .int 3] m "every" [.int 2, .str "a"] (.error (e.located p)) m₂ := by
  intro p call m f answer items
  -- The closure prints, but binds nothing, and the output takes what it prints: its answers can be repeated.
  have hanswer : Repeatable call f answer items m := by
    let takesAll : Machine (OrderedMap Value) → Prop := fun m₁ =>
      m.SameBindings m₁ ∧ m₁.output.accept = m.output.accept
    have hm : takesAll m := ⟨.refl m, rfl⟩
    apply repeatable_of_invariant hm
    rintro item hitem ⟨globals, ⟨text, accept⟩, frame, callers, serial⟩ ⟨⟨rfl, rfl, rfl⟩, rfl⟩
    simp only [items, List.mem_cons, List.not_mem_nil, or_false] at hitem
    rcases hitem with rfl | rfl | rfl | rfl <;> exact ⟨_, rfl, ⟨rfl, rfl, rfl⟩, ⟨rfl, rfl, rfl⟩, rfl⟩
  obtain ⟨hagree, hfails⟩ := callMethod_queries call p (f := f) rfl m
  obtain ⟨m', hsame, hfilter, _, hcount, _, _, m₁, hsame₁, hfind⟩ := hagree items answer hanswer
  have hpicked : (items.filter fun item => (answer item).truthy) = [.int 2, .int 3] := rfl
  rw [hpicked] at hfilter hcount hfind
  have hmade : KeysMade call f [.int 2] m [.bool true] _ := .cons rfl (.nil _)
  refine ⟨rfl, hanswer, ⟨m', hsame, hfilter "filter" (by simp), hcount⟩, ⟨m₁, hsame₁, hfind⟩, _, _, _, hmade, rfl, ?_⟩
  exact hfails "every" (by simp [queryMethods]) [.int 2] (.str "a") [.int 3] _ _ _ _ hmade rfl (by simp)

end Answering

end RowConsole.Script
