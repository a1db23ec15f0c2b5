import RowConsole.Proofs.Script.Judgement
import RowConsole.Proofs.Script.Values

/-!
# Methods under a Judgement

What is judged of the calls that a method makes is judged of the method. The rules need to know of the
invariant only that the steps on the machine keep it, and of values that they meet a standard. Main
statements: the rules for the steps on the machine and for the methods of all values.
-/

namespace RowConsole.Script

variable {ι γ : Type} {M : Mode ι} {std : Standard} {I : Machine γ → Prop}

/-! ## Section 1: Steps on the Machine -/

section Steps

variable [Globals γ]

/-- An invariant that steps on the machine keep as long as the values written meet a standard; the values that
are read meet it in turn. -/
structure Stable (std : Standard) (I : Machine γ → Prop) : Prop where
  lookup : ∀ {m name v}, I m → m.lookup name = some v → v.Meets std
  locals : ∀ {m}, I m → EntriesMeet std (flattenScopes m.frame.scopes)
  assigned : ∀ {m name v globals}, I m → v.Meets std → Globals.assign m.globals name v = .ok globals →
    I { m with globals := globals }
  declared : ∀ {m name v scope outer}, I m → v.Meets std → m.frame.scopes = scope :: outer →
    I { m with frame := { m.frame with scopes := OrderedMap.insert scope name v :: outer } }
  rebound : ∀ {m name v scopes}, I m → v.Meets std → rebindScopes? name v m.frame.scopes = some scopes →
    I { m with frame := { m.frame with scopes := scopes } }
  written : ∀ {m} output, I m → I { m with output := output }
  counted : ∀ {m}, I m → I { m with serial := m.serial + 1 }

/-- The values that a flow carries meet a standard. -/
def Flow.Meets (std : Standard) : Flow → Prop
  | .next v | .returned v => v.Meets std
  | .broke | .continued => True

namespace Mode.Holds

/-- A global takes a good value, or its name is refused. -/
theorem assignGlobal (hI : Stable std I) (name : String) {v : Value} (hv : v.Meets std) :
    M.Holds I (fun _ => Script.assignGlobal name v) fun _ => True := by
  unfold Script.assignGlobal
  refine Holds.get.bind fun m hm => ?_
  split
  · next hassign => exact Holds.set (hI.assigned hm hv hassign) trivial
  · exact fail _

/-- A name is declared in the innermost scope, or globally where no scope is to be used. -/
theorem declareName (hI : Stable std I) (name : String) {v : Value} (hv : v.Meets std) :
    M.Holds I (fun _ => Script.declareName name v) fun _ => True := by
  unfold Script.declareName
  refine Holds.get.bind fun m hm => ?_
  split
  · next hscopes => exact Holds.set (hI.declared hm hv hscopes) trivial
  · exact assignGlobal hI name hv

/-- A name is assigned to in the scope that binds it, or globally. -/
theorem assignName (hI : Stable std I) (name : String) {v : Value} (hv : v.Meets std) :
    M.Holds I (fun _ => Script.assignName name v) fun _ => True := by
  unfold Script.assignName
  refine Holds.get.bind fun m hm => ?_
  split
  · next hrebind => exact Holds.set (hI.rebound hm hv hrebind) trivial
  · exact assignGlobal hI name hv

/-- A new function is good if its routine is and what it has captured is. -/
theorem newFunction (hI : Stable std I) {routine : Routine} {captured : OrderedMap Value}
    (hroutine : std.routine routine) (hcaptured : EntriesMeet std captured) :
    M.Holds I (fun _ => Script.newFunction routine captured) (Value.Meets std) := by
  unfold Script.newFunction
  refine Holds.get.bind fun m hm => ?_
  refine (Holds.set (hI.counted hm) (Q := fun _ => True) trivial).bind fun _ _ => ?_
  exact Holds.pure (.function hroutine hcaptured)

end Mode.Holds

end Steps

/-! ## Section 2: Methods -/

/-- A way to call values is judged for every function and all arguments that meet a standard. -/
def Mode.HoldsCalls (M : Mode ι) (I : Machine γ → Prop) (std : Standard) (call : ι → Caller γ) : Prop :=
  ∀ f args, f.Meets std → (∀ a ∈ args, a.Meets std) →
    M.Holds I (fun i => call i f args) (Value.Meets std)

/-- The function that a method is given is one of its arguments. -/
private theorem closureArg_meets {method : String} {args : List Value} {f : Value}
    (hargs : ∀ a ∈ args, a.Meets std) (h : closureArg method args = .ok f) : f.Meets std := by
  unfold closureArg at h
  split at h
  · split at h
    · cases h
      exact hargs _ (List.mem_cons_self ..)
    · contradiction
  · contradiction

/-- The first argument, or null. -/
theorem head?_getD_meets {args : List Value} (hargs : ∀ a ∈ args, a.Meets std) :
    (args.head?.getD .null).Meets std := by
  cases args with
  | nil => exact .null
  | cons a rest => exact hargs a (List.mem_cons_self ..)

/-- The last item, or null. -/
private theorem getLast?_getD_meets {items : List Value} (hitems : ∀ v ∈ items, v.Meets std) :
    (items.getLast?.getD .null).Meets std := by
  cases hlast : items.getLast? with
  | none => exact .null
  | some v => exact hitems v (List.mem_of_getLast? hlast)

/-- No item is made where repetitions are left out. -/
theorem uniqueItems_subset (items : List Value) : uniqueItems items ⊆ items := by
  -- on the items, with whatever has been kept before them
  have hfold : ∀ seen : List Value,
      items.foldl (fun seen item => if Value.isIn seen item then seen else seen ++ [item]) seen ⊆
        seen ++ items := by
    induction items with
    | nil => simp
    | cons item rest ih =>
      intro seen v hv
      have hv := ih _ hv
      dsimp only at hv
      split at hv
      · rcases List.mem_append.mp hv with h | h <;> simp [h]
      · simpa [or_assoc] using hv
  exact hfold []

/-- A sum starts at zero, and each addition keeps the standard. -/
private theorem sumItems_meets {items : List Value} (hitems : ∀ v ∈ items, v.Meets std) :
    ResultMeets std (sumItems items) := by
  have hfold : ∀ sum : Value, sum.Meets std → ResultMeets std (items.foldlM add sum) := by
    induction items with
    | nil => exact fun sum hsum => resultMeets_ok hsum
    | cons item rest ih =>
      intro sum hsum
      simp only [List.foldlM_cons]
      refine resultMeets_bind fun sum' hsum' => ?_
      exact ih (fun v hv => hitems v (List.mem_cons_of_mem _ hv)) sum'
        (add_meets hsum (hitems item (List.mem_cons_self ..)) _ hsum')
  exact hfold (.int 0) (.int 0)

/-- A sort gives out the items that it was given. -/
private theorem sortByKey_subset {keyed : List (Value × Value)} {sorted : List Value}
    (h : sortByKey keyed = .ok sorted) : sorted ⊆ keyed.map Prod.snd := by
  obtain ⟨order, _, hsorted⟩ := Attempt.bind_eq_ok.mp h
  cases hsorted
  intro v hv
  -- what stands at a place is one of the items
  obtain ⟨i, _, rfl⟩ := List.mem_map.mp hv
  exact List.mem_map_of_mem (List.getElem_mem i.isLt)

/-- Results that come with the items they were made for meet a standard, and so do the items. -/
def ResultsMeet (std : Standard) (results : List (Value × Value)) : Prop :=
  ∀ r ∈ results, r.1.Meets std ∧ r.2.Meets std

theorem ResultsMeet.chosen {results : List (Value × Value)} (h : ResultsMeet std results) :
    ∀ v ∈ chosen results, v.Meets std := by
  intro v hv
  obtain ⟨r, hr, rfl⟩ := List.mem_map.mp hv
  exact (h r (List.mem_filter.mp hr).1).1

theorem ResultsMeet.snd {results : List (Value × Value)} (h : ResultsMeet std results) :
    ∀ v ∈ results.map Prod.snd, v.Meets std := by
  intro v hv
  obtain ⟨r, hr, rfl⟩ := List.mem_map.mp hv
  exact (h r hr).2

/-- The items of some groups meet a standard, and so do the groups as a map. -/
structure GroupsMeet (std : Standard) (groups : OrderedMap (List Value)) : Prop where
  keys : std.keys (OrderedMap.keys groups)
  items : ∀ group ∈ groups, ∀ v ∈ group.2, v.Meets std

/-- A group with one item more, be it the first of its group. -/
theorem GroupsMeet.insert {groups : OrderedMap (List Value)} (h : GroupsMeet std groups) (key : String)
    {v : Value} (hv : v.Meets std) :
    GroupsMeet std (OrderedMap.insert groups key ((OrderedMap.get? groups key).getD [] ++ [v])) := by
  refine ⟨std.keys_insert h.keys _ _, fun group hgroup w hw => ?_⟩
  -- the group that was written to, or one of the others
  rcases OrderedMap.eq_or_mem_of_mem_insert hgroup with rfl | hgroup
  · rcases List.mem_append.mp hw with hw | hw
    · cases hfound : OrderedMap.get? groups key with
      | none => simp [hfound] at hw
      | some items =>
        rw [hfound, Option.getD_some] at hw
        exact h.items _ (OrderedMap.mem_of_get? hfound) w hw
    · rw [List.mem_singleton.mp hw]
      exact hv
  · exact h.items group hgroup w hw

theorem ResultsMeet.grouped {results : List (Value × Value)} (h : ResultsMeet std results) :
    GroupsMeet std (grouped results) := by
  -- on the results, with whatever groups there are
  have hfold : ∀ groups : OrderedMap (List Value), GroupsMeet std groups →
      GroupsMeet std (results.foldl (fun groups r =>
        let key := r.2.display
        OrderedMap.insert groups key ((OrderedMap.get? groups key).getD [] ++ [r.1])) groups) := by
    induction results with
    | nil => exact fun groups hgroups => hgroups
    | cons r rest ih =>
      intro groups hgroups
      refine ih (fun r' hr' => h r' (List.mem_cons_of_mem _ hr')) _ ?_
      exact hgroups.insert _ (h r (List.mem_cons_self ..)).1
  exact hfold [] ⟨std.keys_nil, by simp⟩

/-- Groups as a map of lists. -/
theorem GroupsMeet.toMap {groups : OrderedMap (List Value)} (h : GroupsMeet std groups) :
    (Value.map (groups.map fun (key, group) => (key, .list group))).Meets std := by
  refine .map ?_ ?_
  · have hkeys : OrderedMap.keys (groups.map fun (key, group) => (key, Value.list group)) =
        OrderedMap.keys groups := by
      simp [OrderedMap.keys, Function.comp_def]
    rw [hkeys]
    exact h.keys
  · intro entry hentry
    obtain ⟨group, hgroup, rfl⟩ := List.mem_map.mp hentry
    exact .list (h.items group hgroup)

/-- A function for entries is given good values, a key among them. -/
private theorem entryArgs_meet (f : Value) (key : String) {v : Value} (hv : v.Meets std) :
    ∀ a ∈ entryArgs f key v, a.Meets std := by
  have hentry : ∀ a ∈ [entryValue key v], a.Meets std := by
    intro a ha
    rw [List.mem_singleton.mp ha]
    exact entryValue_meets key hv
  unfold entryArgs
  split
  · split
    · intro a ha
      simp only [List.mem_cons, List.not_mem_nil, or_false] at ha
      rcases ha with rfl | rfl
      · exact .str key
      · exact hv
    · exact hentry
  · exact hentry

namespace Mode.Holds

variable {call : ι → Caller γ} {items args : List Value}

/-- The results of calls are kept beside their items. -/
theorem callEach (hcall : M.HoldsCalls I std call) {f : Value} (hf : f.Meets std)
    (hitems : ∀ v ∈ items, v.Meets std) :
    M.Holds I (fun i => Script.callEach (call i) f items) (ResultsMeet std) := by
  refine Holds.mapM fun item hitem => ?_
  refine (hcall f [item] hf (by simpa using hitems item hitem)).bind fun v hv => ?_
  exact Holds.pure ⟨hitems item hitem, hv⟩

/-- The item that is found is one of the list. -/
theorem findFirst (hcall : M.HoldsCalls I std call) {f : Value} (hf : f.Meets std)
    (hitems : ∀ v ∈ items, v.Meets std) :
    M.Holds I (fun i => Script.findFirst (call i) f items) (Value.Meets std) := by
  induction items with
  | nil => exact Holds.pure .null
  | cons item rest ih =>
    obtain ⟨hitem, hrest⟩ := List.forall_mem_cons.mp hitems
    simp only [Script.findFirst]
    refine (hcall f [item] hf (by simpa using hitem)).bind fun v _ => ?_
    split
    · exact Holds.pure hitem
    · exact ih hrest

/-- Results of a function for each item of a list, the function given as the only argument of a method. -/
theorem results {β : Type} {Q : β → Prop} (hcall : M.HoldsCalls I std call) (name : String)
    (hargs : ∀ a ∈ args, a.Meets std) (hitems : ∀ v ∈ items, v.Meets std)
    {made : List (Value × Value) → Run γ β}
    (hmade : ∀ results, ResultsMeet std results → M.Holds I (fun _ => made results) Q) :
    M.Holds I (fun i => do
      let f ← Run.ofResult (closureArg name args)
      let results ← Script.callEach (call i) f items
      made results) Q := by
  refine (Holds.ofResult fun f hf => closureArg_meets hargs hf).bind fun f hf => ?_
  exact (callEach hcall hf hitems).bind hmade

/-- A sorted list is made of the items. -/
theorem sortedList {keyed : List (Value × Value)} (hkeyed : ∀ v ∈ keyed.map Prod.snd, v.Meets std) :
    M.Holds I (fun _ => Run.ofResult (Script.sortedList keyed)) (Value.Meets std) := by
  apply Holds.ofResult
  intro v hv
  obtain ⟨sorted, hsorted, hlist⟩ := Attempt.bind_eq_ok.mp hv
  cases hlist
  exact .list fun v hv => hkeyed v (sortByKey_subset hsorted hv)

/-- Items are sorted by themselves or by results, and either way they are the items. -/
theorem sortItems (hcall : M.HoldsCalls I std call) (hitems : ∀ v ∈ items, v.Meets std)
    (hargs : ∀ a ∈ args, a.Meets std) :
    M.Holds I (fun i => Script.sortItems (call i) items args) (Value.Meets std) := by
  unfold Script.sortItems
  refine (Holds.ofResult (Q := fun _ => True) fun _ _ => trivial).bind fun _ _ => ?_
  cases args with
  | nil =>
    refine (Holds.pure ?_).bind fun _ hkeyed => sortedList hkeyed
    simpa using hitems
  | cons f rest =>
    refine (callEach hcall (hargs f (List.mem_cons_self ..)) hitems).bind fun results hresults => ?_
    refine (Holds.pure ?_).bind fun _ hkeyed => sortedList hkeyed
    intro v hv
    -- the results are the keys, and the items go with them
    simp only [List.map_map, List.mem_map, Function.comp_apply] at hv
    obtain ⟨r, hr, rfl⟩ := hv
    exact (hresults r hr).1

/-- The methods of lists keep a standard. -/
theorem listMethod (hcall : M.HoldsCalls I std call) (hitems : ∀ v ∈ items, v.Meets std) (name : String)
    (hargs : ∀ a ∈ args, a.Meets std) :
    M.Holds I (fun i => Script.listMethod (call i) items name args) (Value.Meets std) := by
  unfold Script.listMethod
  -- One case for each method, in the order of the definition.
  split
  · exact Holds.pure (.int _)
  · exact Holds.pure (.bool _)
  · exact Holds.pure (head?_getD_meets hitems)
  · exact Holds.pure (getLast?_getD_meets hitems)
  · refine Holds.ofResult (resultMeets_bind fun index _ => ?_)
    exact elementAt_meets (.list hitems) index
  · exact Holds.ofResult (resultMeets_bind fun v _ => resultMeets_ok (.bool _))
  · exact Holds.pure (.list (by simpa using hitems))
  · exact Holds.pure (.list fun v hv => hitems v (uniqueItems_subset items hv))
  · refine Holds.ofResult (resultMeets_bind fun v _ => resultMeets_bind fun n _ => ?_)
    exact resultMeets_ok (.list fun v hv => hitems v (List.mem_of_mem_take hv))
  · refine Holds.ofResult (resultMeets_bind fun v _ => resultMeets_bind fun n _ => ?_)
    exact resultMeets_ok (.list fun v hv => hitems v (List.mem_of_mem_drop hv))
  · exact Holds.ofResult (resultMeets_bind fun _ _ => resultMeets_ok (.str _))
  · exact Holds.ofResult (sumItems_meets hitems)
  · exact sortItems hcall hitems hargs
  · exact (Holds.ofResult fun f hf => closureArg_meets hargs hf).bind fun f hf => findFirst hcall hf hitems
  · -- From here on the methods run a closure on every element and differ in what they make of the results.
    exact results hcall _ hargs hitems fun results h => Holds.pure (.list h.chosen)
  · exact results hcall _ hargs hitems fun results h => Holds.pure (.list h.chosen)
  · exact results hcall _ hargs hitems fun results h => Holds.pure (.list h.snd)
  · exact results hcall _ hargs hitems fun results h => Holds.pure (.list h.snd)
  · exact results hcall _ hargs hitems fun _ _ => Holds.pure (.list hitems)
  · exact results hcall _ hargs hitems fun _ _ => Holds.pure (.bool _)
  · exact results hcall _ hargs hitems fun _ _ => Holds.pure (.bool _)
  · exact results hcall _ hargs hitems fun _ _ => Holds.pure (.int _)
  · exact results hcall _ hargs hitems fun results h => Holds.pure h.grouped.toMap
  · exact fail _

/-- The methods of maps keep a standard. -/
theorem mapMethod (hcall : M.HoldsCalls I std call) {entries : OrderedMap Value}
    (hentries : (Value.map entries).Meets std) (name : String) (hargs : ∀ a ∈ args, a.Meets std) :
    M.Holds I (fun i => Script.mapMethod (call i) entries name args) (Value.Meets std) := by
  unfold Script.mapMethod
  -- One case for each method; all but the last known one run no closure.
  split
  · exact Holds.pure (.int _)
  · exact Holds.pure (.bool _)
  · exact Holds.ofResult (keysOf_meets _)
  · exact Holds.ofResult (keysOf_meets _)
  · refine Holds.pure (.list fun v hv => ?_)
    obtain ⟨entry, hentry, rfl⟩ := List.mem_map.mp hv
    exact hentries.of_map entry hentry
  · refine Holds.ofResult (resultMeets_bind fun _ _ => resultMeets_bind fun found hfound => ?_)
    split
    · next fallback hfallback =>
      exact resultMeets_ok (hargs fallback (List.mem_of_getElem? hfallback))
    · exact resultMeets_ok (elementAt_meets hentries _ _ hfound)
  · exact Holds.ofResult (resultMeets_bind fun _ _ => resultMeets_ok (.bool _))
  · refine (Holds.ofResult fun f hf => closureArg_meets hargs hf).bind fun f hf => ?_
    refine (Holds.forM fun entry hentry => ?_).bind fun _ _ => Holds.pure hentries
    refine (hcall f _ hf (entryArgs_meet f entry.1 (hentries.of_map entry hentry))).bind fun _ _ => ?_
    exact Holds.pure trivial
  · exact fail _

/-- The methods of texts make texts, numbers, truth values and lists of texts. -/
private theorem stringMethod_meets (s name : String) (args : List Value) :
    ResultMeets std (stringMethod s name args) := by
  -- Splitting gives a list of texts, whichever way the separator is found.
  have hparts : ∀ parts : List String, (Value.list (parts.map .str)).Meets std := by
    intro parts
    refine .list fun v hv => ?_
    obtain ⟨part, _, rfl⟩ := List.mem_map.mp hv
    exact .str part
  unfold stringMethod
  split
  · exact resultMeets_ok (.int _)
  · exact resultMeets_ok (.int _)
  · exact resultMeets_ok (.bool _)
  · exact resultMeets_ok (.str _)
  · exact resultMeets_ok (.str _)
  · exact resultMeets_ok (.str _)
  · exact resultMeets_bind fun _ _ => resultMeets_ok (.bool _)
  · exact resultMeets_bind fun _ _ => resultMeets_ok (.bool _)
  · exact resultMeets_bind fun _ _ => resultMeets_ok (.bool _)
  · exact resultMeets_bind fun _ _ => resultMeets_bind fun _ _ => resultMeets_ok (.str _)
  · split
    · exact resultMeets_ok (hparts _)
    · exact resultMeets_bind fun _ _ => resultMeets_ok (hparts _)
  · exact toIntValue_meets _
  · exact resultMeets_failure _

/-- The methods of every value keep a standard. -/
theorem invokeMethod (hcall : M.HoldsCalls I std call) {receiver : Value} (hreceiver : receiver.Meets std)
    (name : String) (hargs : ∀ a ∈ args, a.Meets std) :
    M.Holds I (fun i => Script.invokeMethod (call i) receiver name args) (Value.Meets std) := by
  unfold Script.invokeMethod
  split
  · exact Holds.pure (.str _)
  · exact Holds.pure (.str _)
  · split
    · exact listMethod hcall hreceiver.of_list name hargs
    · exact mapMethod hcall hreceiver name hargs
    · exact Holds.ofResult (stringMethod_meets _ _ _)
    · exact fail _
    · split
      · exact Holds.ofResult (checked_meets _)
      · exact fail _
    · split
      · exact Holds.pure (.float _)
      · exact fail _
    · split
      · exact hcall _ _ hreceiver hargs
      · exact fail _

/-- The methods that the language knows and the entries of maps that are called like methods. -/
theorem callMethod (hcall : M.HoldsCalls I std call) (p : Pos) {receiver : Value}
    (hreceiver : receiver.Meets std) (name : String) (hargs : ∀ a ∈ args, a.Meets std) :
    M.Holds I (fun i => Script.callMethod (call i) p receiver name args) (Value.Meets std) := by
  unfold Script.callMethod
  dsimp only
  split
  · next f hf =>
    refine hcall f args ?_ hargs
    cases receiver with
    | map entries =>
      obtain ⟨hfound, _⟩ := Option.filter_eq_some_iff.mp hf
      exact hreceiver.of_map _ (OrderedMap.mem_of_get? hfound)
    | _ => contradiction
  · exact (invokeMethod hcall hreceiver name hargs).located p

end Mode.Holds

end RowConsole.Script
