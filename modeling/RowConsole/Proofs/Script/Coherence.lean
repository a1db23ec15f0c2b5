import Mathlib.Data.List.Induction
import RowConsole.Proofs.Script.Equality
import RowConsole.Proofs.Script.Methods
import RowConsole.Proofs.Script.KeyOrder

/-!
# Coherence of Equality and Order

Values without doubles are compared by their kinds first, as when a list is sorted. So the order of two of them is the
reverse of the order the other way around, and the order is transitive where it is defined. It says that two values are
equal if and only if it is defined and they are equal. As equality is an equivalence on exact values, the items of a
list without those equal to an earlier one are the first ones of their classes.

Main statement: `equality_coherent`.
-/

namespace RowConsole.Script

/-! ## Section 1: The Order of Values -/

section Orders

variable {n : Nat} {keys : Fin n → Value} {i j k : Fin n} (hfloat : ∀ i, (keys i).isFloat = false)

include hfloat

/-- Two keys can be compared in both directions, with reverse outcomes, or in none. -/
theorem compare_swap (hij : i ≠ j) : (keys j).compare (keys i) = ((keys i).compare (keys j)).map Ordering.swap := by
  cases hcompare : (keys i).compare (keys j) with
  | none =>
    -- why two keys cannot be compared says nothing of which comes first
    obtain ⟨hi, hj, hkind⟩ := (incomparable_iff hfloat hij).mp hcompare
    exact (incomparable_iff hfloat (Ne.symm hij)).mpr ⟨hj, hi, Ne.symm hkind⟩
  | some o =>
    cases hback : (keys j).compare (keys i) with
    | none =>
      obtain ⟨hj, hi, hkind⟩ := (incomparable_iff hfloat (Ne.symm hij)).mp hback
      have hnone := (incomparable_iff hfloat hij).mpr ⟨hi, hj, Ne.symm hkind⟩
      rw [hcompare] at hnone
      contradiction
    | some o' =>
      have horder : orderByKind 1 keys j i = (orderByKind 1 keys i j).swap := Std.OrientedCmp.eq_swap
      rw [orderByKind_of_compare hfloat 1 hback, orderByKind_of_compare hfloat 1 hcompare] at horder
      rw [horder]
      rfl

/-- If a key is at most as great as a second one, and this is at most as great as a third one, then the first and the
third one can be compared, and they are equal only if both pairs are. -/
theorem compare_trans (hij : i ≠ j) (hjk : j ≠ k) (hik : i ≠ k) {o o' : Ordering}
    (h : (keys i).compare (keys j) = some o) (h' : (keys j).compare (keys k) = some o') (ho : o ≠ .gt)
    (ho' : o' ≠ .gt) :
    (keys i).compare (keys k) = some (o.then o') := by
  have hfirst := orderByKind_of_compare hfloat 1 h
  have hsecond := orderByKind_of_compare hfloat 1 h'
  -- the order by kinds is total and transitive, and says the same where keys can be compared
  have horder : orderByKind 1 keys i k = o.then o' := by
    cases o with
    | gt => exact absurd rfl ho
    | lt =>
      cases o' with
      | gt => exact absurd rfl ho'
      | lt => exact Std.TransCmp.lt_trans hfirst hsecond
      | eq => exact Std.TransCmp.lt_of_lt_of_eq hfirst hsecond
    | eq =>
      cases o' with
      | gt => exact absurd rfl ho'
      | lt => exact Std.TransCmp.lt_of_eq_of_lt hfirst hsecond
      | eq => exact Std.TransCmp.eq_trans hfirst hsecond
  cases hcompare : (keys i).compare (keys k) with
  | some o'' => rw [← horder, orderByKind_of_compare hfloat 1 hcompare]
  | none =>
    exfalso
    obtain ⟨hi, hk, hkind⟩ := (incomparable_iff hfloat hik).mp hcompare
    -- a null between them would be above the first key
    have hj : (keys j).isNull = false := by
      by_contra hnull
      have hnull : keys j = .null := Value.eq_null (by simpa using hnull)
      rw [hnull, Value.compare_null_right hi] at h
      exact ho (Option.some.inj h).symm
    -- all three are of one kind
    have hijkind : kindAt keys i = kindAt keys j := by
      by_contra hne
      rw [(incomparable_iff hfloat hij).mpr ⟨hi, hj, hne⟩] at h
      contradiction
    have hjkkind : kindAt keys j = kindAt keys k := by
      by_contra hne
      rw [(incomparable_iff hfloat hjk).mpr ⟨hj, hk, hne⟩] at h'
      contradiction
    exact hkind (hijkind.trans hjkkind)

end Orders

namespace Value

variable {a b : Value}

private theorem Exact.isFloat_eq (h : a.Exact) : a.isFloat = false := by
  cases h with
  | leaf h => cases a <;> first
    | contradiction
    | rfl
  | list _ | map _ _ => rfl

/-- Values that can be compared are equal for the order if and only if they are equal. -/
theorem compare_eq_iff (ha : a.isFloat = false) (hb : b.isFloat = false) :
    a.compare b = some .eq ↔ (a.compare b).isSome = true ∧ a.equals b = true := by
  cases a <;> cases b <;> simp_all [compare, equals, isFloat, asFloat?, Int64.toInt_inj]

end Value

/-! ## Section 2: Unique Items -/

/-- The items of a list that are equal to no item before them: of each class of equal items the first one. -/
def firstOfEach (items : List Value) : List Value :=
  (items.zipIdx.filter fun (item, i) => (items.take i).all fun earlier => !earlier.equals item).map Prod.fst

section Unique

variable {items : List Value} {v : Value}

private theorem uniqueItems_concat (items : List Value) (v : Value) : uniqueItems (items ++ [v]) =
    if Value.isIn (uniqueItems items) v then uniqueItems items else uniqueItems items ++ [v] :=
  List.foldl_concat ..

private theorem firstOfEach_concat (items : List Value) (v : Value) : firstOfEach (items ++ [v]) =
    if Value.isIn items v then firstOfEach items else firstOfEach items ++ [v] := by
  have hbefore :
      (items.zipIdx.filter fun (item, i) => ((items ++ [v]).take i).all fun earlier => !earlier.equals item) =
      items.zipIdx.filter fun (item, i) => (items.take i).all fun earlier => !earlier.equals item := by
    apply List.filter_congr
    rintro ⟨item, i⟩ hmem
    have hlt : i < items.length := by simpa using List.snd_lt_of_mem_zipIdx hmem
    dsimp only
    rw [List.take_append_of_le_length (Nat.le_of_lt hlt)]
  have hlast : (items.all fun earlier => !earlier.equals v) = !Value.isIn items v := by
    rw [Value.isIn, List.not_any_eq_all_not]
  rw [firstOfEach, List.zipIdx_append, List.filter_append, List.map_append, hbefore, firstOfEach]
  cases hin : Value.isIn items v <;> simp [hlast, hin]

/-- No item that is kept is equal to one before it. -/
theorem pairwise_uniqueItems (items : List Value) : (uniqueItems items).Pairwise fun a b => a.equals b = false := by
  induction items using List.reverseRecOn with
  | nil => exact .nil
  | append_singleton items v ih =>
    rw [uniqueItems_concat]
    split
    · exact ih
    · next hnew =>
      simp only [Value.isIn, Bool.not_eq_true, List.any_eq_false] at hnew
      rw [List.pairwise_append]
      exact ⟨ih, List.pairwise_singleton _ _, by simpa using hnew⟩

/-- A list in which no item is equal to one before it stays as it is. -/
theorem uniqueItems_eq_self (h : items.Pairwise fun a b => a.equals b = false) : uniqueItems items = items := by
  induction items using List.reverseRecOn with
  | nil => rfl
  | append_singleton items v ih =>
    obtain ⟨hitems, _, hnew⟩ := List.pairwise_append.mp h
    have hnot : Value.isIn items v = false := by
      rw [Value.isIn, List.any_eq_false]
      intro item hitem
      simp [hnew item hitem v List.mem_cons_self]
    rw [uniqueItems_concat, ih hitems, hnot]
    rfl

/-- Of exact items, those that are kept stand for all others. -/
theorem isIn_uniqueItems (hitems : ∀ item ∈ items, item.Exact) (hv : v.Exact) :
    Value.isIn (uniqueItems items) v = Value.isIn items v := by
  -- an item is kept unless one that is kept is equal to it
  have hkept : ∀ item ∈ items, ∃ first ∈ uniqueItems items, first.equals item = true := by
    induction items using List.reverseRecOn with
    | nil => simp
    | append_singleton items w ih =>
      obtain ⟨hbefore, hw⟩ := List.forall_mem_append.mp hitems
      rw [uniqueItems_concat, List.forall_mem_append]
      split
      · next hin =>
        obtain ⟨first, hfirst, hequals⟩ := List.any_eq_true.mp hin
        exact ⟨ih hbefore, by simpa using ⟨first, hfirst, hequals⟩⟩
      · constructor
        · intro item hitem
          obtain ⟨first, hfirst, hequals⟩ := ih hbefore item hitem
          exact ⟨first, List.mem_append_left _ hfirst, hequals⟩
        · intro item hitem
          exact ⟨item, List.mem_append_right _ hitem, (hw item hitem).equals_refl⟩
  rw [Bool.eq_iff_iff, Value.isIn, Value.isIn, List.any_eq_true, List.any_eq_true]
  constructor
  · rintro ⟨item, hitem, hequals⟩
    exact ⟨item, uniqueItems_subset items hitem, hequals⟩
  · rintro ⟨item, hitem, hequals⟩
    obtain ⟨first, hfirst, hsame⟩ := hkept item hitem
    have hexact := hitems first (uniqueItems_subset items hfirst)
    exact ⟨first, hfirst, hexact.equals_trans (hitems item hitem) hv hsame hequals⟩

/-- Of exact items, the first one of each class is kept. -/
theorem uniqueItems_eq_firstOfEach (hitems : ∀ item ∈ items, item.Exact) : uniqueItems items = firstOfEach items := by
  induction items using List.reverseRecOn with
  | nil => rfl
  | append_singleton items v ih =>
    obtain ⟨hitems, hv⟩ := List.forall_mem_append.mp hitems
    rw [uniqueItems_concat, firstOfEach_concat, isIn_uniqueItems hitems (hv v List.mem_cons_self), ih hitems]

/-! ## Section 3: All Together -/

private theorem callMethod_unique {γ : Type} (call : Caller γ) (p : Pos) (items args : List Value) (m : Machine γ) :
    callMethod call p (.list items) "unique" args m = some (.ok (.list (uniqueItems items)), m) :=
  rfl

end Unique

/-- On values with no doubles and no functions of a script in them, equality and order are coherent. Equality is an
equivalence, and two values are equal if and only if they differ in the order of entries of maps at most. The order of
two values is the reverse of their order the other way around; it is transitive; it says that values are equal if and
only if it is defined and they are equal; and it has null below all other values. So `unique` gives the first item of
each class of equal items, in the order of the list, and gives its own results back. -/
theorem equality_coherent {a b c : Value} (ha : a.Exact) (hb : b.Exact) (hc : c.Exact) :
    (a.equals a = true ∧ b.equals a = a.equals b ∧ (a.equals b = true → b.equals c = true → a.equals c = true) ∧
        (a.equals b = true ↔ a.Reordered b)) ∧
      (b.compare a = (a.compare b).map Ordering.swap ∧
        (∀ o o', a.compare b = some o → b.compare c = some o' → o ≠ .gt → o' ≠ .gt →
          a.compare c = some (o.then o')) ∧
        (a.compare b = some .eq ↔ (a.compare b).isSome = true ∧ a.equals b = true) ∧
        (a ≠ .null → Value.null.compare a = some .lt)) ∧
      ∀ (γ : Type) (call : Caller γ) (p : Pos) (args : List Value) (m : Machine γ) (items : List Value),
        (∀ item ∈ items, item.Exact) →
          callMethod call p (.list items) "unique" args m = some (.ok (.list (firstOfEach items)), m) ∧
            callMethod call p (.list (firstOfEach items)) "unique" args m =
              some (.ok (.list (firstOfEach items)), m) := by
  -- the order is known of keys by their places, so that the values may be equal
  have hfloat : ∀ i : Fin 3, ([a, b, c].get i).isFloat = false := by
    have hall : ∀ v ∈ [a, b, c], v.isFloat = false := by simp [ha.isFloat_eq, hb.isFloat_eq, hc.isFloat_eq]
    exact fun i => hall _ (List.get_mem [a, b, c] i)
  refine ⟨⟨ha.equals_refl, ?_, ha.equals_trans hb hc, ha.equals_iff_reordered hb⟩, ⟨?_, ?_, ?_, ?_⟩, ?_⟩
  · rw [Bool.eq_iff_iff]
    exact ⟨hb.equals_symm ha, ha.equals_symm hb⟩
  · exact compare_swap (i := 0) (j := 1) hfloat (by decide)
  · intro o o' h h' ho ho'
    exact compare_trans (i := 0) (j := 1) (k := 2) hfloat (by decide) (by decide) (by decide) h h' ho ho'
  · exact Value.compare_eq_iff ha.isFloat_eq hb.isFloat_eq
  · intro hne
    apply Value.compare_null_left
    by_contra hnull
    exact hne (Value.eq_null (by simpa using hnull))
  · intro γ call p args m items hitems
    have hidempotent : uniqueItems (uniqueItems items) = uniqueItems items :=
      uniqueItems_eq_self (pairwise_uniqueItems items)
    rw [callMethod_unique, callMethod_unique, ← uniqueItems_eq_firstOfEach hitems, hidempotent]
    exact ⟨rfl, rfl⟩

/-- Maps in maps whose entries stand in different orders, null and two numbers, and a list with both kinds of
repetition. -/
theorem equality_coherent_nested :
    let a : Value := .map [("x", .list [.map [("k", .int 1), ("l", .null)]]), ("y", .str "s")]
    let b : Value := .map [("y", .str "s"), ("x", .list [.map [("l", .null), ("k", .int 1)]])]
    let call : Caller (OrderedMap Value) := callWith 10 (runBlock (exec 10 20) .null) ⟨1, 5⟩
    let m : Machine (OrderedMap Value) := Machine.start [] 0
    a.Exact ∧ b.Exact ∧ a.Reordered b ∧ b.equals a = a.equals b ∧
      Value.null.Exact ∧ (Value.int 1).Exact ∧ (Value.int 2).Exact ∧
      Value.null.compare (.int 2) = some .lt ∧
      callMethod call ⟨1, 5⟩ (.list [a, .null, b, .int 2, .null]) "unique" [] m =
        some (.ok (.list [a, .null, .int 2]), m) := by
  intro a b call m
  -- No value here holds a float or a function, so all of them are exact.
  have hnull : Value.null.Exact := .leaf rfl
  have hone : (Value.int 1).Exact := .leaf rfl
  have htwo : (Value.int 2).Exact := .leaf rfl
  have hword : (Value.str "s").Exact := .leaf rfl
  have hinner : (Value.map [("k", .int 1), ("l", .null)]).Exact := .map (by decide) (by simpa using ⟨hone, hnull⟩)
  have hinner' : (Value.map [("l", .null), ("k", .int 1)]).Exact := .map (by decide) (by simpa using ⟨hnull, hone⟩)
  have ha : a.Exact := .map (by decide) (by simpa using ⟨.list (by simpa using hinner), hword⟩)
  have hb : b.Exact := .map (by decide) (by simpa using ⟨hword, .list (by simpa using hinner')⟩)
  obtain ⟨⟨_, hsymm, _, hreordered⟩, _, hunique⟩ := equality_coherent ha hb hnull
  obtain ⟨_, ⟨_, htrans, _, _⟩, _⟩ := equality_coherent hnull hone htwo
  have hfirst : firstOfEach [a, .null, b, .int 2, .null] = [a, .null, .int 2] := rfl
  refine ⟨ha, hb, hreordered.mp rfl, hsymm, hnull, hone, htwo, ?_, ?_⟩
  · exact htrans .lt .lt rfl rfl (by decide) (by decide)
  · rw [← hfirst]
    exact (hunique _ call ⟨1, 5⟩ [] m _ (by simpa using ⟨ha, hnull, hb, htwo, hnull⟩)).1

end RowConsole.Script
