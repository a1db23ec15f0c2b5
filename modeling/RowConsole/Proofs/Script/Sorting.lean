import Mathlib.Data.List.Zip
import RowConsole.Proofs.Data.RunSort
import RowConsole.Proofs.Script.Callbacks
import RowConsole.Proofs.Script.KeyOrder

/-!
# Sorting Lists

A list is sorted by comparing keys. The sort asks for an order of any two of them, and is told that they are equal if they
cannot be compared; that this has happened is kept, and makes the whole sort fail. Keys that can all be compared are in a
total preorder, so the list is sorted stably. Keys that cannot be compared can be put in either order without a
contradiction to what can be compared: a stable sort has to ask about such a pair before it is done. It never gives a list
then, but it need not come to its end either: what it is told is no order, and from 21 items on it may find that out and
break down.

Main statements: `sortByKey_of_comparable`, `sortByKey_of_incomparable` and `callMethod_sort`.
-/

namespace RowConsole.Script

/-! ## Section 1: Places -/

section Places

variable {n : Nat} {keys : Fin n → Value} (hfloat : ∀ i, (keys i).isFloat = false)

include hfloat

/-- A key that cannot be compared with itself comes behind all that it can be compared with. -/
private theorem lt_of_compare_self_none {i k : Fin n} (hself : (keys i).compare (keys i) = none) {o : Ordering}
    (h : (keys k).compare (keys i) = some o) : o = .lt := by
  have hnull : (keys i).isNull = false := by
    by_contra hnull
    rw [Bool.not_eq_false] at hnull
    rw [Value.eq_null hnull] at hself
    contradiction
  have hkind : (keys i).kind? = none := by
    by_contra hkind
    rw [Value.compare_of_kind rfl hkind] at hself
    contradiction
  cases hk : (keys k).isNull with
  | true =>
    rw [Value.eq_null hk, Value.compare_null_left hnull] at h
    exact (Option.some_inj.mp h).symm
  | false =>
    have hother : (keys k).kind? = none ∨ (keys k).kind? ≠ (keys i).kind? := by
      rw [hkind]
      exact Decidable.em _
    rw [Value.compare_eq_none hk hnull (hfloat k) (hfloat i) hother] at h
    contradiction

/-- If all keys can be compared, then the places are found in the stable order of the keys. -/
theorem sortPlaces_of_comparable (hall : ∀ i j, i ≠ j → (keys i).compare (keys j) ≠ none) :
    ∃ order, sortPlaces (fun i j => (keys i).compare (keys j)) = .ok order ∧
      IsStableOrder (orderByKind 1 keys) (List.finRange n) order := by
  have hanswered : ∀ i j, MayAsk (orderByKind 1 keys) i j →
      (keys i).compare (keys j) = some (orderByKind 1 keys i j) := by
    intro i j hask
    cases hcompare : (keys i).compare (keys j) with
    | some o => rw [orderByKind_of_compare hfloat 1 hcompare]
    | none =>
      -- only a key and itself are left, but the sort has no reason to compare these
      have hsame : i = j := by
        by_contra hij
        exact hall i j hij hcompare
      subst hsame
      obtain ⟨k, hki, hnotLess⟩ := hask rfl
      obtain ⟨o, ho⟩ := Option.ne_none_iff_exists'.mp (hall k i hki)
      rw [orderByKind_of_compare hfloat 1 ho] at hnotLess
      exact absurd (lt_of_compare_self_none hfloat hcompare ho) hnotLess
  obtain ⟨order, hrecord, horder⟩ := StableSort.byRuns.exists_record_eq hanswered
  refine ⟨order, ?_, horder⟩
  have hsort : (RunSort.sort (List.finRange n)).record (fun i j => (keys i).compare (keys j)) false =
      some (order, false) := hrecord
  rw [sortPlaces, hsort]

/-- If two keys cannot be compared, then the sort fails, or it breaks down; a short list is sorted to its end. -/
theorem sortPlaces_of_incomparable {i j : Fin n} (hij : i ≠ j) (hnone : (keys i).compare (keys j) = none) :
    sortPlaces (fun i j => (keys i).compare (keys j)) = failure .unsortable ∨
      RunSort.insertingLimit < n ∧ sortPlaces (fun i j => (keys i).compare (keys j)) = crash .inconsistentOrder := by
  obtain ⟨sign, hlt, hgt⟩ := orderByKind_apart hfloat hij hnone
  cases hrecord : (RunSort.sort (List.finRange n)).record (fun i j => (keys i).compare (keys j)) false with
  | none =>
    refine .inr ⟨?_, by rw [sortPlaces, hrecord]⟩
    by_contra hshort
    have hlength : (List.finRange n).length ≤ RunSort.insertingLimit := by
      rw [List.length_finRange]
      exact Nat.not_lt.mp hshort
    obtain ⟨order, missed, hended, _⟩ := (RunSort.sort_ends _ hlength).exists_record false
    rw [hrecord] at hended
    contradiction
  | some ended =>
    obtain ⟨order, missed⟩ := ended
    -- The kinds in either direction agree with what can be compared.
    have hagree : ∀ sign i j o, (keys i).compare (keys j) = some o → orderByKind sign keys i j = o :=
      fun sign _ _ _ => orderByKind_of_compare hfloat sign
    have hmissed : missed = true :=
      StableSort.byRuns.missed_of_apart (hagree sign) (hagree (-sign)) hlt hgt hrecord
    subst hmissed
    exact .inl (by rw [sortPlaces, hrecord])

end Places

/-! ## Section 2: Items -/

/-- The keys by their places. -/
def keyAt (keyed : List (Value × Value)) (i : Fin keyed.length) : Value :=
  (keyed.get i).1

private theorem sortByKey_eq_map (keyed : List (Value × Value)) :
    sortByKey keyed = do
      let order ← sortPlaces fun i j => (keyAt keyed i).compare (keyAt keyed j)
      return order.map fun i => (keyed.get i).2 :=
  sortByKey_eq rfl

/-- The items in a stable order of their keys: each stands at its new place with a key that compares as at most as great as
the keys behind it, and items whose keys compare as equal are left in their order. -/
def StablySorted (keyed : List (Value × Value)) (sorted : List Value) : Prop :=
  ∃ order : List (Fin keyed.length), order.Perm (List.finRange keyed.length) ∧
    order.Pairwise (fun i j => (keyAt keyed i).compare (keyAt keyed j) = some .lt ∨
      (keyAt keyed i).compare (keyAt keyed j) = some .eq ∧ i < j) ∧
    sorted = order.map fun i => (keyed.get i).2

/-- What is stably sorted is a permutation of the items. -/
theorem StablySorted.perm {keyed : List (Value × Value)} {sorted : List Value} (h : StablySorted keyed sorted) :
    sorted.Perm (keyed.map Prod.snd) := by
  obtain ⟨order, hperm, _, rfl⟩ := h
  have hitems : keyed.map Prod.snd = (List.finRange keyed.length).map fun i => (keyed.get i).2 := by
    conv_lhs => rw [← List.map_get_finRange keyed, List.map_map]
    rfl
  rw [hitems]
  exact hperm.map _

section Items

variable {keyed : List (Value × Value)} (hfloat : ∀ i, (keyAt keyed i).isFloat = false)

include hfloat

/-- If all keys can be compared, then the items are sorted by them. -/
theorem sortByKey_of_comparable (hall : ∀ i j, i ≠ j → (keyAt keyed i).compare (keyAt keyed j) ≠ none) :
    ∃ sorted, sortByKey keyed = .ok sorted ∧ StablySorted keyed sorted := by
  obtain ⟨order, hplaces, horder⟩ := sortPlaces_of_comparable hfloat hall
  refine ⟨order.map fun i => (keyed.get i).2, ?_, order, horder.perm, ?_, rfl⟩
  · rw [sortByKey_eq_map, hplaces]
    rfl
  · apply horder.ordered.imp
    intro i j hbefore
    obtain ⟨o, ho⟩ := Option.ne_none_iff_exists'.mp (hall i j hbefore.ne)
    rw [Before, orderByKind_of_compare hfloat 1 ho] at hbefore
    rw [ho, Option.some_inj, Option.some_inj]
    exact hbefore

/-- If two keys cannot be compared, then the items are not sorted. -/
theorem sortByKey_of_incomparable {i j : Fin keyed.length} (hij : i ≠ j)
    (hnone : (keyAt keyed i).compare (keyAt keyed j) = none) :
    sortByKey keyed = failure .unsortable ∨
      RunSort.insertingLimit < keyed.length ∧ sortByKey keyed = crash .inconsistentOrder := by
  rw [sortByKey_eq_map]
  rcases sortPlaces_of_incomparable hfloat hij hnone with h | ⟨hlong, h⟩
  · rw [h]
    exact .inl rfl
  · rw [h]
    exact .inr ⟨hlong, rfl⟩

end Items

/-! ## Section 3: The Method -/

section Method

variable {γ : Type}

/-- The keys of some items: what a function makes of them, or the items themselves if there is no function. -/
def SortKeys (call : Caller γ) (items : List Value) (m : Machine γ) (keys : List Value) (m' : Machine γ) :
    Option Value → Prop
  | some f => KeysMade call f items m keys m'
  | none => keys = items ∧ m' = m

/-- Two of some keys, at different places, cannot be compared. -/
def SomeIncomparable (keys : List Value) : Prop :=
  ∃ (i j : Nat) (a b : Value), i ≠ j ∧ keys[i]? = some a ∧ keys[j]? = some b ∧ a.compare b = none

private theorem someIncomparable_iff {keyed : List (Value × Value)} :
    SomeIncomparable (keyed.map Prod.fst) ↔ ∃ i j, i ≠ j ∧ (keyAt keyed i).compare (keyAt keyed j) = none := by
  have hkey : ∀ i a, (keyed.map Prod.fst)[i]? = some a ↔ ∃ h : i < keyed.length, keyAt keyed ⟨i, h⟩ = a := by
    intro i a
    rw [List.getElem?_eq_some_iff]
    simp [keyAt]
  constructor
  · rintro ⟨i, j, a, b, hij, hi, hj, hab⟩
    obtain ⟨hilt, rfl⟩ := (hkey i a).mp hi
    obtain ⟨hjlt, rfl⟩ := (hkey j b).mp hj
    exact ⟨⟨i, hilt⟩, ⟨j, hjlt⟩, fun h => hij (congrArg Fin.val h), hab⟩
  · rintro ⟨i, j, hij, hab⟩
    exact ⟨i, j, _, _, fun h => hij (Fin.ext h), (hkey i _).mpr ⟨i.isLt, rfl⟩, (hkey j _).mpr ⟨j.isLt, rfl⟩, hab⟩

variable {call : Caller γ} {f? : Option Value} {items keys : List Value} {m m' : Machine γ}

theorem SortKeys.length_eq (h : SortKeys call items m keys m' f?) : keys.length = items.length := by
  cases f? with
  | none => rw [h.1]
  | some f => exact KeysMade.length_eq h

/-- A call of the sort makes the keys, and then sorts by them. -/
theorem SortKeys.callMethod (h : SortKeys call items m keys m' f?) (p : Pos) :
    Script.callMethod call p (.list items) "sort" f?.toList m =
      some ((sortedList (keys.zip items)).mapError (·.located p), m') := by
  show (sortItems call items f?.toList).located p m = _
  cases f? with
  | none =>
    -- the items are their own keys
    obtain ⟨rfl, rfl⟩ := h
    have hkeyed : (keys.map fun item => (item, item)) = keys.zip keys := by
      rw [List.zip_eq_zipWith, List.zipWith_self]
    rw [← hkeyed]
    exact Run.ofResultAt_apply p _ m'
  | some f =>
    have hsort : sortItems call items [f] m = (Run.ofResult (sortedList (keys.zip items)) : Run γ Value) m' := by
      rw [sortItems, Run.bind_apply]
      show (Script.callEach call f items >>= fun results =>
        pure (results.map Prod.swap) >>= fun keyed => Run.ofResult (sortedList keyed)) m = _
      rw [Run.bind_apply, KeysMade.callEach h]
      show (Run.ofResult (sortedList ((items.zip keys).map Prod.swap)) : Run γ Value) m' = _
      rw [List.zip_swap]
    rw [Run.located, Run.mapFailure_apply, Option.toList_some, hsort, ← Run.mapFailure_apply]
    exact Run.ofResultAt_apply p _ m'

/-- A list is sorted by its items, or by the keys that a function makes of them, each made once and in the order of the
list; none of the keys is a double. If all keys at different places can be compared, then the sort gives a permutation of
the list in which the keys do not decrease and items with equal keys keep their order. Otherwise it gives no list: it ends
in a type error, or, if there are more than 20 items, it may break the program down. -/
theorem callMethod_sort (p : Pos) (h : SortKeys call items m keys m' f?) (hfloat : ∀ k ∈ keys, k.isFloat = false) :
    (¬ SomeIncomparable keys → ∃ sorted, callMethod call p (.list items) "sort" f?.toList m =
        some (.ok (.list sorted), m') ∧ sorted.Perm items ∧ StablySorted (keys.zip items) sorted) ∧
      (SomeIncomparable keys →
        callMethod call p (.list items) "sort" f?.toList m = some (failureAt .unsortable p, m') ∨
          RunSort.insertingLimit < items.length ∧
            callMethod call p (.list items) "sort" f?.toList m = some (crash .inconsistentOrder, m')) := by
  have hkeys : (keys.zip items).map Prod.fst = keys := List.map_fst_zip (Nat.le_of_eq h.length_eq)
  have hitems : (keys.zip items).map Prod.snd = items := List.map_snd_zip (Nat.le_of_eq h.length_eq.symm)
  have hfloat' : ∀ i, (keyAt (keys.zip items) i).isFloat = false := by
    intro i
    have hmem : keyAt (keys.zip items) i ∈ (keys.zip items).map Prod.fst := List.mem_map_of_mem (List.get_mem _ i)
    rw [hkeys] at hmem
    exact hfloat _ hmem
  have hsome := @someIncomparable_iff (keys.zip items)
  rw [hkeys] at hsome
  rw [SortKeys.callMethod h p, sortedList]
  constructor
  · intro hcomparable
    have hall : ∀ i j, i ≠ j → (keyAt (keys.zip items) i).compare (keyAt (keys.zip items) j) ≠ none :=
      fun i j hij hnone => hcomparable (hsome.mpr ⟨i, j, hij, hnone⟩)
    obtain ⟨sorted, hsort, hstable⟩ := sortByKey_of_comparable hfloat' hall
    refine ⟨sorted, ?_, hitems ▸ hstable.perm, hstable⟩
    rw [hsort]
    rfl
  · intro hincomparable
    obtain ⟨i, j, hij, hnone⟩ := hsome.mp hincomparable
    rcases sortByKey_of_incomparable hfloat' hij hnone with hsort | ⟨hlong, hsort⟩
    · rw [hsort]
      exact .inl rfl
    · have hlength : (keys.zip items).length = items.length := by rw [← List.length_map Prod.snd, hitems]
      rw [hsort]
      exact .inr ⟨hlength ▸ hlong, rfl⟩

/-- Words are sorted by their lengths, two of which are equal; a number and a word around a null cannot be sorted. -/
theorem callMethod_sort_words :
    let call : Caller (OrderedMap Value) := callWith 10 (runBlock (exec 10 20) .null) ⟨1, 5⟩
    let m : Machine (OrderedMap Value) := Machine.start [] 0
    let words : List Value := [.str "cc", .str "a", .str "bb"]
    let lengths : List Value := [.int 2, .int 1, .int 2]
    let mixed : List Value := [.int 1, .null, .str "a"]
    (∃ m', SortKeys call words m lengths m' (some (.builtin .len)) ∧ (∀ k ∈ lengths, k.isFloat = false) ∧
      ¬ SomeIncomparable lengths ∧ ∃ sorted, callMethod call ⟨1, 5⟩ (.list words) "sort" [.builtin .len] m =
        some (.ok (.list sorted), m') ∧ sorted.Perm words ∧ StablySorted (lengths.zip words) sorted) ∧
      SortKeys call mixed m mixed m none ∧ (∀ k ∈ mixed, k.isFloat = false) ∧ SomeIncomparable mixed ∧
      callMethod call ⟨1, 5⟩ (.list mixed) "sort" [] m = some (failureAt .unsortable ⟨1, 5⟩, m) := by
  intro call m words lengths mixed
  have hlengths : ∀ k ∈ lengths, k.isFloat = false := by simp [lengths, Value.isFloat]
  have hmixed : ∀ k ∈ mixed, k.isFloat = false := by simp [mixed, Value.isFloat]
  have hcomparable : ¬ SomeIncomparable lengths := by
    rintro ⟨i, j, a, b, _, ha, hb, hab⟩
    have hint : ∀ k ∈ lengths, ∃ n, k = .int n := by simp [lengths]
    obtain ⟨_, rfl⟩ := hint a (List.mem_of_getElem? ha)
    obtain ⟨_, rfl⟩ := hint b (List.mem_of_getElem? hb)
    contradiction
  -- The integer and the text cannot be compared, although a null stands between them.
  have hincomparable : SomeIncomparable mixed := ⟨0, 2, .int 1, .str "a", by decide, rfl, rfl, rfl⟩
  obtain ⟨m', hmade⟩ : ∃ m', SortKeys call words m lengths m' (some (.builtin .len)) :=
    ⟨_, .cons rfl (.cons rfl (.cons rfl (.nil _)))⟩
  have hunmade : SortKeys call mixed m mixed m none := ⟨rfl, rfl⟩
  refine ⟨⟨m', hmade, hlengths, hcomparable, (callMethod_sort ⟨1, 5⟩ hmade hlengths).1 hcomparable⟩, hunmade, hmixed,
    hincomparable, ?_⟩
  rcases (callMethod_sort ⟨1, 5⟩ hunmade hmixed).2 hincomparable with hfails | ⟨hlong, _⟩
  · exact hfails
  · exact absurd hlong (by decide)

/-- Numbers and words, 21 items in all. -/
def numbersAndWords : List Value :=
  (List.replicate 7 [.int 1, .str "a", .int 2]).flatten

/-- A type error is not all that can come of keys that cannot be compared. What the sort is told of 21 numbers and words
contradicts itself: both halves of the list are sorted, and when they are merged from both ends, the ends do not meet. -/
theorem callMethod_sort_numbersAndWords :
    let call : Caller (OrderedMap Value) := callWith 10 (runBlock (exec 10 20) .null) ⟨1, 5⟩
    let m : Machine (OrderedMap Value) := Machine.start [] 0
    SortKeys call numbersAndWords m numbersAndWords m none ∧ (∀ k ∈ numbersAndWords, k.isFloat = false) ∧
      SomeIncomparable numbersAndWords ∧
      callMethod call ⟨1, 5⟩ (.list numbersAndWords) "sort" [] m = some (crash .inconsistentOrder, m) := by
  intro call m
  have hunmade : SortKeys call numbersAndWords m numbersAndWords m none := ⟨rfl, rfl⟩
  refine ⟨hunmade, by decide +kernel, ⟨0, 1, .int 1, .str "a", by decide, rfl, rfl, rfl⟩, ?_⟩
  have hplaces : sortPlaces (fun i j => (keyAt (numbersAndWords.zip numbersAndWords) i).compare
      (keyAt (numbersAndWords.zip numbersAndWords) j)) = crash .inconsistentOrder := by decide +kernel
  have hcall := hunmade.callMethod ⟨1, 5⟩
  rw [sortedList, sortByKey_eq_map, hplaces] at hcall
  exact hcall

end Method

end RowConsole.Script
