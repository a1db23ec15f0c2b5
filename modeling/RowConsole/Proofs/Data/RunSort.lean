import RowConsole.Proofs.Data.Merging

/-!
# The Sort by Runs Is Stable

With the answers of a total preorder, the sort by runs finds the stable order, and it finds no contradiction. The runs that
it cuts off a list, and those that it joins them to, hold neighbouring pieces of the list: sorted, or, if they are to be
sorted later, just as they were. A piece to be sorted later is parted around a pivot: what is less, in its order, and what
is not, in its order.

The sort asks how a thing compares with itself only when it has met a pivot again, and then other things are not less.

Main statements: `sort_finds` and `StableSort.byRuns`. A short list is sorted whatever the answers are: `sort_ends`.
-/

namespace RowConsole.RunSort

open Comparisons (Ends)

variable {ι : Type} [LinearOrder ι] {answer : ι → ι → Ordering} [Std.TransCmp answer]

/-! ## Section 1: Cutting Off Runs -/

omit [Std.TransCmp answer] in
/-- A run is continued as long as its items follow each other as they should. -/
private theorem continueRun_finds {R : ι → ι → Prop} (htrans : ∀ a b c, R a b → R b c → R a c)
    {continues : ι → ι → Comparisons ι Bool}
    (hcontinues : ∀ x y, x < y → (continues x y).Finds answer fun b => b = true → R x y) {before rest : List ι} {last : ι}
    (hbefore : (last :: before).Pairwise fun a b => R b a) (hplaced : (last :: rest).Pairwise (· < ·)) :
    (continueRun continues before last rest).Finds answer fun out =>
      ∃ k, out = (rest.take k).reverse ++ last :: before ∧ out.Pairwise fun a b => R b a := by
  -- On the items that are left; the run so far is turned round, so that the next item goes to its front.
  induction rest generalizing before last with
  | nil => exact Ends.pure ⟨0, rfl, hbefore⟩
  | cons item rest ih =>
    obtain ⟨hlast, hrest⟩ := List.pairwise_cons.mp hplaced
    apply (hcontinues last item (hlast item List.mem_cons_self)).bind
    intro goesOn hgoesOn
    cases goesOn with
    | true =>
      have hnext := hgoesOn rfl
      have hitem : ∀ b ∈ last :: before, R b item := by
        refine List.forall_mem_cons.mpr ⟨hnext, fun b hb => htrans b last item ?_ hnext⟩
        exact (List.pairwise_cons.mp hbefore).1 b hb
      apply (ih (List.pairwise_cons.mpr ⟨hitem, hbefore⟩) hrest).mono
      rintro out ⟨k, rfl, hordered⟩
      refine ⟨k + 1, ?_, hordered⟩
      rw [List.take_succ_cons, List.reverse_cons, List.append_assoc]
      rfl
    | false => exact Ends.pure ⟨0, rfl, hbefore⟩

/-- The run that a list starts with, upwards or downwards, in order. -/
private theorem naturalRun_finds {items : List ι} (hplaced : items.Pairwise (· < ·)) :
    (naturalRun items).Finds answer fun out =>
      out.Pairwise (Before answer) ∧ out.Perm (items.take out.length) := by
  match items with
  | [] => exact Ends.pure ⟨List.Pairwise.nil, List.Perm.refl _⟩
  | [x] => exact Ends.pure ⟨List.pairwise_singleton _ x, List.Perm.refl _⟩
  | x :: y :: rest =>
    obtain ⟨hx, hy⟩ := List.pairwise_cons.mp hplaced
    have hxy := hx y List.mem_cons_self
    -- In either direction, what is found are the first items, turned round.
    have hperm : ∀ k, ((rest.take k).reverse ++ [y, x]).Perm
        ((x :: y :: rest).take ((rest.take k).reverse ++ [y, x]).length) := by
      intro k
      have hlength : ((rest.take k).reverse ++ [y, x]).length = (rest.take k).length + 2 := by simp
      have htake : rest.take (rest.take k).length = rest.take k := by
        rw [List.length_take, List.take_eq_take_iff]
        omega
      have hback : (rest.take k).reverse ++ [y, x] = (x :: y :: rest.take k).reverse := by simp
      rw [hlength, List.take_succ_cons, List.take_succ_cons, htake, hback]
      exact List.reverse_perm _
    -- The first two items settle the direction. Downwards the run is strict, so turning it round keeps equal items
    -- in place.
    apply (finds_less (.inl hxy)).bind
    intro downwards hsettled
    cases downwards with
    | true =>
      have hcontinues : ∀ a b, a < b → (Comparisons.less b a).Finds answer fun goesOn =>
          goesOn = true → Before answer b a := by
        intro a b hab
        apply (finds_less (.inl hab)).mono
        rintro goesOn hgoesOn rfl
        exact hgoesOn
      have hstart : [y, x].Pairwise (Before answer) := List.pairwise_pair.mpr hsettled
      apply (continueRun_finds (fun _ _ _ hab hbc => hbc.trans hab) hcontinues hstart hy).mono
      rintro out ⟨k, rfl, hordered⟩
      exact ⟨hordered, hperm k⟩
    | false =>
      have hcontinues : ∀ a b, a < b → (pickFront a b).Finds answer fun goesOn =>
          goesOn = true → Before answer a b := by
        intro a b hab
        apply (finds_less (.inl hab)).bind
        intro answered hanswered
        cases answered with
        | true => exact Ends.pure nofun
        | false => exact Ends.pure fun _ => hanswered
      have hstart : [y, x].Pairwise fun a b => Before answer b a := List.pairwise_pair.mpr hsettled
      apply (continueRun_finds (fun _ _ _ => Before.trans) hcontinues hstart hy).bind
      rintro out ⟨k, rfl, hordered⟩
      refine Ends.pure ⟨List.pairwise_reverse.mpr hordered, ?_⟩
      rw [List.length_reverse]
      exact (List.reverse_perm _).trans (hperm k)

/-- A run holds a piece of the list: sorted, or as it was, where pieces may be left to be sorted later. -/
structure Holds (answer : ι → ι → Ordering) (leaves : Prop) (piece : List ι) (run : Run ι) : Prop where
  perm : run.items.Perm piece
  sorted : run.sorted = true → run.items.Pairwise (Before answer)
  unsorted : run.sorted = false → leaves ∧ run.items = piece

/-- The next run holds the next piece. -/
private theorem nextRun_finds {longEnough : Nat} {atOnce : Bool} {items : List ι} (hplaced : items.Pairwise (· < ·)) :
    (nextRun longEnough atOnce items).Finds answer fun run =>
      Holds answer (atOnce = false) (items.take run.items.length) run ∧
        (0 < longEnough → items ≠ [] → run.items ≠ []) := by
  -- What follows, whichever run the list starts with.
  have hnext : ∀ natural : List ι, natural.Pairwise (Before answer) ∧ natural.Perm (items.take natural.length) →
      (if longEnough ≤ natural.length then pure ⟨natural, true⟩
        else if atOnce then do return ⟨← sortSmall (items.take smallLimit), true⟩
        else pure ⟨items.take longEnough, false⟩ : Comparisons ι (Run ι)).Finds answer fun run =>
      Holds answer (atOnce = false) (items.take run.items.length) run ∧
        (0 < longEnough → items ≠ [] → run.items ≠ []) := by
    -- A run that is long enough is taken as it is; a short one is sorted at once, or left.
    rintro natural ⟨hordered, hperm⟩
    split
    · next hlong =>
      refine Ends.pure ⟨⟨hperm, fun _ => hordered, nofun⟩, ?_⟩
      rintro hpos - rfl
      exact absurd hlong (Nat.not_le.mpr hpos)
    · cases atOnce with
      | true =>
        apply (sortSmall_finds hplaced.take).bind
        intro out hout
        have hlength : items.take out.length = items.take smallLimit := by
          rw [hout.perm.length_eq, List.length_take, List.take_eq_take_iff]
          omega
        refine Ends.pure ⟨⟨?_, fun _ => hout.ordered, nofun⟩, ?_⟩
        · rw [hlength]
          exact hout.perm
        · rintro - hitems rfl
          have hnil := List.take_eq_nil_iff.mp hout.perm.nil_eq.symm
          exact hitems (hnil.resolve_left (by decide))
      | false =>
        have hlength : items.take (items.take longEnough).length = items.take longEnough := by
          rw [List.length_take, List.take_eq_take_iff]
          omega
        refine Ends.pure ⟨⟨?_, nofun, fun _ => ⟨rfl, hlength.symm⟩⟩, ?_⟩
        · rw [hlength]
        · intro hpos hitems htake
          exact hitems ((List.take_eq_nil_iff.mp htake).resolve_left hpos.ne')
  unfold nextRun
  by_cases hlong : longEnough ≤ items.length
  · simp only [hlong, if_true]
    exact (naturalRun_finds hplaced).bind hnext
  · simp only [hlong, if_false]
    exact hnext [] ⟨List.Pairwise.nil, List.Perm.refl _⟩

/-! ## Section 2: Joining Runs -/

section Joining

variable {leaves : Prop}

/-- Runs, the nearest first, that hold the neighbouring pieces of a list. -/
private def Stacked (answer : ι → ι → Ordering) (leaves : Prop) : List (Run ι × Nat) → List ι → Prop
  | [], piece => piece = []
  | (run, _) :: before, piece => ∃ p q, piece = p ++ q ∧ Stacked answer leaves before p ∧ Holds answer leaves q run

/-- Joining two runs that hold neighbouring pieces gives a run that holds both pieces. -/
private def Joins (answer : ι → ι → Ordering) (leaves : Prop) (join : Run ι → Run ι → Comparisons ι (Run ι)) : Prop :=
  ∀ {p q : List ι} {left right : Run ι}, Holds answer leaves p left → Holds answer leaves q right →
    (p ++ q).Pairwise (· < ·) → (join left right).Finds answer (Holds answer leaves (p ++ q))

variable {join : Run ι → Run ι → Comparisons ι (Run ι)} (hjoin : Joins answer leaves join)

include hjoin

omit [Std.TransCmp answer] in
/-- Joining runs from some depth on keeps the pieces in place; at depth zero, all runs are joined. -/
private theorem joinDeeper_finds (depth : Nat) {before : List (Run ι × Nat)} {last : Run ι} {p q : List ι}
    (hbefore : Stacked answer leaves before p) (hlast : Holds answer leaves q last)
    (hplaced : (p ++ q).Pairwise (· < ·)) :
    (joinDeeper join depth before last).Finds answer fun out =>
      ∃ p' q', p' ++ q' = p ++ q ∧ Stacked answer leaves out.1 p' ∧ Holds answer leaves q' out.2 ∧
        (depth = 0 → p' = []) := by
  -- On the runs behind the last one: each one that is joined makes the last one longer.
  induction before generalizing last p q with
  | nil => exact Ends.pure ⟨p, q, rfl, hbefore, hlast, fun _ => hbefore⟩
  | cons top before ih =>
    obtain ⟨run, meeting⟩ := top
    unfold joinDeeper
    split
    · obtain ⟨p₁, p₂, rfl, hstacked, hrun⟩ := hbefore
      rw [List.append_assoc] at hplaced ⊢
      apply (hjoin hrun hlast (List.pairwise_append.mp hplaced).2.1).bind
      exact fun joined hjoined => ih hstacked hjoined hplaced
    · next hdepth =>
      exact Ends.pure ⟨p, q, rfl, hbefore, hlast, fun hzero => absurd (Nat.zero_le _) (hzero ▸ hdepth)⟩

omit [Std.TransCmp answer] in
/-- In the end all runs are joined to one that holds the whole list. -/
private theorem joinDeeper_zero_finds {before : List (Run ι × Nat)} {last : Run ι} {p q : List ι}
    (hbefore : Stacked answer leaves before p) (hlast : Holds answer leaves q last)
    (hplaced : (p ++ q).Pairwise (· < ·)) :
    (do return (← joinDeeper join 0 before last).2 : Comparisons ι (Run ι)).Finds answer
      (Holds answer leaves (p ++ q)) := by
  apply (joinDeeper_finds hjoin 0 hbefore hlast hplaced).bind
  rintro out ⟨p', q', hparts, _, hout, hnone⟩
  rw [hnone rfl, List.nil_append] at hparts
  exact Ends.pure (hparts ▸ hout)

omit [Std.TransCmp answer] in
/-- Runs are cut off and joined until the list is used up: the one that is left holds it all. -/
private theorem joinRuns_finds {next : List ι → Comparisons ι (Run ι)}
    (hnext : ∀ items, items.Pairwise (· < ·) → (next items).Finds answer fun run =>
      Holds answer leaves (items.take run.items.length) run ∧ (items ≠ [] → run.items ≠ []))
    (count : Nat) {fuel : Nat} {before : List (Run ι × Nat)} {last : Run ι} (position : Nat) {rest p q : List ι}
    (hbefore : Stacked answer leaves before p) (hlast : Holds answer leaves q last)
    (hplaced : (p ++ q ++ rest).Pairwise (· < ·)) (hfuel : rest.length ≤ fuel) :
    (joinRuns next join count fuel before last position rest).Finds answer (Holds answer leaves (p ++ q ++ rest)) := by
  -- On the fuel: every run that is cut off holds something, so what is left gets shorter.
  induction fuel generalizing before last position rest p q with
  | zero =>
    have hrest : rest = [] := List.length_eq_zero_iff.mp (Nat.le_zero.mp hfuel)
    subst hrest
    -- Nothing is left to cut off, and all runs are joined.
    rw [List.append_nil] at hplaced ⊢
    unfold joinRuns
    exact joinDeeper_zero_finds hjoin hbefore hlast hplaced
  | succ fuel ih =>
    cases rest with
    | nil =>
      rw [List.append_nil] at hplaced ⊢
      exact joinDeeper_zero_finds hjoin hbefore hlast hplaced
    | cons x xs =>
      obtain ⟨hbeforePlaced, hrestPlaced, _⟩ := List.pairwise_append.mp hplaced
      unfold joinRuns
      apply (hnext (x :: xs) hrestPlaced).bind
      rintro run ⟨hrun, hcuts⟩
      have hlength : 0 < run.items.length := List.length_pos_of_ne_nil (hcuts (List.cons_ne_nil x xs))
      apply (joinDeeper_finds hjoin _ hbefore hlast hbeforePlaced).bind
      rintro ⟨before', last'⟩ ⟨p', q', hparts, hstacked, hlast', _⟩
      -- The pieces before the run that was cut off are the same as before, in other runs.
      have hall : p' ++ q' ++ (x :: xs).take run.items.length ++ (x :: xs).drop run.items.length =
          p ++ q ++ x :: xs := by
        rw [List.append_assoc, List.take_append_drop, hparts]
      rw [← hall] at hplaced ⊢
      refine ih _ ⟨p', q', rfl, hstacked, hlast'⟩ hrun hplaced ?_
      rw [List.length_drop, List.length_cons]
      rw [List.length_cons] at hfuel
      omega

end Joining

/-! ## Section 3: Sorting by Runs -/

section Runs

variable {leaves : Prop} {sort : List ι → Comparisons ι (List ι)}
  (hsort : leaves → ∀ piece : List ι, piece.Pairwise (· < ·) → (sort piece).Finds answer (IsStableOrder answer piece))

include hsort

omit [Std.TransCmp answer] in
/-- A run that was left is sorted now. -/
private theorem finishRun_finds {piece : List ι} {run : Run ι} (hrun : Holds answer leaves piece run)
    (hplaced : piece.Pairwise (· < ·)) : (finishRun sort run).Finds answer (IsStableOrder answer piece) := by
  unfold finishRun
  split
  · next hsorted => exact Ends.pure ⟨hrun.perm, hrun.sorted hsorted⟩
  · next hunsorted =>
    obtain ⟨hleaves, hitems⟩ := hrun.unsorted (Bool.not_eq_true _ ▸ hunsorted)
    rw [hitems]
    exact hsort hleaves piece hplaced

/-- Two neighbouring runs are merged, or left together if both were left. -/
private theorem joinPair_finds : Joins answer leaves (joinPair sort) := by
  intro p q left right hleft hright hplaced
  obtain ⟨hp, hq, _⟩ := List.pairwise_append.mp hplaced
  unfold joinPair
  split
  · apply (finishRun_finds hsort hleft hp).bind
    intro sortedLeft hsortedLeft
    apply (finishRun_finds hsort hright hq).bind
    intro sortedRight hsortedRight
    apply (merge_finds ⟨hplaced, hsortedLeft, hsortedRight⟩).bind
    exact fun out hout => Ends.pure ⟨hout.perm, fun _ => hout.ordered, nofun⟩
  -- Two runs that were left are left together, and no question is asked.
  · next hneither =>
    obtain ⟨hnotLeft, hnotRight⟩ : left.sorted = false ∧ right.sorted = false := by simpa using hneither
    obtain ⟨hleaves, hitemsLeft⟩ := hleft.unsorted hnotLeft
    obtain ⟨_, hitemsRight⟩ := hright.unsorted hnotRight
    exact Ends.pure ⟨hleft.perm.append hright.perm, nofun, fun _ => ⟨hleaves, congrArg₂ _ hitemsLeft hitemsRight⟩⟩

end Runs

omit [LinearOrder ι] in
/-- A run that is left holds something. -/
private theorem keptLength_pos {count : Nat} (h : 0 < count) : 0 < keptLength count := by
  unfold keptLength
  split
  · omega
  · have htwo : 2 ≤ Nat.pow 2 ((1 + count.log2) / 2) := by
      have hlog : 1 ≤ count.log2 := (Nat.le_log2 h.ne').mpr (by omega)
      have hpow : Nat.pow 2 1 ≤ Nat.pow 2 ((1 + count.log2) / 2) := Nat.pow_le_pow_right Nat.zero_lt_two (by omega)
      exact hpow
    exact Nat.div_pos (htwo.trans (Nat.le_add_right _ _)) Nat.zero_lt_two

/-- Sorting by runs finds the stable order, if the pieces that it leaves are sorted later. -/
theorem sortRuns_finds {sort : List ι → Comparisons ι (List ι)} {atOnce : Bool}
    (hsort : atOnce = false → ∀ piece : List ι, piece.Pairwise (· < ·) →
      (sort piece).Finds answer (IsStableOrder answer piece)) {items : List ι} (hplaced : items.Pairwise (· < ·)) :
    (sortRuns sort atOnce items).Finds answer (IsStableOrder answer items) := by
  cases hitems : items with
  | nil =>
    have hkept : keptLength 0 = 0 := by decide
    have hnothing : nextRun (keptLength 0) atOnce ([] : List ι) = pure ⟨[], true⟩ := by
      rw [hkept]
      rfl
    rw [sortRuns, List.length_nil, hnothing]
    exact Ends.pure (.refl List.Pairwise.nil)
  | cons x xs =>
    rw [← hitems]
    have hkept : 0 < keptLength items.length := keptLength_pos (by rw [hitems]; exact Nat.succ_pos _)
    have hnext : ∀ rest : List ι, rest.Pairwise (· < ·) →
        (nextRun (keptLength items.length) atOnce rest).Finds answer fun run =>
          Holds answer (atOnce = false) (rest.take run.items.length) run ∧ (rest ≠ [] → run.items ≠ []) :=
      fun rest hrest => (nextRun_finds hrest).mono fun run hrun => ⟨hrun.1, hrun.2 hkept⟩
    unfold sortRuns
    apply (hnext items hplaced).bind
    rintro first ⟨hfirst, _⟩
    have hparts : [] ++ items.take first.items.length ++ items.drop first.items.length = items :=
      List.take_append_drop _ _
    have hnone : Stacked answer (atOnce = false) [] [] := rfl
    have hjoined := joinRuns_finds (joinPair_finds hsort) hnext items.length first.items.length hnone hfirst
      (by rwa [hparts]) ((List.length_drop ..).trans_le (Nat.sub_le _ _))
    rw [hparts] at hjoined
    apply hjoined.bind
    exact fun all hall => finishRun_finds hsort hall hplaced

/-! ## Section 4: Pivots -/

section Pivots

variable {items : Array ι} (hplaced : items.toList.Pairwise (· < ·))

include hplaced

omit [Std.TransCmp answer] in
/-- Items at different places are different. -/
private theorem lessAt_finds {i j : Nat} (hij : i < j) (hj : j < items.size) :
    (lessAt items i j).Finds answer fun _ => True := by
  have hi : i < items.size := hij.trans hj
  have hlt : items[i] < items[j] := List.pairwise_iff_getElem.mp hplaced i j hi hj hij
  rw [lessAt, Array.getElem?_eq_getElem hi, Array.getElem?_eq_getElem hj]
  exact (Ends.less (MayAsk.of_ne hlt.ne)).mono fun _ _ => trivial

omit [Std.TransCmp answer] in
/-- The median of three items is one of them. -/
private theorem middlePlace_finds {a b c : Nat} (hab : a < b) (hbc : b < c) (hc : c < items.size) :
    (middlePlace items a b c).Finds answer fun place => place = a ∨ place = b ∨ place = c := by
  unfold middlePlace
  apply (lessAt_finds hplaced hab (hbc.trans hc)).bind
  intro x _
  apply (lessAt_finds hplaced (hab.trans hbc) hc).bind
  intro y _
  split
  · apply (lessAt_finds hplaced hbc hc).bind
    intro z _
    split
    · exact Ends.pure (.inr (.inl rfl))
    · exact Ends.pure (.inr (.inr rfl))
  · exact Ends.pure (.inl rfl)

omit [Std.TransCmp answer] in
/-- Samples are taken from behind three places that are far enough from each other, so no place is asked for twice. -/
private theorem sampledPlace_finds {width a b c : Nat} (hwidth : 0 < width) (hab : a + width ≤ b) (hbc : b + width ≤ c)
    (hc : c + width ≤ items.size) :
    (sampledPlace items width a b c).Finds answer fun place =>
      a ≤ place ∧ place < a + width ∨ b ≤ place ∧ place < b + width ∨ c ≤ place ∧ place < c + width := by
  induction width using Nat.strong_induction_on generalizing a b c with
  | _ width ih =>
    unfold sampledPlace
    split
    · -- each of the three parts is sampled in the same way
      have hpart : ∀ start, start + width ≤ items.size →
          (sampledPlace items (width / 8) start (start + width / 8 * 4) (start + width / 8 * 7)).Finds answer
            fun place => start ≤ place ∧ place < start + width := by
        intro start hstart
        apply (ih (width / 8) (by omega) (by omega) (by omega) (by omega) (by omega)).mono
        intro place hplace
        omega
      apply (hpart a (by omega)).bind
      intro a' ha'
      apply (hpart b (by omega)).bind
      intro b' hb'
      apply (hpart c hc).bind
      intro c' hc'
      apply (middlePlace_finds hplaced (by omega) (by omega) (by omega)).mono
      rintro place (rfl | rfl | rfl)
      · exact .inl ha'
      · exact .inr (.inl hb')
      · exact .inr (.inr hc')
    · apply (middlePlace_finds hplaced (by omega) (by omega) (by omega)).mono
      intro place hplace
      omega

omit [Std.TransCmp answer] in
/-- The pivot of a list that is not small is one of its items. -/
private theorem pivotPlace_finds (hlarge : smallLimit < items.size) :
    (pivotPlace items).Finds answer fun place => place < items.size := by
  have hlimit : smallLimit = 32 := rfl
  unfold pivotPlace
  dsimp only
  split
  · apply (middlePlace_finds hplaced (by omega) (by omega) (by omega)).mono
    intro place hplace
    omega
  · apply (sampledPlace_finds hplaced (by omega) (by omega) (by omega) (by omega)).mono
    intro place hplace
    omega

end Pivots

/-! ## Section 5: Parting -/

omit [LinearOrder ι] [Std.TransCmp answer] in
/-- Parting is filtering: every item but the pivot is tested, and the pivot is put where the test would put it. -/
private theorem partFrom_finds {test : ι → Comparisons ι Bool} {accepts : ι → Bool} {pivot : ι} {place i : Nat}
    {yes no items : List ι} {first : Bool} (hfirst : accepts pivot = first)
    (htest : ∀ x ∈ items, x ≠ pivot → (test x).Finds answer fun b => b = accepts x)
    (hplace : ∀ k (h : k < items.length), i + k = place ↔ items[k] = pivot) :
    (partFrom test place first i yes no items).Finds answer fun out =>
      out = (yes.reverse ++ items.filter accepts, no.reverse ++ items.filter fun x => !accepts x) := by
  -- On the items: what has been parted so far stands turned round in the two lists.
  induction items generalizing i yes no with
  | nil => exact Ends.pure (by simp)
  | cons item rest ih =>
    obtain ⟨hitem, hrest⟩ := List.forall_mem_cons.mp htest
    have hplaceRest : ∀ k (h : k < rest.length), i + 1 + k = place ↔ rest[k] = pivot := by
      intro k h
      have hnext := hplace (k + 1) (Nat.succ_lt_succ h)
      rwa [List.getElem_cons_succ, ← Nat.add_assoc, Nat.add_right_comm] at hnext
    have hpivot : i = place ↔ item = pivot := hplace 0 (Nat.succ_pos _)
    have haccepted : (if i = place then pure first else test item : Comparisons ι Bool).Finds answer
        fun b => b = accepts item := by
      split
      · next heq =>
        rw [hpivot.mp heq]
        exact Ends.pure hfirst.symm
      · next hne => exact hitem fun heq => hne (hpivot.mpr heq)
    have hnext : ∀ b, b = accepts item →
        (if b then partFrom test place first (i + 1) (item :: yes) no rest
          else partFrom test place first (i + 1) yes (item :: no) rest).Finds answer fun out =>
        out = (yes.reverse ++ (item :: rest).filter accepts,
          no.reverse ++ (item :: rest).filter fun x => !accepts x) := by
      rintro b rfl
      cases haccepts : accepts item with
      | true =>
        apply (ih hrest hplaceRest).mono
        rintro out rfl
        simp [haccepts]
      | false =>
        apply (ih hrest hplaceRest).mono
        rintro out rfl
        simp [haccepts]
    unfold partFrom
    by_cases heq : i = place
    · simp only [heq, if_true] at haccepted ⊢
      rw [heq] at hnext
      exact haccepted.bind hnext
    · simp only [heq, if_false] at haccepted ⊢
      exact haccepted.bind hnext

omit [Std.TransCmp answer] in
/-- The parts before and behind a pivot, each in its stable order. -/
private theorem isStableOrder_parts {items first second : List ι} {accepts : ι → Bool}
    (hapart : ∀ x ∈ items, ∀ y ∈ items, accepts x = true → accepts y = false → answer x y = .lt)
    (hfirst : IsStableOrder answer (items.filter accepts) first)
    (hsecond : IsStableOrder answer (items.filter fun x => !accepts x) second) :
    IsStableOrder answer items (first ++ second) where
  perm := (hfirst.perm.append hsecond.perm).trans (List.filter_append_perm accepts items)
  ordered := by
    refine List.pairwise_append.mpr ⟨hfirst.ordered, hsecond.ordered, fun x hx y hy => .inl ?_⟩
    obtain ⟨hx, hxaccepted⟩ := List.mem_filter.mp (hfirst.perm.mem_iff.mp hx)
    obtain ⟨hy, hynot⟩ := List.mem_filter.mp (hsecond.perm.mem_iff.mp hy)
    exact hapart x hx y hy hxaccepted (by simpa using hynot)

omit [LinearOrder ι] in
/-- What is not less than the first of two things is not less than the second, if that is not greater. -/
private theorem lt_of_lt_of_not_less {x y z : ι} (hxy : answer x y = .lt) (hzy : answer z y ≠ .lt) :
    answer x z = .lt := by
  apply Std.TransCmp.lt_of_lt_of_isLE hxy
  have hswap : answer y z = (answer z y).swap := Std.OrientedCmp.eq_swap
  rw [hswap]
  cases hanswer : answer z y with
  | lt => contradiction
  | eq => rfl
  | gt => rfl

/-- Whether the pivot equals the floor, which no item is less than. The floor may be the pivot, but it is not the only
item then. -/
private theorem pickFront_floor_finds {items : List ι} {floor pivot : ι} (hplaced : items.Pairwise (· < ·))
    (hlarge : 1 < items.length) (hfloor : ∀ y ∈ items, answer y floor ≠ .lt) :
    (pickFront pivot floor).Finds answer fun onFloor => onFloor = true → ∀ y ∈ items, answer y pivot ≠ .lt := by
  have hask : MayAsk answer floor pivot := by
    intro _
    have hne : items[0] ≠ items[1] := (List.pairwise_iff_getElem.mp hplaced 0 1 _ _ Nat.one_pos).ne
    by_cases hzero : items[0] = floor
    · exact ⟨items[1], fun hone => hne (hzero.trans hone.symm), hfloor _ (List.getElem_mem _)⟩
    · exact ⟨items[0], hzero, hfloor _ (List.getElem_mem _)⟩
  apply (Ends.less hask).bind
  rintro _ rfl
  refine Ends.pure fun honFloor y hy hless => hfloor y hy (lt_of_lt_of_not_less hless ?_)
  simpa using honFloor

section Around

variable {items : List ι} (hplaced : items.Pairwise (· < ·)) {place : Nat} (hplace : place < items.length)
  {sort : Option ι → List ι → Comparisons ι (List ι)}
  (hsort : ∀ floor part, part.Pairwise (· < ·) → part.length < items.length →
    (∀ x, floor = some x → ∀ y ∈ part, answer y x ≠ .lt) → (sort floor part).Finds answer (IsStableOrder answer part))

include hplaced

omit [LinearOrder ι] [Std.TransCmp answer] hplaced in
private theorem length_filter_lt (accepts : ι → Bool) {x : ι} (hx : x ∈ items) (h : accepts x = false) :
    (items.filter accepts).length < items.length :=
  List.length_filter_lt_length_iff_exists.mpr ⟨x, hx, by simp [h]⟩

omit [Std.TransCmp answer] in
/-- An item stands at one place only. -/
private theorem place_iff : ∀ k (h : k < items.length), 0 + k = place ↔ items[k] = items[place] := by
  intro k h
  have hnodup : items.Nodup := hplaced.imp fun hlt => hlt.ne
  rw [Nat.zero_add, hnodup.getElem_inj_iff]

include hsort

/-- If no item is less than the pivot, then its equals come first, as they stood, and what is greater is sorted. -/
private theorem partEqual_finds (hnone : ∀ y ∈ items, answer y items[place] ≠ .lt) :
    (do
      let (equal, above) ← partFrom (pickFront · items[place]) place true 0 [] [] items
      return equal ++ (← sort none above) : Comparisons ι (List ι)).Finds answer (IsStableOrder answer items) := by
  have hself : answer items[place] items[place] = .eq := Std.ReflCmp.compare_self
  have htest : ∀ x ∈ items, x ≠ items[place] →
      (pickFront x items[place]).Finds answer fun b => b = !(answer items[place] x == .lt) := by
    intro x _ hx
    apply (Ends.less (MayAsk.of_ne hx.symm)).bind
    rintro _ rfl
    exact Ends.pure rfl
  apply (partFrom_finds (by simp [hself]) htest (place_iff hplaced hplace)).bind
  rintro _ rfl
  -- An item that is neither less nor greater than the pivot is its equal.
  have hequal : ∀ x ∈ items, (!(answer items[place] x == .lt)) = true → answer x items[place] = .eq := by
    intro x hx hnot
    have hswap : answer items[place] x = (answer x items[place]).swap := Std.OrientedCmp.eq_swap
    cases hanswer : answer x items[place] with
    | lt => exact absurd hanswer (hnone x hx)
    | eq => rfl
    | gt =>
      rw [hswap, hanswer] at hnot
      contradiction
  have hgreater : ∀ x, (!(answer items[place] x == .lt)) = false → answer items[place] x = .lt := by
    intro x hnot
    simpa using hnot
  have hequals : IsStableOrder answer (items.filter fun x => !(answer items[place] x == .lt))
      (items.filter fun x => !(answer items[place] x == .lt)) := by
    apply IsStableOrder.refl
    apply (hplaced.filter _).imp_of_mem
    intro x y hx hy hxy
    obtain ⟨hx, hxnot⟩ := List.mem_filter.mp hx
    obtain ⟨hy, hynot⟩ := List.mem_filter.mp hy
    exact .inr ⟨Std.TransCmp.eq_trans (hequal x hx hxnot) (Std.OrientedCmp.eq_symm (hequal y hy hynot)), hxy⟩
  have hlength := length_filter_lt (fun x => !!(answer items[place] x == .lt))
    (List.getElem_mem hplace) (by simp [hself])
  apply (hsort none _ (hplaced.filter _) hlength nofun).bind
  intro above habove
  refine Ends.pure (isStableOrder_parts (fun x hx y _ hxnot hygreater => ?_) hequals habove)
  exact Std.TransCmp.lt_of_eq_of_lt (hequal x hx hxnot) (hgreater y hygreater)

/-- If there are items that are less than the pivot, then these and the others are sorted. -/
private theorem partBelow_finds {floor : Option ι} (hfloor : ∀ x, floor = some x → ∀ y ∈ items, answer y x ≠ .lt)
    (hsome : items.filter (fun x => answer x items[place] == .lt) ≠ []) :
    (do
      let below ← sort floor (items.filter fun x => answer x items[place] == .lt)
      return below ++ (← sort (some items[place]) (items.filter fun x => !(answer x items[place] == .lt))) :
        Comparisons ι (List ι)).Finds answer (IsStableOrder answer items) := by
  -- The pivot is not less than itself, so the part below is shorter than the list.
  have hself : answer items[place] items[place] = .eq := Std.ReflCmp.compare_self
  have hbelow := length_filter_lt (fun x => answer x items[place] == .lt) (List.getElem_mem hplace)
    (by simp [hself])
  have hfloorBelow : ∀ x, floor = some x → ∀ y ∈ items.filter fun x => answer x items[place] == .lt,
      answer y x ≠ .lt := fun x hx y hy => hfloor x hx y (List.mem_filter.mp hy).1
  apply (hsort floor _ (hplaced.filter _) hbelow hfloorBelow).bind
  intro below hbelowOrder
  -- Something is less than the pivot, so the other part is shorter as well, and the pivot is its floor.
  obtain ⟨least, hleast⟩ := List.exists_mem_of_ne_nil _ hsome
  obtain ⟨hleastMem, hleastLess⟩ := List.mem_filter.mp hleast
  have habove := length_filter_lt (fun x => !(answer x items[place] == .lt)) hleastMem (by simpa using hleastLess)
  have hfloorAbove : ∀ x, some items[place] = some x →
      ∀ y ∈ items.filter fun x => !(answer x items[place] == .lt), answer y x ≠ .lt := by
    rintro x hx y hy
    cases hx
    simpa using (List.mem_filter.mp hy).2
  apply (hsort (some items[place]) _ (hplaced.filter _) habove hfloorAbove).bind
  intro above haboveOrder
  refine Ends.pure (isStableOrder_parts (fun x _ y _ hx hy => ?_) hbelowOrder haboveOrder)
  exact lt_of_lt_of_not_less (beq_iff_eq.mp hx) (beq_eq_false_iff_ne.mp hy)

/-- Parting around a pivot that may equal the floor. -/
private theorem partAround_finds {floor : Option ι} (hfloor : ∀ x, floor = some x → ∀ y ∈ items, answer y x ≠ .lt)
    (onFloor : Bool) (honFloor : onFloor = true → ∀ y ∈ items, answer y items[place] ≠ .lt) :
    (do
      let (below, above) ←
        if onFloor then pure ([], items)
        else partFrom (Comparisons.less · items[place]) place false 0 [] [] items
      if below.isEmpty then
        let (equal, above) ← partFrom (pickFront · items[place]) place true 0 [] [] items
        return equal ++ (← sort none above)
      else
        let below ← sort floor below
        return below ++ (← sort (some items[place]) above) : Comparisons ι (List ι)).Finds answer
      (IsStableOrder answer items) := by
  cases onFloor with
  | true => exact partEqual_finds hplaced hplace hsort (honFloor rfl)
  | false =>
    have hself : answer items[place] items[place] = .eq := Std.ReflCmp.compare_self
    have htest : ∀ x ∈ items, x ≠ items[place] →
        (Comparisons.less x items[place]).Finds answer fun b => b = (answer x items[place] == .lt) :=
      fun x _ hx => Ends.less (MayAsk.of_ne hx)
    apply (partFrom_finds (by simp [hself]) htest (place_iff hplaced hplace)).bind
    rintro _ rfl
    dsimp only [List.reverse_nil, List.nil_append]
    split
    · next hempty =>
      -- Nothing is less than the pivot after all, so its equals come first.
      apply partEqual_finds hplaced hplace hsort
      intro y hy hless
      have hnil := List.isEmpty_iff.mp hempty
      rw [List.filter_eq_nil_iff] at hnil
      exact hnil y hy (beq_iff_eq.mpr hless)
    · next hsome => exact partBelow_finds hplaced hplace hsort hfloor fun hnil => hsome (by rw [hnil]; rfl)

end Around

/-- Sorting by parting finds the stable order. -/
private theorem sortByParting_finds {fuel limit : Nat} {floor : Option ι} {items : List ι}
    (hplaced : items.Pairwise (· < ·)) (hfuel : items.length < fuel)
    (hfloor : ∀ x, floor = some x → ∀ y ∈ items, answer y x ≠ .lt) :
    (sortByParting fuel limit floor items).Finds answer (IsStableOrder answer items) := by
  -- On the fuel: both parts are shorter than the list, and an exhausted limit falls back to runs.
  induction fuel generalizing limit floor items with
  | zero => exact absurd hfuel (Nat.not_lt_zero _)
  | succ fuel ih =>
    have hatOnce : ∀ sort : List ι → Comparisons ι (List ι),
        (sortRuns sort true items).Finds answer (IsStableOrder answer items) := fun sort =>
      sortRuns_finds (fun h => absurd h Bool.true_eq_false_eq_False) hplaced
    unfold sortByParting
    split
    · exact sortSmall_finds hplaced
    · next hlarge =>
      have hlimit : smallLimit = 32 := rfl
      cases limit with
      | zero => exact hatOnce pure
      | succ limit =>
        have hpivot : (pivotPlace items.toArray).Finds answer fun place => place < items.toArray.size :=
          pivotPlace_finds hplaced (by simpa using hlarge)
        apply hpivot.bind
        intro place hplace
        have hsort : ∀ floor part, part.Pairwise (· < ·) → part.length < items.length →
            (∀ x, floor = some x → ∀ y ∈ part, answer y x ≠ .lt) →
            (sortByParting fuel limit floor part).Finds answer (IsStableOrder answer part) :=
          fun floor part hpart hlength => ih hpart (by omega)
        have hplace : place < items.length := hplace
        rw [List.getElem?_eq_getElem hplace]
        cases floor with
        | none => exact partAround_finds hplaced hplace hsort hfloor false nofun
        | some x =>
          apply (pickFront_floor_finds hplaced (by omega) (hfloor x rfl)).bind
          exact partAround_finds hplaced hplace hsort hfloor

/-! ## Section 6: The Sort -/

/-- The sort finds the stable order, and no contradiction. -/
theorem sort_finds {items : List ι} (hplaced : items.Pairwise (· < ·)) :
    (sort items).Finds answer (IsStableOrder answer items) := by
  unfold sort
  split
  · exact insertAll_finds (.refl List.Pairwise.nil) hplaced
  · exact sortRuns_finds (fun _ piece hpiece => sortByParting_finds hpiece (Nat.lt_succ_self _) nofun) hplaced

omit [LinearOrder ι] in
/-- A short list is sorted without finding a contradiction, whatever the answers are. -/
theorem sort_ends (answer : ι → ι → Ordering) {items : List ι} (hshort : items.length ≤ insertingLimit) :
    (sort items).Ends answer (fun _ _ => True) fun _ => True := by
  rw [sort, if_pos hshort]
  exact insertAll_ends answer [] items

end RowConsole.RunSort

namespace RowConsole

/-- The sort by runs is a stable sort. -/
def StableSort.byRuns : StableSort where
  comparisons n := RunSort.sort (List.finRange n)
  sorts _ := RunSort.sort_finds (List.pairwise_lt_finRange _)

end RowConsole
