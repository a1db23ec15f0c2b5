import RowConsole.Data.RunSort
import RowConsole.Proofs.Data.StableSort

/-!
# Inserting and Merging

The pieces that a sort by runs is made of, for answers that come from a total preorder: items that are inserted end up in
their stable order, and two neighbouring pieces in their stable orders are merged into one. A piece is given by its items
in the order in which they stood.

Two pieces can also be merged from both ends at once. Half of the items are taken from the front, all of them before
those that are left, and half from the back, all of them behind those that are left; so nothing is taken twice, and the
halves meet.

Main statements: `insertAll_finds`, `merge_finds`, `mergeToMiddle_finds` and `sortSmall_finds`.
-/

namespace RowConsole.RunSort

open Comparisons (Ends)

variable {ι : Type} [LinearOrder ι] {answer : ι → ι → Ordering} [Std.TransCmp answer]

/-! ## Section 1: Inserting -/

/-- An item that stood behind all others is inserted behind those that it is not less than. -/
private theorem insertBackwards_finds {item : ι} {done : List ι} (hdone : done.Pairwise fun a b => Before answer b a)
    (hitem : ∀ a ∈ done, a < item) :
    (insertBackwards item done).Finds answer fun out =>
      out.Perm (item :: done) ∧ out.Pairwise fun a b => Before answer b a := by
  -- On the items that are inserted already, the last one first.
  induction done with
  | nil => exact Ends.pure ⟨List.Perm.refl _, List.pairwise_singleton _ _⟩
  | cons last before ih =>
    obtain ⟨hlast, hbefore⟩ := List.pairwise_cons.mp hdone
    obtain ⟨hlt, hrest⟩ := List.forall_mem_cons.mp hitem
    apply (finds_less (.inl hlt)).bind
    intro answered hsettled
    cases answered with
    | true =>
      apply (ih hbefore hrest).bind
      intro out hout
      obtain ⟨hperm, hordered⟩ := hout
      refine Ends.pure ⟨(hperm.cons last).trans (List.Perm.swap item last before), ?_⟩
      refine List.pairwise_cons.mpr ⟨fun a ha => ?_, hordered⟩
      rcases List.mem_cons.mp (hperm.mem_iff.mp ha) with rfl | ha
      · exact hsettled
      · exact hlast a ha
    | false =>
      refine Ends.pure ⟨List.Perm.refl _, List.pairwise_cons.mpr ⟨?_, hdone⟩⟩
      exact List.forall_mem_cons.mpr ⟨hsettled, fun a ha => (hlast a ha).trans hsettled⟩

/-- Items are inserted one after the other, in the order in which they stood. -/
private theorem insertEach_finds {done items : List ι} (hdone : done.Pairwise fun a b => Before answer b a)
    (hitems : items.Pairwise (· < ·)) (hlt : ∀ a ∈ done, ∀ b ∈ items, a < b) :
    (insertEach done items).Finds answer fun out =>
      out.Perm (done ++ items) ∧ out.Pairwise fun a b => Before answer b a := by
  -- On the items that are left: each of them stood behind all that are inserted.
  induction items generalizing done with
  | nil => exact Ends.pure ⟨by rw [List.append_nil], hdone⟩
  | cons item rest ih =>
    obtain ⟨hitem, hrest⟩ := List.pairwise_cons.mp hitems
    apply (insertBackwards_finds hdone fun a ha => hlt a ha item List.mem_cons_self).bind
    intro out hout
    obtain ⟨hperm, hordered⟩ := hout
    have hout : ∀ a ∈ out, ∀ b ∈ rest, a < b := by
      intro a ha b hb
      rcases List.mem_cons.mp (hperm.mem_iff.mp ha) with rfl | ha
      · exact hitem b hb
      · exact hlt a ha b (List.mem_cons_of_mem _ hb)
    apply (ih hordered hrest hout).mono
    exact fun out' hout' => ⟨hout'.1.trans ((hperm.append_right rest).trans List.perm_middle.symm), hout'.2⟩

/-- Items that stood behind a piece in its stable order are inserted into it. -/
theorem insertAll_finds {piece sorted items : List ι} (hsorted : IsStableOrder answer piece sorted)
    (hitems : (piece ++ items).Pairwise (· < ·)) :
    (insertAll sorted items).Finds answer (IsStableOrder answer (piece ++ items)) := by
  obtain ⟨_, hrest, hlt⟩ := List.pairwise_append.mp hitems
  have hdone : sorted.reverse.Pairwise fun a b => Before answer b a := List.pairwise_reverse.mpr hsorted.ordered
  have hmem : ∀ a ∈ sorted.reverse, ∀ b ∈ items, a < b := by
    intro a ha
    exact hlt a (hsorted.perm.mem_iff.mp (List.mem_reverse.mp ha))
  apply (insertEach_finds hdone hrest hmem).bind
  intro out hout
  obtain ⟨hperm, hordered⟩ := hout
  refine Ends.pure ⟨?_, List.pairwise_reverse.mpr hordered⟩
  exact (List.reverse_perm out).trans (hperm.trans (((List.reverse_perm sorted).trans hsorted.perm).append_right items))

omit [LinearOrder ι] in
/-- Inserting finds no contradiction, whatever the answers are. -/
theorem insertAll_ends (answer : ι → ι → Ordering) (sorted items : List ι) :
    (insertAll sorted items).Ends answer (fun _ _ => True) fun _ => True := by
  have hinsert : ∀ (item : ι) (done : List ι),
      (insertBackwards item done).Ends answer (fun _ _ => True) fun _ => True := by
    intro item done
    induction done with
    | nil => exact Ends.pure trivial
    | cons last before ih =>
      apply (Ends.less trivial).bind
      intro answered _
      cases answered with
      | true => exact ih.bind fun _ _ => Ends.pure trivial
      | false => exact Ends.pure trivial
  have heach : ∀ done : List ι, (insertEach done items).Ends answer (fun _ _ => True) fun _ => True := by
    induction items with
    | nil => exact fun done => Ends.pure trivial
    | cons item rest ih => exact fun done => (hinsert item done).bind fun out _ => ih out
  exact (heach sorted.reverse).bind fun _ _ => Ends.pure trivial

/-! ## Section 2: Taking from Two Lists -/

/-- Items taken from the fronts of two lists, `i` from one and `j` from the other, in the order of a relation: all of them
come before what is left of both. -/
private structure Taken (R : ι → ι → Prop) (left right : List ι) (i j : Nat) (taken : List ι) : Prop where
  left_le : i ≤ left.length
  right_le : j ≤ right.length
  perm : taken.Perm (left.take i ++ right.take j)
  ordered : taken.Pairwise R
  ahead : ∀ a ∈ taken, ∀ b ∈ left.drop i ++ right.drop j, R a b

namespace Taken

variable {R : ι → ι → Prop} {left right taken : List ι} {i j : Nat}

omit [LinearOrder ι] in
/-- Before anything is taken, both lists are whole. -/
private theorem nothing : Taken R left right 0 0 [] :=
  ⟨Nat.zero_le _, Nat.zero_le _, List.Perm.refl _, List.Pairwise.nil, fun _ ha => absurd ha List.not_mem_nil⟩

omit [LinearOrder ι] in
/-- It does not matter which list is the first one. -/
private theorem symm (h : Taken R left right i j taken) : Taken R right left j i taken where
  left_le := h.right_le
  right_le := h.left_le
  perm := h.perm.trans List.perm_append_comm
  ordered := h.ordered
  ahead a ha b hb := h.ahead a ha b (List.perm_append_comm.mem_iff.mp hb)

omit [LinearOrder ι] in
/-- The next item of the first list is taken if it comes before that of the second. -/
private theorem takeLeft (htrans : ∀ a b c, R a b → R b c → R a c) (h : Taken R left right i j taken)
    (hleft : left.Pairwise R) (hright : right.Pairwise R) {x y : ι} {leftRest rightRest : List ι}
    (hx : left.drop i = x :: leftRest) (hy : right.drop j = y :: rightRest) (hxy : R x y) :
    Taken R left right (i + 1) j (taken ++ [x]) := by
  have htake : left.take (i + 1) = left.take i ++ [x] := by
    rw [List.take_add, hx]
    rfl
  have hdrop : left.drop (i + 1) = leftRest := by
    rw [← List.tail_drop, hx]
    rfl
  constructor
  case left_le =>
    have hlength := congrArg List.length hx
    rw [List.length_drop, List.length_cons] at hlength
    omega
  case right_le => exact h.right_le
  case perm =>
    rw [htake]
    refine (h.perm.append_right [x]).trans ?_
    rw [List.append_assoc, List.append_assoc]
    exact List.perm_append_comm.append_left _
  case ordered =>
    refine List.pairwise_append.mpr ⟨h.ordered, List.pairwise_singleton _ _, fun a ha b hb => ?_⟩
    rw [List.mem_singleton.mp hb]
    exact h.ahead a ha x (by simp [hx])
  case ahead =>
    have hxrest : ∀ b ∈ leftRest, R x b := (List.pairwise_cons.mp (hx ▸ hleft.drop)).1
    have hyrest : ∀ b ∈ rightRest, R y b := (List.pairwise_cons.mp (hy ▸ hright.drop)).1
    rw [hdrop, hy]
    intro a ha b hb
    rcases List.mem_append.mp ha with ha | ha
    · apply h.ahead a ha
      rw [hx, hy]
      exact List.mem_cons_of_mem x hb
    · rw [List.mem_singleton.mp ha]
      rcases List.mem_append.mp hb with hb | hb
      · exact hxrest b hb
      · rcases List.mem_cons.mp hb with rfl | hb
        · exact hxy
        · exact htrans x y b hxy (hyrest b hb)

omit [LinearOrder ι] in
/-- If one of the lists is used up, then what is left of the other one follows. -/
private theorem whole (h : Taken R left right i j taken) (hleft : left.Pairwise R) (hright : right.Pairwise R)
    (hempty : left.drop i = [] ∨ right.drop j = []) :
    (taken ++ left.drop i ++ right.drop j).Perm (left ++ right) ∧
      (taken ++ left.drop i ++ right.drop j).Pairwise R := by
  constructor
  · have hparts : (left ++ right).Perm (left.take i ++ right.take j ++ (left.drop i ++ right.drop j)) := by
      conv => lhs; rw [← List.take_append_drop i left, ← List.take_append_drop j right]
      simp only [List.append_assoc]
      exact (List.perm_append_comm_assoc _ _ _).append_left _
    rw [List.append_assoc]
    exact (h.perm.append_right _).trans hparts.symm
  · rw [List.append_assoc]
    refine List.pairwise_append.mpr ⟨h.ordered, ?_, h.ahead⟩
    rcases hempty with hempty | hempty
    · rw [hempty]
      exact hright.drop
    · rw [hempty, List.append_nil]
      exact hleft.drop

end Taken

omit [LinearOrder ι] [Std.TransCmp answer] in
/-- What is taken from two lists in order, if the items are picked in that order: as many items as asked for, unless one
of the lists is used up. -/
private theorem takeMerged_finds {R : ι → ι → Prop} (htrans : ∀ a b c, R a b → R b c → R a c)
    {pick : ι → ι → Comparisons ι Bool} {left right : List ι} (hleft : left.Pairwise R) (hright : right.Pairwise R)
    (hpick : ∀ x ∈ left, ∀ y ∈ right, (pick x y).Finds answer fun b => cond b (R x y) (R y x))
    {i j : Nat} {taken : List ι} (count : Nat) (htaken : Taken R left right i j taken.reverse) :
    (takeMerged pick count taken (left.drop i) (right.drop j)).Finds answer fun out =>
      ∃ i' j', out.2 = (left.drop i', right.drop j') ∧ Taken R left right i' j' out.1 ∧
        i' + j' ≤ i + j + count ∧ (left.length ≤ i' ∨ right.length ≤ j' ∨ i' + j' = i + j + count) := by
  induction count generalizing i j taken with
  | zero => exact Ends.pure ⟨i, j, rfl, htaken, Nat.le_refl _, .inr (.inr rfl)⟩
  | succ count ih =>
    cases hx : left.drop i with
    | nil => exact Ends.pure ⟨i, j, by rw [hx], htaken, by omega, .inl (List.drop_eq_nil_iff.mp hx)⟩
    | cons x leftRest =>
      cases hy : right.drop j with
      | nil => exact Ends.pure ⟨i, j, by rw [hx, hy], htaken, by omega, .inr (.inl (List.drop_eq_nil_iff.mp hy))⟩
      | cons y rightRest =>
        have hxmem : x ∈ left := List.mem_of_mem_drop (by rw [hx]; exact List.mem_cons_self)
        have hymem : y ∈ right := List.mem_of_mem_drop (by rw [hy]; exact List.mem_cons_self)
        have hleftRest : left.drop (i + 1) = leftRest := by rw [← List.tail_drop, hx]; rfl
        have hrightRest : right.drop (j + 1) = rightRest := by rw [← List.tail_drop, hy]; rfl
        -- Either list may give the next item, and both cases are the same with the lists exchanged.
        apply (hpick x hxmem y hymem).bind
        intro picked hpicked
        cases picked with
        | true =>
          have hnext : Taken R left right (i + 1) j (x :: taken).reverse := by
            rw [List.reverse_cons]
            exact htaken.takeLeft htrans hleft hright hx hy hpicked
          have hgoal := ih hnext
          rw [hleftRest, hy] at hgoal
          apply hgoal.mono
          rintro out ⟨i', j', hout, htaken', hcount, hend⟩
          exact ⟨i', j', hout, htaken', by omega, by omega⟩
        | false =>
          have hnext : Taken R left right i (j + 1) (y :: taken).reverse := by
            rw [List.reverse_cons]
            exact (htaken.symm.takeLeft htrans hright hleft hy hx hpicked).symm
          have hgoal := ih hnext
          rw [hx, hrightRest] at hgoal
          apply hgoal.mono
          rintro out ⟨i', j', hout, htaken', hcount, hend⟩
          exact ⟨i', j', hout, htaken', by omega, by omega⟩

/-! ## Section 3: Merging -/

/-- Two neighbouring pieces, each in its stable order. -/
structure Neighbours (answer : ι → ι → Ordering) (piece piece' left right : List ι) : Prop where
  placed : (piece ++ piece').Pairwise (· < ·)
  left : IsStableOrder answer piece left
  right : IsStableOrder answer piece' right

namespace Neighbours

variable {piece piece' left right : List ι} (h : Neighbours answer piece piece' left right)

include h

omit [Std.TransCmp answer] in
/-- All that is on the left stood before all that is on the right. -/
private theorem lt {x y : ι} (hx : x ∈ left) (hy : y ∈ right) : x < y :=
  (List.pairwise_append.mp h.placed).2.2 x (h.left.perm.mem_iff.mp hx) y (h.right.perm.mem_iff.mp hy)

omit [Std.TransCmp answer] in
/-- Both pieces together hold the items of both lists. -/
private theorem perm : (left ++ right).Perm (piece ++ piece') :=
  h.left.perm.append h.right.perm

/-- What is taken from the fronts comes first in the stable order. -/
private theorem takeMerged_front (count : Nat) :
    (takeMerged pickFront count [] left right).Finds answer fun out =>
      ∃ i j, out.2 = (left.drop i, right.drop j) ∧ Taken (Before answer) left right i j out.1 ∧
        i + j ≤ count ∧ (left.length ≤ i ∨ right.length ≤ j ∨ i + j = count) := by
  have hpick : ∀ x ∈ left, ∀ y ∈ right,
      (pickFront x y).Finds answer fun b => cond b (Before answer x y) (Before answer y x) := by
    intro x hx y hy
    apply (finds_less (.inl (h.lt hx hy))).bind
    intro answered hsettled
    cases answered <;> exact Ends.pure hsettled
  have hnothing : Taken (Before answer) left right 0 0 ([] : List ι).reverse := Taken.nothing
  have hgoal := takeMerged_finds (fun _ _ _ => Before.trans) h.left.ordered h.right.ordered hpick count hnothing
  simpa only [List.drop_zero, List.reverse_nil, Nat.zero_add] using hgoal

/-- What is taken from the backs comes last in the stable order. -/
private theorem takeMerged_back (count : Nat) :
    (takeMerged (fun x y => Comparisons.less y x) count [] left.reverse right.reverse).Finds answer fun out =>
      ∃ i j, out.2 = (left.reverse.drop i, right.reverse.drop j) ∧
        Taken (fun a b => Before answer b a) left.reverse right.reverse i j out.1 ∧
        i + j ≤ count ∧ (left.length ≤ i ∨ right.length ≤ j ∨ i + j = count) := by
  have hpick : ∀ x ∈ left.reverse, ∀ y ∈ right.reverse,
      (Comparisons.less y x).Finds answer fun b => cond b (Before answer y x) (Before answer x y) := by
    intro x hx y hy
    apply (finds_less (.inl (h.lt (List.mem_reverse.mp hx) (List.mem_reverse.mp hy)))).mono
    intro answered hsettled
    cases answered <;> exact hsettled
  have hnothing : Taken (fun a b => Before answer b a) left.reverse right.reverse 0 0 ([] : List ι).reverse :=
    Taken.nothing
  have hgoal := takeMerged_finds (fun _ _ _ hab hbc => hbc.trans hab) (List.pairwise_reverse.mpr h.left.ordered)
    (List.pairwise_reverse.mpr h.right.ordered) hpick count hnothing
  simpa only [List.drop_zero, List.reverse_nil, Nat.zero_add, List.length_reverse] using hgoal

end Neighbours

/-- Merging finds the stable order of both pieces together. -/
theorem merge_finds {piece piece' left right : List ι} (h : Neighbours answer piece piece' left right) :
    (merge left right).Finds answer (IsStableOrder answer (piece ++ piece')) := by
  unfold merge
  dsimp only
  split
  · apply (h.takeMerged_front _).bind
    rintro ⟨taken, leftRest, rightRest⟩ ⟨i, j, hrest, htaken, hcount, hend⟩
    cases hrest
    have hleft := htaken.left_le
    have hright := htaken.right_le
    obtain ⟨hperm, hordered⟩ := htaken.whole h.left.ordered h.right.ordered (by simp only [List.drop_eq_nil_iff]; omega)
    exact Ends.pure ⟨hperm.trans h.perm, hordered⟩
  · apply (h.takeMerged_back _).bind
    rintro ⟨taken, leftRest, rightRest⟩ ⟨i, j, hrest, htaken, hcount, hend⟩
    cases hrest
    have hleft := htaken.left_le
    have hright := htaken.right_le
    rw [List.length_reverse] at hleft hright
    obtain ⟨hperm, hordered⟩ := htaken.whole (List.pairwise_reverse.mpr h.left.ordered)
      (List.pairwise_reverse.mpr h.right.ordered) (by simp only [List.drop_eq_nil_iff, List.length_reverse]; omega)
    refine Ends.pure ⟨?_, List.pairwise_reverse.mpr hordered⟩
    have hreverse := (List.reverse_perm left).append (List.reverse_perm right)
    exact (List.reverse_perm _).trans (hperm.trans (hreverse.trans h.perm))

/-! ## Section 4: Merging to the Middle -/

section Middle

variable {left right front back : List ι} {i j i' j' : Nat}

/-- The items taken from both ends do not meet in one list while the other list has an item that is not taken: that item
comes behind what the front has taken, and before what the back has taken. -/
private theorem not_crossed (hfront : Taken (Before answer) left right i j front)
    (hback : Taken (fun a b => Before answer b a) left.reverse right.reverse i' j' back) :
    ¬ (left.length < i + i' ∧ j + j' < right.length) := by
  -- Otherwise there is an item that both ends have taken, and another one that neither has.
  rintro ⟨hleft, hright⟩
  have hi' : i' ≤ left.length := by simpa using hback.left_le
  have hi : i ≤ left.length := hfront.left_le
  have hlast : i - 1 < left.length := by omega
  have hnext : j < right.length := by omega
  -- the last item that the front takes from one list is taken by the back, too
  have hinFront : left[i - 1] ∈ front :=
    hfront.perm.mem_iff.mpr (List.mem_append_left _ (List.mem_take_iff_getElem.mpr ⟨i - 1, by omega, rfl⟩))
  have hinBack : left[i - 1] ∈ back := by
    apply hback.perm.mem_iff.mpr
    rw [List.take_reverse]
    apply List.mem_append_left
    rw [List.mem_reverse, List.mem_drop_iff_getElem]
    refine ⟨i - 1 - (left.length - i'), by omega, ?_⟩
    congr 1
    omega
  -- the next item of the other list is left by both
  have hafter : right[j] ∈ left.drop i ++ right.drop j :=
    List.mem_append_right _ (List.mem_drop_iff_getElem.mpr ⟨0, by omega, rfl⟩)
  have hbefore : right[j] ∈ left.reverse.drop i' ++ right.reverse.drop j' := by
    rw [List.drop_reverse, List.drop_reverse]
    apply List.mem_append_right
    rw [List.mem_reverse]
    exact List.mem_take_iff_getElem.mpr ⟨j, by omega, rfl⟩
  exact (hfront.ahead _ hinFront _ hafter).asymm (hback.ahead _ hinBack _ hbefore)

/-- If both ends take half of the items, then the halves meet. -/
private theorem halves_meet (hfront : Taken (Before answer) left right i j front)
    (hback : Taken (fun a b => Before answer b a) left.reverse right.reverse i' j' back)
    (hcount : i + j = (left.length + right.length) / 2) (hcount' : i' + j' = (left.length + right.length) / 2) :
    i + i' ≤ left.length ∧ j + j' ≤ right.length := by
  have hleft := not_crossed hfront hback
  have hright := not_crossed hfront.symm hback.symm
  omega

omit [Std.TransCmp answer] in
/-- What is taken from the front, at most one item of the middle, and what is taken from the back. -/
private theorem isStableOrder_middle {piece piece' : List ι} (h : Neighbours answer piece piece' left right)
    (hfront : Taken (Before answer) left right i j front)
    (hback : Taken (fun a b => Before answer b a) left.reverse right.reverse i' j' back) (m m' : Nat)
    (hleft : i + m + i' = left.length) (hright : j + m' + j' = right.length) (hmiddle : m + m' ≤ 1) :
    IsStableOrder answer (piece ++ piece')
      (front ++ ((left.drop i).take m ++ (right.drop j).take m') ++ back.reverse) := by
  -- Counted from the front, the back has taken what stands behind the middle.
  have hbackPerm : back.Perm (left.drop (i + m) ++ right.drop (j + m')) := by
    refine hback.perm.trans ?_
    rw [List.take_reverse, List.take_reverse, ← hleft, ← hright, Nat.add_sub_cancel, Nat.add_sub_cancel]
    exact (List.reverse_perm _).append (List.reverse_perm _)
  have hleftParts : left = left.take i ++ (left.drop i).take m ++ left.drop (i + m) := by
    rw [← List.take_add, List.take_append_drop]
  have hrightParts : right = right.take j ++ (right.drop j).take m' ++ right.drop (j + m') := by
    rw [← List.take_add, List.take_append_drop]
  constructor
  case perm =>
    refine List.Perm.trans ?_ h.perm
    rw [List.perm_iff_count]
    intro a
    have hfrontCount := hfront.perm.count_eq a
    have hbackCount := hbackPerm.count_eq a
    have hleftCount := congrArg (List.count a) hleftParts
    have hrightCount := congrArg (List.count a) hrightParts
    simp only [List.count_append, List.count_reverse] at *
    omega
  case ordered =>
    -- One item at most is in order by itself.
    have hmiddleOrdered : ((left.drop i).take m ++ (right.drop j).take m').Pairwise (Before answer) := by
      have hlength : ((left.drop i).take m ++ (right.drop j).take m').length ≤ 1 := by
        rw [List.length_append, List.length_take, List.length_take]
        omega
      generalize (left.drop i).take m ++ (right.drop j).take m' = middle at hlength
      match middle, hlength with
      | [], _ => exact List.Pairwise.nil
      | [a], _ => exact List.pairwise_singleton _ a
    -- The middle and the back are among what the front has left,
    have hmiddleLeft : ∀ b ∈ (left.drop i).take m ++ (right.drop j).take m', b ∈ left.drop i ++ right.drop j := by
      intro b hb
      exact List.mem_append.mpr ((List.mem_append.mp hb).imp List.mem_of_mem_take List.mem_of_mem_take)
    have hbackLeft : ∀ b ∈ back, b ∈ left.drop i ++ right.drop j := by
      intro b hb
      rw [← List.drop_drop, ← List.drop_drop] at hbackPerm
      refine List.mem_append.mpr ((List.mem_append.mp (hbackPerm.mem_iff.mp hb)).imp ?_ ?_) <;>
        exact List.mem_of_mem_drop
    -- and the middle is among what the back has left.
    have hmiddleBack : ∀ a ∈ (left.drop i).take m ++ (right.drop j).take m',
        a ∈ left.reverse.drop i' ++ right.reverse.drop j' := by
      intro a ha
      rw [List.drop_reverse, List.drop_reverse, ← hleft, ← hright, Nat.add_sub_cancel, Nat.add_sub_cancel,
        List.take_add, List.take_add]
      simp only [List.mem_append, List.mem_reverse] at ha ⊢
      exact ha.imp Or.inr Or.inr
    rw [List.append_assoc]
    refine List.pairwise_append.mpr ⟨hfront.ordered, List.pairwise_append.mpr ⟨hmiddleOrdered, ?_, ?_⟩, ?_⟩
    · exact List.pairwise_reverse.mpr hback.ordered
    · exact fun a ha b hb => hback.ahead b (List.mem_reverse.mp hb) a (hmiddleBack a ha)
    · intro a ha b hb
      rcases List.mem_append.mp hb with hb | hb
      · exact hfront.ahead a ha b (hmiddleLeft b hb)
      · exact hfront.ahead a ha b (hbackLeft b (List.mem_reverse.mp hb))

end Middle

/-- Merging from both ends finds the stable order of both pieces together, if each piece holds half of the items. -/
theorem mergeToMiddle_finds {piece piece' left right : List ι} (h : Neighbours answer piece piece' left right)
    (hleft : (left.length + right.length) / 2 ≤ left.length)
    (hright : (left.length + right.length) / 2 ≤ right.length) :
    (mergeToMiddle left right).Finds answer (IsStableOrder answer (piece ++ piece')) := by
  unfold mergeToMiddle
  apply (h.takeMerged_front _).bind
  rintro ⟨front, leftAfter, rightAfter⟩ ⟨i, j, hafter, hfront, hcount, hend⟩
  cases hafter
  apply (h.takeMerged_back _).bind
  rintro ⟨back, leftBefore, rightBefore⟩ ⟨i', j', hbefore, hback, hcount', hend'⟩
  cases hbefore
  have hi := hfront.left_le
  have hj := hfront.right_le
  have hi' := hback.left_le
  have hj' := hback.right_le
  rw [List.length_reverse] at hi' hj'
  obtain ⟨hmeetLeft, hmeetRight⟩ := halves_meet hfront hback (by omega) (by omega)
  have htaken : left.length - (left.length - i') = i' := by omega
  simp only [List.length_drop, List.length_reverse, htaken]
  -- The one item in the middle, if the number is odd, is left in one of the lists.
  by_cases heven : (left.length + right.length) % 2 = 0
  · have hmeet : left.length - i = i' := by omega
    have horder := isStableOrder_middle h hfront hback 0 0 (by omega) (by omega) (by omega)
    simp only [heven, hmeet, Nat.zero_ne_one, decide_false, Bool.false_and, Bool.false_eq_true, if_false, if_true,
      Nat.add_zero]
    exact Ends.pure horder
  · have hodd : (left.length + right.length) % 2 = 1 := by omega
    by_cases hmiddle : i' < left.length - i
    · have hmeet : left.length - i = i' + 1 := by omega
      have horder := isStableOrder_middle h hfront hback 1 0 (by omega) (by omega) (by omega)
      simp only [hodd, hmeet, Nat.lt_succ_self, decide_true, Bool.and_self, Nat.one_ne_zero, if_false, if_true]
      rw [List.take_zero, List.append_nil] at horder
      exact Ends.pure horder
    · have hmeet : left.length - i = i' := by omega
      have horder := isStableOrder_middle h hfront hback 0 1 (by omega) (by omega) (by omega)
      simp only [hodd, hmeet, Nat.lt_irrefl, decide_false, Bool.and_false, Bool.false_eq_true, Nat.one_ne_zero, if_false,
        if_true, Nat.add_zero, decide_true]
      exact Ends.pure horder

/-! ## Section 5: Small Lists -/

/-- Two items are put in order by one question. -/
private theorem sortTwo_finds {x y : ι} (h : x < y ∨ Before answer x y) :
    (sortTwo x y).Finds answer fun out => Before answer out.1 out.2 ∧ [out.1, out.2].Perm [x, y] := by
  apply (finds_less h).bind
  intro answered hsettled
  cases answered with
  | true => exact Ends.pure ⟨hsettled, List.Perm.swap x y []⟩
  | false => exact Ends.pure ⟨hsettled, List.Perm.refl _⟩

/-- Two items are in order between the least and the greatest of four. -/
private theorem sortMiddle_finds {least left right greatest : ι} {items : List ι}
    (h : left < right ∨ Before answer left right)
    (hleast : Before answer least left ∧ Before answer least right)
    (hgreatest : Before answer left greatest ∧ Before answer right greatest)
    (hperm : [least, left, right, greatest].Perm items) :
    (do let (second, third) ← sortTwo left right
        return [least, second, third, greatest] : Comparisons ι (List ι)).Finds answer (IsStableOrder answer items) := by
  apply (sortTwo_finds h).bind
  rintro ⟨second, third⟩ ⟨hsorted, hmiddle⟩
  have hmem : ∀ x ∈ [second, third], Before answer least x ∧ Before answer x greatest := by
    intro x hx
    have hx := hmiddle.mem_iff.mp hx
    simp only [List.mem_cons, List.not_mem_nil, or_false] at hx
    rcases hx with rfl | rfl
    · exact ⟨hleast.1, hgreatest.1⟩
    · exact ⟨hleast.2, hgreatest.2⟩
  have hsecond := hmem second (by simp)
  have hthird := hmem third (by simp)
  refine Ends.pure ⟨((hmiddle.append_right [greatest]).cons least).trans hperm, ?_⟩
  have hends := hleast.1.trans hgreatest.1
  simp [hsecond.1, hsecond.2, hthird.1, hthird.2, hends, hsorted]

/-- Four items are put in order by five questions at most: the least and the greatest first, and the other two. -/
private theorem sortFour_finds {p q r s : ι} (hplaced : [p, q, r, s].Pairwise (· < ·)) :
    (sortFour p q r s).Finds answer (IsStableOrder answer [p, q, r, s]) := by
  obtain ⟨hp, hq, hr, -⟩ : (p < q ∧ p < r ∧ p < s) ∧ (q < r ∧ q < s) ∧ r < s ∧ True := by simpa using hplaced
  unfold sortFour
  apply (sortTwo_finds (.inl hp.1)).bind
  rintro ⟨a, b⟩ ⟨hab, hpq⟩
  apply (sortTwo_finds (.inl hr)).bind
  rintro ⟨c, d⟩ ⟨hcd, hrs⟩
  have hlt : ∀ x ∈ [a, b], ∀ y ∈ [c, d], x < y := by
    intro x hx y hy
    have hx := hpq.mem_iff.mp hx
    have hy := hrs.mem_iff.mp hy
    simp only [List.mem_cons, List.not_mem_nil, or_false] at hx hy
    rcases hx with rfl | rfl <;> rcases hy with rfl | rfl <;> simp [hp, hq]
  apply (finds_less (.inl (hlt a (by simp) c (by simp)))).bind
  intro answered hac
  apply (finds_less (.inl (hlt b (by simp) d (by simp)))).bind
  intro answered' hbd
  have hall : [a, b, c, d].Perm [p, q, r, s] := hpq.append hrs
  -- The answers tell which items are the least and the greatest; the other two are compared last.
  have hlast : [a, c, d, b].Perm [a, b, c, d] :=
    (List.perm_append_comm : ([c, d] ++ [b]).Perm ([b] ++ [c, d])).cons a
  cases answered with
  | false =>
    cases answered' with
    | false =>
      exact sortMiddle_finds (.inl (hlt b (by simp) c (by simp))) ⟨hab, hac⟩ ⟨hbd, hcd⟩ hall
    | true =>
      exact sortMiddle_finds (.inr hcd) ⟨hac, hac.trans hcd⟩ ⟨hcd.trans hbd, hbd⟩ (hlast.trans hall)
  | true =>
    cases answered' with
    | false =>
      have hfirst : [c, a, b, d].Perm [a, b, c, d] :=
        (List.perm_append_comm : ([c] ++ [a, b]).Perm ([a, b] ++ [c])).append_right [d]
      exact sortMiddle_finds (.inr hab) ⟨hac, hac.trans hab⟩ ⟨hab.trans hbd, hbd⟩ (hfirst.trans hall)
    | true =>
      have hfirst : [c, a, d, b].Perm [a, c, d, b] := List.Perm.swap a c [d, b]
      exact sortMiddle_finds (.inl (hlt a (by simp) d (by simp))) ⟨hac, hcd⟩ ⟨hab, hbd⟩
        (hfirst.trans (hlast.trans hall))

/-- Half of a small list is sorted. -/
private theorem sortHalf_finds (whole : Nat) {items : List ι} (hplaced : items.Pairwise (· < ·)) :
    (sortHalf whole items).Finds answer (IsStableOrder answer items) := by
  have hinsert : (insertAll [] items).Finds answer (IsStableOrder answer items) :=
    insertAll_finds (.refl List.Pairwise.nil) hplaced
  unfold sortHalf
  split
  · next p q r s rest =>
    split
    · have hsplit : ([p, q, r, s] ++ rest).Pairwise (· < ·) := hplaced
      apply (sortFour_finds (List.pairwise_append.mp hsplit).1).bind
      exact fun sorted hsorted => insertAll_finds hsorted hsplit
    · exact hinsert
  · exact hinsert

/-- A small list is sorted. -/
theorem sortSmall_finds {items : List ι} (hplaced : items.Pairwise (· < ·)) :
    (sortSmall items).Finds answer (IsStableOrder answer items) := by
  have hparts : items.take (items.length / 2) ++ items.drop (items.length / 2) = items := List.take_append_drop _ _
  unfold sortSmall
  dsimp only
  apply (sortHalf_finds _ hplaced.take).bind
  intro left hleft
  apply (sortHalf_finds _ hplaced.drop).bind
  intro right hright
  have hleftLength := hleft.perm.length_eq
  have hrightLength := hright.perm.length_eq
  rw [List.length_take] at hleftLength
  rw [List.length_drop] at hrightLength
  have hmerged := mergeToMiddle_finds ⟨by rwa [hparts], hleft, hright⟩ (by omega) (by omega)
  rwa [hparts] at hmerged

end RowConsole.RunSort
