import Mathlib.Data.List.FinRange
import Mathlib.Data.List.Pairwise
import RowConsole.Data.Comparisons

/-!
# Stable Sorts

A sort by comparison knows nothing of the things that it sorts, but asks how two of them compare, and what it asks next
depends on the answers. It is stable if it ends in the stable order whenever the answers come from a total preorder, and
then it finds no contradiction. Nothing is said of where such a sort ends up if it gets other answers: it may give up.

What such a sort has asked determines where it ends up. So if two total preorders tell two things apart, one putting the
first before the second and the other the second before the first, then a stable sort that comes to its end has asked
something on which they differ: it cannot end in both orders.

Main statements: `StableSort.exists_record_eq` and `StableSort.missed_of_apart`.
-/

namespace RowConsole

/-! ## Section 1: Where Computations End -/

namespace Comparisons

variable {ι α β : Type}

/-- With given answers, a computation asks only what it may ask, finds no contradiction and ends with a result that is
good. -/
def Ends (answer : ι → ι → Ordering) (mayAsk : ι → ι → Prop) (good : α → Prop) : Comparisons ι α → Prop
  | .done a => good a
  | .contradiction => False
  | .ask i j next => mayAsk i j ∧ (next (answer i j)).Ends answer mayAsk good

section Rules

variable {answer : ι → ι → Ordering} {mayAsk : ι → ι → Prop} {good : α → Prop} {good' : β → Prop}

/-- A result ends a computation. -/
protected theorem Ends.pure {a : α} (h : good a) : (pure a : Comparisons ι α).Ends answer mayAsk good :=
  h

/-- A sequence ends well if its first part does, and its second part for each good result of the first. -/
protected theorem Ends.bind {t : Comparisons ι α} {next : α → Comparisons ι β} (h : t.Ends answer mayAsk good)
    (hnext : ∀ a, good a → (next a).Ends answer mayAsk good') : (t >>= next).Ends answer mayAsk good' := by
  induction t with
  | done a => exact hnext a h
  | contradiction => exact h.elim
  | ask i j answered ih => exact ⟨h.1, ih _ h.2⟩

/-- What follows from a good result holds of it, too. -/
theorem Ends.mono {good' : α → Prop} {t : Comparisons ι α} (h : t.Ends answer mayAsk good)
    (himp : ∀ a, good a → good' a) : t.Ends answer mayAsk good' := by
  induction t with
  | done a => exact himp a h
  | contradiction => exact h
  | ask i j answered ih => exact ⟨h.1, ih _ h.2⟩

/-- A question that may be asked has its answer. -/
theorem Ends.less {i j : ι} (hask : mayAsk i j) :
    (Comparisons.less i j).Ends answer mayAsk fun b => b = (answer i j == .lt) :=
  ⟨hask, rfl⟩

end Rules

/-! ## Section 2: What Is Recorded -/

section Records

variable {answer? : ι → ι → Option Ordering} {answer : ι → ι → Ordering} {mayAsk : ι → ι → Prop} {good : α → Prop}

/-- A missing answer is not forgotten. -/
private theorem missed_of_record {t : Comparisons ι α} {a : α} {missed : Bool}
    (h : t.record answer? true = some (a, missed)) : missed = true := by
  induction t with
  | done a' =>
    cases h
    rfl
  | contradiction => contradiction
  | ask i j next ih =>
    rw [record] at h
    split at h
    · exact ih _ h
    · exact ih _ h

/-- If all answers to what may be asked are there, then none is missed. -/
theorem Ends.exists_record_eq {t : Comparisons ι α} (h : t.Ends answer mayAsk good)
    (hall : ∀ i j, mayAsk i j → answer? i j = some (answer i j)) :
    ∃ a, t.record answer? false = some (a, false) ∧ good a := by
  -- On the questions: each of them may be asked, so its answer is there.
  induction t with
  | done a => exact ⟨a, rfl, h⟩
  | contradiction => exact h.elim
  | ask i j next ih =>
    obtain ⟨hask, hnext⟩ := h
    rw [record, hall i j hask]
    exact ih _ hnext

/-- If a computation comes to its end with the answer that counts in place of a missing one, then it has a record. -/
theorem Ends.exists_record {t : Comparisons ι α}
    (h : t.Ends (fun i j => (answer? i j).getD .eq) mayAsk good) (missed : Bool) :
    ∃ a missed', t.record answer? missed = some (a, missed') ∧ good a := by
  induction t generalizing missed with
  | done a => exact ⟨a, missed, rfl, h⟩
  | contradiction => exact h.elim
  | ask i j next ih =>
    have hnext := h.2
    dsimp only at hnext
    rw [record]
    cases hanswer : answer? i j with
    | some o =>
      rw [hanswer] at hnext
      exact ih o hnext missed
    | none =>
      rw [hanswer] at hnext
      exact ih .eq hnext true

/-- If no answer was missed, then the end was that with all answers that agree with those that were given. -/
theorem Ends.good_of_record {t : Comparisons ι α} {a : α} (h : t.Ends answer mayAsk good)
    (hagree : ∀ i j o, answer? i j = some o → answer i j = o) (hrecord : t.record answer? false = some (a, false)) :
    good a := by
  induction t with
  | done a' =>
    cases hrecord
    exact h
  | contradiction => contradiction
  | ask i j next ih =>
    rw [record] at hrecord
    cases hanswer : answer? i j with
    -- A question without an answer would be recorded up to the end.
    | none =>
      rw [hanswer] at hrecord
      exact absurd (missed_of_record hrecord) Bool.false_ne_true
    | some o =>
      rw [hanswer] at hrecord
      have hnext := h.2
      -- The answer is also that of the preorder, so both computations go on in the same way.
      rw [hagree i j o hanswer] at hnext
      exact ih o hnext hrecord

end Records

end Comparisons

/-! ## Section 3: Stable Orders -/

section Orders

variable {ι : Type} [LinearOrder ι] (answer : ι → ι → Ordering)

/-- Whether a thing comes before another one in the stable order: it is less, or it compares as equal and stood before
it. -/
def Before (i j : ι) : Prop :=
  answer i j = .lt ∨ answer i j = .eq ∧ i < j

/-- Things in their stable order. -/
structure IsStableOrder (items order : List ι) : Prop where
  perm : order.Perm items
  ordered : order.Pairwise (Before answer)

/-- What a stable sort may ask: how two things compare, and how a thing compares with itself if another one does not
come before it. -/
def MayAsk (i j : ι) : Prop :=
  i = j → ∃ k, k ≠ i ∧ answer k i ≠ .lt

variable {answer} {i j k : ι}

omit [LinearOrder ι] in
/-- Two different things may always be compared. -/
theorem MayAsk.of_ne (h : i ≠ j) : MayAsk answer i j :=
  fun heq => absurd heq h

/-- Things that stand in their stable order already are in it. -/
theorem IsStableOrder.refl {items : List ι} (h : items.Pairwise (Before answer)) : IsStableOrder answer items items :=
  ⟨List.Perm.refl items, h⟩

variable [Std.TransCmp answer]

/-- Nothing comes before itself. -/
private theorem Before.irrefl (i : ι) : ¬ Before answer i i := by
  have hself : answer i i = .eq := Std.ReflCmp.compare_self
  rintro (h | ⟨_, h⟩)
  · rw [hself] at h
    contradiction
  · exact lt_irrefl i h

/-- A thing that comes before another one is different from it. -/
theorem Before.ne (h : Before answer i j) : i ≠ j := by
  rintro rfl
  exact Before.irrefl i h

/-- What comes before a thing comes before all that it comes before. -/
theorem Before.trans (hij : Before answer i j) (hjk : Before answer j k) : Before answer i k := by
  -- Less on either side is less; two equalities keep the places in order.
  rcases hij with hij | ⟨hij, hlt⟩
  · rcases hjk with hjk | ⟨hjk, _⟩
    · exact .inl (Std.TransCmp.lt_trans hij hjk)
    · exact .inl (Std.TransCmp.lt_of_lt_of_eq hij hjk)
  · rcases hjk with hjk | ⟨hjk, hlt'⟩
    · exact .inl (Std.TransCmp.lt_of_eq_of_lt hij hjk)
    · exact .inr ⟨Std.TransCmp.eq_trans hij hjk, hlt.trans hlt'⟩

/-- Of two things, one at most comes before the other. -/
theorem Before.asymm (hij : Before answer i j) : ¬ Before answer j i :=
  fun hji => Before.irrefl i (hij.trans hji)

/-- A thing that is not less than one that stood before it comes behind that one. -/
theorem before_of_not_less (hij : i < j) (h : answer j i ≠ .lt) : Before answer i j := by
  have hswap : answer i j = (answer j i).swap := Std.OrientedCmp.eq_swap
  cases hanswer : answer j i with
  | lt => contradiction
  | eq =>
    rw [hanswer] at hswap
    exact .inr ⟨hswap, hij⟩
  | gt =>
    rw [hanswer] at hswap
    exact .inl hswap

/-- A thing that comes before another is not found to be greater. -/
theorem Before.not_less (h : Before answer i j) : answer j i ≠ .lt := by
  intro hji
  exact h.asymm (.inl hji)

/-- Whether the answer to a question whether one thing comes before another says which of them is first in the stable
order. -/
def Settled (answer : ι → ι → Ordering) (i j : ι) : Bool → Prop
  | true => Before answer i j
  | false => Before answer j i

/-- A computation that gets the answers of a total preorder asks only what a stable sort may ask, and ends with a result
that is good. -/
abbrev Comparisons.Finds {α : Type} (answer : ι → ι → Ordering) (good : α → Prop) (t : Comparisons ι α) : Prop :=
  t.Ends answer (MayAsk answer) good

/-- A question about two things settles their order if the other one stood before, or is known to come before. -/
theorem finds_less (h : j < i ∨ Before answer j i) : (Comparisons.less i j).Finds answer (Settled answer i j) := by
  have hne : i ≠ j := h.elim (fun hlt => hlt.ne') (fun hbefore => hbefore.ne.symm)
  apply (Comparisons.Ends.less (MayAsk.of_ne hne)).mono
  rintro _ rfl
  cases hanswer : answer i j == .lt with
  | true => exact .inl (beq_iff_eq.mp hanswer)
  | false => exact h.elim (fun hlt => before_of_not_less hlt (beq_eq_false_iff_ne.mp hanswer)) id

/-- There is one stable order only. -/
theorem IsStableOrder.unique {items order order' : List ι} (h : IsStableOrder answer items order)
    (h' : IsStableOrder answer items order') : order = order' := by
  apply List.Perm.eq_of_pairwise ?_ h.ordered h'.ordered (h.perm.trans h'.perm.symm)
  exact fun _ _ _ _ hij hji => absurd hji hij.asymm

end Orders

/-! ## Section 4: Stable Sorts -/

/-- A stable sort by comparison, for any number of things. -/
structure StableSort where
  comparisons : (n : Nat) → Comparisons (Fin n) (List (Fin n))
  sorts : ∀ {n : Nat} (answer : Fin n → Fin n → Ordering) [Std.TransCmp answer],
    (comparisons n).Ends answer (MayAsk answer) (IsStableOrder answer (List.finRange n))

namespace StableSort

variable (S : StableSort) {n : Nat} {answer? : Fin n → Fin n → Option Ordering}
  {answer first second : Fin n → Fin n → Ordering}

/-- A stable sort finds the stable order of a total preorder if nothing that it may ask is left without an answer. -/
theorem exists_record_eq [Std.TransCmp answer] (hall : ∀ i j, MayAsk answer i j → answer? i j = some (answer i j)) :
    ∃ order, (S.comparisons n).record answer? false = some (order, false) ∧
      IsStableOrder answer (List.finRange n) order :=
  (S.sorts answer).exists_record_eq hall

/-- If two total preorders that agree with all answers put two things in different orders, then a stable sort gives up
or has asked something that was not answered. -/
theorem missed_of_apart [Std.TransCmp first] [Std.TransCmp second]
    (hfirst : ∀ i j o, answer? i j = some o → first i j = o) (hsecond : ∀ i j o, answer? i j = some o → second i j = o)
    {i j : Fin n} (hlt : first i j = .lt) (hgt : second i j = .gt) {order : List (Fin n)} {missed : Bool}
    (h : (S.comparisons n).record answer? false = some (order, missed)) : missed = true := by
  by_contra hmissed
  rw [Bool.not_eq_true] at hmissed
  subst hmissed
  have horder := (S.sorts first).good_of_record hfirst h
  have horder' := (S.sorts second).good_of_record hsecond h
  -- the sort cannot put the two things in both orders
  have hmem : ∀ k, k ∈ order := fun k => horder.perm.mem_iff.mpr (List.mem_finRange k)
  have hboth : order.Pairwise fun a b => Before first a b ∧ Before second a b := horder.ordered.and horder'.ordered
  have hbefore : Before first i j := .inl hlt
  have heither : order.Pairwise fun a b =>
      (Before first a b ∧ Before second a b) ∨ (Before first b a ∧ Before second b a) := hboth.imp Or.inl
  have hsymm : Std.Symm fun a b => (Before first a b ∧ Before second a b) ∨ (Before first b a ∧ Before second b a) :=
    ⟨fun _ _ => Or.symm⟩
  -- Both orders are the order of the same list, so they agree on these two things, one way or the other.
  rcases heither.forall (hmem i) (hmem j) hbefore.ne with ⟨_, hij⟩ | ⟨hji, _⟩
  · exact hij.not_less (Std.OrientedCmp.lt_of_gt hgt)
  · exact hji.not_less hlt

end StableSort

end RowConsole
