import RowConsole.Proofs.Script.ExactIntegers
import RowConsole.Script.Access

/-!
# How Operations Break Down

Of the operators, two can break the program down: a division of the least integer by minus one, whose remainder is asked
for before its quotient is found not to fit, and a string repeated until it is longer than any memory. Everything else
that operators are applied to has a value or an error, and so has every part of a value that is read or written.

Main statements: `applyBinary_eq_crash`, and `survives_member` with its like for the parts of values.
-/

namespace RowConsole.Script

variable {α β : Type}

/-! ## Section 1: Operations That Survive -/

/-- An operation has a value or an error. -/
def Survives (r : Attempt α) : Prop :=
  ∀ c, r ≠ crash c

/-- A value is no crash. -/
@[simp] theorem survives_ok (a : α) : Survives (.ok a : Attempt α) := by
  intro c h
  cases h

/-- An error is no crash. -/
@[simp] theorem survives_failure (cause : Cause) : Survives (failure cause : Attempt α) := by
  intro c h
  cases h

/-- An error at a position is no crash. -/
@[simp] theorem survives_failureAt (cause : Cause) (p : Pos) : Survives (failureAt cause p : Attempt α) := by
  intro c h
  cases h

/-- A position that is attached to an error makes no difference. -/
theorem survives_located {r : Attempt α} (h : Survives r) (p : Pos) : Survives (r.mapError (·.located p)) := by
  intro c hc
  rcases r with (_ | _) | _
  · cases hc
  · exact h _ rfl
  · cases hc

/-- A sequence crashes in one of its parts, if at all. -/
theorem survives_bind {r : Attempt α} {next : α → Attempt β} (h : Survives r) (hnext : ∀ a, Survives (next a)) :
    Survives (r >>= next) := by
  cases r with
  | ok a => exact hnext a
  | error e =>
    intro c hc
    cases hc
    exact h c rfl

/-- What has ended without a value has ended in an error. -/
theorem Survives.eq_script {r : Attempt α} (h : Survives r) {e : Failure} (he : r = .error e) :
    ∃ e', e = .script e' := by
  cases e with
  | script e' => exact ⟨e', rfl⟩
  | crash c => exact absurd he (h c)

/-! ## Section 2: Operators -/

/-- A result that is out of range is an error. -/
private theorem survives_checked (n : Int) : Survives (checked n) := by
  unfold checked
  split <;> simp

/-- All quotients of integers fit but one, which is too large by one. -/
theorem fits_tdiv {a b : Int64} : Fits (a.toInt.tdiv b.toInt) ↔ ¬ (a = Int64.minValue ∧ b = -1) := by
  have hlow := a.le_toInt
  have hhigh := a.toInt_lt
  constructor
  · rintro hfits ⟨rfl, rfl⟩
    exact absurd hfits (by decide)
  · intro hother
    -- the quotient is no larger than the dividend, so only the upper bound is in question
    have hsize : (a.toInt.tdiv b.toInt).natAbs = a.toInt.natAbs / b.toInt.natAbs := Int.natAbs_tdiv ..
    have hle : a.toInt.natAbs / b.toInt.natAbs ≤ a.toInt.natAbs := Nat.div_le_self _ _
    refine ⟨by omega, Int.lt_iff_le_and_ne.mpr ⟨by omega, fun hlargest => hother ?_⟩⟩
    -- a quotient of that size has the least dividend, and a divisor of size one
    have hmin : a.toInt = Int64.minValue.toInt := by
      show a.toInt = -2 ^ 63
      omega
    have hone : b.toInt.natAbs = 1 := by
      by_contra hne
      have hsmaller : a.toInt.natAbs / b.toInt.natAbs < a.toInt.natAbs := by
        rcases Nat.eq_zero_or_pos b.toInt.natAbs with hzero | hpos
        · rw [hzero, Nat.div_zero]
          omega
        · exact Nat.div_lt_self (by omega) (by omega)
      omega
    refine ⟨Int64.toInt_inj.mp hmin, Int64.toInt_inj.mp ?_⟩
    show b.toInt = -1
    rcases Int.natAbs_eq b.toInt with hb | hb
    · rw [hmin, hb, hone] at hlargest
      exact absurd hlargest (by decide)
    · omega

/-- Among integers only the division of the least one by minus one crashes. -/
private theorem intArithmetic_eq_crash {op : BinaryOp} {a b : Int64} {c : Crash} :
    intArithmetic op a b = crash c ↔
      op = .div ∧ a = Int64.minValue ∧ b = -1 ∧ c = .remainderOverflow := by
  cases op with
  | div =>
    by_cases hzero : b = 0
    · subst hzero
      simp [intArithmetic, failure, crash]
    · by_cases hfits : Decimal.fits64 (a.toInt.tdiv b.toInt) = true
      · have hother := fits_tdiv.mp (fits64_iff.mp hfits)
        simp only [intArithmetic, hzero, hfits, if_false, Bool.not_true, Bool.false_eq_true, true_and]
        constructor
        · intro h
          split at h
          · cases h
          · exact absurd h (survives_checked _ c)
        · rintro ⟨ha, hb, _⟩
          exact absurd ⟨ha, hb⟩ hother
      -- the one quotient that does not fit
      · obtain ⟨rfl, rfl⟩ := not_not.mp (mt fits_tdiv.mpr (mt fits64_iff.mpr hfits))
        have hcrash : intArithmetic .div Int64.minValue (-1) = crash .remainderOverflow := rfl
        rw [hcrash]
        constructor
        · intro h
          cases h
          exact ⟨rfl, rfl, rfl, rfl⟩
        · rintro ⟨_, _, _, rfl⟩
          rfl
  | rem =>
    simp only [intArithmetic, reduceCtorEq, false_and, iff_false]
    split
    · exact survives_failure _ c
    · split
      · exact survives_checked _ c
      · exact survives_failure _ c
  | _ =>
    simp only [intArithmetic, reduceCtorEq, false_and, iff_false]
    first
      | exact survives_checked _ c
      | exact survives_failure _ c

/-- Floats never crash: they overflow to infinity. -/
private theorem survives_floatArithmetic (op : BinaryOp) (left right : Value) (x y : Float) :
    Survives (floatArithmetic op left right x y) := by
  cases op with
  | div | rem =>
    simp only [floatArithmetic]
    split <;> simp
  | _ => simp [floatArithmetic, operandFailure]

/-- Arithmetic crashes on that pair of integers only. -/
private theorem arithmetic_eq_crash {op : BinaryOp} {v w : Value} {c : Crash} :
    arithmetic op v w = crash c ↔
      op = .div ∧ v = .int Int64.minValue ∧ w = .int (-1) ∧ c = .remainderOverflow := by
  unfold arithmetic
  split
  · rw [intArithmetic_eq_crash]
    simp
  · next hother =>
    -- what is not a pair of integers is arithmetic on doubles, or none
    constructor
    · intro h
      split at h
      · exact absurd h (survives_floatArithmetic _ _ _ _ _ c)
      · exact absurd h (survives_failure _ c)
    · rintro ⟨_, rfl, rfl, _⟩
      exact absurd rfl (hother _ _ rfl)

/-- A text is repeated as long as the result fits into memory. -/
private theorem repeated_eq_crash {s : String} {n : Nat} {c : Crash} :
    repeated s n = crash c ↔ stringCapacity < s.utf8ByteSize * n ∧ c = .capacityOverflow := by
  unfold repeated
  split
  · next hempty =>
    rw [String.isEmpty_iff] at hempty
    subst hempty
    simp [crash]
  · split
    · next hlong => simp [hlong, crash, eq_comm]
    · next hfits => simp [hfits, crash]

/-- Values without an order are refused. -/
private theorem survives_ordered (holds : Ordering → Bool) (v w : Value) : Survives (ordered holds v w) := by
  unfold ordered
  split <;> simp

/-- Arithmetic other than a division has a value or an error. -/
private theorem survives_arithmetic {op : BinaryOp} (hop : op ≠ .div) (v w : Value) : Survives (arithmetic op v w) :=
  fun _ h => hop (arithmetic_eq_crash.mp h).1

/-- Texts, lists and maps are joined, and sums of numbers are checked. -/
private theorem survives_add (v w : Value) : Survives (add v w) := by
  unfold add
  split
  case h_7 => exact survives_arithmetic (by decide) _ _
  all_goals exact survives_ok _

/-- Items are removed from a list, and differences of numbers are checked. -/
private theorem survives_subtract (v w : Value) : Survives (subtract v w) := by
  unfold subtract
  split
  case h_3 => exact survives_arithmetic (by decide) _ _
  all_goals exact survives_ok _

/-- Of all products, only a text that is repeated until it is too long crashes. -/
private theorem multiply_eq_crash {v w : Value} {c : Crash} :
    multiply v w = crash c ↔
      ∃ s n, v = .str s ∧ w = .int n ∧ 0 ≤ n ∧ stringCapacity < s.utf8ByteSize * n.toInt.toNat ∧
        c = .capacityOverflow := by
  unfold multiply
  split
  · next s n =>
    by_cases hneg : n < 0
    · have hnot : ¬ 0 ≤ n := Int64.not_le.mpr hneg
      simp [hneg, hnot, failure, crash]
    · have hle : 0 ≤ n := Int64.not_lt.mp hneg
      rw [if_neg hneg]
      constructor
      · intro h
        cases hrep : repeated s n.toInt.toNat with
        | ok made =>
          rw [hrep] at h
          cases h
        | error e =>
          rw [hrep] at h
          cases h
          exact ⟨s, n, rfl, rfl, hle, repeated_eq_crash.mp hrep⟩
      · rintro ⟨_, _, hs, hn, _, hlong⟩
        cases hs
        cases hn
        rw [repeated_eq_crash.mpr hlong]
        rfl
  · next hother =>
    -- no text is repeated, and the product of numbers is checked
    refine iff_of_false (survives_arithmetic (by decide) v w c) ?_
    rintro ⟨s, n, rfl, rfl, _⟩
    exact hother s n rfl rfl

/-- An operator breaks down on two kinds of operands, and on no others. -/
theorem applyBinary_eq_crash {op : BinaryOp} {v w : Value} {c : Crash} :
    applyBinary op v w = crash c ↔
      (op = .div ∧ v = .int Int64.minValue ∧ w = .int (-1) ∧ c = .remainderOverflow) ∨
        ∃ s n, op = .mul ∧ v = .str s ∧ w = .int n ∧ 0 ≤ n ∧
          stringCapacity < s.utf8ByteSize * n.toInt.toNat ∧ c = .capacityOverflow := by
  cases op with
  | mul =>
    rw [applyBinary, multiply_eq_crash]
    simp
  | div =>
    rw [applyBinary, arithmetic_eq_crash]
    simp
  | rem => exact iff_of_false (survives_arithmetic (by decide) v w c) (by simp)
  | eq | ne => exact iff_of_false (survives_ok _ c) (by simp)
  | lt | le | gt | ge => exact iff_of_false (survives_ordered _ v w c) (by simp)
  | add => exact iff_of_false (survives_add v w c) (by simp)
  | sub => exact iff_of_false (survives_subtract v w c) (by simp)

/-! ## Section 3: Parts of Values -/

/-- The member of each item in turn, up to the first error. -/
private theorem survives_memberOfEach {name : String} {items : List Value}
    (h : ∀ item ∈ items, Survives (member name item)) :
    Survives (memberOfEach name items) := by
  induction items with
  | nil => exact survives_ok []
  | cons item rest ih =>
    obtain ⟨hitem, hrest⟩ := List.forall_mem_cons.mp h
    rw [memberOfEach]
    exact survives_bind hitem fun first => survives_bind (ih hrest) fun made => survives_ok (first :: made)

/-- On the sizes of values: the property of a list is made of those of its items. -/
theorem survives_member (name : String) (v : Value) : Survives (member name v) := by
  cases v with
  | list items =>
    rw [member]
    have hitems : ∀ item ∈ items, Survives (member name item) := by
      intro item hitem
      have := List.sizeOf_lt_of_mem hitem
      exact survives_member name item
    exact survives_bind (survives_memberOfEach hitems) fun made => survives_ok (Value.list made)
  | _ => simp [member]
termination_by sizeOf v
decreasing_by
  simp only [Value.list.sizeOf_spec]
  omega

/-- Reading at an index or under a key has a value or an error. -/
theorem survives_elementAt (container index : Value) : Survives (elementAt container index) := by
  unfold elementAt
  split
  case h_3 =>
    dsimp only
    split <;> simp
  all_goals simp

/-- Writing a member has a value or an error. -/
theorem survives_setMember (container : Value) (name : String) (v : Value) :
    Survives (setMember container name v) := by
  unfold setMember
  split <;> simp

/-- Writing at an index or under a key has a value or an error. -/
theorem survives_setElement (container index v : Value) : Survives (setElement container index v) := by
  unfold setElement
  split
  · split
    · simp
    · split <;> simp
  · simp
  · simp

end RowConsole.Script
