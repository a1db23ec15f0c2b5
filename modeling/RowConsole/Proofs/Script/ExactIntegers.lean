import Mathlib.Algebra.Ring.Int.Defs
import RowConsole.Proofs.Script.Judgement

/-!
# Exact Integers

Integers have 64 bits, and arithmetic on them is that of all integers: an operation gives the exact result where 64 bits
can hold it, and fails everywhere else. A division gives the exact quotient where there is one. The sum of a list is
made from the left, one item after the other, so it fails at the first sum on its way that does not fit, whatever the
items behind it would make of it.

Main statement: `eval_integers`.
-/

namespace RowConsole.Script

/-! ## Section 1: Results in Range -/

/-- Whether 64 bits with sign can hold an integer. -/
def Fits (n : Int) : Prop :=
  -2 ^ 63 ≤ n ∧ n < 2 ^ 63

instance (n : Int) : Decidable (Fits n) :=
  inferInstanceAs (Decidable (_ ∧ _))

/-- Every integer of the language fits. -/
private theorem fits_toInt (a : Int64) : Fits a.toInt :=
  ⟨a.le_toInt, a.toInt_lt⟩

/-- The bounds of 64 bits are those of the type. -/
theorem fits64_iff {n : Int} : Decimal.fits64 n = true ↔ Fits n := by
  have hmin : Int64.minValue.toInt = -2 ^ 63 := rfl
  have hmax : Int64.maxValue.toInt = 2 ^ 63 - 1 := rfl
  simp only [Decimal.fits64, Bool.and_eq_true, decide_eq_true_eq, Fits]
  omega

/-- The failure of arithmetic at a position. -/
def Overflows (p : Pos) (r : Attempt Value) : Prop :=
  ∃ e, r = .error (.script e) ∧ e.kind.name = "ArithmeticError" ∧ e.message = "Integer overflow" ∧ e.pos = some p

/-- A result at a position is exact: it is the integer that it should be, or a failure if 64 bits cannot hold that. -/
structure Exact (p : Pos) (n : Int) (r : Attempt Value) : Prop where
  value : Fits n → ∃ k : Int64, k.toInt = n ∧ r = .ok (.int k)
  overflow : ¬ Fits n → Overflows p r

/-- An integer that fits is passed on. -/
private theorem checked_of_fits {n : Int} (h : Fits n) : checked n = .ok (.int (Int64.ofInt n)) := by
  unfold checked
  rw [Decimal.toInt64?, if_pos (fits64_iff.mpr h)]

/-- An integer that does not fit is an overflow. -/
private theorem checked_of_not_fits {n : Int} (h : ¬ Fits n) : checked n = failure .overflow := by
  unfold checked
  rw [Decimal.toInt64?, if_neg (mt fits64_iff.mp h)]

/-- An integer that fits is the same one in 64 bits. -/
theorem toInt_ofInt_of_fits {n : Int} (h : Fits n) : (Int64.ofInt n).toInt = n :=
  Int64.toInt_ofInt_of_le h.1 h.2

/-- An overflow is reported as such, at the position of the operation. -/
private theorem overflows_failure (p : Pos) : Overflows p ((failure .overflow).mapError (·.located p)) :=
  ⟨_, rfl, rfl, rfl, rfl⟩

/-- What is checked is exact where it is reported at a position. -/
theorem exact_checked (p : Pos) (n : Int) : Exact p n ((checked n).mapError (·.located p)) where
  value h := ⟨Int64.ofInt n, toInt_ofInt_of_fits h, by rw [checked_of_fits h]; rfl⟩
  overflow h := by
    rw [checked_of_not_fits h]
    exact overflows_failure p

/-- The quotient of two integers of which the second one divides the first one: only the largest quotient does not fit,
and there is one way to get it. -/
theorem fits_quotient {a b : Int64} {q : Int} (hzero : b ≠ 0) (hoverflow : ¬ (a = Int64.minValue ∧ b = -1))
    (hq : a.toInt = b.toInt * q) : Fits q := by
  have hb : b.toInt ≠ 0 := fun h => hzero (Int64.toInt_inj.mp h)
  -- The quotient is not larger than the dividend in size.
  have hsize : q.natAbs ≤ a.toInt.natAbs := by
    rw [hq, Int.natAbs_mul]
    exact Nat.le_mul_of_pos_left _ (Int.natAbs_pos.mpr hb)
  have hlow := a.le_toInt
  have hhigh := a.toInt_lt
  refine ⟨by omega, Int.lt_iff_le_and_ne.mpr ⟨by omega, fun hlargest => hoverflow ?_⟩⟩
  -- the quotient is no larger than the dividend, so this is the size of the dividend, and the divisor has size one
  rw [hlargest] at hq
  have hmin : a.toInt = Int64.minValue.toInt := by
    show a.toInt = -2 ^ 63
    omega
  have hminus : b.toInt = (-1 : Int64).toInt := by
    show b.toInt = -1
    omega
  exact ⟨Int64.toInt_inj.mp hmin, Int64.toInt_inj.mp hminus⟩

/-- A division without a rest gives the quotient itself. -/
private theorem intArithmetic_div {a b : Int64} (hzero : b ≠ 0) (hoverflow : ¬ (a = Int64.minValue ∧ b = -1))
    (hdivides : b.toInt ∣ a.toInt) :
    ∃ k : Int64, a.toInt = b.toInt * k.toInt ∧ intArithmetic .div a b = .ok (.int k) := by
  obtain ⟨q, hq⟩ := hdivides
  have hb : b.toInt ≠ 0 := fun h => hzero (Int64.toInt_inj.mp h)
  have hfits := fits_quotient hzero hoverflow hq
  have hquotient : a.toInt.tdiv b.toInt = q := by rw [hq, Int.mul_tdiv_cancel_left _ hb]
  have hrest : a.toInt.tmod b.toInt = 0 := by rw [hq, Int.mul_tmod_right]
  refine ⟨Int64.ofInt q, by rw [toInt_ofInt_of_fits hfits, hq], ?_⟩
  simp only [intArithmetic, hzero, hrest, hquotient, fits64_iff.mpr hfits, Bool.not_true, Bool.false_eq_true, if_false,
    ne_eq, not_true_eq_false, checked_of_fits hfits]

/-! ## Section 2: Sums of Lists -/

/-- The exact sum of integers. -/
def total (items : List Int64) : Int :=
  (items.map Int64.toInt).sum

/-- All sums on the way through a list fit, from a given one on. -/
def FitsAlong (start : Int) (items : List Int64) : Prop :=
  ∀ front, front <+: items → Fits (start + total front)

/-- All sums from some start on fit just if those do that begin one item later. -/
private theorem fitsAlong_cons {start : Int} {a : Int64} {items : List Int64} (hstart : Fits start) :
    FitsAlong start (a :: items) ↔ FitsAlong (start + a.toInt) items := by
  have hcons : ∀ front, start + total (a :: front) = start + a.toInt + total front := by
    intro front
    simp only [total, List.map_cons, List.sum_cons]
    omega
  constructor
  · intro h front hfront
    rw [← hcons]
    exact h _ ((List.prefix_cons_inj a).mpr hfront)
  · intro h front hfront
    rcases List.prefix_cons_iff.mp hfront with rfl | ⟨rest, rfl, hrest⟩
    · simpa [total] using hstart
    · rw [hcons]
      exact h rest hrest

/-- A sum goes on from what has been summed so far; it is exact if it fits all along, and otherwise it fails. -/
theorem foldlM_add (start : Int64) (items : List Int64) :
    (FitsAlong start.toInt items → ∃ k : Int64, k.toInt = start.toInt + total items ∧
      (items.map Value.int).foldlM add (.int start) = .ok (.int k)) ∧
      (¬ FitsAlong start.toInt items → (items.map Value.int).foldlM add (.int start) = failure .overflow) := by
  -- On the items, for every start: the sum of the first item and the start is where the rest of them begins.
  induction items generalizing start with
  | nil =>
    have hnil : FitsAlong start.toInt [] := by
      intro front hfront
      rw [List.prefix_nil.mp hfront]
      simpa [total] using fits_toInt start
    exact ⟨fun _ => ⟨start, by simp [total], rfl⟩, fun h => absurd hnil h⟩
  | cons a items ih =>
    have hadd : add (.int start) (.int a) = checked (start.toInt + a.toInt) := rfl
    rw [fitsAlong_cons (fits_toInt start), List.map_cons, List.foldlM_cons, hadd]
    by_cases hfits : Fits (start.toInt + a.toInt)
    · have hnext := ih (Int64.ofInt (start.toInt + a.toInt))
      rw [toInt_ofInt_of_fits hfits] at hnext
      have htotal : start.toInt + total (a :: items) = start.toInt + a.toInt + total items := by
        simp only [total, List.map_cons, List.sum_cons]
        omega
      rw [checked_of_fits hfits, htotal]
      exact hnext
    · -- the sum so far does not fit, and the items behind it are not looked at
      have hnot : ¬ FitsAlong (start.toInt + a.toInt) items := by
        intro h
        have hhead := h [] (List.nil_prefix)
        exact hfits (by simpa [total] using hhead)
      refine ⟨fun h => absurd h hnot, fun _ => ?_⟩
      rw [checked_of_not_fits hfits]
      rfl

/-- From zero on, these are the sums of the first items. -/
private theorem fitsAlong_zero {items : List Int64} :
    FitsAlong 0 items ↔ ∀ front, front <+: items → Fits (total front) := by
  simp only [FitsAlong, Int.zero_add]

/-- The sum of a list is exact, or one of the sums on its way does not fit. -/
theorem sumItems_cases (items : List Int64) :
    (FitsAlong 0 items ∧ ∃ k : Int64, k.toInt = total items ∧ sumItems (items.map .int) = .ok (.int k)) ∨
      (¬ FitsAlong 0 items ∧ sumItems (items.map .int) = failure .overflow) := by
  obtain ⟨hfits, hfails⟩ := foldlM_add 0 items
  have hzero : (0 : Int64).toInt = 0 := rfl
  rw [hzero, Int.zero_add] at hfits
  by_cases h : FitsAlong 0 items
  · exact .inl ⟨h, hfits h⟩
  · exact .inr ⟨h, hfails h⟩

/-! ## Section 3: Expressions -/

variable {γ : Type} [Globals γ] {limit fuel : Nat} {m m₁ m₂ : Machine γ} {left right : Expr}

/-- The operators that are exact on all integers, with the operations that they stand for. -/
def exactOperators : List (BinaryOp × (Int → Int → Int)) :=
  [(.add, (· + ·)), (.sub, (· - ·)), (.mul, (· * ·))]

/-- Arithmetic on integers never wraps. Sums, differences, products, negatives and sizes are exact where they fit and
fail otherwise. A division is exact where the divisor divides the dividend. The sum of a list is exact just if all sums
of its first items fit, and fails otherwise. -/
theorem eval_integers {a b : Int64} (hleft : eval limit fuel left m = some (.ok (.int a), m₁))
    (hright : eval limit fuel right m₁ = some (.ok (.int b), m₂)) (p : Pos) :
    (∀ op exact, (op, exact) ∈ exactOperators →
      ∃ r, eval limit (fuel + 1) (.binary op left right p) m = some (r, m₂) ∧ Exact p (exact a.toInt b.toInt) r) ∧
      (∃ r, eval limit (fuel + 1) (.unary .neg left p) m = some (r, m₁) ∧ Exact p (-a.toInt) r) ∧
      (∃ r, eval limit (fuel + 1) (.method left "abs" [] p) m = some (r, m₁) ∧ Exact p a.toInt.natAbs r) ∧
      (b ≠ 0 → ¬ (a = Int64.minValue ∧ b = -1) → b.toInt ∣ a.toInt →
        ∃ k : Int64, eval limit (fuel + 1) (.binary .div left right p) m = some (.ok (.int k), m₂) ∧
          a.toInt = b.toInt * k.toInt) ∧
      ∀ list items m', eval limit fuel list m = some (.ok (.list (items.map .int)), m') →
        ∃ r, eval limit (fuel + 1) (.method list "sum" [] p) m = some (r, m') ∧
          ((∃ k : Int64, k.toInt = total items ∧ r = .ok (.int k)) ↔ ∀ front, front <+: items → Fits (total front)) ∧
          ((¬ ∀ front, front <+: items → Fits (total front)) → Overflows p r) := by
  refine ⟨fun op exact hmem => ?_, ⟨_, eval_unary hleft .neg p, exact_checked p _⟩,
    ⟨_, eval_method hleft (by simp) (fun _ => rfl) p, exact_checked p _⟩, ?_, ?_⟩
  · -- sums, differences and products are all checked in the same way
    refine ⟨_, eval_binary hleft hright op p, ?_⟩
    simp only [exactOperators, List.mem_cons, Prod.mk.injEq, List.not_mem_nil, or_false] at hmem
    rcases hmem with ⟨rfl, rfl⟩ | ⟨rfl, rfl⟩ | ⟨rfl, rfl⟩ <;> exact exact_checked p _
  · -- divisions without a rest
    intro hzero hoverflow hdivides
    obtain ⟨k, hk, hdiv⟩ := intArithmetic_div hzero hoverflow hdivides
    refine ⟨k, ?_, hk⟩
    rw [eval_binary hleft hright .div p]
    show some ((intArithmetic .div a b).mapError _, m₂) = _
    rw [hdiv]
    rfl
  · -- sums of lists
    intro list items m' hlist
    refine ⟨_, eval_method hlist (by simp) (fun _ => rfl) p, ?_⟩
    rw [← fitsAlong_zero]
    rcases sumItems_cases items with ⟨hfits, k, hk, hsum⟩ | ⟨hfits, hsum⟩
    · rw [hsum]
      exact ⟨⟨fun _ => hfits, fun _ => ⟨k, hk, rfl⟩⟩, fun h => absurd hfits h⟩
    · rw [hsum]
      exact ⟨⟨fun ⟨_, _, hk⟩ => (nomatch hk), fun h => absurd h hfits⟩, fun _ => overflows_failure p⟩

/-- The least integer has no negative and no size, and twice its negative does not fit either, while half of it does.
The sum of a list fails at its first two items, although all items together make a number that fits. -/
theorem eval_integers_least :
    let p : Pos := ⟨1, 5⟩
    let a : Int64 := Int64.minValue
    let items : List Int64 := [Int64.minValue, -1, 1, Int64.maxValue]
    let m : Machine (OrderedMap Value) :=
      Machine.start [("a", .int a), ("b", .int (-2)), ("items", .list (items.map .int))] 0
    let run : Expr → Option (Attempt Value × Machine (OrderedMap Value)) := fun e => eval 10 2 e m
    eval 10 1 (.var "a" p) m = some (.ok (.int a), m) ∧ eval 10 1 (.var "b" p) m = some (.ok (.int (-2)), m) ∧
      eval 10 1 (.var "items" p) m = some (.ok (.list (items.map .int)), m) ∧ total items = -1 ∧
      (∃ r, run (.binary .mul (.var "a" p) (.var "b" p) p) = some (r, m) ∧ Overflows p r) ∧
      (∃ k : Int64, run (.binary .sub (.var "a" p) (.var "b" p) p) = some (.ok (.int k), m) ∧ k.toInt = -2 ^ 63 + 2) ∧
      (∃ r, run (.unary .neg (.var "a" p) p) = some (r, m) ∧ Overflows p r) ∧
      (∃ r, run (.method (.var "a" p) "abs" [] p) = some (r, m) ∧ Overflows p r) ∧
      (∃ k : Int64, run (.binary .div (.var "a" p) (.var "b" p) p) = some (.ok (.int k), m) ∧ a.toInt = -2 * k.toInt) ∧
      ∃ r, run (.method (.var "items" p) "sum" [] p) = some (r, m) ∧ Overflows p r := by
  intro p a items m run
  have ha : eval 10 1 (.var "a" p) m = some (.ok (.int a), m) := rfl
  have hb : eval 10 1 (.var "b" p) m = some (.ok (.int (-2)), m) := rfl
  have hitems : eval 10 1 (.var "items" p) m = some (.ok (.list (items.map .int)), m) := rfl
  -- The least integer has no negative, and twice it is out of range; half of it is not.
  obtain ⟨hexact, ⟨r, hneg, hnegative⟩, ⟨r', habs, hsize⟩, hdiv, hsum⟩ := eval_integers ha hb p
  obtain ⟨r₁, hmul, hproduct⟩ := hexact .mul (· * ·) (by simp [exactOperators])
  obtain ⟨r₂, hsub, hdifference⟩ := hexact .sub (· - ·) (by simp [exactOperators])
  obtain ⟨k, hk, rfl⟩ := hdifference.value (by decide)
  obtain ⟨r₃, hrun, _, hoverflow⟩ := hsum _ items m hitems
  refine ⟨ha, hb, hitems, by decide, ⟨_, hmul, hproduct.overflow (by decide)⟩, ⟨k, hsub, hk⟩,
    ⟨_, hneg, hnegative.overflow (by decide)⟩, ⟨_, habs, hsize.overflow (by decide)⟩,
    hdiv (by decide) (by decide) ⟨2 ^ 62, by decide⟩, _, hrun, hoverflow fun h => ?_⟩
  exact absurd (h [Int64.minValue, -1] ⟨[1, Int64.maxValue], rfl⟩) (by decide)

end RowConsole.Script
