import Mathlib.Order.Compare
import RowConsole.Script.Value

/-!
# The Order of Keys

Keys without doubles fall into kinds: integers, strings, truth values and nulls, and each other value is a kind of its
own. Keys of one kind are ordered, nulls come before everything else, and no other keys can be compared. So two keys
that cannot be compared can be put in either order without a contradiction to what can be compared.

Main statements: `orderByKind_of_compare` and `orderByKind_apart`.
-/

namespace RowConsole.Script

/-- Whether a value is a double. -/
def Value.isFloat : Value → Bool
  | .float _ => true
  | _ => false

/-! ## Section 1: Kinds of Keys -/

namespace Value

/-- The kind of a value that can be compared with others of its kind. -/
def kind? : Value → Option Nat
  | .null => some 0
  | .int _ => some 1
  | .str _ => some 2
  | .bool _ => some 3
  | _ => none

def intPart : Value → Int
  | .int n => n.toInt
  | _ => 0

def strPart : Value → String
  | .str s => s
  | _ => ""

def boolPart : Value → Bool
  | .bool b => b
  | _ => false

/-- The order of two values of one kind. -/
def compareWithin (a b : Value) : Ordering :=
  compareLex (compareOn intPart) (compareLex (compareOn strPart) (compareOn boolPart)) a b

variable {a b : Value}

/-- Values of one kind are compared by what they hold. -/
theorem compare_of_kind (hkind : a.kind? = b.kind?) (ha : a.kind? ≠ none) : a.compare b = some (compareWithin a b) := by
  cases a <;> cases b <;> first
    | contradiction
    | (simp [compare, compareWithin, compareLex, compareOn, intPart, strPart, boolPart]; done)
    | simp [kind?] at hkind

/-- There is one null only. -/
theorem eq_null (ha : a.isNull = true) : a = .null := by
  cases a <;> first | rfl | contradiction

/-- A null comes before everything else. -/
theorem compare_null_left (hb : b.isNull = false) : Value.compare .null b = some .lt := by
  cases b <;> first | rfl | contradiction

/-- Everything else comes behind a null. -/
theorem compare_null_right (ha : a.isNull = false) : a.compare .null = some .gt := by
  cases a <;> first | rfl | contradiction

/-- Values that are neither null nor doubles can be compared with values of their kind only. -/
theorem compare_eq_none (ha : a.isNull = false) (hb : b.isNull = false) (hfa : a.isFloat = false)
    (hfb : b.isFloat = false) (hkind : a.kind? = none ∨ a.kind? ≠ b.kind?) : a.compare b = none := by
  cases a <;> cases b <;> simp_all [kind?, compare, isNull, isFloat, asFloat?]

/-- Nulls are of a kind of their own. -/
theorem isNull_eq_of_kind (hkind : a.kind? = b.kind?) : a.isNull = b.isNull := by
  cases a <;> cases b <;> first
    | rfl
    | simp [kind?] at hkind

/-- There are four kinds. -/
private theorem kind?_lt {k : Nat} (h : a.kind? = some k) : k < 4 := by
  cases a <;> simp [kind?] at h <;> omega

end Value

/-! ## Section 2: Orders of Kinds -/

section Orders

variable {n : Nat} {keys : Fin n → Value} {i j : Fin n}

/-- The kinds of some keys by number. A key that cannot be compared with others gets a number of its own. -/
def kindAt (keys : Fin n → Value) (i : Fin n) : Int :=
  match (keys i).kind? with
  | some k => k
  | none => 4 + i

/-- Keys of one kind have the same number. -/
private theorem kindAt_eq (hkind : (keys i).kind? = (keys j).kind?) (hi : (keys i).kind? ≠ none) :
    kindAt keys i = kindAt keys j := by
  obtain ⟨k, hk⟩ := Option.ne_none_iff_exists'.mp hi
  simp only [kindAt, ← hkind, hk]

/-- Keys of different kinds, and different keys that are of none, have different numbers. -/
private theorem kindAt_ne (hij : i ≠ j) (hkind : (keys i).kind? = none ∨ (keys i).kind? ≠ (keys j).kind?) :
    kindAt keys i ≠ kindAt keys j := by
  have hval : (i : Nat) ≠ j := fun h => hij (Fin.ext h)
  unfold kindAt
  -- the numbers of kinds are below those that keys have of their own
  cases hi : (keys i).kind? with
  | none =>
    cases hj : (keys j).kind? with
    | none =>
      dsimp only
      omega
    | some l =>
      have := Value.kind?_lt hj
      dsimp only
      omega
  | some k =>
    have := Value.kind?_lt hi
    cases hj : (keys j).kind? with
    | none =>
      dsimp only
      omega
    | some l =>
      rw [hi, hj] at hkind
      have hkl : k ≠ l := by simpa using hkind
      dsimp only
      omega

/-- Nulls first, then the other keys by their kinds, upwards or downwards, and those of one kind in their order. -/
def orderByKind (sign : Int) (keys : Fin n → Value) : Fin n → Fin n → Ordering :=
  compareLex (compareOn fun i => !(keys i).isNull)
    (compareLex (compareOn fun i => sign * kindAt keys i)
      (compareLex (compareOn fun i => (keys i).intPart)
        (compareLex (compareOn fun i => (keys i).strPart) (compareOn fun i => (keys i).boolPart))))

instance (sign : Int) (keys : Fin n → Value) : Std.TransCmp (orderByKind sign keys) := by
  unfold orderByKind
  infer_instance

/-- Nulls are told apart first, then kinds, then what values of a kind hold. -/
private theorem orderByKind_apply (sign : Int) :
    orderByKind sign keys i j =
      (compare (!(keys i).isNull) (!(keys j).isNull)).then
        ((compare (sign * kindAt keys i) (sign * kindAt keys j)).then ((keys i).compareWithin (keys j))) :=
  rfl

variable (hfloat : ∀ i, (keys i).isFloat = false)

include hfloat

/-- Keys that cannot be compared differ in their kinds, and are not null. -/
theorem incomparable_iff (hij : i ≠ j) :
    (keys i).compare (keys j) = none ↔
      (keys i).isNull = false ∧ (keys j).isNull = false ∧ kindAt keys i ≠ kindAt keys j := by
  cases hi : (keys i).isNull with
  | true =>
    cases hj : (keys j).isNull with
    -- Two nulls are equal, and one null is less than any other key.
    | true => simp [Value.eq_null hi, Value.eq_null hj, Value.compare]
    | false => simp [Value.eq_null hi, Value.compare_null_left hj]
  | false =>
    cases hj : (keys j).isNull with
    | true => simp [Value.eq_null hj, Value.compare_null_right hi]
    | false =>
      by_cases hkind : (keys i).kind? = none ∨ (keys i).kind? ≠ (keys j).kind?
      · simp [Value.compare_eq_none hi hj (hfloat i) (hfloat j) hkind, kindAt_ne hij hkind]
      · obtain ⟨hsome, hsame⟩ := not_or.mp hkind
        rw [not_not] at hsame
        simp [Value.compare_of_kind hsame hsome, kindAt_eq hsame hsome]

/-- Keys that can be compared are in the order of their comparison. -/
theorem orderByKind_of_compare (sign : Int) {o : Ordering} (h : (keys i).compare (keys j) = some o) :
    orderByKind sign keys i j = o := by
  rw [orderByKind_apply]
  by_cases hkind : (keys i).kind? = none ∨ (keys i).kind? ≠ (keys j).kind?
  · -- of two keys of different kinds, exactly one is null
    cases hi : (keys i).isNull with
    | true =>
      cases hj : (keys j).isNull with
      | true => simp [Value.eq_null hi, Value.eq_null hj, Value.kind?] at hkind
      | false =>
        rw [Value.eq_null hi, Value.compare_null_left hj] at h
        cases h
        rfl
    | false =>
      cases hj : (keys j).isNull with
      | true =>
        rw [Value.eq_null hj, Value.compare_null_right hi] at h
        cases h
        rfl
      | false =>
        rw [Value.compare_eq_none hi hj (hfloat i) (hfloat j) hkind] at h
        contradiction
  · obtain ⟨hsome, hsame⟩ := not_or.mp hkind
    rw [not_not] at hsame
    rw [Value.compare_of_kind hsame hsome] at h
    -- Of one kind, nothing but what the keys hold tells them apart.
    cases h
    rw [Value.isNull_eq_of_kind hsame, kindAt_eq hsame hsome, Std.ReflOrd.compare_self, Std.ReflOrd.compare_self]
    rfl

/-- Keys that cannot be compared are put in one order by one direction and in the other order by the other direction. -/
theorem orderByKind_apart (hij : i ≠ j) (h : (keys i).compare (keys j) = none) :
    ∃ sign, orderByKind sign keys i j = .lt ∧ orderByKind (-sign) keys i j = .gt := by
  obtain ⟨hi, hj, hkind⟩ := (incomparable_iff hfloat hij).mp h
  have happly : ∀ sign, orderByKind sign keys i j =
      (compare (sign * kindAt keys i) (sign * kindAt keys j)).then ((keys i).compareWithin (keys j)) := by
    intro sign
    rw [orderByKind_apply, hi, hj]
    rfl
  -- the direction is the one in which the kind of the first key comes first
  rcases Int.lt_or_gt_of_ne hkind with hlt | hgt
  · refine ⟨1, ?_, ?_⟩
    · rw [happly, Int.compare_eq_lt.mpr (by omega)]
      rfl
    · rw [happly, Int.compare_eq_gt.mpr (by omega)]
      rfl
  · refine ⟨-1, ?_, ?_⟩
    · rw [happly, Int.compare_eq_lt.mpr (by omega)]
      rfl
    · rw [happly, Int.compare_eq_gt.mpr (by omega)]
      rfl

end Orders

end RowConsole.Script
