/-!
# Ranges of Code Points

Character properties are given as ascending lists of inclusive ranges of code points. A property table is
data; this module holds the one question that is asked of it.
-/

namespace RowConsole.Text

/-- Inclusive ranges of code points, in ascending order. -/
abbrev Ranges := List (Nat × Nat)

/-- A character belongs to the table when its code point lies in one of the ranges. -/
def Ranges.contains (table : Ranges) (c : Char) : Bool :=
  table.any fun range => range.1 ≤ c.toNat && c.toNat ≤ range.2

/-- Before a bound a table holds what those of its ranges hold that start there. -/
theorem Ranges.contains_of_filter {table front : Ranges} {n : Nat} (hfront : (table.filter fun r => r.1 < n) = front)
    {c : Char} (hc : c.toNat < n) : table.contains c = front.contains c := by
  subst hfront
  unfold Ranges.contains
  rw [List.any_filter]
  congr
  funext r
  by_cases hr : r.1 ≤ c.toNat
  · simp [show r.1 < n by omega]
  · simp [hr]

end RowConsole.Text
