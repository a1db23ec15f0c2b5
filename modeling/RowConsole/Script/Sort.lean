import RowConsole.Data.RunSort
import RowConsole.Script.Value

/-!
# Sorting

Items are sorted by keys. Nulls come first, and items with equal keys keep their order. Two keys that cannot be
compared count as equal while the sort goes on, and make it fail at its end.

An integer and a double are compared as doubles, so a double can equal two integers that differ. Such keys, like keys
that cannot be compared, are not in one order: where they end up depends on what the sort asks, and it may find the
contradiction and break down.
-/

namespace RowConsole.Script

/-- The places of things in the order of the things, some of which cannot be compared. -/
def sortPlaces {n : Nat} (compare? : Fin n → Fin n → Option Ordering) : Attempt (List (Fin n)) :=
  match (RunSort.sort (List.finRange n)).record compare? false with
  | none => crash .inconsistentOrder
  | some (_, true) => failure .unsortable
  | some (order, false) => .ok order

/-- The second values in the order of the first ones. -/
def sortByKey (keyed : List (Value × Value)) : Attempt (List Value) := do
  let entries := keyed.toArray
  let order ← sortPlaces fun (i j : Fin entries.size) => entries[i].1.compare entries[j].1
  return order.map fun i => entries[i].2

theorem sortByKey_eq {keyed : List (Value × Value)} {n : Nat} (hn : n = keyed.length) :
    sortByKey keyed = do
      let order ← sortPlaces fun i j : Fin n => (keyed.get (i.cast hn)).1.compare (keyed.get (j.cast hn)).1
      return order.map fun i => (keyed.get (i.cast hn)).2 := by
  subst hn
  rfl

end RowConsole.Script
