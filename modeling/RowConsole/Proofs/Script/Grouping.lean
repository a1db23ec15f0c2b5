import Mathlib.Data.List.Basic
import Mathlib.Data.List.Induction
import RowConsole.Proofs.Script.Queries

/-!
# Groups

A list is grouped by what a function makes of its items. The function is called for the items one after the other, each
time on the machine that the last call has left, and it may give the same item different results. The groups take the
items apart all the same: they are named by the texts of the results, each item goes into one group, and groups and
items stay in the order in which they came.

Main statement: `callMethod_groupBy`.
-/

namespace RowConsole

/-! ## Section 1: One Item More -/

/-- The lists of a map together get what is put behind the list of one key. -/
theorem OrderedMap.perm_flatMap_insert {α : Type} (m : OrderedMap (List α)) (key : String) (a : α) :
    ((insert m key ((get? m key).getD [] ++ [a])).flatMap Prod.snd).Perm (m.flatMap Prod.snd ++ [a]) := by
  rcases written_insert m key ((get? m key).getD [] ++ [a]) with ⟨before, old, after, rfl, hnew, hmade⟩ | ⟨hnew, hmade⟩
  · have hold : get? (before ++ (key, old) :: after) key = some old := by
      have hnone : List.lookup key before = none := get?_eq_none_of_notMem hnew
      rw [get?, List.lookup_append, hnone, List.lookup_cons_self]
      rfl
    rw [hmade, hold]
    -- the item comes behind its own list, and so before the lists of later keys
    simp only [List.flatMap_append, List.flatMap_cons, Option.getD_some, List.append_assoc]
    exact ((List.perm_append_comm.append_left old).append_left _)
  · rw [hmade, get?_eq_none_of_notMem hnew, List.flatMap_append]
    exact List.Perm.refl _

namespace Script

/-- The items of some results that go into a group. -/
def groupOf (key : String) (results : List (Value × Value)) : List Value :=
  (results.filter fun r => r.2.display = key).map Prod.fst

private theorem grouped_concat (results : List (Value × Value)) (r : Value × Value) :
    grouped (results ++ [r]) = OrderedMap.insert (grouped results) r.2.display
      ((OrderedMap.get? (grouped results) r.2.display).getD [] ++ [r.1]) :=
  List.foldl_concat ..

private theorem groupOf_concat (key : String) (results : List (Value × Value)) (r : Value × Value) :
    groupOf key (results ++ [r]) = groupOf key results ++ if r.2.display = key then [r.1] else [] := by
  rw [groupOf, groupOf, List.filter_append, List.map_append]
  congr 1
  by_cases h : r.2.display = key <;> simp [h]

/-! ## Section 2: All Items -/

/-- The groups stand in the order in which their keys first occur. -/
theorem keys_grouped (results : List (Value × Value)) :
    OrderedMap.keys (grouped results) = (results.map fun r => r.2.display).eraseDups :=
  OrderedMap.keys_foldl_insert _ _ results

/-- What is found at a key are the items that go into its group. -/
theorem get?_grouped (key : String) (results : List (Value × Value)) :
    (OrderedMap.get? (grouped results) key).getD [] = groupOf key results := by
  -- on the last result: it is put behind the group of its key, and no other group changes
  induction results using List.reverseRecOn with
  | nil => rfl
  | append_singleton results r ih =>
    rw [grouped_concat, groupOf_concat, OrderedMap.get?_insert, ← ih]
    by_cases hkey : key = r.2.display
    · rw [if_pos hkey, if_pos hkey.symm, ← hkey]
      rfl
    · rw [if_neg hkey, if_neg (Ne.symm hkey), List.append_nil]

private theorem nodup_keys_grouped (results : List (Value × Value)) : (OrderedMap.keys (grouped results)).Nodup := by
  induction results using List.reverseRecOn with
  | nil => exact List.nodup_nil
  | append_singleton results r ih =>
    rw [grouped_concat]
    exact OrderedMap.nodup_keys_insert ih _ _

/-- Every group holds the items that go into it. -/
theorem eq_groupOf_of_mem {results : List (Value × Value)} {key : String} {group : List Value}
    (h : (key, group) ∈ grouped results) : group = groupOf key results := by
  rw [← get?_grouped, (OrderedMap.get?_eq_some_iff (nodup_keys_grouped results)).mpr h]
  rfl

/-- The groups together hold the items. -/
theorem perm_flatMap_grouped (results : List (Value × Value)) :
    ((grouped results).flatMap Prod.snd).Perm (results.map Prod.fst) := by
  induction results using List.reverseRecOn with
  | nil => exact .refl _
  | append_singleton results r ih =>
    rw [grouped_concat, List.map_append]
    exact (OrderedMap.perm_flatMap_insert ..).trans (ih.append_right _)

/-! ## Section 3: The Method -/

section Method

variable {γ : Type} {call : Caller γ} {f : Value} {items results : List Value} {m m' : Machine γ}

/-- A list is grouped by the results that a function has for its items, which is called once for each of them, in their
order. The keys of the groups are the texts of the results, each where it first occurs. The group of a key has the items
with this text, in the order of the list, so that all groups together have the items of the list and no others. -/
theorem callMethod_groupBy (p : Pos) (hf : f.isCallable = true) (h : KeysMade call f items m results m') :
    ∃ groups : OrderedMap (List Value),
      Answers call p f items m "groupBy" items (.ok (.map (groups.map fun (key, group) => (key, .list group)))) m' ∧
        OrderedMap.keys groups = (results.map Value.display).eraseDups ∧
        (∀ entry ∈ groups, entry.2 = ((items.zip results).filter fun r => r.2.display = entry.1).map Prod.fst) ∧
        (groups.flatMap Prod.snd).Perm items := by
  have hitems : (items.zip results).map Prod.fst = items := List.map_fst_zip (Nat.le_of_eq h.length_eq.symm)
  have hdisplays : ((items.zip results).map fun r => r.2.display) = results.map Value.display := by
    conv_rhs => rw [← List.map_snd_zip (Nat.le_of_eq h.length_eq), List.map_map]
    rfl
  have hperm := perm_flatMap_grouped (items.zip results)
  rw [hitems] at hperm
  exact ⟨grouped (items.zip results), collects_groupBy.answers p hf h, hdisplays ▸ keys_grouped _,
    fun entry hentry => eq_groupOf_of_mem hentry, hperm⟩

/-- A closure gives the item that it was called for before, and keeps the next one in a global. So it has two results
for one item, and results of different types with one text. -/
theorem callMethod_groupBy_previous :
    let p : Pos := ⟨1, 5⟩
    let call : Caller (OrderedMap Value) := callWith 10 (runBlock (exec 10 20) .null) p
    let m : Machine (OrderedMap Value) := Machine.start [("last", .str "1")] 0
    let f : Value := .function ⟨none, ["x"], [.declare "previous" (some (.var "last" p)) p,
      .assign (.var "last" p) .set (.var "x" p) p, .expr (.var "previous" p)]⟩ 0 []
    let items : List Value := [.int 0, .int 1, .int 0, .str "a"]
    let m' : Machine (OrderedMap Value) := Machine.start [("last", .str "a")] 0
    f.isCallable = true ∧ KeysMade call f items m [.str "1", .int 0, .int 1, .int 0] m' ∧
      ∃ groups : OrderedMap (List Value),
        Answers call p f items m "groupBy" items (.ok (.map (groups.map fun (key, group) => (key, .list group)))) m' ∧
          OrderedMap.keys groups = ["1", "0"] ∧ (groups.flatMap Prod.snd).Perm items := by
  intro p call m f items m'
  -- The closure answers what it was given before, so its answers depend on the machine.
  have hcall : ∀ last item, call f [item] (Machine.start [("last", last)] 0) =
      some (.ok last, Machine.start [("last", item)] 0) := fun _ _ => rfl
  have hmade : KeysMade call f items m [.str "1", .int 0, .int 1, .int 0] m' :=
    .cons (hcall _ _) (.cons (hcall _ _) (.cons (hcall _ _) (.cons (hcall _ _) (.nil _))))
  obtain ⟨groups, hanswers, hkeys, _, hperm⟩ := callMethod_groupBy p rfl hmade
  exact ⟨rfl, hmade, groups, hanswers, hkeys.trans (by decide +kernel), hperm⟩

end Method

end Script

end RowConsole
