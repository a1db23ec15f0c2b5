import Mathlib.Data.List.Forall2
import Mathlib.Data.List.Perm.Subperm
import Mathlib.Data.List.Nodup
import RowConsole.Script.Value

/-!
# Equality

Two lists are equal if their items are, place by place, and two maps are equal if they have equal values at the same
keys, wherever these stand. On values that hold neither doubles nor functions this is an equivalence. What it leaves
open is the order of the entries of maps, at any depth, and nothing else.

Main statements: `Value.Exact.equals_refl`, `Value.Exact.equals_symm`, `Value.Exact.equals_trans` and
`Value.Exact.equals_iff_reordered`.
-/

namespace RowConsole.Script

namespace Value

/-! ## Section 1: Exact Values -/

/-- A value that holds no other values and is equal to itself only. -/
def isLeaf : Value → Bool
  | .null | .bool _ | .int _ | .str _ | .builtin _ | .handle _ => true
  | _ => false

/-- A value with no doubles and no functions of a script in it, at any depth. The keys of its maps are distinct, as they
are in all values that scripts can get. -/
inductive Exact : Value → Prop where
  | leaf {v : Value} : v.isLeaf = true → Exact v
  | list {items : List Value} : (∀ v ∈ items, Exact v) → Exact (.list items)
  | map {entries : List (String × Value)} : (OrderedMap.keys entries).Nodup → (∀ entry ∈ entries, Exact entry.2) →
      Exact (.map entries)

theorem Exact.of_list {items : List Value} (h : (Value.list items).Exact) : ∀ v ∈ items, v.Exact := by
  cases h with
  | leaf h => contradiction
  | list h => exact h

theorem Exact.of_map {entries : List (String × Value)} (h : (Value.map entries).Exact) :
    (OrderedMap.keys entries).Nodup ∧ ∀ entry ∈ entries, entry.2.Exact := by
  cases h with
  | leaf h => contradiction
  | map hkeys h => exact ⟨hkeys, h⟩

/-! ## Section 2: Parts of Equal Values -/

variable {a b c : Value} {xs ys : List Value} {m n : List (String × Value)}

private theorem equals_self_of_isLeaf (h : a.isLeaf = true) : a.equals a = true := by
  cases a <;> first
    | contradiction
    | simp [equals]

/-- Only a leaf itself is equal to it. -/
theorem eq_of_equals_leaf (ha : a.isLeaf = true) (hb : b.Exact) (h : a.equals b = true) : a = b := by
  cases hb with
  | leaf hb => cases a <;> cases b <;> simp_all [equals, isLeaf]
  | list hb => cases a <;> simp_all [equals, isLeaf]
  | map hkeys hb => cases a <;> simp_all [equals, isLeaf]

private theorem exists_of_equals_list (h : (Value.list xs).equals b = true) : ∃ ys, b = .list ys := by
  cases b <;> first
    | exact ⟨_, rfl⟩
    | simp [equals] at h

private theorem exists_of_equals_map (h : (Value.map m).equals b = true) : ∃ n, b = .map n := by
  cases b <;> first
    | exact ⟨_, rfl⟩
    | simp [equals] at h

/-- Lists are equal place by place. -/
theorem equals_list_iff :
    (Value.list xs).equals (.list ys) = true ↔ List.Forall₂ (fun x y => x.equals y = true) xs ys := by
  rw [equals]
  induction xs generalizing ys with
  | nil => cases ys <;> simp [itemsEqual]
  | cons x xs ih =>
    cases ys with
    | nil => simp [itemsEqual]
    | cons y ys => rw [itemsEqual, Bool.and_eq_true, ih, List.forall₂_cons]

/-- Every entry of a map is found in another one with an equal value. -/
theorem entriesFound_iff :
    entriesFound m n = true ↔ ∀ entry ∈ m, ∃ y, OrderedMap.get? n entry.1 = some y ∧ entry.2.equals y = true := by
  induction m with
  | nil => simp [entriesFound]
  | cons entry m ih =>
    rw [entriesFound, Bool.and_eq_true, ih, List.forall_mem_cons]
    apply and_congr_left
    intro _
    cases hfound : n.lookup entry.1 with
    | none => simp [OrderedMap.get?, hfound]
    | some y => simp [OrderedMap.get?, hfound]

/-- Maps are equal if they have the same keys and equal values at them. -/
theorem equals_map_iff (hm : (OrderedMap.keys m).Nodup) :
    (Value.map m).equals (.map n) = true ↔ (OrderedMap.keys m).Perm (OrderedMap.keys n) ∧
      ∀ key x y, OrderedMap.get? m key = some x → OrderedMap.get? n key = some y → x.equals y = true := by
  have hlength : ∀ m : OrderedMap Value, m.length = (OrderedMap.keys m).length := fun m => (List.length_map _).symm
  rw [equals, Bool.and_eq_true, beq_iff_eq, entriesFound_iff, hlength m, hlength n]
  constructor
  · rintro ⟨hsize, hfound⟩
    have hsub : OrderedMap.keys m ⊆ OrderedMap.keys n := by
      intro key hkey
      obtain ⟨entry, hentry, rfl⟩ := List.mem_map.mp hkey
      obtain ⟨y, hy, _⟩ := hfound entry hentry
      exact OrderedMap.mem_keys_iff.mpr ⟨y, hy⟩
    -- there is no room for more keys in the second map
    refine ⟨(hm.subperm hsub).perm_of_length_le (Nat.le_of_eq hsize.symm), fun key x y hx hy => ?_⟩
    obtain ⟨y', hy', hequals⟩ := hfound _ (OrderedMap.mem_of_get? hx)
    cases hy.symm.trans hy'
    exact hequals
  · rintro ⟨hperm, hequals⟩
    refine ⟨hperm.length_eq, fun entry hentry => ?_⟩
    obtain ⟨y, hy⟩ := OrderedMap.mem_keys_iff.mp (hperm.mem_iff.mp (List.mem_map_of_mem hentry))
    exact ⟨y, hy, hequals _ _ _ ((OrderedMap.get?_eq_some_iff hm).mpr hentry) hy⟩

/-- What is found at a key of an exact map is exact. -/
theorem Exact.of_get? (h : (Value.map m).Exact) {key : String} (hx : OrderedMap.get? m key = some a) : a.Exact :=
  h.of_map.2 _ (OrderedMap.mem_of_get? hx)

/-! ## Section 3: An Equivalence -/

theorem Exact.equals_refl (ha : a.Exact) : a.equals a = true := by
  induction ha with
  | leaf h => exact equals_self_of_isLeaf h
  | list _ ih =>
    rw [equals_list_iff]
    exact List.forall₂_same.mpr ih
  | map hkeys _ ih =>
    rw [equals_map_iff hkeys]
    refine ⟨.refl _, fun key x y hx hy => ?_⟩
    cases hx.symm.trans hy
    exact ih _ (OrderedMap.mem_of_get? hx)

theorem Exact.equals_symm (ha : a.Exact) (hb : b.Exact) (h : a.equals b = true) : b.equals a = true := by
  induction ha generalizing b with
  | leaf ha =>
    obtain rfl := eq_of_equals_leaf ha hb h
    exact h
  | @list xs _ ih =>
    obtain ⟨ys, rfl⟩ := exists_of_equals_list h
    rw [equals_list_iff, List.forall₂_iff_get] at h ⊢
    obtain ⟨hlength, h⟩ := h
    refine ⟨hlength.symm, fun i hy hx => ?_⟩
    exact ih _ (List.get_mem xs ⟨i, hx⟩) (hb.of_list _ (List.get_mem ys ⟨i, hy⟩)) (h i hx hy)
  | map hm _ ih =>
    obtain ⟨n, rfl⟩ := exists_of_equals_map h
    rw [equals_map_iff hm] at h
    obtain ⟨hperm, hvalues⟩ := h
    -- what equality asks of two maps does not depend on which of them is looked through
    rw [equals_map_iff hb.of_map.1]
    refine ⟨hperm.symm, fun key y x hy hx => ?_⟩
    exact ih _ (OrderedMap.mem_of_get? hx) (hb.of_get? hy) (hvalues key x y hx hy)

theorem Exact.equals_trans (ha : a.Exact) (hb : b.Exact) (hc : c.Exact) (h : a.equals b = true)
    (h' : b.equals c = true) : a.equals c = true := by
  induction ha generalizing b c with
  | leaf ha =>
    obtain rfl := eq_of_equals_leaf ha hb h
    exact h'
  | @list xs _ ih =>
    obtain ⟨ys, rfl⟩ := exists_of_equals_list h
    obtain ⟨zs, rfl⟩ := exists_of_equals_list h'
    rw [equals_list_iff, List.forall₂_iff_get] at h h' ⊢
    obtain ⟨hlength, h⟩ := h
    obtain ⟨hlength', h'⟩ := h'
    refine ⟨hlength.trans hlength', fun i hx hz => ?_⟩
    have hy : i < ys.length := hlength ▸ hx
    exact ih _ (List.get_mem xs ⟨i, hx⟩) (hb.of_list _ (List.get_mem ys ⟨i, hy⟩))
      (hc.of_list _ (List.get_mem zs ⟨i, hz⟩)) (h i hx hy) (h' i hy hz)
  | map hm _ ih =>
    obtain ⟨n, rfl⟩ := exists_of_equals_map h
    obtain ⟨o, rfl⟩ := exists_of_equals_map h'
    rw [equals_map_iff hm] at h ⊢
    rw [equals_map_iff hb.of_map.1] at h'
    refine ⟨h.1.trans h'.1, fun key x z hx hz => ?_⟩
    -- the map between the two has a value at the key as well
    obtain ⟨y, hy⟩ := OrderedMap.mem_keys_iff.mp (h.1.mem_iff.mp (OrderedMap.mem_keys_iff.mpr ⟨x, hx⟩))
    exact ih _ (OrderedMap.mem_of_get? hx) (hb.of_get? hy) (hc.of_get? hz) (h.2 key x y hx hy) (h'.2 key y z hy hz)

/-! ## Section 4: The Order of Entries -/

/-- A value becomes another one if entries of maps change their places, at any depth. -/
inductive Reordered : Value → Value → Prop where
  | refl (v : Value) : Reordered v v
  | trans {u v w : Value} : Reordered u v → Reordered v w → Reordered u w
  | entries {m n : List (String × Value)} : m.Perm n → Reordered (.map m) (.map n)
  | item {before after : List Value} {v w : Value} : Reordered v w →
      Reordered (.list (before ++ v :: after)) (.list (before ++ w :: after))
  | entry {before after : List (String × Value)} {key : String} {v w : Value} : Reordered v w →
      Reordered (.map (before ++ (key, v) :: after)) (.map (before ++ (key, w) :: after))

/-- The items of a list may be reordered one by one. -/
theorem Reordered.list (h : List.Forall₂ Reordered xs ys) : Reordered (.list xs) (.list ys) := by
  -- on what is left of the lists, behind the items that are done
  have happend : ∀ before, Reordered (.list (before ++ xs)) (.list (before ++ ys)) := by
    induction h with
    | nil => exact fun before => .refl _
    | @cons x y xs ys hxy _ ih =>
      intro before
      have hrest := ih (before ++ [y])
      rw [List.append_assoc, List.append_assoc] at hrest
      exact .trans (.item hxy) hrest
  exact happend []

/-- The values of a map may be reordered one by one. -/
theorem Reordered.values (h : List.Forall₂ (fun e e' : String × Value => e.1 = e'.1 ∧ Reordered e.2 e'.2) m n) :
    Reordered (.map m) (.map n) := by
  have happend : ∀ before, Reordered (.map (before ++ m)) (.map (before ++ n)) := by
    induction h with
    | nil => exact fun before => .refl _
    | @cons e e' m n he _ ih =>
      intro before
      obtain ⟨key, v⟩ := e
      obtain ⟨key', w⟩ := e'
      obtain ⟨rfl, hvw⟩ := he
      have hrest := ih (before ++ [(key, w)])
      rw [List.append_assoc, List.append_assoc] at hrest
      exact .trans (.entry hvw) hrest
  exact happend []

private theorem keys_replaced (before after : List (String × Value)) (key : String) (v w : Value) :
    OrderedMap.keys (before ++ (key, v) :: after) = OrderedMap.keys (before ++ (key, w) :: after) := by
  simp [OrderedMap.keys]

/-- What is exact is exact in any order of its entries. -/
theorem Reordered.exact (h : Reordered a b) (ha : a.Exact) : b.Exact := by
  induction h with
  | refl v => exact ha
  | trans _ _ ih ih' => exact ih' (ih ha)
  | entries hperm =>
    obtain ⟨hkeys, hvalues⟩ := ha.of_map
    exact .map ((hperm.map Prod.fst).nodup_iff.mp hkeys) fun entry hentry => hvalues entry (hperm.mem_iff.mpr hentry)
  | item _ ih =>
    have hall := ha.of_list
    rw [List.forall_mem_append, List.forall_mem_cons] at hall
    refine .list ?_
    rw [List.forall_mem_append, List.forall_mem_cons]
    exact ⟨hall.1, ih hall.2.1, hall.2.2⟩
  -- The keys are the same and in the same order; one value is replaced by another exact one.
  | @entry before after key v w _ ih =>
    obtain ⟨hkeys, hall⟩ := ha.of_map
    rw [List.forall_mem_append, List.forall_mem_cons] at hall
    refine .map ?_ ?_
    · rwa [keys_replaced _ _ _ v w] at hkeys
    · rw [List.forall_mem_append, List.forall_mem_cons]
      exact ⟨hall.1, ih hall.2.1, hall.2.2⟩

/-- Equal values have the same parts, in any order of the entries. -/
theorem Exact.reordered_of_equals (ha : a.Exact) (hb : b.Exact) (h : a.equals b = true) : Reordered a b := by
  induction ha generalizing b with
  | leaf ha =>
    obtain rfl := eq_of_equals_leaf ha hb h
    exact .refl _
  | @list xs _ ih =>
    obtain ⟨ys, rfl⟩ := exists_of_equals_list h
    rw [equals_list_iff, List.forall₂_iff_get] at h
    obtain ⟨hlength, h⟩ := h
    apply Reordered.list
    rw [List.forall₂_iff_get]
    refine ⟨hlength, fun i hx hy => ?_⟩
    exact ih _ (List.get_mem xs ⟨i, hx⟩) (hb.of_list _ (List.get_mem ys ⟨i, hy⟩)) (h i hx hy)
  | @map m hm _ ih =>
    obtain ⟨n, rfl⟩ := exists_of_equals_map h
    rw [equals_map_iff hm] at h
    obtain ⟨hperm, hvalues⟩ := h
    -- first each value is replaced by the one of the other map, then the entries change their places
    have hreplaced : Reordered (.map m)
        (.map ((OrderedMap.keys m).map fun key => (key, (OrderedMap.get? n key).getD .null))) := by
      apply Reordered.values
      rw [OrderedMap.keys, List.map_map, List.forall₂_map_right_iff, List.forall₂_same]
      intro entry hentry
      obtain ⟨y, hy⟩ := OrderedMap.mem_keys_iff.mp (hperm.mem_iff.mp (List.mem_map_of_mem hentry))
      refine ⟨rfl, ?_⟩
      show Reordered entry.2 ((OrderedMap.get? n entry.1).getD .null)
      rw [hy]
      exact ih entry hentry (hb.of_get? hy) (hvalues _ _ _ ((OrderedMap.get?_eq_some_iff hm).mpr hentry) hy)
    have hplaces := hperm.map fun key => (key, (OrderedMap.get? n key).getD .null)
    rw [OrderedMap.map_keys_get? hb.of_map.1] at hplaces
    exact .trans hreplaced (.entries hplaces)

/-- A value is equal to what it becomes if entries change their places. -/
theorem Reordered.equals (h : Reordered a b) (ha : a.Exact) : a.equals b = true := by
  induction h with
  | refl v => exact ha.equals_refl
  | trans hab hbc ih ih' =>
    have hmiddle := hab.exact ha
    exact ha.equals_trans hmiddle (hbc.exact hmiddle) (ih ha) (ih' hmiddle)
  | entries hperm =>
    obtain ⟨hkeys, _⟩ := ha.of_map
    rw [equals_map_iff hkeys]
    refine ⟨hperm.map Prod.fst, fun key x y hx hy => ?_⟩
    -- no key is repeated, so that the same entry is found in both orders
    have hy' := hperm.mem_iff.mpr (OrderedMap.mem_of_get? hy)
    rw [← OrderedMap.get?_eq_some_iff hkeys, hx] at hy'
    cases hy'
    exact (ha.of_get? hx).equals_refl
  | item _ ih =>
    have hall := ha.of_list
    rw [List.forall_mem_append, List.forall_mem_cons] at hall
    obtain ⟨hbefore, hv, hafter⟩ := hall
    rw [equals_list_iff]
    exact List.rel_append (List.forall₂_same.mpr fun x hx => (hbefore x hx).equals_refl)
      (.cons (ih hv) (List.forall₂_same.mpr fun x hx => (hafter x hx).equals_refl))
  | @entry before after key v w _ ih =>
    have hread : ∀ u k, OrderedMap.get? (before ++ (key, u) :: after) k =
        (OrderedMap.get? before k).or (if k = key then some u else OrderedMap.get? after k) := by
      intro u k
      rw [OrderedMap.get?, List.lookup_append]
      exact congrArg _ (OrderedMap.get?_cons key k u after)
    rw [equals_map_iff ha.of_map.1, keys_replaced before after key v w]
    refine ⟨.refl _, fun k x y hx hy => ?_⟩
    have hexact : x.Exact := ha.of_get? hx
    by_cases hk : k = key ∧ OrderedMap.get? before k = none
    · -- only here the maps have different values
      rw [hread, hk.2, Option.none_or, if_pos hk.1] at hx hy
      cases hx
      cases hy
      exact ih hexact
    · have hsame : OrderedMap.get? (before ++ (key, v) :: after) k =
          OrderedMap.get? (before ++ (key, w) :: after) k := by
        rw [hread, hread]
        cases hbefore : OrderedMap.get? before k with
        | some u => rfl
        | none => rw [if_neg fun heq => hk ⟨heq, hbefore⟩, if_neg fun heq => hk ⟨heq, hbefore⟩]
      rw [hsame, hy] at hx
      cases hx
      exact hexact.equals_refl

/-- Equality looks through the order of entries, and through nothing else. -/
theorem Exact.equals_iff_reordered (ha : a.Exact) (hb : b.Exact) : a.equals b = true ↔ Reordered a b :=
  ⟨ha.reordered_of_equals hb, fun h => h.equals ha⟩

end Value

end RowConsole.Script
