import RowConsole.Proofs.Script.ExactIntegers
import RowConsole.Proofs.Script.Variables

/-!
# Elements by Index

The items of a list and the characters of a string have places, counted from zero. An index names a place from the start
or from the end, a loop comes to the places one after the other, and a size says how many there are; each of them is
computed in its own way. They mean the same places. An assignment to an index of a list writes the place that the index
names, or the one behind the last item, and leaves all other places alone.

Main statement: `indexing_coherent`.
-/

namespace RowConsole.Script

/-! ## Section 1: Places -/

/-- Whether an index names a place among as many elements: counted from the start, or from the end if it is negative. -/
def IsIndexOf (i : Int) (length place : Nat) : Prop :=
  place < length ∧ (i = place ∨ i = place - length)

/-- Whether an index names a place that can be written in a list of a length: that of an item, or the one behind the
last item, which is named by the length only. -/
def IsTargetOf (i : Int) (length place : Nat) : Prop :=
  IsIndexOf i length place ∨ place = length ∧ i = length

section Places

variable {i : Int64} {length place : Nat}

/-- An index is resolved to a place just if it names that place. -/
private theorem resolveIndex_eq_some_iff : resolveIndex i length = some place ↔ IsIndexOf i.toInt length place := by
  have hnegative : i < 0 ↔ i.toInt < 0 := Int64.lt_iff_toInt_lt
  simp only [resolveIndex, hnegative, IsIndexOf]
  -- a negative index is never a place itself, and any other one is never a distance to the end
  by_cases hi : i.toInt < 0
  · simp only [hi, if_true, Option.ite_none_right_eq_some, Option.some.injEq]
    omega
  · simp only [hi, if_false, Option.ite_none_right_eq_some, Option.some.injEq]
    omega

/-- Outside of the places from the start and from the end, an index names none. -/
theorem resolveIndex_eq_none (h : i.toInt < -length ∨ length ≤ i.toInt) : resolveIndex i length = none := by
  rw [Option.eq_none_iff_forall_ne_some]
  intro place hplace
  obtain ⟨hlt, hi⟩ := resolveIndex_eq_some_iff.mp hplace
  omega

end Places

/-! ## Section 2: Lists and Strings -/

/-- The lists and the strings, with what stands at their places: the items of a list, and the characters of a string,
each of them as a string. -/
inductive Sequence : Value → List Value → Prop where
  | list (items : List Value) : Sequence (.list items) items
  | str (s : String) : Sequence (.str s) (s.toList.map fun c => .str (String.singleton c))

/-- What is read at an index that names no place: null in a list, and a failure in a string. -/
def missingAt (p : Pos) (i : Int64) : Value → Attempt Value
  | .str _ => failureAt (.stringIndexOutOfRange i) p
  | _ => .ok .null

/-- What is read at an index of a sequence: the element at the place that the index names, and elsewhere what is read
where nothing stands. -/
structure ReadsPlace (visited : List Value) (i : Int) (missing r : Attempt Value) : Prop where
  inside : ∀ place item, IsIndexOf i visited.length place → visited[place]? = some item → r = .ok item
  outside : i < -visited.length ∨ visited.length ≤ i → r = missing

namespace Sequence

variable {v : Value} {visited : List Value} {i : Int64}

/-- A loop visits what stands at the places. -/
private theorem elements_eq (h : Sequence v visited) : elements v = .ok visited := by
  cases h <;> rfl

/-- The size is the number of places. -/
private theorem sizeOf_eq (h : Sequence v visited) : sizeOf? v = .ok visited.length := by
  cases h with
  | list items => rfl
  | str s =>
    rw [List.length_map]
    rfl

/-- At an index of a place stands what a loop visits there. -/
private theorem elementAt_inside (h : Sequence v visited) {place : Nat} {item : Value}
    (hi : IsIndexOf i.toInt visited.length place) (hitem : visited[place]? = some item) :
    elementAt v (.int i) = .ok item := by
  cases h with
  | list items =>
    simp only [elementAt, resolveIndex_eq_some_iff.mpr hi, Option.bind_some, hitem, Option.getD_some]
  | str s =>
    -- the index is resolved among the characters, before any of them is made a string
    rw [List.length_map] at hi
    rw [List.getElem?_map] at hitem
    obtain ⟨c, hc, rfl⟩ := Option.map_eq_some_iff.mp hitem
    simp only [elementAt, resolveIndex_eq_some_iff.mpr hi, Option.bind_some, hc]

/-- At an index of no place, a list has null and a string fails. -/
private theorem elementAt_outside (h : Sequence v visited) (hi : i.toInt < -visited.length ∨ visited.length ≤ i.toInt)
    (p : Pos) : (elementAt v (.int i)).mapError (·.located p) = missingAt p i v := by
  cases h with
  | list items =>
    simp only [elementAt, resolveIndex_eq_none hi]
    rfl
  | str s =>
    rw [List.length_map] at hi
    simp only [elementAt, resolveIndex_eq_none hi]
    rfl

/-- An index reads the element at the place that it names. -/
theorem readsPlace_elementAt (h : Sequence v visited) (i : Int64) (p : Pos) :
    ReadsPlace visited i.toInt (missingAt p i v) ((elementAt v (.int i)).mapError (·.located p)) where
  inside place item hi hitem := by
    rw [h.elementAt_inside hi hitem]
    rfl
  outside hi := h.elementAt_outside hi p

end Sequence

/-- The index zero names the first item, if there is one. -/
private theorem elementAt_zero (items : List Value) : elementAt (.list items) (.int 0) = .ok
    (items.head?.getD .null) := by
  cases items with
  | nil => rfl
  | cons item rest => exact (Sequence.list _).elementAt_inside ⟨Nat.succ_pos _, .inl rfl⟩ rfl

/-- The index before zero names the last item, if there is one. -/
private theorem elementAt_minus_one (items : List Value) :
    elementAt (.list items) (.int (-1)) = .ok (items.getLast?.getD .null) := by
  have hminus : (-1 : Int64).toInt = -1 := rfl
  cases hlast : items.getLast? with
  | none =>
    rw [List.getLast?_eq_none_iff.mp hlast]
    rfl
  | some item =>
    have hpos : 0 < items.length := by
      refine List.length_pos_iff.mpr fun hnil => ?_
      rw [hnil] at hlast
      cases hlast
    rw [List.getLast?_eq_getElem?] at hlast
    exact (Sequence.list items).elementAt_inside ⟨by omega, .inr (by omega)⟩ hlast

/-! ## Section 3: Loops -/

/-- How a loop ends after a run of its body; it does not end if it goes on to the next place. -/
def Flow.leaves? : Flow → Option Flow
  | .next _ | .continued => none
  | .broke => some (.next .null)
  | .returned v => some (.returned v)

section Loops

variable {γ : Type}

/-- A loop that has come to a place on a machine ends with an outcome. The body is run for the element at the place, on
the machine that the run for the place before has left, and the loop ends behind the last place, or as soon as a run of
the body leaves it or fails. -/
inductive Visits (body : Value → Run γ Flow) (visited : List Value) :
    Nat → Machine γ → Attempt Flow × Machine γ → Prop where
  | done (m : Machine γ) : Visits body visited visited.length m (.ok (.next .null), m)
  | next {place : Nat} {item : Value} {flow : Flow} {m m' : Machine γ} {o : Attempt Flow × Machine γ} :
    visited[place]? = some item → body item m = some (.ok flow, m') → flow.leaves? = none →
      Visits body visited (place + 1) m' o → Visits body visited place m o
  | left {place : Nat} {item : Value} {flow last : Flow} {m m' : Machine γ} :
    visited[place]? = some item → body item m = some (.ok flow, m') → flow.leaves? = some last →
      Visits body visited place m (.ok last, m')
  | failed {place : Nat} {item : Value} {e : Failure} {m m' : Machine γ} :
    visited[place]? = some item → body item m = some (.error e, m') → Visits body visited place m (.error e, m')

variable {body : Value → Run γ Flow} {visited : List Value} {m : Machine γ} {o : Attempt Flow × Machine γ}

/-- A loop ends behind its first element, or goes on with the others. -/
private theorem runFor_cons_of_ok {item : Value} {flow : Flow} {m' : Machine γ} (h : body item m = some (.ok flow, m'))
    (rest : List Value) :
    runFor body (item :: rest) m =
      match flow.leaves? with
      | some last => some (.ok last, m')
      | none => runFor body rest m' := by
  rw [runFor, Run.bind_of_ok h]
  cases flow <;> rfl

/-- A body that fails ends the loop. -/
private theorem runFor_cons_of_error {item : Value} {e : Failure} {m' : Machine γ}
    (h : body item m = some (.error e, m'))
    (rest : List Value) : runFor body (item :: rest) m = some (.error e, m') := by
  rw [runFor, Run.bind_of_error h]

/-- A loop over the elements from a place on visits that place and those behind it. -/
private theorem visits_of_runFor {place : Nat} (hplace : place ≤ visited.length)
    (h : runFor body (visited.drop place) m = some o) : Visits body visited place m o := by
  -- by induction on the number of places that are left
  induction hleft : visited.length - place generalizing place m with
  | zero =>
    obtain rfl : place = visited.length := by omega
    rw [List.drop_length] at h
    cases h
    exact .done m
  | succ left ih =>
    have hlt : place < visited.length := by omega
    have hitem : visited[place]? = some visited[place] := List.getElem?_eq_getElem hlt
    rw [List.drop_eq_getElem_cons hlt] at h
    cases hbody : body visited[place] m with
    | none =>
      rw [runFor, Run.bind_apply, hbody] at h
      cases h
    | some run =>
      obtain ⟨r, m'⟩ := run
      cases r with
      | error e =>
        rw [runFor_cons_of_error hbody] at h
        cases h
        exact .failed hitem hbody
      | ok flow =>
        rw [runFor_cons_of_ok hbody] at h
        cases hleaves : flow.leaves? with
        | some last =>
          rw [hleaves] at h
          cases h
          exact .left hitem hbody hleaves
        | none =>
          rw [hleaves] at h
          exact .next hitem hbody hleaves (ih (by omega) h (by omega))

/-- What visits the places from one on is a loop over the elements there. -/
private theorem Visits.runFor_drop {place : Nat} (h : Visits body visited place m o) :
    runFor body (visited.drop place) m = some o := by
  induction h with
  | done m =>
    rw [List.drop_length]
    rfl
  | next hitem hbody hleaves _ ih =>
    obtain ⟨hlt, rfl⟩ := List.getElem?_eq_some_iff.mp hitem
    rw [List.drop_eq_getElem_cons hlt, runFor_cons_of_ok hbody, hleaves]
    exact ih
  | left hitem hbody hleaves =>
    obtain ⟨hlt, rfl⟩ := List.getElem?_eq_some_iff.mp hitem
    rw [List.drop_eq_getElem_cons hlt, runFor_cons_of_ok hbody, hleaves]
  | failed hitem hbody =>
    obtain ⟨hlt, rfl⟩ := List.getElem?_eq_some_iff.mp hitem
    rw [List.drop_eq_getElem_cons hlt, runFor_cons_of_error hbody]

/-- A loop over elements visits their places in order, from the first one on. -/
theorem runFor_eq_some_iff : runFor body visited m = some o ↔ Visits body visited 0 m o :=
  ⟨visits_of_runFor (Nat.zero_le _), Visits.runFor_drop⟩

end Loops

/-! ## Section 4: Assignments -/

/-- A list with an element written at a place, which is that of an item or the one behind the last item. All other
places are as they were. -/
structure WrittenAt (items : List Value) (place : Nat) (w : Value) (updated : List Value) : Prop where
  length_eq : updated.length = max items.length (place + 1)
  self : updated[place]? = some w
  others : ∀ other, other ≠ place → updated[other]? = items[other]?

section Lists

variable {items : List Value} {place : Nat} {i : Int64}

/-- Setting an item writes its place. -/
private theorem written_set (h : place < items.length) (w : Value) : WrittenAt items place w (items.set place w) where
  length_eq := by
    rw [List.length_set]
    omega
  self := List.getElem?_set_self h
  others _ hne := List.getElem?_set_ne hne.symm

/-- One more item writes the place behind the last one. -/
private theorem written_append (items : List Value) (w : Value) : WrittenAt items items.length w (items ++ [w]) where
  length_eq := by
    rw [List.length_append, List.length_singleton]
    omega
  self := List.getElem?_concat_length
  others other hne := by
    rcases Nat.lt_or_gt_of_ne hne with hbefore | hbehind
    · exact List.getElem?_append_left hbefore
    · rw [List.getElem?_eq_none (Nat.le_of_lt hbehind), List.getElem?_eq_none]
      rw [List.length_append, List.length_singleton]
      exact hbehind

/-- Writing at an index that names a place, or at the length of the list, writes that place. -/
theorem setElement_inside (h : IsTargetOf i.toInt items.length place) (w : Value) :
    ∃ updated, WrittenAt items place w updated ∧ setElement (.list items) (.int i) w = .ok (.list updated) := by
  rcases h with hi | ⟨rfl, hi⟩
  · refine ⟨_, written_set hi.1 w, ?_⟩
    simp only [setElement, resolveIndex_eq_some_iff.mpr hi]
  · -- the length is an index of no item, so this is looked at only after no place has been found
    refine ⟨_, written_append items w, ?_⟩
    simp only [setElement, resolveIndex_eq_none (.inr (Int.le_of_eq hi.symm)), if_pos hi]

/-- At an index of no such place, nothing is written. -/
private theorem setElement_outside (h : i.toInt < -items.length ∨ items.length < i.toInt) (w : Value) :
    setElement (.list items) (.int i) w = failure (.listIndexOutOfRange i) := by
  have hnone : resolveIndex i items.length = none := resolveIndex_eq_none (h.imp_right Int.le_of_lt)
  simp only [setElement, hnone, if_neg (show i.toInt ≠ items.length by omega)]

/-- The places that can be written are named by the indices from the end up to the length. -/
theorem exists_isTargetOf (h : -items.length ≤ i.toInt ∧ i.toInt ≤ items.length) :
    ∃ place, IsTargetOf i.toInt items.length place := by
  rcases Int.lt_or_le i.toInt 0 with hneg | hnonneg
  · exact ⟨(items.length + i.toInt).toNat, .inl ⟨by omega, .inr (by omega)⟩⟩
  · rcases Int.lt_or_eq_of_le h.2 with hlt | heq
    · exact ⟨i.toInt.toNat, .inl ⟨by omega, .inl (by omega)⟩⟩
    · exact ⟨items.length, .inr ⟨rfl, heq⟩⟩

/-- Whatever is written at an index of a list is written at a place that the index names. -/
theorem exists_of_setElement {w u : Value} (h : setElement (.list items) (.int i) w = .ok u) :
    ∃ place updated, IsTargetOf i.toInt items.length place ∧ WrittenAt items place w updated ∧ u = .list updated := by
  have hi : -items.length ≤ i.toInt ∧ i.toInt ≤ items.length := by
    refine Decidable.byContradiction fun hi => ?_
    rw [setElement_outside (by omega)] at h
    cases h
  obtain ⟨place, hplace⟩ := exists_isTargetOf hi
  obtain ⟨updated, hwritten, hupdated⟩ := setElement_inside hplace w
  exact ⟨place, updated, hplace, hwritten, Except.ok.inj (h.symm.trans hupdated)⟩

end Lists

section Statements

variable {γ : Type} [Globals γ] {limit fuel : Nat} {m m₀ m₁ m₂ : Machine γ} {object index e : Expr} {v w : Value}
  {visited items : List Value} {i : Int64}

/-- What an assignment to an index of a list does. At a place that can be written, the list with this place written is
stored where the old one was found. Elsewhere the assignment fails. -/
structure AssignsPlace (items : List Value) (i : Int) (w : Value)
    (stored : List Value → Option (Attempt Flow × Machine γ))
    (refused o : Option (Attempt Flow × Machine γ)) : Prop where
  inside : ∀ place, IsTargetOf i items.length place → ∃ updated, WrittenAt items place w updated ∧ o = stored updated
  outside : i < -items.length ∨ items.length < i → o = refused

/-- An assignment evaluates the new value first, then the container and the index; the container with the element
written is stored where it was found. -/
private theorem exec_assign_index {container k : Value} (he : eval limit (fuel + 1) e m₀ = some (.ok w, m))
    (hobject : eval limit fuel object m = some (.ok container, m₁))
    (hindex : eval limit fuel index m₁ = some (.ok k, m₂)) (q p : Pos) :
    exec limit (fuel + 2) (.assign (.index object index q) .set e p) m₀ =
      (do
        let updated ← Run.ofResultAt q (setElement container k w)
        store limit fuel object updated p
        return .next w : Run γ Flow) m₂ := by
  rw [exec_assign_eq, Run.bind_of_ok he, assignedValue, pure_bind, store_index]
  simp only [bind_assoc]
  rw [Run.bind_of_ok hobject, Run.bind_of_ok hindex]

/-- On a list, this writes the place that the index names, or fails. -/
private theorem assignsPlace_exec (he : eval limit (fuel + 1) e m₀ = some (.ok w, m))
    (hobject : eval limit fuel object m = some (.ok (.list items), m₁))
    (hindex : eval limit fuel index m₁ = some (.ok (.int i), m₂)) (q p : Pos) :
    AssignsPlace items i.toInt w
      (fun updated => (do store limit fuel object (.list updated) p; return .next w : Run γ Flow) m₂)
      (some (failureAt (.listIndexOutOfRange i) q, m₂))
      (exec limit (fuel + 2) (.assign (.index object index q) .set e p) m₀) where
  inside place hplace := by
    obtain ⟨updated, hwritten, hset⟩ := setElement_inside hplace w
    refine ⟨updated, hwritten, ?_⟩
    rw [exec_assign_index he hobject hindex, hset]
    rfl
  outside hi := by
    rw [exec_assign_index he hobject hindex, setElement_outside hi]
    rfl

/-- Where lists can be stored, an assignment succeeds for the indices of places that can be written and for no other
ones. -/
theorem exec_assign_index_iff (he : eval limit (fuel + 1) e m₀ = some (.ok w, m))
    (hobject : eval limit fuel object m = some (.ok (.list items), m₁))
    (hindex : eval limit fuel index m₁ = some (.ok (.int i), m₂)) (q p : Pos)
    (hstore : ∀ u, ∃ m', store limit fuel object u p m₂ = some (.ok (), m')) :
    (∃ flow m', exec limit (fuel + 2) (.assign (.index object index q) .set e p) m₀ = some (.ok flow, m')) ↔
      -items.length ≤ i.toInt ∧ i.toInt ≤ items.length := by
  have hassigns := assignsPlace_exec he hobject hindex q p
  constructor
  · rintro ⟨flow, m', hrun⟩
    refine Decidable.byContradiction fun hi => ?_
    rw [hassigns.outside (by omega)] at hrun
    cases hrun
  · intro hi
    obtain ⟨place, hplace⟩ := exists_isTargetOf hi
    obtain ⟨updated, _, hrun⟩ := hassigns.inside place hplace
    obtain ⟨m', hstored⟩ := hstore (.list updated)
    exact ⟨.next w, m', hrun.trans (Run.bind_of_ok hstored)⟩

/-- An assignment to an index of a variable that has succeeded leaves it with the list in which the place is written. -/
theorem lookup_of_assign_index {x : String} {r : Pos} {flow : Flow} {m' : Machine γ}
    (he : eval limit (fuel + 1) e m₀ = some (.ok w, m))
    (hobject : eval limit fuel (.var x r) m = some (.ok (.list items), m₁))
    (hindex : eval limit fuel index m₁ = some (.ok (.int i), m₂)) (q p : Pos)
    (hrun : exec limit (fuel + 2) (.assign (.index (.var x r) index q) .set e p) m₀ = some (.ok flow, m')) :
    ∃ place updated, IsTargetOf i.toInt items.length place ∧ WrittenAt items place w updated ∧
      m'.lookup x = some (.list updated) := by
  rw [exec_assign_index he hobject hindex] at hrun
  obtain ⟨u, m₃, hresult, hrest⟩ := Run.bind_eq_ok.mp hrun
  obtain ⟨hset, rfl⟩ := Run.ofResultAt_eq_ok.mp hresult
  obtain ⟨_, m₄, hstore, hpure⟩ := Run.bind_eq_ok.mp hrest
  cases hpure
  obtain ⟨place, updated, hplace, hwritten, rfl⟩ := exists_of_setElement hset
  refine ⟨place, updated, hplace, hwritten, ?_⟩
  -- without fuel the variable could not have been read
  cases fuel with
  | zero => cases hobject
  | succ fuel => exact ((assignName_writes x _ _).of_ok (Run.located_eq_ok.mp hstore)).lookup_resolve

/-- A loop over a list or a string visits what stands at its places. -/
theorem exec_forLoop_iff (hv : Sequence v visited) (hobject : eval limit fuel object m = some (.ok v, m₁)) (x : String)
    (body : List Stmt) (p : Pos) (o : Attempt Flow × Machine γ) :
    exec limit (fuel + 1) (.forLoop x object body p) m = some o ↔
      Visits (fun item => runScoped (exec limit fuel) [(x, item)] body) visited 0 m₁ o := by
  have hvisited : (Run.ofResultAt p (elements v) : Run γ (List Value)) m₁ = some (.ok visited, m₁) := by
    rw [hv.elements_eq]
    rfl
  rw [exec, execWith, Run.bind_of_ok hobject, Run.bind_of_ok hvisited]
  exact runFor_eq_some_iff

/-- The size of a list or a string is the number of its places. -/
theorem eval_size (hv : Sequence v visited) (hobject : eval limit fuel object m = some (.ok v, m₁)) (p : Pos) :
    eval limit (fuel + 1) (.method object "size" [] p) m = some (.ok (countValue visited.length), m₁) := by
  have hentry : ∀ entries, v ≠ .map entries := by
    cases hv <;> simp
  have hsize : ∀ call : Caller γ, invokeMethod call v "size" [] = Run.ofResult (.ok (countValue visited.length)) := by
    intro call
    cases hv with
    | list items => rfl
    | str s =>
      rw [List.length_map]
      rfl
  exact eval_method hobject hentry hsize p

/-- The function `len` counts the places. -/
private theorem eval_len (hv : Sequence v visited) (hobject : eval limit fuel object m = some (.ok v, m₁))
    (hlen : m.lookup "len" = some (.builtin .len)) (q p : Pos) :
    eval limit (fuel + 1) (.call (.var "len" q) [object] p) m = some (.ok (countValue visited.length), m₁) := by
  have hsize : Builtin.len.apply [v] = .ok (countValue visited.length, none) := by
    show (do return (countValue (← sizeOf? v), none)) = _
    rw [hv.sizeOf_eq]
    rfl
  exact eval_builtin hlen (mapM_eval_singleton hobject) hsize q p

/-- The method that gets an item reads it as an index does. -/
theorem eval_get (hobject : eval limit fuel object m = some (.ok (.list items), m₁))
    (hindex : eval limit fuel index m₁ = some (.ok w, m₂)) (p : Pos) :
    eval limit (fuel + 1) (.method object "get" [index] p) m = eval limit (fuel + 1) (.index object index p) m := by
  rw [eval_index hobject hindex]
  exact eval_method_args hobject (mapM_eval_singleton hindex) (by simp) (fun _ => rfl) p

/-- The first item is what the index zero reads. -/
private theorem eval_first (hobject : eval limit fuel object m = some (.ok (.list items), m₁))
    (hindex : eval limit fuel index m₁ = some (.ok (.int 0), m₁)) (p : Pos) :
    eval limit (fuel + 1) (.method object "first" [] p) m = eval limit (fuel + 1) (.index object index p) m := by
  rw [eval_index hobject hindex, elementAt_zero]
  exact eval_method hobject (by simp) (fun _ => rfl) p

/-- The last item is what the index before zero reads. -/
private theorem eval_last (hobject : eval limit fuel object m = some (.ok (.list items), m₁))
    (hindex : eval limit fuel index m₁ = some (.ok (.int (-1)), m₁)) (p : Pos) :
    eval limit (fuel + 1) (.method object "last" [] p) m = eval limit (fuel + 1) (.index object index p) m := by
  rw [eval_index hobject hindex, elementAt_minus_one]
  exact eval_method hobject (by simp) (fun _ => rfl) p

/-- The places of lists and strings are the same for indices, loops and sizes. A loop over a value visits what stands at
its places, from the first one to the last one. An index that names a place reads what stands there; any other index, up
to the least and the greatest one, reads null from a list and fails on a string. The sizes are the number of the places,
which 64 bits can hold for all that fits in a memory. The methods that get items of a list read them as indices do. An
assignment to an index of a list, to be stored back where the list was found, succeeds just for the indices from the
end up to the length; it writes the place that is named and no other one. -/
theorem indexing_coherent (hv : Sequence v visited) (hobject : eval limit fuel object m = some (.ok v, m₁)) (p : Pos) :
    -- loops
    (∀ x body o, exec limit (fuel + 1) (.forLoop x object body p) m = some o ↔
        Visits (fun item => runScoped (exec limit fuel) [(x, item)] body) visited 0 m₁ o) ∧
      -- indices
      (∀ index i m₂, eval limit fuel index m₁ = some (.ok (.int i), m₂) →
        ∃ r, eval limit (fuel + 1) (.index object index p) m = some (r, m₂) ∧
          ReadsPlace visited i.toInt (missingAt p i v) r) ∧
      -- sizes
      (∃ count : Int64, (Fits visited.length → count.toInt = visited.length) ∧
        eval limit (fuel + 1) (.method object "size" [] p) m = some (.ok (.int count), m₁) ∧
        ∀ q, m.lookup "len" = some (.builtin .len) →
          eval limit (fuel + 1) (.call (.var "len" q) [object] p) m = some (.ok (.int count), m₁)) ∧
      -- methods and assignments of lists
      (v = .list visited →
        (∀ index, eval limit fuel index m₁ = some (.ok (.int 0), m₁) →
          eval limit (fuel + 1) (.method object "first" [] p) m = eval limit (fuel + 1) (.index object index p) m) ∧
        (∀ index, eval limit fuel index m₁ = some (.ok (.int (-1)), m₁) →
          eval limit (fuel + 1) (.method object "last" [] p) m = eval limit (fuel + 1) (.index object index p) m) ∧
        ∀ index i m₂, eval limit fuel index m₁ = some (.ok (.int i), m₂) →
          eval limit (fuel + 1) (.method object "get" [index] p) m = eval limit (fuel + 1) (.index object index p) m ∧
          ∀ e w m₀ q, eval limit (fuel + 1) e m₀ = some (.ok w, m) →
            let run := exec limit (fuel + 2) (.assign (.index object index q) .set e p) m₀
            AssignsPlace visited i.toInt w
              (fun updated => (do store limit fuel object (.list updated) p; return .next w : Run γ Flow) m₂)
              (some (failureAt (.listIndexOutOfRange i) q, m₂)) run ∧
            ((∀ u, ∃ m', store limit fuel object u p m₂ = some (.ok (), m')) →
              ((∃ flow m', run = some (.ok flow, m')) ↔ -visited.length ≤ i.toInt ∧ i.toInt ≤ visited.length)) ∧
            ∀ x r flow m', object = .var x r → run = some (.ok flow, m') →
              ∃ place updated, IsTargetOf i.toInt visited.length place ∧ WrittenAt visited place w updated ∧
                m'.lookup x = some (.list updated)) := by
  refine ⟨fun x body o => exec_forLoop_iff hv hobject x body p o, fun index i m₂ hindex => ?_, ?_, ?_⟩
  · exact ⟨_, eval_index hobject hindex p, hv.readsPlace_elementAt i p⟩
  · exact ⟨_, toInt_ofInt_of_fits, eval_size hv hobject p, fun q hlen => eval_len hv hobject hlen q p⟩
  · rintro rfl
    refine ⟨fun index hindex => eval_first hobject hindex p, fun index hindex => eval_last hobject hindex p,
      fun index i m₂ hindex => ⟨eval_get hobject hindex p, fun e w m₀ q he => ?_⟩⟩
    refine ⟨assignsPlace_exec he hobject hindex q p, exec_assign_index_iff he hobject hindex q p, ?_⟩
    rintro x r flow m' rfl hrun
    exact lookup_of_assign_index he hobject hindex q p hrun

/-- A list of two items and a string of two characters, one of which takes two bytes. The index that counts back to the
start is the last one that names a place; the least index names none, and neither does the length, but at this one the
list can be written. -/
theorem indexing_coherent_extremes :
    let p : Pos := ⟨1, 5⟩
    let items : List Value := [.int 7, .str "a"]
    let letters : List Value := [.str "n", .str "é"]
    let globals : OrderedMap Value :=
      [("v", .list items), ("s", .str "né"), ("back", .int (-2)), ("two", .int 2), ("least", .int Int64.minValue)]
    let m : Machine (OrderedMap Value) := Machine.start globals 0
    let name : String → Expr := fun x => .var x p
    let read : String → String → Option (Attempt Value × Machine (OrderedMap Value)) := fun x i =>
      eval 10 5 (.index (name x) (name i) p) m
    let write : String → Option (Attempt Flow × Machine (OrderedMap Value)) := fun i =>
      exec 10 6 (.assign (.index (name "v") (name i) p) .set (.str "b") p) m
    Sequence (.list items) items ∧ eval 10 4 (name "v") m = some (.ok (.list items), m) ∧
      Sequence (.str "né") letters ∧ eval 10 4 (name "s") m = some (.ok (.str "né"), m) ∧
      Visits (fun item => runScoped (exec 10 4) [("c", item)] [.assign (name "last") .set (name "c") p]) letters 0 m
        (.ok (.next .null), Machine.start (globals ++ [("last", .str "é")]) 0) ∧
      read "v" "back" = some (.ok (.int 7), m) ∧ read "s" "back" = some (.ok (.str "n"), m) ∧
      read "v" "two" = some (.ok .null, m) ∧ read "v" "least" = some (.ok .null, m) ∧
      read "s" "two" = some (failureAt (.stringIndexOutOfRange 2) p, m) ∧
      read "s" "least" = some (failureAt (.stringIndexOutOfRange Int64.minValue) p, m) ∧
      (∃ count : Int64, count.toInt = 2 ∧
        eval 10 5 (.call (.var "len" p) [name "s"] p) m = some (.ok (.int count), m)) ∧
      eval 10 5 (.method (name "v") "get" [name "back"] p) m = read "v" "back" ∧
      (∃ flow m' updated, write "two" = some (.ok flow, m') ∧ m'.lookup "v" = some (.list updated) ∧
        updated[2]? = some (.str "b") ∧ updated[1]? = items[1]?) ∧
      write "least" = some (failureAt (.listIndexOutOfRange Int64.minValue) p, m) := by
  intro p items letters globals m name read write
  have hv : Sequence (.list items) items := .list items
  have hs : Sequence (.str "né") letters := .str "né"
  have hitems : eval 10 4 (name "v") m = some (.ok (.list items), m) := rfl
  have hletters : eval 10 4 (name "s") m = some (.ok (.str "né"), m) := rfl
  have hback : eval 10 4 (name "back") m = some (.ok (.int (-2)), m) := rfl
  have htwo : eval 10 4 (name "two") m = some (.ok (.int 2), m) := rfl
  have hleast : eval 10 4 (name "least") m = some (.ok (.int Int64.minValue), m) := rfl
  obtain ⟨_, hread, _, hlist⟩ := indexing_coherent hv hitems p
  obtain ⟨_, _, hindexed⟩ := hlist rfl
  obtain ⟨hloop, hread', ⟨count, hcount, _, hlen⟩, _⟩ := indexing_coherent hs hletters p
  -- reads at the three indices, from the list and from the string
  obtain ⟨_, hvback, hplace⟩ := hread _ _ m hback
  obtain rfl := hplace.inside 0 (.int 7) ⟨by decide, .inr rfl⟩ rfl
  obtain ⟨_, hsback, hplace⟩ := hread' _ _ m hback
  obtain rfl := hplace.inside 0 (.str "n") ⟨by decide, .inr rfl⟩ rfl
  obtain ⟨_, hvtwo, hplace⟩ := hread _ _ m htwo
  obtain rfl := hplace.outside (.inr (by decide))
  obtain ⟨_, hstwo, hplace⟩ := hread' _ _ m htwo
  obtain rfl := hplace.outside (.inr (by decide))
  obtain ⟨_, hvleast, hplace⟩ := hread _ _ m hleast
  obtain rfl := hplace.outside (.inl (by decide))
  obtain ⟨_, hsleast, hplace⟩ := hread' _ _ m hleast
  obtain rfl := hplace.outside (.inl (by decide))
  -- writes behind the last item and nowhere
  have hright : eval 10 5 (.str "b") m = some (.ok (.str "b"), m) := rfl
  obtain ⟨hget, _⟩ := hindexed _ _ m hback
  obtain ⟨_, happends⟩ := hindexed _ _ m htwo
  obtain ⟨_, hsucceeds, hlookup⟩ := happends _ _ m p hright
  obtain ⟨_, hfails⟩ := hindexed _ _ m hleast
  obtain ⟨hrefused, _⟩ := hfails _ _ m p hright
  obtain ⟨flow, m', hwrite⟩ := (hsucceeds fun _ => ⟨_, rfl⟩).mpr (by decide)
  obtain ⟨place, updated, htarget, hwritten, hupdated⟩ := hlookup "v" p flow m' rfl hwrite
  obtain rfl : place = 2 := by
    have hint : (2 : Int64).toInt = 2 := rfl
    have hlength : items.length = 2 := rfl
    simp only [IsTargetOf, IsIndexOf, hint, hlength] at htarget
    omega
  exact ⟨hv, hitems, hs, hletters, (hloop "c" _ _).mp rfl, hvback, hsback, hvtwo, hvleast, hstwo, hsleast,
    ⟨count, hcount (by decide), hlen p rfl⟩, hget,
    ⟨flow, m', updated, hwrite, hupdated, hwritten.self, hwritten.others 1 (by decide)⟩,
    hrefused.outside (.inl (by decide))⟩

end Statements

end RowConsole.Script
