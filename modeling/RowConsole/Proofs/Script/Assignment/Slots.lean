import RowConsole.Proofs.Script.Failure.Crashes

/-!
# Parts of Values as a Lens

A slot of a value is a key of a map or a place in a list. A step of a path names a slot of the container that it is
taken from: an index that is counted from the end names a place, and an index into a map names the key that is its text.
What is read at a slot is what was written there, and other slots are left alone. From one step to a path: a path reads
back what was written along it, and a path that leaves it at another slot reads what it has read before.

Main statements: `readAlong_writeAlong` and `readAlong_of_diverges`.
-/

namespace RowConsole.Script

/-! ## Section 1: Slots -/

/-- Where a part of a value stands. Places in a list are counted from its start; the one behind the last item is free. -/
inductive Slot where
  | key (key : String)
  | item (place : Int)
  deriving DecidableEq

/-- The part at a slot, null where there is none. -/
def Value.part : Value → Slot → Value
  | .map entries, .key key => (OrderedMap.get? entries key).getD .null
  | .list items, .item place => if 0 ≤ place then items[place.toNat]?.getD .null else .null
  | _, _ => .null

/-- A value with the part at a slot replaced or added. -/
def Value.withPart? : Value → Slot → Value → Option Value
  | .map entries, .key key, v => some (.map (OrderedMap.insert entries key v))
  | .list items, .item place, v =>
    if 0 ≤ place ∧ place < items.length then some (.list (items.set place.toNat v))
    else if place = items.length then some (.list (items ++ [v]))
    else none
  | _, _, _ => none

/-- A part that was written is read back. -/
theorem part_withPart_self {u u' v : Value} {slot : Slot} (h : u.withPart? slot v = some u') : u'.part slot = v := by
  cases u with
  | map entries =>
    cases slot with
    | key key =>
      cases h
      simp [Value.part]
    | item place => cases h
  | list items =>
    cases slot with
    | key key => cases h
    | item place =>
      simp only [Value.withPart?] at h
      split at h
      · next hin =>
        cases h
        have hplace : place.toNat < items.length := by omega
        simp [Value.part, hin.1, hplace]
      · split at h
        · -- The place just behind the last element is the new element.
          next hend =>
          cases h
          simp [Value.part, hend]
        · cases h
  | _ => cases slot <;> cases h

/-- A part at another slot is left alone, and so is a slot where nothing stands. -/
theorem part_withPart_ne {u u' v : Value} {slot other : Slot} (h : u.withPart? slot v = some u') (hne : other ≠ slot) :
    u'.part other = u.part other := by
  cases u with
  | map entries =>
    cases slot with
    | key key =>
      cases h
      cases other with
      | key other =>
        have hkey : other ≠ key := fun heq => hne (heq ▸ rfl)
        simp [Value.part, OrderedMap.get?_insert_of_ne _ _ hkey]
      | item place => rfl
    | item place => cases h
  | list items =>
    cases slot with
    | key key => cases h
    | item place =>
      simp only [Value.withPart?] at h
      cases other with
      | key other => split at h <;> (try split at h) <;> cases h <;> rfl
      | item other =>
        have hplace : other ≠ place := fun heq => hne (heq ▸ rfl)
        split at h
        · next hin =>
          cases h
          simp only [Value.part]
          split
          · next hother =>
            have hset : place.toNat ≠ other.toNat := by omega
            rw [List.getElem?_set_ne hset]
          · rfl
        · split at h
          · next hend =>
            cases h
            simp only [Value.part]
            split
            · next hother =>
              -- a place behind the one that was added is as free as it was
              rcases Nat.lt_or_ge other.toNat items.length with hbefore | hbehind
              · rw [List.getElem?_append_left hbefore]
              · have hlength : (items ++ [v]).length ≤ other.toNat := by
                  simp only [List.length_append, List.length_cons, List.length_nil]
                  omega
                rw [List.getElem?_eq_none hlength, List.getElem?_eq_none hbehind]
            · rfl
          · cases h
  | _ => cases slot <;> cases h

/-! ## Section 2: Steps -/

/-- A step from a container to one of its parts. -/
inductive Step where
  | member (name : String) (pos : Pos)
  | element (index : Value) (pos : Pos)

namespace Step

def pos : Step → Pos
  | member _ p | element _ p => p

/-- The part that a step leads to. -/
def read : Step → Value → Attempt Value
  | member name _, container => Script.member name container
  | element index _, container => elementAt container index

/-- The container with the part that a step leads to written. -/
def write : Step → Value → Value → Attempt Value
  | member name _, container, v => setMember container name v
  | element index _, container, v => setElement container index v

/-- The slot that a step names in a container. A property of a list is none: it is that of all of its items. -/
def slot? : Step → Value → Option Slot
  | member name _, .map _ => some (.key name)
  | element index _, .map _ => some (.key index.keyText)
  | element (.int i) _, .list items => some (.item (if i < 0 then items.length + i.toInt else i.toInt))
  | _, _ => none

/-- Whether a step does not count from the end of a list. -/
def Forward : Step → Prop
  | element (.int i) _ => 0 ≤ i
  | _ => True

variable {s t : Step} {u u' v : Value} {slot : Slot}

/-- Reading along a step is reading the slot that it names. -/
theorem read_of_slot (h : s.slot? u = some slot) : s.read u = .ok (u.part slot) := by
  cases s with
  | member name p =>
    cases u with
    | map entries =>
      cases h
      simp [read, Script.member, Value.part, OrderedMap.get?]
    | _ => cases h
  | element index p =>
    cases u with
    | map entries =>
      cases h
      simp [read, elementAt, Value.part, OrderedMap.get?]
    | list items =>
      cases index with
      | int i =>
        cases h
        simp only [read, elementAt, Value.part, resolveIndex]
        -- the place need not be one of an item, and then there is nothing on either side
        generalize (if i < 0 then (items.length : Int) + i.toInt else i.toInt) = place
        by_cases hstart : 0 ≤ place
        · by_cases hend : place < items.length
          · simp [hstart, hend]
          · simp [hstart, hend]
        · simp [hstart]
      | _ => cases h
    | _ => cases h

/-- Writing along a step succeeds where the step names a slot that can be written, and writes it. -/
theorem write_eq_ok : s.write u v = .ok u' ↔ ∃ slot, s.slot? u = some slot ∧ u.withPart? slot v = some u' := by
  cases s with
  | member name p => cases u <;> simp [write, setMember, slot?, Value.withPart?, failure]
  | element index p =>
    cases u with
    | map entries => simp [write, setElement, slot?, Value.withPart?]
    | list items =>
      cases index with
      | int i =>
        have hnegative : i < 0 ↔ i.toInt < 0 := Int64.lt_iff_toInt_lt
        -- counted from the end, an index is never that of the free place
        have hfree : i.toInt = items.length ↔
            (if i < 0 then (items.length : Int) + i.toInt else i.toInt) = items.length := by
          simp only [hnegative]
          split <;> omega
        simp only [write, setElement, slot?, resolveIndex, hfree]
        generalize (if i < 0 then (items.length : Int) + i.toInt else i.toInt) = place
        by_cases hin : 0 ≤ place ∧ place < items.length
        · simp [Value.withPart?, hin]
        · by_cases hend : place = items.length <;> simp [Value.withPart?, hin, hend, failure]
      | _ => simp [write, setElement, slot?, failure]
    | _ => simp [write, setElement, slot?, failure]

/-- A step names the same slot when another part has been written, and so does one that counts from the end if the list
has not become longer. -/
theorem slot_withPart (h : t.slot? u = some slot) {other : Slot} (hwrite : u.withPart? other v = some u')
    (hforward : t.Forward ∨ slot = other) : t.slot? u' = some slot := by
  cases u with
  | map entries =>
    cases other with
    | key key =>
      cases hwrite
      cases t <;> exact h
    | item place => cases hwrite
  | list items =>
    cases other with
    | key key => cases hwrite
    | item place =>
      cases t with
      | member name p => cases h
      | element index p =>
        cases index with
        | int i =>
          cases h
          have hnegative : i < 0 ↔ i.toInt < 0 := Int64.lt_iff_toInt_lt
          simp only [Value.withPart?] at hwrite
          split at hwrite
          · cases hwrite
            simp [slot?]
          · split at hwrite
            · next hend =>
              cases hwrite
              -- the list is longer now, so the step must not count from its end
              have hstart : ¬ i < 0 := by
                rcases hforward with hforward | hsame
                · exact Int64.not_lt.mpr hforward
                · intro hi
                  simp only [hi, if_true, Slot.item.injEq] at hsame
                  have hneg := hnegative.mp hi
                  omega
              simp [slot?, hstart]
            · cases hwrite
        | _ => cases h
  | _ => cases other <;> cases hwrite

/-- The part that a step leads to; a failure is one at the step. -/
def readAt (s : Step) (container : Value) : Attempt Value :=
  (s.read container).mapError (·.located s.pos)

/-- The container with the part that a step leads to written; a failure is one at the step. -/
def writeAt (s : Step) (container v : Value) : Attempt Value :=
  (s.write container v).mapError (·.located s.pos)

private theorem readAt_of_slot (h : s.slot? u = some slot) : s.readAt u = .ok (u.part slot) := by
  rw [readAt, read_of_slot h]
  rfl

private theorem writeAt_eq_ok :
    s.writeAt u v = .ok u' ↔ ∃ slot, s.slot? u = some slot ∧ u.withPart? slot v = some u' := by
  rw [← write_eq_ok, writeAt]
  cases s.write u v with
  | error e => exact ⟨nofun, nofun⟩
  | ok w => exact Iff.rfl

end Step

/-! ## Section 3: Paths -/

/-- The value at the end of a path into a value. -/
def readAlong (u : Value) : List Step → Attempt Value
  | [] => .ok u
  | s :: rest => do readAlong (← s.readAt u) rest

/-- A value with another one written at the end of a path into it. The containers on the way are read and then written
from the inside to the outside; what stands at the end of the path is not read. -/
def writeAlong (u : Value) : List Step → Value → Attempt Value
  | [], v => .ok v
  | [s], v => s.writeAt u v
  | s :: t :: rest, v => do
    let part ← writeAlong (← s.readAt u) (t :: rest) v
    s.writeAt u part

variable {u u' v : Value} {s : Step} {steps others : List Step}

private theorem Step.survives_readAt (s : Step) (u : Value) : Survives (s.readAt u) := by
  apply survives_located
  cases s with
  | member name p => exact survives_member name u
  | element index p => exact survives_elementAt u index

private theorem Step.survives_writeAt (s : Step) (u v : Value) : Survives (s.writeAt u v) := by
  apply survives_located
  cases s with
  | member name p => exact survives_setMember u name v
  | element index p => exact survives_setElement u index v

/-- A write along a path ends with a value or an error. -/
theorem survives_writeAlong (u : Value) (steps : List Step) (v : Value) : Survives (writeAlong u steps v) := by
  induction steps generalizing u with
  | nil => exact survives_ok v
  | cons s rest ih =>
    cases rest with
    | nil => exact s.survives_writeAt u v
    | cons t rest =>
      rw [writeAlong]
      apply survives_bind (s.survives_readAt u)
      intro container
      exact survives_bind (ih container) fun part => s.survives_writeAt u part

theorem readAlong_append (steps : List Step) (s : Step) :
    readAlong u (steps ++ [s]) = (do s.readAt (← readAlong u steps)) := by
  induction steps generalizing u with
  | nil =>
    show (do readAlong (← s.readAt u) []) = s.readAt u
    cases s.readAt u <;> rfl
  | cons t rest ih =>
    show (do readAlong (← t.readAt u) (rest ++ [s])) = (do s.readAt (← (do readAlong (← t.readAt u) rest)))
    simp only [ih, bind_assoc]

private theorem writeAlong_cons (hrest : steps ≠ []) :
    writeAlong u (s :: steps) v = (do s.writeAt u (← writeAlong (← s.readAt u) steps v)) := by
  cases steps with
  | nil => contradiction
  | cons t rest => rfl

/-- A write at the end of a longer path writes the container there, with its part written, at the end of the shorter
one. -/
theorem writeAlong_append (steps : List Step) (s : Step) :
    writeAlong u (steps ++ [s]) v =
      (do
        let container ← readAlong u steps
        let updated ← s.writeAt container v
        writeAlong u steps updated) := by
  induction steps generalizing u with
  | nil =>
    show s.writeAt u v = (do let updated ← s.writeAt u v; .ok updated)
    cases s.writeAt u v <;> rfl
  | cons t rest ih =>
    have hread : readAlong u (t :: rest) = (do readAlong (← t.readAt u) rest) := rfl
    rw [List.cons_append, writeAlong_cons (by simp), hread]
    cases hfirst : t.readAt u with
    | error e => rfl
    | ok c =>
      -- the container that was read is read again when its turn to be written has come
      have hagain : ∀ updated, writeAlong u (t :: rest) updated = (do t.writeAt u (← writeAlong c rest updated)) := by
        intro updated
        cases rest with
        | nil => rfl
        | cons next rest =>
          rw [writeAlong_cons (by simp), hfirst]
          rfl
      simp only [hagain]
      show (do t.writeAt u (← writeAlong c (rest ++ [s]) v)) = (do
        let container ← readAlong c rest
        let updated ← s.writeAt container v
        t.writeAt u (← writeAlong c rest updated))
      simp only [ih, bind_assoc]

/-- A write along a path that succeeds writes a slot of each container on the way. -/
theorem writeAlong_cons_eq_ok :
    writeAlong u (s :: steps) v = .ok u' ↔
      ∃ slot part, s.slot? u = some slot ∧ u.withPart? slot part = some u' ∧
        writeAlong (u.part slot) steps v = .ok part := by
  constructor
  · intro h
    cases steps with
    | nil =>
      obtain ⟨slot, hslot, hwrite⟩ := Step.writeAt_eq_ok.mp h
      exact ⟨slot, v, hslot, hwrite, rfl⟩
    | cons t rest =>
      rw [writeAlong_cons (by simp)] at h
      obtain ⟨c, hread, h⟩ := Attempt.bind_eq_ok.mp h
      obtain ⟨part, hinner, houter⟩ := Attempt.bind_eq_ok.mp h
      obtain ⟨slot, hslot, hwrite⟩ := Step.writeAt_eq_ok.mp houter
      -- the part that was read is the one that was written into
      rw [Step.readAt_of_slot hslot] at hread
      cases hread
      exact ⟨slot, part, hslot, hwrite, hinner⟩
  · rintro ⟨slot, part, hslot, hwrite, hinner⟩
    have houter : s.writeAt u part = .ok u' := Step.writeAt_eq_ok.mpr ⟨slot, hslot, hwrite⟩
    cases steps with
    | nil =>
      cases hinner
      exact houter
    | cons t rest =>
      have hread := Step.readAt_of_slot hslot
      rw [writeAlong_cons (by simp)]
      exact Attempt.bind_eq_ok.mpr ⟨_, hread, Attempt.bind_eq_ok.mpr ⟨part, hinner, houter⟩⟩

/-- What was written at the end of a path is read there. -/
theorem readAlong_writeAlong (h : writeAlong u steps v = .ok u') : readAlong u' steps = .ok v := by
  induction steps generalizing u u' with
  | nil =>
    cases h
    rfl
  | cons s rest ih =>
    obtain ⟨slot, part, hslot, hwrite, hinner⟩ := writeAlong_cons_eq_ok.mp h
    have hslot' : s.slot? u' = some slot := Step.slot_withPart hslot hwrite (.inr rfl)
    show (do readAlong (← s.readAt u') rest) = _
    rw [Step.readAt_of_slot hslot', part_withPart_self hwrite]
    exact ih hinner

/-- The second of two paths into a value leaves the first one: it takes another slot of some container on the way. -/
inductive Diverges : Value → List Step → List Step → Prop where
  | here {u : Value} {s t : Step} {a b : Slot} (steps others : List Step) :
    s.slot? u = some a → t.slot? u = some b → a ≠ b → Diverges u (s :: steps) (t :: others)
  | deeper {u : Value} {s t : Step} {a : Slot} {steps others : List Step} :
    s.slot? u = some a → t.slot? u = some a → Diverges (u.part a) steps others →
      Diverges u (s :: steps) (t :: others)

/-- Along a path that leaves the one that was written, and does not count from the end of lists, the same is read, be
it a value or a failure. -/
theorem readAlong_of_diverges (hdiverges : Diverges u steps others) (hforward : ∀ t ∈ others, t.Forward)
    (h : writeAlong u steps v = .ok u') : readAlong u' others = readAlong u others := by
  induction hdiverges generalizing u' with
  | @here u s t a b steps others hs ht hne =>
    obtain ⟨slot, part, hslot, hwrite, _⟩ := writeAlong_cons_eq_ok.mp h
    obtain rfl : a = slot := Option.some.inj (hs.symm.trans hslot)
    have ht' : t.slot? u' = some b := Step.slot_withPart ht hwrite (.inl (hforward t List.mem_cons_self))
    show (do readAlong (← t.readAt u') others) = (do readAlong (← t.readAt u) others)
    rw [Step.readAt_of_slot ht', Step.readAt_of_slot ht, part_withPart_ne hwrite hne.symm]
  | @deeper u s t a steps others hs ht _ ih =>
    obtain ⟨slot, part, hslot, hwrite, hinner⟩ := writeAlong_cons_eq_ok.mp h
    obtain rfl : a = slot := Option.some.inj (hs.symm.trans hslot)
    have ht' : t.slot? u' = some a := Step.slot_withPart ht hwrite (.inr rfl)
    show (do readAlong (← t.readAt u') others) = (do readAlong (← t.readAt u) others)
    rw [Step.readAt_of_slot ht', Step.readAt_of_slot ht, part_withPart_self hwrite]
    exact ih (fun t ht => hforward t (List.mem_cons_of_mem _ ht)) hinner

end RowConsole.Script
