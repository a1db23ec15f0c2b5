import RowConsole.Proofs.Script.Judgement
import RowConsole.Script.Method

/-!
# Calls for the Items of a List

The methods that call a function for each item of a list share one loop: the function is called for one item after the
other, in the order of the list, and each call starts where the one before it has ended.

Main statement: `KeysMade.callEach`.
-/

namespace RowConsole.Script

variable {γ : Type} {call : Caller γ} {f : Value} {items keys : List Value} {m m' : Machine γ}

/-- The keys that a function makes of some items: it is called once for each of them, in their order. -/
inductive KeysMade (call : Caller γ) (f : Value) : List Value → Machine γ → List Value → Machine γ → Prop where
  | nil (m : Machine γ) : KeysMade call f [] m [] m
  | cons {item key : Value} {items keys : List Value} {m m' m'' : Machine γ} :
    call f [item] m = some (.ok key, m') → KeysMade call f items m' keys m'' →
      KeysMade call f (item :: items) m (key :: keys) m''

/-- One key is made for each item. -/
theorem KeysMade.length_eq (h : KeysMade call f items m keys m') : keys.length = items.length := by
  induction h with
  | nil m => rfl
  | cons _ _ ih => rw [List.length_cons, List.length_cons, ih]

/-- The first call of the loop, and what is left of it. -/
theorem callEach_cons {item key : Value} (hcall : call f [item] m = some (.ok key, m')) (rest : List Value) :
    callEach call f (item :: rest) m = (do return (item, key) :: (← callEach call f rest) : Run γ _) m' := by
  have hitem : (do return (item, ← call f [item]) : Run γ (Value × Value)) m = some (.ok (item, key), m') :=
    Run.bind_of_ok hcall
  rw [callEach, List.mapM_cons, Run.bind_of_ok hitem]
  rfl

/-- Where a function makes keys of all items, the loop gives the items with their keys. -/
theorem KeysMade.callEach (h : KeysMade call f items m keys m') :
    Script.callEach call f items m = some (.ok (items.zip keys), m') := by
  induction h with
  | nil m => rfl
  | cons hcall _ ih =>
    rw [callEach_cons hcall]
    exact Run.bind_of_ok ih

end RowConsole.Script
