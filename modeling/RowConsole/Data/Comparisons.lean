/-!
# Asking for Comparisons

What an algorithm does that knows nothing of some things but how they compare: it asks how two of them compare, and
what it asks next depends on the answers. It ends with a result, or it gives up because the answers contradict each
other.
-/

namespace RowConsole

variable {ι α β : Type}

/-- A computation that asks how things compare. -/
inductive Comparisons (ι α : Type) where
  | done (a : α)
  /-- The answers contradict each other. -/
  | contradiction
  | ask (i j : ι) (next : Ordering → Comparisons ι α)

namespace Comparisons

/-- A computation that goes on with what another one has found. -/
def bind : Comparisons ι α → (α → Comparisons ι β) → Comparisons ι β
  | .done a, next => next a
  | .contradiction, _ => .contradiction
  | .ask i j answered, next => .ask i j fun o => (answered o).bind next

instance : Monad (Comparisons ι) where
  pure := .done
  bind := bind

/-- Asks whether one thing comes before another. -/
def less (i j : ι) : Comparisons ι Bool :=
  .ask i j fun o => .done (o == .lt)

/-- What is found with given answers, and whether some answer was missing, which then counts as equal; nothing if the
answers contradict each other. -/
def record (answer : ι → ι → Option Ordering) (missed : Bool) : Comparisons ι α → Option (α × Bool)
  | .done a => some (a, missed)
  | .contradiction => none
  | .ask i j next =>
    match answer i j with
    | some o => (next o).record answer missed
    | none => (next .eq).record answer true

end Comparisons

end RowConsole
