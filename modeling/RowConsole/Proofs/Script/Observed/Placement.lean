import RowConsole.Proofs.Script.Observed.Interpreter

/-!
# The Position of an Error

An observer notes the position that a failure has whenever it leaves a construct: an expression, a statement, a write
to a place, a call or the body of a routine. The notes are in order, those of the innermost constructs first. They
tell that a failure has its position from the first construct on, and that no construct around it gives it another
one. Only a stray `break` or `continue` may leave constructs without a position.

Main statement: `runProgram_position`.
-/

namespace RowConsole.Script

variable {γ α : Type}

/-! ## Section 1: Notes -/

/-- Notes the position of an error. -/
def notePosition (run : Run (Watched γ (List (Option Pos))) α) : Run (Watched γ (List (Option Pos))) α := fun m =>
  (run m).bind fun
    | (.error (.script e), m') =>
      some (.error (.script e), { m' with globals := { m'.globals with seen := m'.globals.seen ++ [e.pos] } })
    | ended => some ended

/-- Notes the positions of errors around every construct. -/
def positionsOfFailures : Observer (Watched γ (List (Option Pos))) where
  expr := notePosition
  stmt := notePosition
  target := notePosition
  call := notePosition
  body _ _ := notePosition

variable [Globals γ]

/-- Noting positions changes nothing but the notes. -/
private theorem Comparison.Follows.notePosition {run : Run (Watched γ (List (Option Pos))) α} {run' : Run γ α}
    (h : Comparison.unwatched.Follows run run') : Comparison.unwatched.Follows (Script.notePosition run) run' := by
  intro m g hg
  have hsame := h m g hg
  unfold Script.notePosition
  revert hsame
  generalize run m = ended
  generalize run' (m.withStore g) = ended'
  rintro (_ | hexcused | @⟨r, m₁, g₁, hg₁⟩)
  · exact .cutOff
  · exact hexcused.elim
  · -- Noting writes to what is seen only, which the comparison leaves out.
    cases r with
    | ok a => exact .same hg₁
    | error e =>
      cases e with
      | script e =>
        let noted := { m₁ with globals := { m₁.globals with seen := m₁.globals.seen ++ [e.pos] } }
        exact Comparison.Outcomes.same (C := Comparison.unwatched) (m := noted) hg₁
      | crash c => exact .same hg₁

/-- An observer that notes positions does not change what a program does. -/
private theorem positionsOfFailures_transparent :
    positionsOfFailures.Transparent (Comparison.unwatched (γ := γ)) where
  expr h := h.notePosition
  stmt h := h.notePosition
  target h := h.notePosition
  call h := h.notePosition
  body _ _ h := h.notePosition

/-! ## Section 2: One Position for Each Failure -/

/-- A failure has a position wherever it was noted, unless it is about a stray `break` or `continue`; and it has kept
every position that it had. -/
structure ScriptError.KeepsPosition (e : ScriptError) (noted : List (Option Pos)) : Prop where
  placed : e.cause ≠ .strayLoopControl → e.pos.isSome ∧ none ∉ noted
  kept : ∀ p, some p ∈ noted → e.pos = some p

namespace ScriptError.KeepsPosition

variable {e : ScriptError} {noted : List (Option Pos)}

/-- A position is attached where none is. -/
theorem located (h : e.KeepsPosition noted) (p : Pos) : (e.located p).KeepsPosition noted := by
  obtain ⟨cause, pos, trace⟩ := e
  cases pos with
  | some q => exact h
  | none =>
    constructor
    · intro hcause
      have hplaced := (h.placed hcause).1
      contradiction
    · intro q hq
      have hkept := h.kept q hq
      contradiction

/-- A call in the trace leaves the position alone. -/
theorem inCall (h : e.KeepsPosition noted) (name : String) (p : Pos) : (e.inCall name p).KeepsPosition noted :=
  ⟨h.placed, h.kept⟩

/-- Its own position may be noted of a failure. -/
theorem note (h : e.KeepsPosition noted) : e.KeepsPosition (noted ++ [e.pos]) where
  placed hcause := by
    obtain ⟨hplaced, hnoted⟩ := h.placed hcause
    refine ⟨hplaced, fun hnone => ?_⟩
    rcases List.mem_append.mp hnone with hearlier | hnow
    · exact hnoted hearlier
    · rw [← List.mem_singleton.mp hnow] at hplaced
      contradiction
  kept p hp := by
    rcases List.mem_append.mp hp with hearlier | hnow
    · exact h.kept p hearlier
    · exact (List.mem_singleton.mp hnow).symm

end ScriptError.KeepsPosition

/-- Nothing is noted before a failure, and a failure keeps its position. -/
def keepingPositions : Ending (Watched γ (List (Option Pos))) where
  running w := w.seen = []
  failed e w := e.KeepsPosition w.seen
  assigned hw h := (Watched.seen_of_assign h).trans hw
  raised p hw _ := by
    rw [hw]
    exact ⟨fun _ => ⟨rfl, List.not_mem_nil⟩, fun _ h => absurd h List.not_mem_nil⟩
  located p h := h.located p

/-- Where nothing is noted, a stray `break` or `continue` may do without a position. -/
theorem keepsPosition_stray {noted : List (Option Pos)} (hnoted : noted = []) :
    ScriptError.KeepsPosition { cause := .strayLoopControl } noted := by
  rw [hnoted]
  exact ⟨fun h => absurd rfl h, fun _ h => absurd h List.not_mem_nil⟩

/-- A failure that has kept its position does so once it is noted. -/
private theorem Ending.Governs.notePosition {run : Run (Watched γ (List (Option Pos))) α}
    (h : keepingPositions.Governs run) : keepingPositions.Governs (Script.notePosition run) := by
  intro m hm
  have hended := h m hm
  unfold Script.notePosition
  revert hended
  generalize run m = ended
  rcases ended with _ | ⟨⟨e | c⟩ | a, m'⟩
  -- Only a failure is noted: a run that is cut off, one that has crashed and a result are passed on.
  · exact id
  · exact ScriptError.KeepsPosition.note
  · exact id
  · exact id

/-- Wherever this observer looks, failures keep their positions. -/
private theorem positionsOfFailures_within :
    positionsOfFailures.Within fun _ : Unit => keepingPositions (γ := γ) where
  expr h := h.notePosition
  stmt h := h.notePosition
  target h := h.notePosition
  call h := h.notePosition
  body := by
    intro _ limit fuel routine p frame hrun
    have hbody := (hrun ()).notePosition.withFrame frame
    -- a stray `break` or `continue` fails behind the body, and the failure goes on to the call without a position
    refine (hbody.bind fun flow => ?_).mapFailure rfl fun e w h => h.inCall routine.displayName p
    cases flow with
    | next v | returned v => exact Ending.Governs.pure v
    | broke | continued => exact Ending.Governs.throw fun _ => keepsPosition_stray

/-! ## Section 3: Programs -/

/-- If a program ends in an error, then the error has a position, and had it wherever it left a construct, unless it is
about a stray `break` or `continue`. Each position that it had anywhere is the one that it has in the end. -/
theorem runProgram_position {limit fuel : Nat} {program : List Stmt} {m m' : Machine γ} {e : ScriptError}
    (hrun : runProgram limit fuel program m = some (.error (.script e), m')) :
    ∃ noted, runObserved positionsOfFailures limit fuel program (m.watched []) =
        some (.error (.script e), m'.watched noted) ∧
      (e.cause ≠ .strayLoopControl → e.pos.isSome ∧ none ∉ noted) ∧ ∀ p, some p ∈ noted → e.pos = some p := by
  -- Watched, the program ends in the same error; what the notes say then holds of the run without an observer.
  obtain ⟨noted, hobserved⟩ := runObserved_of_runProgram positionsOfFailures_transparent [] hrun
  have hended := positionsOfFailures_within.program () (fun _ => keepsPosition_stray) limit fuel program
    (m.watched []) rfl
  rw [hobserved] at hended
  obtain ⟨hplaced, hkept⟩ : e.KeepsPosition noted := hended
  exact ⟨noted, hobserved, hplaced, hkept⟩

/-- A function that divides by zero, called for the items of a list inside of a loop. -/
def divisionBelowCallback : List Stmt :=
  [.function "half" ["n"] [.returns (some (.binary .div (.int 1) (.var "n" ⟨2, 14⟩) ⟨2, 12⟩))] ⟨1, 1⟩,
    .forLoop "n" (.list [.int 1, .int 0])
      [.expr (.method (.list [.var "n" ⟨4, 4⟩]) "map"
        [.closure ["x"] [.expr (.call (.var "half" ⟨4, 20⟩) [.var "x" ⟨4, 25⟩] ⟨4, 24⟩)] ⟨4, 11⟩] ⟨4, 6⟩)] ⟨3, 1⟩]

/-- The function fails inside of a closure, inside of a method, inside of a loop. The error is at the division, and
none of the constructs around it has given it another position. -/
theorem runProgram_position_callback :
    let run : Run (OrderedMap Value) Value := runProgram 10 30 divisionBelowCallback
    let e : ScriptError :=
      { cause := .divisionByZero
        pos := some ⟨2, 12⟩
        trace := [⟨"half", ⟨4, 24⟩⟩, ⟨"<closure>", ⟨4, 6⟩⟩] }
    ∃ m', run (Machine.start [] 0) = some (.error (.script e), m') ∧
      ∃ noted, runObserved positionsOfFailures 10 30 divisionBelowCallback ((Machine.start [] 0).watched []) =
          some (.error (.script e), m'.watched noted) ∧
        none ∉ noted ∧ ∀ p, some p ∈ noted → p = ⟨2, 12⟩ := by
  intro run e
  have hfails : failureOf (run (Machine.start [] 0)) = some e := by decide +kernel
  obtain ⟨m', hrun⟩ := exists_of_failureOf hfails
  obtain ⟨noted, hobserved, hplaced, hkept⟩ := runProgram_position hrun
  have hnoted : none ∉ noted := (hplaced (by decide)).2
  exact ⟨m', hrun, noted, hobserved, hnoted, fun p hp => (Option.some.inj (hkept p hp)).symm⟩

end RowConsole.Script
