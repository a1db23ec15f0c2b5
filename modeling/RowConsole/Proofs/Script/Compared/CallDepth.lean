import RowConsole.Proofs.Script.Compared.Evaluation
import RowConsole.Script.Runtime

/-!
# More Frames

The limit on the number of frames only cuts runs off. A program that does not end because a call was too deep runs
with any larger limit as it did: no construct catches that failure, no method turns it into a result, and nothing
else in a run depends on the limit.

Main statement: `Runtime.run_eq_of_le`.
-/

namespace RowConsole.Script

variable {γ : Type} [Globals γ] {α β : Type}

/-! ## Section 1: Runs That Are Too Deep -/

/-- Whether a run has ended because a call would have needed more frames than `limit`. -/
def endsTooDeep (limit : Nat) (outcome : Option (Attempt α × β)) : Bool :=
  match outcome with
  | some (.error (.script e), _) => e.cause = .callTooDeep limit
  | _ => false

/-- A run is compared with one on the same store that has more frames at its disposal. -/
def Comparison.moreFrames (γ : Type) [Globals γ] (limit : Nat) : Comparison γ γ where
  paired g g' := g = g'
  excused cause := cause = .callTooDeep limit
  lookup_eq := by
    rintro g _ rfl name
    rfl
  assigned := by
    rintro g _ rfl name v
    cases hassign : Globals.assign g name v with
    | ok taken => exact .inl ⟨taken, taken, rfl, rfl, rfl⟩
    | error reason => exact .inr ⟨reason, rfl, .inr rfl⟩

/-- Outcomes that do not differ are the same, unless the first run was too deep. -/
theorem eq_of_outcomes_moreFrames {limit : Nat} {o o' : Option (Attempt α × Machine γ)}
    (h : (Comparison.moreFrames γ limit).Outcomes o o') (hdeep : endsTooDeep limit o = false) : o' = o := by
  cases h with
  | cutOff => rfl
  | @excused e m _ he =>
    have hcause : e.cause = .callTooDeep limit := he
    simp [endsTooDeep, hcause] at hdeep
  | @same r m g hpaired =>
    obtain rfl : m.globals = g := hpaired
    rfl

/-! ## Section 2: Programs and Sources -/

/-- A program that is not too deep does the same with a larger limit: it ends or is cut off alike, with the same
result, in the same machine. -/
theorem runProgram_eq_of_le {limit limit' : Nat} (hle : limit ≤ limit') (fuel : Nat) (program : List Stmt)
    (m : Machine γ) (hdeep : endsTooDeep limit (runProgram limit fuel program m) = false) :
    runProgram limit' fuel program m = runProgram limit fuel program m := by
  -- where the second run has more frames, the first one is excused if it has used up its own
  have hexcused : (Comparison.moreFrames γ limit).excused (.callTooDeep limit) := rfl
  have hfollows : (Comparison.moreFrames γ limit).Follows (runProgram limit fuel program)
      (runProgram limit' fuel program) :=
    Comparison.Follows.runProgram hle (fun _ => hexcused) fuel program
  exact eq_of_outcomes_moreFrames (hfollows m m.globals rfl) hdeep

/-- A source that does not end because a call was too deep does the same with any larger limit on the frames: it
ends or is cut off alike, with the same value or failure, it leaves the same globals, and it writes the same
output. -/
theorem Runtime.run_eq_of_le (rt : Runtime) (source : String) (globals : γ) {limit limit' : Nat}
    (hle : limit ≤ limit')
    (hdeep : endsTooDeep limit ({ rt with maxDepth := limit }.run source globals) = false) :
    { rt with maxDepth := limit' }.run source globals =
      ({ rt with maxDepth := limit }.run source globals).map fun (r : Attempt Value × γ × Runtime) =>
        (r.1, r.2.1, { r.2.2 with maxDepth := limit' }) := by
  unfold Runtime.run at hdeep ⊢
  cases hparse : parse source with
  | error e => rfl
  | ok program =>
    simp only [hparse] at hdeep ⊢
    -- The test on the whole run is the one on the run of the program that it makes.
    have hprogram : endsTooDeep limit (runProgram limit rt.fuel program (Machine.start globals rt.serial rt.output)) =
        false := by
      rw [← hdeep]
      rcases runProgram limit rt.fuel program (Machine.start globals rt.serial rt.output) with _ | ⟨⟨_ | _⟩ | _, _⟩ <;> rfl
    rw [runProgram_eq_of_le hle rt.fuel program _ hprogram]
    rcases runProgram limit rt.fuel program (Machine.start globals rt.serial rt.output) with _ | ⟨⟨_ | _⟩ | _, _⟩ <;> rfl

/-- A function that calls itself from a callback and fails in the innermost call, with just as many frames as it
needs and with any larger number of them. With one frame less it is too deep. -/
theorem Runtime.run_eq_of_le_callback :
    let source := "def f(n) \x7b\n println(n)\n if (n == 0) \x7b return missing \x7d\n [n].map \x7b f(it - 1) \x7d\n\x7d\nlast = 1\nf(1)"
    let outcome (limit : Nat) := { maxDepth := limit, fuel := 60 : Runtime }.run source ([] : OrderedMap Value)
    endsTooDeep 3 (outcome 3) = true ∧ endsTooDeep 4 (outcome 4) = false ∧
      (outcome 4).map (fun r => (r.1.isOk, OrderedMap.keys r.2.1, r.2.2.output.text)) = some (false, ["f", "last"], "1\n0\n") ∧
      ∀ limit, 4 ≤ limit →
        outcome limit = (outcome 4).map fun r => (r.1, r.2.1, { r.2.2 with maxDepth := limit }) := by
  intro source outcome
  -- what is run with three and with four frames is read once
  have hruns : endsTooDeep 3 (outcome 3) = true ∧ endsTooDeep 4 (outcome 4) = false ∧
      (outcome 4).map (fun r => (r.1.isOk, OrderedMap.keys r.2.1, r.2.2.output.text)) =
        some (false, ["f", "last"], "1\n0\n") := by decide +kernel
  obtain ⟨htooDeep, hdeep, hends⟩ := hruns
  exact ⟨htooDeep, hdeep, hends, fun limit hle => Runtime.run_eq_of_le { fuel := 60 } source [] hle hdeep⟩

end RowConsole.Script
