import RowConsole.Proofs.Script.Compared.Evaluation
import RowConsole.Script.Runtime
import RowConsole.Session.Context

/-!
# Bindings and Plain Maps

The bindings of a session differ from a plain map with the same entries only in that they refuse some names. A
script that assigns none of those names cannot tell the two stores apart, whatever else it does before it ends or
fails.

Main statement: `Bindings.run_values`.
-/

namespace RowConsole.Session

open Script (Attempt Cause Comparison Globals Machine Output Runtime Stmt Value runProgram)

/-! ## Section 1: Refusals -/

/-- Whether a failure is the refusal of a name. -/
def isRefusal : Cause → Bool
  | .rejectedName _ => true
  | _ => false

/-- Whether a run has come upon a name that its store refuses. Only the assignment of a global fails for such a
cause, and since nothing in a script catches a failure, a run that attempts one ends in it. -/
def isRefused {α β : Type} (outcome : Option (Attempt α × β)) : Bool :=
  match outcome with
  | some (.error (.script e), _) => isRefusal e.cause
  | _ => false

private theorem isRefused_map {α β δ : Type} (f : Attempt α × β → δ) (o : Option (Attempt α × β)) :
    isRefused (o.map fun r => (r.1, f r)) = isRefused o := by
  rcases o with _ | ⟨⟨_ | _⟩ | _, _⟩ <;> rfl

/-- The runtime hands on the result and the store of the program that it runs. -/
theorem runtime_run_eq {γ : Type} [Globals γ] (rt : Runtime) (source : String) (globals : γ) :
    rt.run source globals =
      match Script.parse source with
      | .error e => some (.error (.script e), globals, rt)
      | .ok program =>
        (runProgram rt.maxDepth rt.fuel program (Machine.start globals rt.serial rt.output)).map fun r =>
          (r.1, r.2.globals, { rt with serial := r.2.serial, output := r.2.output }) := by
  unfold Runtime.run
  cases Script.parse source with
  | error e => rfl
  | ok program =>
    dsimp only
    cases runProgram rt.maxDepth rt.fuel program (Machine.start globals rt.serial rt.output) <;> rfl

/-- Bindings are compared with the map of their entries, up to the first refused name. -/
def Bindings.comparison : Comparison Bindings (OrderedMap Value) where
  paired b entries := entries = b.values
  excused cause := isRefusal cause = true
  lookup_eq := by
    rintro b entries rfl name
    rfl
  assigned := by
    rintro b entries rfl name v
    cases hset : b.set name v with
    | ok b' =>
      have htaken : Globals.assign b name v = .ok b' := by
        show (match b.set name v with
          | .ok b => Except.ok b
          | .error e => .error e.message) = _
        rw [hset]
      have hvalues : b'.values = b.values.insert name v := by rw [Bindings.values_of_set hset]
      exact .inl ⟨b', b.values.insert name v, htaken, rfl, hvalues.symm⟩
    | error e =>
      have hrefused : Globals.assign b name v = .error e.message := by
        show (match b.set name v with
          | .ok b => Except.ok b
          | .error e => .error e.message) = _
        rw [hset]
      exact .inr ⟨e.message, hrefused, .inl rfl⟩

/-! ## Section 2: Runs -/

namespace Bindings

/-- Outcomes that do not differ are the same up to the store, unless the first one is a refusal. -/
theorem eq_of_outcomes {α : Type} {o : Option (Attempt α × Machine Bindings)}
    {o' : Option (Attempt α × Machine (OrderedMap Value))} (h : comparison.Outcomes o o')
    (hrefused : isRefused o = false) : o' = o.map fun r => (r.1, r.2.withStore r.2.globals.values) := by
  cases h with
  | cutOff => rfl
  | excused he => exact absurd he (ne_true_of_eq_false hrefused)
  | same hpaired =>
    obtain rfl := hpaired
    rfl

private theorem runProgram_values (limit fuel serial : Nat) (output : Output) (program : List Stmt) (b : Bindings)
    (hrefused : isRefused (runProgram limit fuel program (Machine.start b serial output)) = false) :
    runProgram limit fuel program (Machine.start b.values serial output) =
      (runProgram limit fuel program (Machine.start b serial output)).map fun r =>
        (r.1, r.2.withStore r.2.globals.values) := by
  -- both runs have the same number of frames at their disposal
  have hfollows := Comparison.Follows.runProgram (C := comparison) (Nat.le_refl limit)
    (fun h => absurd h (Nat.lt_irrefl limit)) fuel program
  exact eq_of_outcomes (hfollows (Machine.start b serial output) b.values rfl) hrefused

/-- A program, or a source, that does not come upon a refused name when it runs on bindings does the same on the
plain map of their entries: it ends or is cut off alike, with the same value or failure, the same output and serial
numbers, and it leaves the same entries in the same order. -/
theorem run_values (b : Bindings) :
    (∀ (limit fuel serial : Nat) (output : Output) (program : List Stmt),
      isRefused (runProgram limit fuel program (Machine.start b serial output)) = false →
      runProgram limit fuel program (Machine.start b.values serial output) =
        (runProgram limit fuel program (Machine.start b serial output)).map fun r =>
          (r.1, r.2.withStore r.2.globals.values)) ∧
    ∀ (rt : Runtime) (source : String), isRefused (rt.run source b) = false →
      rt.run source b.values = (rt.run source b).map fun r => (r.1, r.2.1.values, r.2.2) := by
  constructor
  · exact fun limit fuel serial output program => runProgram_values limit fuel serial output program b
  · -- A run of a source is one of its program, or fails in both stores alike.
    intro rt source hrefused
    rw [runtime_run_eq] at hrefused ⊢
    rw [runtime_run_eq]
    cases hparse : Script.parse source with
    | error e => rfl
    | ok program =>
      rw [hparse] at hrefused
      dsimp only at hrefused ⊢
      rw [isRefused_map] at hrefused
      rw [runProgram_values rt.maxDepth rt.fuel rt.serial rt.output program b hrefused, Option.map_map, Option.map_map]
      rfl

/-- A source that binds a name, writes and then fails, on the bindings of a new session. -/
theorem run_values_partial :
    let source := "def n = 20\nn += 1\nprintln(n)\nn / 0\nn = 3"
    let rt : Runtime := { fuel := 30 }
    isRefused (rt.run source Context.new.bindings) = false ∧
      (rt.run source Context.new.bindings).map (fun r => (r.1.isOk, r.2.1.names, r.2.2.output.text)) =
        some (false, ["repl", "terminal", "reader", "n"], "21\n") ∧
      rt.run source Context.new.bindings.values =
        (rt.run source Context.new.bindings).map fun r => (r.1, r.2.1.values, r.2.2) := by
  intro source rt
  have hrefused : isRefused (rt.run source Context.new.bindings) = false := by decide +kernel
  have hpartial : (rt.run source Context.new.bindings).map (fun r => (r.1.isOk, r.2.1.names, r.2.2.output.text)) =
      some (false, ["repl", "terminal", "reader", "n"], "21\n") := by decide +kernel
  exact ⟨hrefused, hpartial, (run_values Context.new.bindings).2 rt source hrefused⟩

end Bindings

end RowConsole.Session
