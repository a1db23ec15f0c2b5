import RowConsole.Session.Workspace

/-!
# Operations Are Atomic

The operations that change a session are gathered in one type, and for each of them it is said once what it
can do to the workspace. Main statement: an operation that fails leaves the whole context as it was, whatever
the engine is and whatever the code had written before it failed.
-/

namespace RowConsole.Session

open Script (Runtime ScriptError ScriptResult Value)

variable {ε : Type} [Engine ε]

/-! ## Section 1: Operations -/

/-- The operations by which input changes a workspace. -/
inductive Operation where
  | evaluate (code : String)
  | declareVariable (name expr : String)
  | assign (name expr : String)
  | declareFunction (name source : String)
  | registerScript (name body : String)
  | setVariable (name : String) (v : Value)

namespace Operation

/-- An answer without the value that it may carry. -/
def dropValue {α : Type} (answer : Option (Outcome α × Workspace ε)) :
    Option (Outcome Unit × Workspace ε) :=
  answer.map fun (r, w) => (r.map fun _ => (), w)

/-- Whether an operation succeeds, and the workspace behind it. There is no answer when its code does not come
to an end. -/
def run (w : Workspace ε) : Operation → Option (Outcome Unit × Workspace ε)
  | .evaluate code => dropValue (w.evaluate code)
  | .declareVariable name expr => dropValue (w.declareVariable name expr)
  | .assign name expr => dropValue (w.assign name expr)
  | .declareFunction name source => some (w.declareFunction name source)
  | .registerScript name body => some (w.registerScript name body)
  | .setVariable name v => some (w.setVariable name v)

end Operation

/-! ## Section 2: What an Operation Can Do -/

namespace Workspace

/-- Running code either succeeds and keeps what the engine wrote, or fails and changes nothing but the
engine. -/
theorem runAtomic_cases {w w' : Workspace ε} {code : String} {r : ScriptResult Value}
    (h : w.runAtomic code = some (r, w')) :
    ∃ bindings engine, Engine.evaluate w.engine code w.context.bindings = some (r, bindings, engine) ∧
      ((∃ v, r = .ok v ∧ w' = ⟨engine, { w.context with bindings := bindings }⟩) ∨
        (∃ e, r = .error e ∧ w' = ⟨engine, w.context⟩)) := by
  simp only [runAtomic] at h
  split at h
  · contradiction
  · next result bindings engine heval =>
    cases result with
    | error e =>
      obtain ⟨rfl, rfl⟩ := Prod.mk.inj (Option.some.inj h)
      exact ⟨bindings, engine, heval, Or.inr ⟨e, rfl, rfl⟩⟩
    | ok v =>
      obtain ⟨rfl, rfl⟩ := Prod.mk.inj (Option.some.inj h)
      exact ⟨bindings, engine, heval, Or.inl ⟨v, rfl, rfl⟩⟩

omit [Engine ε] in
/-- Binding a value succeeds exactly for the names that may be bound, and changes only the bindings. -/
theorem setVariable_cases (w : Workspace ε) (name : String) (v : Value) :
    (∃ bindings, w.context.bindings.set name v = .ok bindings ∧
      w.setVariable name v = (.ok (), { w with context := { w.context with bindings := bindings } })) ∨
    (∃ e, w.context.bindings.set name v = .error e ∧
      w.setVariable name v = (.error (.binding e), w)) := by
  cases hset : w.context.bindings.set name v with
  | ok bindings => exact Or.inl ⟨bindings, rfl, by simp [setVariable, hset]⟩
  | error e => exact Or.inr ⟨e, rfl, by simp [setVariable, hset]⟩

/-- Defining a function either binds it and registers it under its source, or fails and changes nothing but
the engine. -/
theorem declareFunction_cases (w : Workspace ε) (name source : String) :
    (∃ handle bindings, (Engine.compileFunction w.engine name source).1 = .ok handle ∧
      w.context.bindings.set name handle = .ok bindings ∧
      w.declareFunction name source =
        (.ok (), ⟨(Engine.compileFunction w.engine name source).2,
          { w.context with
            bindings := bindings,
            functions := w.context.functions.register ⟨name, source, handle⟩ }⟩)) ∨
    (∃ fault engine, w.declareFunction name source = (.error fault, ⟨engine, w.context⟩)) := by
  -- Three checks can fail: the name, the definition and the binding, and the context is written behind them all.
  unfold declareFunction
  cases checkName name with
  | error e => exact Or.inr ⟨.binding e, w.engine, rfl⟩
  | ok u =>
    obtain ⟨compiled, engine⟩ := Engine.compileFunction w.engine name source
    cases compiled with
    | error e => exact Or.inr ⟨.functionDefinition e, engine, rfl⟩
    | ok handle =>
      cases hset : w.context.bindings.set name handle with
      | error e => exact Or.inr ⟨.binding e, engine, by simp [hset]⟩
      | ok bindings => exact Or.inl ⟨handle, bindings, rfl, hset, by simp [hset]⟩

/-! ## Section 3: Failed Operations -/

/-- Code that fails leaves the context as it was. -/
theorem runAtomic_error {w w' : Workspace ε} {code : String} {e : ScriptError}
    (h : w.runAtomic code = some (.error e, w')) : w'.context = w.context := by
  obtain ⟨_, _, _, hcase⟩ := runAtomic_cases h
  rcases hcase with ⟨v, hv, _⟩ | ⟨_, _, rfl⟩
  · contradiction
  · rfl

/-- An evaluation that fails leaves the context as it was. -/
theorem evaluate_error {w w' : Workspace ε} {code : String} {e : Fault}
    (h : w.evaluate code = some (.error e, w')) : w'.context = w.context := by
  unfold evaluate at h
  split at h
  · contradiction
  · next hrun =>
    obtain ⟨_, rfl⟩ := Prod.mk.inj (Option.some.inj h)
    exact runAtomic_error hrun
  · next => simp at h

/-- A binding statement that fails leaves the context as it was. -/
theorem bindStatement_error {w w' : Workspace ε} {name statement : String} {e : ScriptError}
    (h : w.bindStatement name statement = some (.error e, w')) : w'.context = w.context := by
  unfold bindStatement at h
  split at h
  · contradiction
  · next hrun =>
    obtain ⟨_, rfl⟩ := Prod.mk.inj (Option.some.inj h)
    exact runAtomic_error hrun
  · next => simp at h

/-- A declaration that fails leaves the context as it was. -/
theorem declareVariable_error {w w' : Workspace ε} {name expr : String} {e : Fault}
    (h : w.declareVariable name expr = some (.error e, w')) : w'.context = w.context := by
  unfold declareVariable at h
  split at h
  · obtain ⟨_, rfl⟩ := Prod.mk.inj (Option.some.inj h)
    rfl
  · split at h
    · contradiction
    · next hrun =>
      obtain ⟨_, rfl⟩ := Prod.mk.inj (Option.some.inj h)
      exact bindStatement_error hrun
    · next => simp at h

/-- An assignment that fails leaves the context as it was. -/
theorem assign_error {w w' : Workspace ε} {name expr : String} {e : Fault}
    (h : w.assign name expr = some (.error e, w')) : w'.context = w.context := by
  unfold assign at h
  split at h
  · obtain ⟨_, rfl⟩ := Prod.mk.inj (Option.some.inj h)
    rfl
  · split at h
    · contradiction
    · next hrun =>
      obtain ⟨_, rfl⟩ := Prod.mk.inj (Option.some.inj h)
      exact bindStatement_error hrun
    · next => simp at h

/-- A definition that fails leaves the context as it was. -/
theorem declareFunction_error {w w' : Workspace ε} {name source : String} {e : Fault}
    (h : w.declareFunction name source = (.error e, w')) : w'.context = w.context := by
  rcases declareFunction_cases w name source with ⟨handle, bindings, _, _, hok⟩ | ⟨fault, engine, herr⟩
  · rw [hok] at h
    simp at h
  · obtain ⟨_, rfl⟩ := Prod.mk.inj (herr.symm.trans h)
    rfl

omit [Engine ε] in
/-- A value that cannot be bound leaves the context as it was. -/
theorem setVariable_error {w w' : Workspace ε} {name : String} {v : Value} {e : Fault}
    (h : w.setVariable name v = (.error e, w')) : w'.context = w.context := by
  unfold setVariable at h
  split at h
  · obtain ⟨_, rfl⟩ := Prod.mk.inj h
    rfl
  · simp at h

end Workspace

namespace Operation

omit [Engine ε] in
/-- Dropping the value of an answer keeps its fault. -/
theorem eq_error_of_dropValue {α : Type} {answer : Option (Outcome α × Workspace ε)}
    {w' : Workspace ε} {e : Fault} (h : dropValue answer = some (.error e, w')) :
    answer = some (.error e, w') := by
  obtain ⟨⟨r, w₁⟩, rfl, hr⟩ := Option.map_eq_some_iff.mp h
  cases r with
  | error e₁ =>
    obtain ⟨he, rfl⟩ := Prod.mk.inj hr
    rw [Except.error.inj he]
  | ok a => simp [Except.map] at hr

/-- An operation that fails leaves the bindings, the functions, the debug flag and the open block exactly as
they were, whatever its code had bound before it failed. -/
theorem context_eq_of_failed {w w' : Workspace ε} {op : Operation} {e : Fault}
    (h : op.run w = some (.error e, w')) : w'.context = w.context := by
  cases op with
  | evaluate code => exact Workspace.evaluate_error (eq_error_of_dropValue h)
  | declareVariable name expr => exact Workspace.declareVariable_error (eq_error_of_dropValue h)
  | assign name expr => exact Workspace.assign_error (eq_error_of_dropValue h)
  | declareFunction name source => exact Workspace.declareFunction_error (Option.some.inj h)
  | registerScript name body => exact Workspace.declareFunction_error (Option.some.inj h)
  | setVariable name v => exact Workspace.setVariable_error (Option.some.inj h)

/-- Two statements of which the second one fails: the engine has bound `a` by then, and the context is the one
of before all the same. -/
theorem context_eq_of_failed_second_statement :
    let w : Workspace Runtime := ⟨{ fuel := 20 }, Context.new⟩
    let code := "a = 1\nb = missing + 1"
    (∃ e bindings engine,
      Engine.evaluate w.engine code w.context.bindings = some (.error e, bindings, engine) ∧
        bindings.contains "a" = true) ∧
      ∃ e w', (Operation.evaluate code).run w = some (.error e, w') ∧ w'.context = w.context := by
  intro w code
  -- The engine did assign `a` before it failed; the bindings it left are thrown away.
  have hrun : ((Engine.evaluate w.engine code w.context.bindings).any fun outcome =>
      !outcome.1.toBool && outcome.2.1.contains "a") = true := by decide +kernel
  obtain ⟨⟨result, bindings, engine⟩, heval, hassigned⟩ := (Option.any_eq_true _ _).mp hrun
  cases result with
  | ok v => exact absurd hassigned Bool.false_ne_true
  | error e =>
    have hfailed : (Operation.evaluate code).run w =
        some (.error (.evaluation e), ⟨engine, w.context⟩) := by
      simp only [run, Workspace.evaluate, Workspace.runAtomic, heval]
      rfl
    exact ⟨⟨e, bindings, engine, heval, hassigned⟩, _, _, hfailed, context_eq_of_failed hfailed⟩

end Operation

end RowConsole.Session
