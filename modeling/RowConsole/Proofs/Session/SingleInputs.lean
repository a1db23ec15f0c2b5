import RowConsole.Proofs.Session.Faults

/-!
# Single Inputs

An input that is evaluated without the loop is answered to the caller, and the console is there for the loop. The
fault of an expression is the caller's: the answer has its text, and the console is left alone. The fault of a
declaration, an assignment, a definition or a command is reported to the console as it is in the loop, and the caller
is told that the input is done.

Main statement: `evalLine_faults`, who is told of which fault.
-/

namespace RowConsole.Session

open Script (Runtime ScriptError Value)

variable {ε : Type} [Engine ε]

/-! ## Section 1: Faults and the Session -/

omit [Engine ε] in
private theorem finish_of_error {s : Session ε} {confirmation : Option String} {f : Fault} {w' : Workspace ε}
    (hcontext : w'.context = s.context) :
    ∃ s', s.finish confirmation (some (.error f, w')) = some s' ∧ s'.context = s.context :=
  ⟨_, rfl, (congrArg Workspace.context (workspace_print _ _ _)).trans hcontext⟩

/-- A fault comes with an answer, and changes neither the bindings nor the debug flag. -/
theorem exists_dispatch_of_fault {s : Session ε} {input : Input} {f : Fault} (h : s.fault? input = some f) :
    ∃ s', s.dispatch input = some s' ∧ s'.context = s.context := by
  -- A fault is that of the one operation of the input, which leaves the context when it fails.
  cases input with
  | command name args =>
    refine ⟨_, rfl, ?_⟩
    show (dispatchCommand s.workspace s.console name args).1 = s.context
    unfold dispatchCommand
    unfold fault? at h
    dsimp only at h
    cases hcommand : Command.ofName? name with
    | none => rfl
    | some command =>
      rw [hcommand] at h
      dsimp only
      rw [faultOf_eq_some_iff.mp h]
      rfl
  | declaration k name expr =>
    obtain ⟨w', hrun⟩ := eq_error_of_faultOf h
    rw [dispatch, hrun]
    exact finish_of_error (Workspace.declareVariable_error hrun)
  | functionDefinition name source =>
    have hrun : s.workspace.declareFunction name source =
        (.error f, (s.workspace.declareFunction name source).2) :=
      Prod.ext (faultOf_eq_some_iff.mp h) rfl
    rw [dispatch_functionDefinition, faultOf_eq_some_iff.mp h]
    exact finish_of_error (Workspace.declareFunction_error hrun)
  | assignment name expr =>
    obtain ⟨w', hrun⟩ := eq_error_of_faultOf h
    rw [dispatch, hrun]
    exact finish_of_error (Workspace.assign_error hrun)
  | expression text =>
    obtain ⟨w', hrun⟩ := eq_error_of_faultOf h
    rw [dispatch, hrun]
    exact finish_of_error (Workspace.evaluate_error hrun)
  | _ => contradiction

/-! ## Section 2: Answers -/

variable {s : Session ε} {code text : String}

private theorem evalLine_of_expression (h : classify code = .expression text) :
    s.evalLine code = (s.workspace.evaluate text).map fun r =>
      (match r.1 with
        | .ok v => if v.isNull then .done else .value v
        | .error f => .failed (describe { s with workspace := r.2, phase := .idle } f),
      { s with workspace := r.2, phase := .idle }) := by
  unfold evalLine
  rw [h]
  dsimp only
  rcases s.workspace.evaluate text with _ | ⟨_ | _, _⟩ <;> rfl

private theorem evalLine_of_routed (hincomplete : classify code ≠ .incomplete)
    (hexpression : ∀ text, classify code ≠ .expression text) :
    s.evalLine code = (s.dispatch (classify code)).map fun s' => (.done, s') := by
  unfold evalLine
  split
  · next h => exact absurd h hincomplete
  · next text h => exact absurd h (hexpression text)
  · rfl

/-- A fault that is not of an expression is answered as done. -/
theorem evalLine_of_fault {f : Fault} (h : s.fault? (classify code) = some f)
    (hexpression : ∀ text, classify code ≠ .expression text) :
    ∃ s', s.evalLine code = some (.done, s') ∧ s.dispatch (classify code) = some s' ∧ s'.context = s.context := by
  have hincomplete : classify code ≠ .incomplete := by
    intro hinput
    rw [hinput] at h
    contradiction
  obtain ⟨s', hdispatch, hcontext⟩ := exists_dispatch_of_fault h
  refine ⟨s', ?_, hdispatch, hcontext⟩
  rw [evalLine_of_routed hincomplete hexpression, hdispatch]
  rfl

omit [Engine ε] in
/-- What a caller is told about the fault of an expression, spelled out. -/
theorem describe_evaluation (e : ScriptError) :
    s.describe (.evaluation e) =
      "Error evaluating expression: " ++ e.message ++ if s.context.debug then "\n" ++ e.diagnostic else "" := by
  unfold describe
  cases s.context.debug with
  | true => rw [if_pos rfl, ← String.append_assoc]; rfl
  | false => rw [if_neg Bool.false_ne_true, String.append_empty]; rfl

/-- An evaluation fails with a fault of its own kind. -/
theorem eq_evaluation_of_error {f : Fault} {w' : Workspace ε} (h : s.workspace.evaluate text = some (.error f, w')) :
    ∃ e, f = .evaluation e := by
  rw [Workspace.evaluate_eq] at h
  obtain ⟨⟨_ | e, w₁⟩, _, heq⟩ := Option.map_eq_some_iff.mp h
  · cases heq
    exact ⟨_, rfl⟩
  · cases heq

/-- An expression that fails is answered with the message of the failure. -/
theorem evalLine_of_evaluation_error {e : ScriptError} {w' : Workspace ε}
    (hexpression : classify code = .expression text)
    (hrun : s.workspace.evaluate text = some (.error (.evaluation e), w')) :
    s.evalLine code = some
      (.failed
        ("Error evaluating expression: " ++ e.message ++ if s.context.debug then "\n" ++ e.diagnostic else ""),
      { s with workspace := w', phase := .idle }) := by
  -- the flag is read behind the evaluation, which has left it as it was
  have hdebug : ({ s with workspace := w', phase := .idle } : Session ε).context.debug = s.context.debug :=
    congrArg Context.debug (Workspace.evaluate_error hrun)
  rw [evalLine_of_expression hexpression, hrun, ← hdebug, ← describe_evaluation]
  rfl

/-- Nothing but an expression that fails is answered as a failure. -/
theorem exists_evaluation_error_of_evalLine {message : String} {s' : Session ε}
    (h : s.evalLine code = some (.failed message, s')) :
    ∃ text e w', classify code = .expression text ∧ s.workspace.evaluate text = some (.error (.evaluation e), w') := by
  -- an input that needs more lines is answered as such, and one that is routed as done
  by_cases hincomplete : classify code = .incomplete
  · simp [evalLine, hincomplete] at h
  by_cases hexpression : ∃ text, classify code = .expression text
  · obtain ⟨text, htext⟩ := hexpression
    rw [evalLine_of_expression htext] at h
    obtain ⟨⟨outcome, w'⟩, hrun, heq⟩ := Option.map_eq_some_iff.mp h
    cases outcome with
    | ok v =>
      dsimp only at heq
      split at heq <;> cases heq
    | error f =>
      obtain ⟨e, rfl⟩ := eq_evaluation_of_error hrun
      exact ⟨text, e, w', htext, hrun⟩
  · rw [evalLine_of_routed hincomplete fun text htext => hexpression ⟨text, htext⟩] at h
    obtain ⟨_, _, heq⟩ := Option.map_eq_some_iff.mp h
    cases heq

/-- The caller is told that an input failed just when it is an expression whose evaluation fails, and is told the
message of the failure, in debug mode with the diagnostic. Any other input that fails is answered as done: its fault is
on the console. -/
theorem evalLine_faults (s : Session ε) (code : String) :
    (∀ message, (∃ s', s.evalLine code = some (.failed message, s')) ↔
      ∃ text e w', classify code = .expression text ∧
        s.workspace.evaluate text = some (.error (.evaluation e), w') ∧
        message =
          "Error evaluating expression: " ++ e.message ++ if s.context.debug then "\n" ++ e.diagnostic else "") ∧
      ∀ f, s.fault? (classify code) = some f → (∀ text, classify code ≠ .expression text) →
        ∃ s' more, s.evalLine code = some (.done, s') ∧ s'.context = s.context ∧
          s'.console = s.console.tell s.context.debug (.failed f :: more) := by
  refine ⟨fun message => ⟨?_, ?_⟩, ?_⟩
  · rintro ⟨s', h⟩
    obtain ⟨text, e, w', hexpression, hrun⟩ := exists_evaluation_error_of_evalLine h
    rw [evalLine_of_evaluation_error hexpression hrun] at h
    obtain ⟨hmessage, _⟩ := Prod.mk.inj (Option.some.inj h)
    exact ⟨text, e, w', hexpression, hrun, (EvalResult.failed.inj hmessage).symm⟩
  · rintro ⟨text, e, w', hexpression, hrun, rfl⟩
    exact ⟨_, evalLine_of_evaluation_error hexpression hrun⟩
  · -- Faults of other inputs are printed by the session, and the line is reported as done.
    intro f hf hexpression
    obtain ⟨s', hdone, hdispatch, hcontext⟩ := evalLine_of_fault hf hexpression
    obtain ⟨more, hconsole, _⟩ := console_of_fault hf hdispatch
    exact ⟨s', more, hdone, hcontext, hcontext ▸ hconsole⟩

/-- A declaration whose initial value has no meaning. -/
theorem classify_missing : classify "def x = missing" = .declaration .defines "x" "missing" := by decide +kernel

private theorem classify_missing_ne_expression (text : String) : classify "def x = missing" ≠ .expression text := by
  intro h
  rw [classify_missing] at h
  cases h

private theorem exists_fault_missing :
    ∃ f, fault? (Session.new ({} : Runtime) {}) (classify "def x = missing") = some f := by
  have hfails : (fault? (Session.new ({} : Runtime) {}) (classify "def x = missing")).isSome = true := by
    decide +kernel
  exact Option.isSome_iff_exists.mp hfails

theorem evalLine_faults_missing :
    (∀ text, classify "def x = missing" ≠ .expression text) ∧
      ∃ (f : Fault) (s' : Session Runtime) (more : List Notice),
        fault? (Session.new ({} : Runtime) {}) (classify "def x = missing") = some f ∧
        evalLine (Session.new {} {}) "def x = missing" = some (.done, s') ∧
        s'.console = Console.empty.tell false (.failed f :: more) := by
  obtain ⟨f, hf⟩ := exists_fault_missing
  obtain ⟨s', more, hanswer, _, hconsole⟩ := (evalLine_faults _ _).2 f hf classify_missing_ne_expression
  exact ⟨classify_missing_ne_expression, f, s', more, hf, hanswer, hconsole⟩

/-- It is not so that an answer is a failure just when the operation fails that the input is routed to. -/
theorem evalLine_unreported :
    ¬ ∀ (s : Session Runtime) (code : String),
      (∃ message s', s.evalLine code = some (.failed message, s')) ↔
        (∀ name args, classify code ≠ .command name args) ∧ ∃ f, s.fault? (classify code) = some f := by
  intro h
  have hoperation : ∀ name args, classify "def x = missing" ≠ .command name args := by
    intro name args hcommand
    rw [classify_missing] at hcommand
    cases hcommand
  obtain ⟨f, hf⟩ := exists_fault_missing
  obtain ⟨_, hdone, _⟩ := evalLine_of_fault hf classify_missing_ne_expression
  obtain ⟨message, s', hfailed⟩ := (h _ _).mpr ⟨hoperation, f, hf⟩
  cases hdone.symm.trans hfailed

end RowConsole.Session
