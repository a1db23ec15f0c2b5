import RowConsole.Proofs.Session.Atomicity
import RowConsole.Session.Loop

/-!
# Interactions

Everything that can be done to a session from outside, apart from reading lines in a loop, is gathered in one
type. What an operation, a routed input and a line can do to the context is said once for each of them.

Main statements: `Operation.changes`, what an operation makes of the context, and `interact_cases`, that an
interaction either leaves the bindings and the functions alone or does to them what a single operation of the
workspace does.
-/

namespace RowConsole.Session

open Script (ScriptError ScriptResult Value)

variable {ε : Type} [Engine ε]

/-! ## Section 1: Operations and the Context -/

namespace Workspace

variable (w : Workspace ε) {name expr : String}

/-- Evaluating a code runs it, and a failure is one of evaluation. -/
theorem evaluate_eq (code : String) :
    w.evaluate code = (w.runAtomic code).map fun r => (r.1.mapError .evaluation, r.2) := by
  unfold evaluate
  rcases w.runAtomic code with _ | ⟨_ | _, _⟩ <;> rfl

/-- The outcome of a statement that binds a name: the value read back, or the fault. -/
def bound (name : String) (fault : ScriptError → Fault) (r : ScriptResult Value × Workspace ε) :
    Outcome Value :=
  match r.1 with
  | .error e => .error (fault e)
  | .ok _ => .ok ((r.2.context.bindings.get? name).getD .null)

/-- A name that may be bound is assigned by a statement of the script. -/
theorem assign_eq (hname : checkName name = .ok ()) :
    w.assign name expr =
      (w.runAtomic (name ++ " = " ++ expr)).map fun r => (bound name .evaluation r, r.2) := by
  unfold assign bindStatement
  rw [hname]
  rcases w.runAtomic (name ++ " = " ++ expr) with _ | ⟨_ | _, _⟩ <;> rfl

/-- A name that may be bound is declared by a statement of the script. -/
theorem declareVariable_eq (hname : checkName name = .ok ()) :
    w.declareVariable name expr =
      (w.runAtomic ("def " ++ name ++ " = " ++ expr)).map fun r => (bound name (.declaration name) r, r.2) := by
  unfold declareVariable bindStatement
  rw [hname]
  rcases w.runAtomic ("def " ++ name ++ " = " ++ expr) with _ | ⟨_ | _, _⟩ <;> rfl

/-- A name that may not be bound is refused before anything is run. -/
theorem assign_of_refused {e : BindingError} (hname : checkName name = .error e) :
    w.assign name expr = some (.error (.binding e), w) := by
  unfold assign
  rw [hname]

/-- A declaration of a name that may not be bound is refused before anything is run. -/
theorem declareVariable_of_refused {e : BindingError} (hname : checkName name = .error e) :
    w.declareVariable name expr = some (.error (.binding e), w) := by
  unfold declareVariable
  rw [hname]

end Workspace

/-- What an operation can make of the context: nothing new, what a run that succeeds leaves of the bindings, one
more bound name, or a function that is bound and registered. -/
inductive Changes (w : Workspace ε) : Context → Prop where
  | nothing : Changes w w.context
  | runs {code : String} {v : Value} {bindings : Bindings} {engine : ε} :
    Engine.evaluate w.engine code w.context.bindings = some (.ok v, bindings, engine) →
    Changes w { w.context with bindings := bindings }
  | binds {name : String} {v : Value} {bindings : Bindings} : w.context.bindings.set name v = .ok bindings →
    Changes w { w.context with bindings := bindings }
  | defines {name source : String} {handle : Value} {bindings : Bindings} :
    w.context.bindings.set name handle = .ok bindings →
    Changes w { w.context with
      bindings := bindings
      functions := w.context.functions.register ⟨name, source, handle⟩ }

section Changes

variable {w w' : Workspace ε}

/-- A run that fails leaves the context as it was, and one that succeeds may have bound names. -/
private theorem changes_of_runAtomic {code : String} {r : ScriptResult Value} (h : w.runAtomic code = some (r, w')) :
    Changes w w'.context := by
  obtain ⟨bindings, engine, heval, ⟨v, rfl, rfl⟩ | ⟨e, rfl, rfl⟩⟩ := Workspace.runAtomic_cases h
  · exact .runs heval
  · -- what the code has written is taken back
    exact .nothing

/-- What is made of the outcome of a run does not matter to the context. -/
theorem changes_of_map {code : String} {α : Type} {g : ScriptResult Value × Workspace ε → α} {a : α}
    (h : (w.runAtomic code).map (fun r => (g r, r.2)) = some (a, w')) : Changes w w'.context := by
  obtain ⟨⟨r, w₁⟩, hrun, heq⟩ := Option.map_eq_some_iff.mp h
  cases heq
  exact changes_of_runAtomic hrun

/-- A declaration registers its function, or nothing if it is refused. -/
private theorem changes_of_declareFunction {name source : String} {r : Outcome Unit}
    (h : w.declareFunction name source = (r, w')) : Changes w w'.context := by
  rcases Workspace.declareFunction_cases w name source with ⟨handle, bindings, _, hset, heq⟩ | ⟨_, _, heq⟩
  · cases heq.symm.trans h
    exact .defines hset
  · cases heq.symm.trans h
    exact .nothing

/-- Setting a variable binds its name, or nothing if it is refused. -/
private theorem changes_of_setVariable {name : String} {v : Value} {r : Outcome Unit}
    (h : w.setVariable name v = (r, w')) : Changes w w'.context := by
  rcases Workspace.setVariable_cases w name v with ⟨bindings, hset, heq⟩ | ⟨_, _, heq⟩
  · cases heq.symm.trans h
    exact .binds hset
  · cases heq.symm.trans h
    exact .nothing

end Changes

/-- What an operation makes of the context, whichever it is. -/
theorem Operation.changes {w w' : Workspace ε} {op : Operation} {r : Outcome Unit}
    (h : op.run w = some (r, w')) : Changes w w'.context := by
  -- Four of them end in `declareFunction` or `setVariable` or run code; the name is checked before any code runs.
  cases op with
  | evaluate code =>
    obtain ⟨⟨r, w₁⟩, hrun, heq⟩ := Option.map_eq_some_iff.mp h
    cases heq
    rw [Workspace.evaluate_eq] at hrun
    exact changes_of_map hrun
  | declareVariable name expr =>
    obtain ⟨⟨r, w₁⟩, hrun, heq⟩ := Option.map_eq_some_iff.mp h
    cases heq
    cases hname : checkName name with
    | error e =>
      simp only [Workspace.declareVariable, hname] at hrun
      cases hrun
      exact .nothing
    | ok u =>
      rw [Workspace.declareVariable_eq w hname] at hrun
      exact changes_of_map hrun
  | assign name expr =>
    obtain ⟨⟨r, w₁⟩, hrun, heq⟩ := Option.map_eq_some_iff.mp h
    cases heq
    cases hname : checkName name with
    | error e =>
      simp only [Workspace.assign, hname] at hrun
      cases hrun
      exact .nothing
    | ok u =>
      rw [Workspace.assign_eq w hname] at hrun
      exact changes_of_map hrun
  | declareFunction name source => exact changes_of_declareFunction (Option.some.inj h)
  | registerScript name body => exact changes_of_declareFunction (Option.some.inj h)
  | setVariable name v => exact changes_of_setVariable (Option.some.inj h)

/-! ## Section 2: Interactions -/

/-- What can be done to a session. -/
inductive Interaction where
  /-- A line is typed. -/
  | line (text : String)
  /-- An input is evaluated without the loop. -/
  | evaluation (code : String)
  | interrupt
  | setVariable (name : String) (v : Value)
  | registerScript (name body : String)

/-- The session behind an interaction. There is none when an evaluation does not come to an end. -/
def interact (s : Session ε) : Interaction → Option (Session ε)
  | .line text => s.handleLine text
  | .evaluation code => (s.evalLine code).map Prod.snd
  | .interrupt => s.receive .interrupted
  | .setVariable name v => some (s.setVariable name v).2
  | .registerScript name body => some (s.registerScript name body).2

/-- The session behind interactions, in order. -/
def interactAll (s : Session ε) : List Interaction → Option (Session ε)
  | [] => some s
  | i :: rest =>
    match s.interact i with
    | none => none
    | some s => s.interactAll rest

/-! ## Section 3: Routed Inputs and Lines -/

omit [Engine ε] in
/-- Printing changes neither engine nor context. -/
@[simp] theorem workspace_print (s : Session ε) (confirmation : Option String) (outcome : Outcome Value) :
    (print s confirmation outcome).workspace = s.workspace := by
  cases outcome with
  | error f => rfl
  | ok v => cases confirmation <;> cases hnull : v.isNull <;> simp [print, enter, mapConsole, hnull]

omit [Engine ε] in
/-- An outcome that is printed comes from a workspace, which the session then has. -/
theorem finish_eq_some {s s' : Session ε} {confirmation : Option String}
    {answer : Option (Outcome Value × Workspace ε)} (h : s.finish confirmation answer = some s') :
    ∃ r w', answer = some (r, w') ∧ s'.workspace = w' := by
  cases answer with
  | none => contradiction
  | some outcome =>
    obtain ⟨r, w'⟩ := outcome
    cases h
    exact ⟨r, w', rfl, workspace_print _ _ _⟩

/-- A command leaves the context as it is, or switches the debug flag. -/
theorem dispatchCommand_cases (w : Workspace ε) (console : Console) (name args : String) :
    (dispatchCommand w console name args).1 = w.context ∨
      (dispatchCommand w console name args).1 = w.context.toggleDebug := by
  have hexecute : ∀ (command : Command) result, command.execute w console args = .ok result →
      result.1 = w.context ∨ result.1 = w.context.toggleDebug := by
    -- Only the listing of tables and the dump can fail, and only the debug flag is ever written.
    intro command result h
    cases command <;> simp only [Command.execute] at h
    case inspect =>
      split at h
      · contradiction
      · split at h
        · contradiction
        all_goals cases h; exact Or.inl rfl
    case tables =>
      split at h
      · contradiction
      all_goals cases h; exact Or.inl rfl
    case debug =>
      cases h
      exact Or.inr rfl
    all_goals cases h; exact Or.inl rfl
  unfold dispatchCommand
  split
  · exact Or.inl rfl
  · split
    · next result h => exact hexecute _ result h
    · exact Or.inl rfl

/-- What routing an input does to the context: it stays, the debug flag is switched, the open block is dropped,
or one operation is run. -/
inductive Routes (s s' : Session ε) : Prop where
  | keeps : s'.context = s.context → Routes s s'
  | toggles : s'.context = s.context.toggleDebug → Routes s s'
  | clears : s'.context = s.context.clearPending → Routes s s'
  | operates (op : Operation) {r : Outcome Unit} : op.run s.workspace = some (r, s'.workspace) → Routes s s'

section Routes

variable {s s' : Session ε}

/-- Whatever an input is, routing it has one of these effects. -/
theorem dispatch_cases {input : Input} (h : s.dispatch input = some s') : Routes s s' := by
  -- An input with an operation goes on from its outcome and touches the context no more.
  have hfinish : ∀ op {phase confirmation answer}, Operation.run s.workspace op = Operation.dropValue answer →
      (s.enter phase).finish confirmation answer = some s' → Routes s s' := by
    intro op phase confirmation answer hop hfinish
    obtain ⟨r, w', hanswer, rfl⟩ := finish_eq_some hfinish
    have hrun : op.run s.workspace = some (r.map fun _ => (), s'.workspace) := by
      rw [hop, hanswer]
      rfl
    exact .operates op hrun
  cases input with
  | empty => cases h; exact .keeps rfl
  | incomplete => cases h; exact .keeps rfl
  | exit => cases h; exact .clears rfl
  | command name args =>
    cases h
    rcases dispatchCommand_cases s.workspace s.console name args with hsame | hdebug
    · exact .keeps hsame
    · exact .toggles hdebug
  | declaration k name expr => exact hfinish (.declareVariable name expr) rfl h
  | assignment name expr => exact hfinish (.assign name expr) rfl h
  | expression text => exact hfinish (.evaluate text) rfl h
  | functionDefinition name source =>
    simp only [dispatch] at h
    obtain ⟨r, w', hanswer, hw'⟩ := finish_eq_some h
    obtain ⟨_, rfl⟩ := Prod.mk.inj (Option.some.inj hanswer)
    have hrun : (Operation.declareFunction name source).run s.workspace =
        some (s.workspace.declareFunction name source) := rfl
    rw [← Prod.eta (s.workspace.declareFunction name source), ← hw'] at hrun
    exact .operates (.declareFunction name source) hrun

/-- A line that is evaluated from outside has one of them as well, without a block. -/
theorem evalLine_cases {code : String} (h : (s.evalLine code).map Prod.snd = some s') : Routes s s' := by
  unfold evalLine at h
  split at h
  · cases h
    exact .keeps rfl
  · next text _ =>
    split at h
    · contradiction
    · next r w' heval =>
      -- Success or failure, the session takes the workspace that the run left.
      obtain rfl : s'.workspace = w' := by
        cases r <;> (cases h; rfl)
      have hrun : (Operation.evaluate text).run s.workspace = some (r.map fun _ => (), s'.workspace) := by
        show Operation.dropValue (s.workspace.evaluate text) = _
        rw [heval]
        rfl
      exact .operates (.evaluate text) hrun
  · obtain ⟨⟨result, s₁⟩, hmap, rfl⟩ := Option.map_eq_some_iff.mp h
    obtain ⟨s₂, hdispatch, hpair⟩ := Option.map_eq_some_iff.mp hmap
    cases hpair
    exact dispatch_cases hdispatch

/-- A line is ignored, joins the open block, or completes an input that is routed behind the block. -/
theorem handleLine_cases {line : String} (h : s.handleLine line = some s') :
    s'.context = s.context ∨
      (classify (s.context.pushPending line).pending = .incomplete ∧ s'.context = s.context.pushPending line) ∨
      ∃ s₁ : Session ε, s₁.context = (s.context.pushPending line).clearPending ∧ Routes s₁ s' := by
  simp only [handleLine] at h
  split at h
  · cases h
    exact .inl rfl
  · split at h
    -- whether the line was kept for the history does not matter to the context
    · next hincomplete =>
      cases h
      split at hincomplete <;> split <;> exact .inr (.inl ⟨hincomplete, rfl⟩)
    · refine .inr (.inr ⟨_, ?_, dispatch_cases h⟩)
      split <;> rfl

end Routes

/-! ## Section 4: What an Interaction Can Do -/

/-- The bindings and the functions of two contexts are the same. -/
structure Context.SameStore (ctx ctx' : Context) : Prop where
  bindings : ctx'.bindings = ctx.bindings
  functions : ctx'.functions = ctx.functions

/-- A context has the store of itself. -/
theorem Context.SameStore.refl (ctx : Context) : ctx.SameStore ctx := ⟨rfl, rfl⟩

/-- A context that is known otherwise has the store of the one that it is equal to. -/
theorem Context.SameStore.of_eq {ctx ctx₁ ctx' : Context} (h : ctx' = ctx₁) (hsame : ctx.SameStore ctx₁) :
    ctx.SameStore ctx' :=
  h ▸ hsame

/-- A session does to the bindings and the functions what one operation does to them, if that. -/
def Steps (s s' : Session ε) : Prop :=
  s.context.SameStore s'.context ∨
    ∃ (op : Operation) (r : Outcome Unit) (w w' : Workspace ε), s.context.SameStore w.context ∧
      op.run w = some (r, w') ∧ w'.context.SameStore s'.context

namespace Steps

variable {s s' : Session ε} {w w' : Workspace ε}

/-- A session that keeps its bindings and functions takes no step. -/
theorem same (h : s.context.SameStore s'.context) : Steps s s' := Or.inl h

/-- One operation is one step, whatever is told around it. -/
theorem operation (op : Operation) {r : Outcome Unit} (hw : s.context.SameStore w.context)
    (hrun : op.run w = some (r, w')) (hs' : w'.context.SameStore s'.context) : Steps s s' :=
  Or.inr ⟨op, r, w, w', hw, hrun, hs'⟩

/-- Routing takes at most one step. -/
private theorem of_routes (h : Routes s s') : Steps s s' := by
  cases h with
  | keeps h => exact same (.of_eq h ⟨rfl, rfl⟩)
  | toggles h => exact same (.of_eq h ⟨rfl, rfl⟩)
  | clears h => exact same (.of_eq h ⟨rfl, rfl⟩)
  | operates op hrun => exact operation op (Context.SameStore.refl _) hrun (Context.SameStore.refl _)

end Steps

/-- What is done before an input is routed does not count. -/
theorem Steps.of_same {s s₁ s' : Session ε} (hsame : s.context.SameStore s₁.context) (h : Steps s₁ s') :
    Steps s s' := by
  obtain ⟨hbindings, hfunctions⟩ := hsame
  rcases h with h | ⟨op, r, w, w', hw, hrun, hs'⟩
  · exact Steps.same ⟨h.bindings.trans hbindings, h.functions.trans hfunctions⟩
  · exact Steps.operation op ⟨hw.bindings.trans hbindings, hw.functions.trans hfunctions⟩ hrun hs'

/-- A line that is typed takes at most one step. -/
private theorem handleLine_steps {s s' : Session ε} {line : String} (h : s.handleLine line = some s') : Steps s s' := by
  rcases handleLine_cases h with hsame | ⟨_, hpushed⟩ | ⟨s₁, hs₁, hroutes⟩
  · exact Steps.same (.of_eq hsame ⟨rfl, rfl⟩)
  · exact Steps.same (.of_eq hpushed ⟨rfl, rfl⟩)
  · exact Steps.of_same (.of_eq hs₁ ⟨rfl, rfl⟩) (Steps.of_routes hroutes)

/-- An interaction leaves the bindings and the functions alone, or does to them what an operation does. -/
theorem interact_cases {s s' : Session ε} {i : Interaction} (h : s.interact i = some s') : Steps s s' := by
  cases i with
  | line text =>
    have hline : s.handleLine text = some s' := h
    exact handleLine_steps hline
  | evaluation code => exact Steps.of_routes (evalLine_cases h)
  | interrupt =>
    cases h
    exact Steps.same ⟨rfl, rfl⟩
  | setVariable name v =>
    cases h
    exact Steps.operation (.setVariable name v) (Context.SameStore.refl _) rfl ⟨rfl, rfl⟩
  | registerScript name body =>
    cases h
    exact Steps.operation (.registerScript name body) (Context.SameStore.refl _) rfl ⟨rfl, rfl⟩

end RowConsole.Session
