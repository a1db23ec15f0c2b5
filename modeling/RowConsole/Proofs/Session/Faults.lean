import RowConsole.Proofs.Session.Notices

/-!
# Faults

The fault that an input brings is reported, whatever it is, and the session carries on behind it: no input brings one
that is fatal.

Main statement: `carriesOn_of_readFault?`.
-/

namespace RowConsole.Session

open Script (ScriptResult Value)

variable {ε : Type} [Engine ε]

/-! ## Section 1: Faults of Inputs -/

/-- The fault that an outcome is, if it is one. -/
def faultOf {α : Type} : Outcome α → Option Fault
  | .error f => some f
  | .ok _ => none

/-- An outcome is a fault if it is no value. -/
theorem faultOf_eq_some_iff {α : Type} {outcome : Outcome α} {f : Fault} :
    faultOf outcome = some f ↔ outcome = .error f := by
  cases outcome <;> simp [faultOf]

omit [Engine ε] in
/-- An operation that runs brings a fault only if it has run to an end. -/
theorem eq_error_of_faultOf {answer : Option (Outcome Value × Workspace ε)} {f : Fault}
    (h : (answer.bind fun r => faultOf r.1) = some f) : ∃ w', answer = some (.error f, w') := by
  obtain ⟨⟨outcome, w'⟩, hanswer, hfault⟩ := Option.bind_eq_some_iff.mp h
  obtain rfl : outcome = .error f := faultOf_eq_some_iff.mp hfault
  exact ⟨w', hanswer⟩

/-- The fault that a complete input brings, if it brings one. -/
def fault? (s : Session ε) : Input → Option Fault
  | .command name args =>
    match Command.ofName? name with
    | none => some (.unknownCommand (":" ++ name))
    | some command => faultOf (command.execute s.workspace s.console args)
  | .declaration _ name expr => (s.workspace.declareVariable name expr).bind fun r => faultOf r.1
  | .functionDefinition name source => faultOf (s.workspace.declareFunction name source).1
  | .assignment name expr => (s.workspace.assign name expr).bind fun r => faultOf r.1
  | .expression text => (s.workspace.evaluate text).bind fun r => faultOf r.1
  | _ => none

namespace Workspace

variable {w w' : Workspace ε} {name text : String} {f : Fault}

omit [Engine ε] in
/-- What is made of an error of a script is not fatal. -/
private theorem isFatal_of_bound {fault : Script.ScriptError → Fault} (hfault : ∀ e, (fault e).isFatal = false)
    {r : ScriptResult Value × Workspace ε} (h : bound name fault r = .error f) : f.isFatal = false := by
  unfold bound at h
  split at h
  · rw [← Except.error.inj h]
    exact hfault _
  · contradiction

/-- A declaration fails by its name or by what it runs. -/
private theorem isFatal_of_declareVariable (h : w.declareVariable name text = some (.error f, w')) :
    f.isFatal = false := by
  -- a refused name is a fault by itself, and nothing is run
  cases hname : checkName name with
  | error e =>
    rw [declareVariable_of_refused _ hname] at h
    cases h
    rfl
  | ok u =>
    rw [declareVariable_eq _ hname] at h
    obtain ⟨r, _, heq⟩ := Option.map_eq_some_iff.mp h
    exact isFatal_of_bound (fun _ => rfl) (congrArg Prod.fst heq)

/-- An assignment fails by its name or by what it runs. -/
private theorem isFatal_of_assign (h : w.assign name text = some (.error f, w')) : f.isFatal = false := by
  -- as for a declaration
  cases hname : checkName name with
  | error e =>
    rw [assign_of_refused _ hname] at h
    cases h
    rfl
  | ok u =>
    rw [assign_eq _ hname] at h
    obtain ⟨r, _, heq⟩ := Option.map_eq_some_iff.mp h
    exact isFatal_of_bound (fun _ => rfl) (congrArg Prod.fst heq)

/-- An expression fails by what it runs. -/
private theorem isFatal_of_evaluate (h : w.evaluate text = some (.error f, w')) : f.isFatal = false := by
  rw [evaluate_eq] at h
  obtain ⟨⟨result, w₁⟩, _, heq⟩ := Option.map_eq_some_iff.mp h
  cases result with
  | error e =>
    cases heq
    rfl
  | ok v => cases heq

/-- Three checks can fail: the name, the source and the name again, when the function is bound. -/
theorem isFatal_of_declareFunction (h : (w.declareFunction name text).1 = .error f) : f.isFatal = false := by
  unfold declareFunction at h
  split at h
  · cases h
    rfl
  · split at h
    · cases h
      rfl
    · split at h
      · cases h
        rfl
      · cases h

/-- A value may be missing or fail to be shown. -/
private theorem isFatal_of_inspect {name : String} (h : w.inspect name = .error f) : f.isFatal = false := by
  unfold inspect at h
  split at h
  · cases h
  · cases h
  · split at h
    · cases h
    · cases h
      rfl

/-- The engine may fail to name the tables. -/
private theorem isFatal_of_tables (h : w.tables = .error f) : f.isFatal = false := by
  unfold tables at h
  split at h
  · cases h
  · cases h
  · split at h
    · cases h
    · cases h
      rfl

/-- A command fails for want of a name, or with the engine. -/
theorem isFatal_of_execute {c : Console} {command : Command} (h : command.execute w c text = .error f) :
    f.isFatal = false := by
  cases command with
  | inspect =>
    simp only [Command.execute] at h
    split at h
    · cases h
      rfl
    · split at h
      · next hinspect =>
        cases h
        exact isFatal_of_inspect hinspect
      · cases h
      · cases h
  | tables =>
    simp only [Command.execute] at h
    split at h
    · next htables =>
      cases h
      exact isFatal_of_tables htables
    · cases h
    · cases h
    · cases h
  | _ => cases h

end Workspace

/-- Only a failure of input or output is fatal, and no input brings one. -/
theorem isFatal_of_fault? {s : Session ε} {input : Input} {f : Fault} (h : s.fault? input = some f) :
    f.isFatal = false := by
  cases input with
  | command name args =>
    unfold fault? at h
    dsimp only at h
    split at h
    · -- no command has that name
      cases h
      rfl
    · exact Workspace.isFatal_of_execute (faultOf_eq_some_iff.mp h)
  | declaration k name expr =>
    obtain ⟨w', hrun⟩ := eq_error_of_faultOf h
    exact Workspace.isFatal_of_declareVariable hrun
  | functionDefinition name source => exact Workspace.isFatal_of_declareFunction (faultOf_eq_some_iff.mp h)
  | assignment name expr =>
    obtain ⟨w', hrun⟩ := eq_error_of_faultOf h
    exact Workspace.isFatal_of_assign hrun
  | expression text =>
    obtain ⟨w', hrun⟩ := eq_error_of_faultOf h
    exact Workspace.isFatal_of_evaluate hrun
  | _ => contradiction

/-- A fault is reported, whatever it is, and the session is there to carry on. -/
theorem console_of_fault {s s' : Session ε} {input : Input} {f : Fault} (hf : s.fault? input = some f)
    (h : s.dispatch input = some s') :
    ∃ more, s'.console = s.console.tell s'.context.debug (.failed f :: more) ∧ s'.phase = .idle := by
  -- an operation that fails confirms nothing, and only its fault is told
  have hfinish : ∀ {phase confirmation w'}, (s.enter phase).finish confirmation (some (.error f, w')) = some s' →
      ∃ more, s'.console = s.console.tell s'.context.debug (.failed f :: more) ∧ s'.phase = .idle := by
    intro phase confirmation w' hanswer
    obtain rfl := Option.some.inj hanswer
    rw [print_eq]
    exact ⟨[], rfl, rfl⟩
  cases input with
  | command name args =>
    cases h
    show ∃ more, (dispatchCommand s.workspace s.console name args).2 =
      s.console.tell (dispatchCommand s.workspace s.console name args).1.debug (.failed f :: more) ∧ _
    unfold dispatchCommand
    unfold fault? at hf
    dsimp only at hf
    cases hcommand : Command.ofName? name with
    | none =>
      -- an unknown command is answered with the help text, too
      rw [hcommand] at hf
      cases hf
      dsimp only
      rw [Console.line_eq_tell _ s.workspace.context.debug, Console.report_eq_tell, Console.tell_tell]
      exact ⟨[.said helpText], rfl, rfl⟩
    | some command =>
      rw [hcommand] at hf
      dsimp only
      rw [faultOf_eq_some_iff.mp hf]
      exact ⟨[], Console.report_eq_tell _ _ _, rfl⟩
  | declaration k name expr =>
    obtain ⟨w', hrun⟩ := eq_error_of_faultOf hf
    rw [dispatch, hrun] at h
    exact hfinish h
  | functionDefinition name source =>
    rw [dispatch_functionDefinition, faultOf_eq_some_iff.mp hf] at h
    exact hfinish h
  | assignment name expr =>
    obtain ⟨w', hrun⟩ := eq_error_of_faultOf hf
    rw [dispatch, hrun] at h
    exact hfinish h
  | expression text =>
    obtain ⟨w', hrun⟩ := eq_error_of_faultOf hf
    rw [dispatch, hrun] at h
    exact hfinish h
  | _ => contradiction

/-! ## Section 2: Faults of Reads -/

/-- The fault that a read brings, if what it completes brings one. -/
def readFault? (r : Session ε × ReadEvent) : Option Fault :=
  match r.2 with
  | .line text =>
    (completed? r.1.context.pending (.line text)).bind (r.1.beginRead.collected "" (keepLine r.1.reader.history text)).fault?
  | _ => none

/-- A fault does not give the session up: it is not fatal and is reported, no block is left open, and the session is
idle. -/
structure CarriesOn (r : Session ε × ReadEvent) (f : Fault) : Prop where
  recoverable : f.isFatal = false
  reported : ∀ s', r.1.beginRead.receive r.2 = some s' →
    ∃ more, s'.console = r.1.console.tell s'.context.debug (.failed f :: more)
  dropped : ∀ s', r.1.beginRead.receive r.2 = some s' → s'.context.pending = "" ∧ s'.phase = .idle

/-- The session carries on behind every fault that a read brings. -/
theorem carriesOn_of_readFault? {r : Session ε × ReadEvent} {f : Fault} (h : readFault? r = some f) :
    CarriesOn r f := by
  obtain ⟨s, e⟩ := r
  cases e with
  | line text =>
    obtain ⟨input, hcompleted, hfault⟩ := Option.bind_eq_some_iff.mp h
    -- a read that brings a fault has completed an input, and what is left is to route it
    have hdispatch : ∀ s', s.beginRead.receive (.line text) = some s' →
        (s.beginRead.collected "" (keepLine s.reader.history text)).dispatch input = some s' := by
      intro s' hreceive
      have hline : s.beginRead.handleLine text = some s' := hreceive
      rw [← pending_beginRead] at hcompleted
      rw [handleLine_of_completed hcompleted] at hline
      exact hline
    constructor
    · exact isFatal_of_fault? hfault
    · intro s' hreceive
      obtain ⟨more, hconsole, _⟩ := console_of_fault hfault (hdispatch s' hreceive)
      exact ⟨more, hconsole⟩
    · intro s' hreceive
      obtain ⟨_, _, hidle⟩ := console_of_fault hfault (hdispatch s' hreceive)
      refine ⟨?_, hidle⟩
      rw [pending_of_receive hreceive, pending_beginRead]
      exact pendingAfter_of_completed hcompleted
  | _ => contradiction

end RowConsole.Session
