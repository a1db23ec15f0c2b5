import RowConsole.Proofs.Script.Observed.LoopControl

/-!
# Audited Runs

An audit tests what is held while a program runs: the machine, whenever an expression, a statement, a write to a place,
a call, the body of a routine or a block in a scope of its own starts or ends, and with the machine the values that are
given there or that come out. The alarm is run where the test refuses them.

If all steps of the language keep to a standard, then an audit by a test that is passed by all that meets the standard
raises no alarm. So whatever is held at any of these moments meets the standard.

Main statement: `runAudited_eq_runProgram`.
-/

namespace RowConsole.Script

variable {γ α : Type}

/-! ## Section 1: Audits -/

/-- A test of what is held, and what is run where it fails. -/
structure Audit (γ : Type) where
  accepts : Machine γ → List Value → Bool
  alarm : Alarm γ

/-- An audit that accepts everything. -/
def Audit.idle : Audit γ where
  accepts _ _ := true
  alarm _ := Run.exhausted

/-- The same run, and the alarm in its place or behind it if what it is given or what it leaves is refused. -/
def Run.audited (audit : Audit γ) (given : List Value) (held : α → List Value) (run : Run γ α) : Run γ α := fun m =>
  if audit.accepts m given then run.checked audit.alarm audit.accepts held m else audit.alarm α m

/-- Calls values under an audit: a call is given the function with its arguments. -/
def Audit.caller (audit : Audit γ) (limit : Nat) (block : List Stmt → Run γ Flow) (p : Pos) : Caller γ := fun f args =>
  (callWith limit (fun body => (block body).audited audit [] Flow.values) p f args).audited audit (f :: args)
    fun v => [v]

/-- Runs the statements of a block in one more scope under an audit: the block is given the values in the scope. -/
def Audit.inner (audit : Audit γ) (exec : Stmt → Run γ Flow) (scope : Scope) (body : List Stmt) : Run γ Flow :=
  (runScoped exec scope body).audited audit (OrderedMap.values scope) Flow.values

section Interpreter

variable [Globals γ]

mutual

/-- The value of an expression, under an audit. -/
def evalAudited (audit : Audit γ) (limit fuel : Nat) (e : Expr) : Run γ Value :=
  match fuel with
  | 0 => Run.exhausted
  | fuel + 1 =>
    (evalWith (evalAudited audit limit fuel)
      (audit.caller limit (runBlock (execAudited audit limit fuel) .null)) e).audited audit [] fun v => [v]
termination_by structural fuel

/-- Runs a statement under an audit. -/
def execAudited (audit : Audit γ) (limit fuel : Nat) (s : Stmt) : Run γ Flow :=
  match fuel with
  | 0 => Run.exhausted
  | fuel + 1 =>
    (execWith (evalAudited audit limit fuel) (storeAudited audit limit fuel)
      (audit.inner (execAudited audit limit fuel)) (runWhile fuel) s).audited audit [] Flow.values
termination_by structural fuel

/-- Writes a value into the place that an expression names, under an audit. The write is given the value. -/
def storeAudited (audit : Audit γ) (limit fuel : Nat) (target : Expr) (v : Value) (p : Pos) : Run γ Unit :=
  match fuel with
  | 0 => Run.exhausted
  | fuel + 1 =>
    (storeWith (evalAudited audit limit fuel) (storeAudited audit limit fuel) target v p).audited audit [v] fun _ => []
termination_by structural fuel

end

/-- Runs a program under an audit. -/
def runAudited (audit : Audit γ) (limit fuel : Nat) (program : List Stmt) : Run γ Value := do
  let flow ← runBlock (execAudited audit limit fuel) .null program
  Run.ofResult flow.result

end Interpreter

/-! ## Section 2: Audits That Accept Everything -/

private theorem Run.audited_idle (given : List Value) (held : α → List Value) (run : Run γ α) :
    run.audited .idle given held = run := by
  funext m
  show run.checked _ _ held m = run m
  exact Run.checked_apply fun _ _ => rfl

theorem Audit.caller_idle (limit : Nat) (block : List Stmt → Run γ Flow) :
    Audit.idle.caller limit block = callWith limit block := by
  funext p f args
  simp only [Audit.caller, Run.audited_idle]

private theorem Audit.inner_idle (exec : Stmt → Run γ Flow) : Audit.idle.inner exec = runScoped exec := by
  funext scope body
  rw [Audit.inner, Run.audited_idle]

variable [Globals γ]

/-- Under an audit that accepts everything, constructs run as they do without one. -/
theorem audited_idle (limit fuel : Nat) :
    evalAudited (γ := γ) .idle limit fuel = eval limit fuel ∧
      execAudited (γ := γ) .idle limit fuel = exec limit fuel ∧
      storeAudited (γ := γ) .idle limit fuel = store limit fuel := by
  induction fuel with
  | zero => exact ⟨rfl, rfl, rfl⟩
  | succ fuel ih =>
    obtain ⟨heval, hexec, hstore⟩ := ih
    refine ⟨funext fun e => ?_, funext fun s => ?_, funext fun target => funext fun v => funext fun p => ?_⟩
    · rw [evalAudited, Run.audited_idle, Audit.caller_idle, heval, hexec]
      rfl
    · rw [execAudited, Run.audited_idle, Audit.inner_idle, heval, hexec, hstore]
      rfl
    · rw [storeAudited, Run.audited_idle, heval, hstore]
      rfl

private theorem runAudited_idle (limit fuel : Nat) (program : List Stmt) :
    runAudited (γ := γ) .idle limit fuel program = runProgram limit fuel program := by
  rw [runAudited, runProgram, (audited_idle limit fuel).2.1]

/-! ## Section 3: Audits That Are Passed -/

variable {std : Standard}

/-- A test that is passed by all machines and values that meet a standard. -/
def Audit.PassedBy (audit : Audit γ) (std : Standard) : Prop :=
  ∀ m vs, m.Meets std → (∀ v ∈ vs, v.Meets std) → audit.accepts m vs = true

private theorem Audit.idle_passedBy : (Audit.idle : Audit γ).PassedBy std :=
  fun _ _ _ _ => rfl

section Agreement

variable {audits : Bool → Audit γ} (haudits : ∀ b, (audits b).PassedBy std)

include haudits

/-- An audit that is passed changes nothing. -/
theorem Mode.Holds.audited {given : List Value} {held : α → List Value} {run : Bool → Run γ α} {Q : α → Prop}
    (hgiven : ∀ v ∈ given, v.Meets std) (hheld : ∀ a, Q a → ∀ v ∈ held a, v.Meets std)
    (h : Mode.agreement.Holds (Machine.Meets std) run Q) :
    Mode.agreement.Holds (Machine.Meets std) (fun b => (run b).audited (audits b) given held) Q := by
  intro m hm
  obtain ⟨hsame, hafter⟩ := h m hm
  dsimp only at hsame hafter
  -- neither test fires: what is given meets the standard, and so does what the run leaves
  have hpasses : ∀ b, (run b).audited (audits b) given held m = run false m := by
    intro b
    have hrun : run b m = run false m := by
      cases b with
      | false => rfl
      | true => exact hsame
    rw [Run.audited, if_pos (haudits b m given hm hgiven), ← hrun]
    apply Run.checked_apply
    rintro ⟨r, m'⟩ ho
    obtain ⟨hm', hvalue⟩ := hafter (r, m') (hrun ▸ ho)
    apply haudits b m' _ hm'
    cases r with
    | ok a => exact hheld a (hvalue a rfl)
    | error e =>
      intro v hv
      contradiction
  simp only [hpasses]
  exact ⟨rfl, hafter⟩

/-- Calls under audits that are passed. -/
theorem Mode.Holds.auditedCalls {limit : Nat} {block : Bool → List Stmt → Run γ Flow}
    (hblock : ∀ body, Mode.agreement.Holds (Machine.Meets std) (fun b => block b body) (Flow.Meets std)) (p : Pos) :
    Mode.agreement.HoldsCalls (Machine.Meets std) std fun b => (audits b).caller limit (block b) p := by
  intro f args hf hargs
  have hbody : ∀ body, Mode.agreement.Holds (Machine.Meets std)
      (fun b => (block b body).audited (audits b) [] Flow.values) (Flow.Meets std) := fun body =>
    (hblock body).audited haudits (by simp) fun _ hflow => Flow.values_meet hflow
  have hcalls : Mode.agreement.HoldsCalls (Machine.Meets std) std fun b =>
      Script.callWith limit (fun body => (block b body).audited (audits b) [] Flow.values) p :=
    Mode.Holds.calls (invariant_meets std) (fun routine _ => hbody routine.body) p
  have hcall := hcalls f args hf hargs
  exact hcall.audited haudits (List.forall_mem_cons.mpr ⟨hf, hargs⟩) fun _ hv => List.forall_mem_singleton.mpr hv

/-- Blocks in scopes of their own under audits that are passed. -/
theorem Mode.Holds.auditedInner {exec : Bool → Stmt → Run γ Flow}
    (hexec : ∀ s, Mode.agreement.Holds (Machine.Meets std) (fun b => exec b s) (Flow.Meets std)) {scope : Scope}
    (hscope : EntriesMeet std scope) (body : List Stmt) :
    Mode.agreement.Holds (Machine.Meets std) (fun b => (audits b).inner (exec b) scope body) (Flow.Meets std) := by
  have hI := invariant_meets (γ := γ) std
  have hscoped : Mode.agreement.Holds (Machine.Meets std) (fun b => Script.runScoped (exec b) scope body)
      (Flow.Meets std) :=
    Mode.Holds.runScoped (fun s _ => hexec s) (fun m hm => hI.openScope hm hscope) fun m hm => hI.closeScope hm
  exact hscoped.audited haudits (List.forall_mem_map.mpr hscope) fun _ hflow => Flow.values_meet hflow

/-- Constructs do the same under two audits that are passed, and they make values that meet the standard only. -/
structure AuditedUpTo (std : Standard) (audits : Bool → Audit γ) (limit fuel : Nat) : Prop where
  eval : ∀ e, Mode.agreement.Holds (Machine.Meets std) (fun b => evalAudited (audits b) limit fuel e) (Value.Meets std)
  exec : ∀ s, Mode.agreement.Holds (Machine.Meets std) (fun b => execAudited (audits b) limit fuel s) (Flow.Meets std)
  store : ∀ target v p, v.Meets std →
    Mode.agreement.Holds (Machine.Meets std) (fun b => storeAudited (audits b) limit fuel target v p) fun _ => True

private theorem auditedUpTo (hroutine : ∀ r, std.routine r) (limit fuel : Nat) : AuditedUpTo std audits limit fuel := by
  have hI := invariant_meets (γ := γ) std
  -- on the fuel: each construct is judged by the constructs that are run with less of it
  induction fuel with
  | zero => exact ⟨fun _ => Mode.Holds.exhausted, fun _ => Mode.Holds.exhausted, fun _ _ _ _ => Mode.Holds.exhausted⟩
  | succ fuel ih =>
    have hinner : ∀ scope body, EntriesMeet std scope → Mode.agreement.Holds (Machine.Meets std)
        (fun b => (audits b).inner (execAudited (audits b) limit fuel) scope body) (Flow.Meets std) :=
      fun scope body hscope => Mode.Holds.auditedInner haudits ih.exec hscope body
    constructor
    · intro e
      apply Mode.Holds.audited haudits (by simp) fun _ hv => List.forall_mem_singleton.mpr hv
      apply Mode.Holds.evalWith hI.toStable
      · exact fun e' _ => ih.eval e'
      · exact Mode.Holds.auditedCalls haudits fun body => Mode.Holds.runBlock (fun s _ => ih.exec s) .null
      · exact fun params body p _ => hroutine _
    · intro s
      apply Mode.Holds.audited haudits (by simp) fun _ hflow => Flow.values_meet hflow
      apply Mode.Holds.execWith hI.toStable
      · exact fun e _ => ih.eval e
      · exact fun e _ v p hv => ih.store e v p hv
      · exact fun scope body hscope _ _ => hinner scope body hscope
      · intro cond body _
        have hcond := (ih.eval cond).mono fun _ _ => trivial
        exact Mode.Holds.runWhile Mode.Holds.exhausted hcond (hinner [] body entriesMeet_nil) .null
      · exact fun name params body p _ => hroutine _
    · intro target v p hv
      apply Mode.Holds.audited haudits (List.forall_mem_singleton.mpr hv) (by simp)
      apply Mode.Holds.storeWith hI.toStable hv
      · exact fun e _ => ih.eval e
      · exact fun e _ w p hw => ih.store e w p hw

end Agreement

/-- A program raises no alarm under an audit that is passed by all that meets a standard. -/
theorem runAudited_eq_runProgram (hroutine : ∀ r, std.routine r) {audit : Audit γ} (haudit : audit.PassedBy std)
    (limit fuel : Nat) (program : List Stmt) {m : Machine γ} (hm : m.Meets std) :
    runAudited audit limit fuel program m = runProgram limit fuel program m := by
  -- the run without an audit is the one under the audit that accepts everything, which all machines pass
  let audits : Bool → Audit γ := fun b => if b then audit else .idle
  have haudits : ∀ b, (audits b).PassedBy std := by
    intro b
    cases b with
    | true => exact haudit
    | false => exact Audit.idle_passedBy
  have hblock : Mode.agreement.Holds (Machine.Meets std)
      (fun b => runBlock (execAudited (audits b) limit fuel) .null program) (Flow.Meets std) :=
    Mode.Holds.runBlock (fun s _ => (auditedUpTo haudits hroutine limit fuel).exec s) .null
  have hprogram : Mode.agreement.Holds (Machine.Meets std) (fun b => runAudited (audits b) limit fuel program)
      (Value.Meets std) :=
    hblock.bind fun _ hflow => Mode.Holds.ofResult (Flow.result_meets hflow)
  rw [← runAudited_idle]
  exact (hprogram m hm).1

end RowConsole.Script
