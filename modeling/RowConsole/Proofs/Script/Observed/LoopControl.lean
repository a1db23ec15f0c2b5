import RowConsole.Proofs.Script.FrameIsolation
import RowConsole.Proofs.Script.Invariant
import RowConsole.Proofs.Script.Observed.Interpreter

/-!
# Loop Control

A body is safe if each `break` and `continue` in it stands inside of a loop of that body, and the bodies of all closures
and functions in it are safe too. A safe body is never left by a `break` or `continue`. So a program with a safe body
never fails because of one, as long as it calls only functions with safe bodies; and if the globals hold no others, it
never gets hold of another one. To say so of every moment of a run, an observer raises an alarm as soon as a body that is
not safe is entered, or anything that is held is refused by some test that safe values pass.

Main statement: `runProgram_loopControl`.
-/

namespace RowConsole.Script

variable {γ α β : Type}

/-! ## Section 1: Safe Bodies -/

mutual

/-- Whether a `break` or `continue` stands in a statement outside of all loops in the statement. -/
def Stmt.isLoose : Stmt → Bool
  | .breaks | .continues => true
  | .branch _ thenBody none => anyLoose thenBody
  | .branch _ thenBody (some elseBody) => anyLoose thenBody || anyLoose elseBody
  | _ => false

/-- Whether a `break` or `continue` stands in some statements outside of all loops in them. -/
def anyLoose : List Stmt → Bool
  | [] => false
  | s :: rest => s.isLoose || anyLoose rest

end

/-- The body of the function that a statement declares. -/
def Stmt.functionBody : Stmt → List Stmt
  | .function _ _ body _ => body
  | _ => []

/-- Whether the functions and closures in some statements have no loose `break` or `continue`. -/
def functionsSafe (body : List Stmt) : Bool :=
  everyStmt (fun e => !anyLoose e.body) (fun s => !anyLoose s.functionBody) body

/-- Whether a body is safe. -/
def isSafe (body : List Stmt) : Bool :=
  !anyLoose body && functionsSafe body

/-- The standard of values whose functions have safe bodies. -/
def Standard.safe : Standard where
  routine r := isSafe r.body = true
  keys _ := True
  keys_nil := trivial
  keys_snoc _ _ := trivial

/-- Statements are not loose if none of them is. -/
private theorem anyLoose_eq_false {body : List Stmt} : anyLoose body = false ↔ ∀ s ∈ body, s.isLoose = false := by
  induction body with
  | nil => simp [anyLoose]
  | cons s rest ih => simp [anyLoose, ih]

/-- A body is safe if it is not loose itself and the functions in it are safe. -/
private theorem isSafe_iff {body : List Stmt} :
    isSafe body = true ↔ anyLoose body = false ∧ functionsSafe body = true := by
  rw [isSafe, Bool.and_eq_true, Bool.not_eq_true']

/-- Whether the functions and closures in an expression are safe. -/
def Expr.functionsSafe (e : Expr) : Bool :=
  e.every (fun e => !anyLoose e.body) (fun s => !anyLoose s.functionBody)

/-- Whether the functions and closures in a statement are safe. -/
def Stmt.functionsSafe (s : Stmt) : Bool :=
  s.every (fun e => !anyLoose e.body) (fun s => !anyLoose s.functionBody)

/-- The functions in a body are those in its statements. -/
private theorem functionsSafe_iff {body : List Stmt} : functionsSafe body = true ↔ ∀ s ∈ body, s.functionsSafe = true :=
  everyStmt_iff

private theorem Expr.functionsSafe_iff {e : Expr} :
    e.functionsSafe = true ↔ (∀ e' ∈ e.parts, e'.functionsSafe = true) ∧ isSafe e.body = true := by
  rw [Expr.functionsSafe, Expr.every_iff, isSafe_iff, Script.functionsSafe_iff, Bool.not_eq_true']
  exact ⟨fun ⟨hloose, hparts, hbody⟩ => ⟨hparts, hloose, hbody⟩,
    fun ⟨hparts, hloose, hbody⟩ => ⟨hloose, hparts, hbody⟩⟩

private theorem Stmt.functionsSafe_iff {s : Stmt} :
    s.functionsSafe = true ↔ anyLoose s.functionBody = false ∧ (∀ e ∈ s.parts, e.functionsSafe = true) ∧
      ∀ s' ∈ s.body, s'.functionsSafe = true := by
  rw [Stmt.functionsSafe, Stmt.every_iff, Bool.not_eq_true']
  exact Iff.rfl

/-! ## Section 2: Statements That Are Not Loose -/

/-- Whether a flow leaves the loop around it. -/
def Flow.isStray : Flow → Bool
  | .broke | .continued => true
  | .next _ | .returned _ => false

/-- A run never leaves the loop around it. -/
def Stays (run : Run γ Flow) : Prop :=
  Mode.whenever.Holds (fun _ => True) (fun _ => run) fun flow => flow.isStray = false

namespace Stays

private theorem of_flow {flow : Flow} (h : flow.isStray = false) : Stays (pure flow : Run γ Flow) :=
  Mode.Holds.pure h

/-- A run that is cut off leaves nothing. -/
theorem exhausted : Stays (Run.exhausted : Run γ Flow) :=
  whenever_exhausted

/-- What runs first makes no difference. -/
protected theorem bind {run : Run γ α} {next : α → Run γ Flow} (hnext : ∀ a, Stays (next a)) :
    Stays (run >>= next) := by
  have hrun : Mode.whenever.Holds (fun _ => True) (fun _ => run) fun _ => True :=
    fun _ _ _ _ => ⟨trivial, fun _ _ => trivial⟩
  exact hrun.bind fun a _ => hnext a

/-- A loop over items ends the `break` and the `continue` of its body. -/
theorem runFor (body : Value → Run γ Flow) (items : List Value) : Stays (Script.runFor body items) := by
  induction items with
  | nil => exact of_flow rfl
  | cons item rest ih =>
    rw [Script.runFor]
    apply Stays.bind
    intro flow
    cases flow with
    | next v => exact ih
    | returned v => exact of_flow rfl
    | broke => exact of_flow rfl
    | continued => exact ih

/-- A loop on a condition ends the `break` and the `continue` of its body. -/
theorem runWhile (fuel : Nat) (cond : Run γ Value) (body : Run γ Flow) : Stays (Script.runWhile fuel cond body) := by
  induction fuel with
  | zero => exact exhausted
  | succ fuel ih =>
    rw [Script.runWhile]
    apply Stays.bind
    intro v
    split
    · apply Stays.bind
      intro flow
      -- A loop takes `break` and `continue` itself; only a returned value leaves it.
      cases flow with
      | next v => exact ih
      | returned v => exact of_flow rfl
      | broke => exact of_flow rfl
      | continued => exact ih
    · exact of_flow rfl

/-- A block is left by one of its statements only. -/
theorem runBlock {exec : Stmt → Run γ Flow} {body : List Stmt} (h : ∀ s ∈ body, Stays (exec s)) :
    Stays (Script.runBlock exec .null body) :=
  Mode.Holds.runBlock h rfl

/-- A block in a scope of its own is left by one of its statements only. -/
theorem runScoped {exec : Stmt → Run γ Flow} {scope : Scope} {body : List Stmt} (h : ∀ s ∈ body, Stays (exec s)) :
    Stays (Script.runScoped exec scope body) :=
  Mode.Holds.withScope (runBlock h) (fun _ _ => trivial) fun _ _ => trivial

/-- The frame of a call does not change how its body ends. -/
theorem withFrame (frame : Frame) {run : Run γ Flow} (h : Stays run) : Stays (Script.withFrame frame run) :=
  Mode.Holds.withFrame h (fun _ _ => trivial) fun _ _ => trivial

variable [Globals γ]

/-- Only branches pass on what their bodies do to the loop around them. -/
theorem execWith {eval : Expr → Run γ Value} {store : Expr → Value → Pos → Run γ Unit} {exec : Stmt → Run γ Flow}
    {fuel : Nat} (hexec : ∀ s, s.isLoose = false → Stays (exec s)) {s : Stmt} (hs : s.isLoose = false) :
    Stays (Script.execWith eval store (Script.runScoped exec) (Script.runWhile fuel) s) := by
  -- A block is loose if one of its statements is.
  have hinner : ∀ body, anyLoose body = false → Stays (Script.runScoped exec [] body) := by
    intro body hbody
    exact runScoped fun s hs => hexec s (anyLoose_eq_false.mp hbody s hs)
  cases s with
  | expr e => exact Stays.bind fun v => of_flow rfl
  | declare name init p =>
    cases init with
    | none => exact Stays.bind fun v => Stays.bind fun _ => of_flow rfl
    | some e => exact Stays.bind fun v => Stays.bind fun _ => of_flow rfl
  | assign target op e p =>
    apply Stays.bind
    intro right
    cases op with
    | set => exact Stays.bind fun v => Stays.bind fun _ => of_flow rfl
    | add | sub => exact Stays.bind fun old => Stays.bind fun v => Stays.bind fun _ => of_flow rfl
  | function name params body p => exact Stays.bind fun f => Stays.bind fun _ => of_flow rfl
  | branch cond thenBody elseBody =>
    apply Stays.bind
    intro v
    cases elseBody with
    | none =>
      split
      · exact hinner thenBody hs
      · exact of_flow rfl
    | some elseBody =>
      obtain ⟨hthen, helse⟩ := Bool.or_eq_false_iff.mp hs
      split
      · exact hinner thenBody hthen
      · exact hinner elseBody helse
  | whileLoop cond body => exact runWhile fuel _ _
  | forLoop name items body p => exact Stays.bind fun v => Stays.bind fun visited => runFor _ visited
  | returns value =>
    cases value with
    | none => exact of_flow rfl
    | some e => exact Stays.bind fun v => of_flow rfl
  -- These two are loose themselves.
  | breaks | continues => contradiction

end Stays

/-! ## Section 3: An Observer That Raises an Alarm -/

/-- The same run, and the alarm behind it if what it leaves is refused: the machine, or a value in its result. -/
def Run.checked (alarm : Alarm γ) (accepts : Machine γ → List Value → Bool) (held : α → List Value) (run : Run γ α) :
    Run γ α := fun m =>
  (run m).bind fun o => if accepts o.2 (o.1.toOption.elim [] held) then some o else alarm α o.2

/-- What is accepted passes the check unchanged. -/
theorem Run.checked_apply {alarm : Alarm γ} {accepts : Machine γ → List Value → Bool} {held : α → List Value}
    {run : Run γ α} {m : Machine γ}
    (h : ∀ o, run m = some o → accepts o.2 (o.1.toOption.elim [] held) = true) :
    run.checked alarm accepts held m = run m := by
  unfold Run.checked
  cases hrun : run m with
  | none => rfl
  | some o => exact if_pos (h o hrun)

/-- The values that a flow carries. -/
def Flow.values : Flow → List Value
  | .next v | .returned v => [v]
  | .broke | .continued => []

/-- The value of a flow that meets a standard meets it. -/
theorem Flow.values_meet {std : Standard} {flow : Flow} (h : flow.Meets std) : ∀ v ∈ flow.values, v.Meets std := by
  cases flow with
  | next v | returned v => exact List.forall_mem_singleton.mpr h
  | broke | continued => exact fun v hv => absurd hv List.not_mem_nil

/-- Raises the alarm if a body that is not safe is entered, or if what a construct leaves is refused. -/
def loopControl (alarm : Alarm γ) (accepts : Machine γ → List Value → Bool) : Observer γ where
  expr := Run.checked alarm accepts fun v => [v]
  stmt := Run.checked alarm accepts Flow.values
  target := Run.checked alarm accepts fun _ => []
  call := Run.checked alarm accepts fun v => [v]
  body routine _ run := if isSafe routine.body then run else alarm Flow

variable [Globals γ]

/-- A test that safe machines and safe values pass. -/
def PassedBySafe (accepts : Machine γ → List Value → Bool) : Prop :=
  ∀ m vs, m.Meets .safe → (∀ v ∈ vs, v.Meets .safe) → accepts m vs = true

/-- The observer where the guard is on, and none where it is off. -/
def loopControlAt (alarm : Alarm γ) (accepts : Machine γ → List Value → Bool) (guard : Bool) : Observer γ :=
  if guard then loopControl alarm accepts else .idle

section Agreement

variable {alarm : Alarm γ} {accepts : Machine γ → List Value → Bool} {limit fuel : Nat}

/-- What is safe is not refused. -/
theorem Mode.Holds.checked (haccepts : PassedBySafe accepts) {held : α → List Value} {run run' : Bool → Run γ α}
    {Q : α → Prop} (hheld : ∀ a, Q a → ∀ v ∈ held a, v.Meets .safe)
    (h : Mode.agreement.Holds (Machine.Meets .safe) run Q)
    (hon : run' true = (run true).checked alarm accepts held) (hoff : run' false = run false) :
    Mode.agreement.Holds (Machine.Meets .safe) run' Q := by
  intro m hm
  obtain ⟨hsame, hafter⟩ := h m hm
  dsimp only at hsame hafter
  show run' true m = run' false m ∧ ∀ o, run' false m = some o → _
  rw [hon, hoff]
  refine ⟨?_, hafter⟩
  -- The audit sees only what the invariant allows, and passes it.
  rw [Run.checked_apply, hsame]
  rintro ⟨r, m'⟩ ho
  obtain ⟨hm', hvalue⟩ := hafter (r, m') (hsame ▸ ho)
  apply haccepts m' _ hm'
  cases r with
  | ok a => exact hheld a (hvalue a rfl)
  | error e =>
    intro v hv
    contradiction

/-- Calls of safe values enter safe bodies only. -/
theorem holdsCalls_safe (haccepts : PassedBySafe accepts) {block : Bool → List Stmt → Run γ Flow}
    (hblock : ∀ body, isSafe body = true →
      Mode.agreement.Holds (Machine.Meets .safe) (fun guard => block guard body) (Flow.Meets .safe))
    (p : Pos) :
    Mode.agreement.HoldsCalls (Machine.Meets .safe) .safe fun guard =>
      (loopControlAt alarm accepts guard).caller limit (block guard) p := by
  intro f args hf hargs
  -- the observer lets a safe body pass, and only functions have bodies
  have haround : ∀ body, isSafe body = true → Mode.agreement.Holds (Machine.Meets .safe)
      (fun guard => (loopControlAt alarm accepts guard).around p f (block guard) body) (Flow.Meets .safe) := by
    intro body hbody
    have hsame : ∀ guard, (loopControlAt alarm accepts guard).around p f (block guard) body = block guard body := by
      intro guard
      cases hf with
      | function hroutine hcaptured =>
        cases guard with
        | false => rfl
        | true => exact if_pos hroutine
      | _ => rfl
    simp only [hsame]
    exact hblock body hbody
  have hcalls : Mode.agreement.HoldsCalls (Machine.Meets .safe) .safe fun guard =>
      callWith limit ((loopControlAt alarm accepts guard).around p f (block guard)) p :=
    Mode.Holds.calls (invariant_meets .safe) (fun routine hroutine => haround routine.body hroutine) p
  have hcall := hcalls f args hf hargs
  exact hcall.checked haccepts (fun v hv => by simpa using hv) rfl rfl

/-- Constructs with safe functions do the same with the observer and without it, and they make safe values only. -/
structure SafeUpTo (alarm : Alarm γ) (accepts : Machine γ → List Value → Bool) (limit fuel : Nat) : Prop where
  eval : ∀ e, e.functionsSafe = true → Mode.agreement.Holds (Machine.Meets .safe)
    (fun guard => evalObserved (loopControlAt alarm accepts guard) limit fuel e) (Value.Meets .safe)
  exec : ∀ s, s.functionsSafe = true → Mode.agreement.Holds (Machine.Meets .safe)
    (fun guard => execObserved (loopControlAt alarm accepts guard) limit fuel s) (Flow.Meets .safe)
  store : ∀ target v p, target.functionsSafe = true → v.Meets .safe → Mode.agreement.Holds (Machine.Meets .safe)
    (fun guard => storeObserved (loopControlAt alarm accepts guard) limit fuel target v p) fun _ => True

/-- The body of a function or of a program, with a bound on the recursion. -/
theorem SafeUpTo.block (h : SafeUpTo alarm accepts limit fuel) {body : List Stmt}
    (hbody : functionsSafe body = true) :
    Mode.agreement.Holds (Machine.Meets .safe)
      (fun guard => runBlock (execObserved (loopControlAt alarm accepts guard) limit fuel) .null body)
      (Flow.Meets .safe) :=
  Mode.Holds.runBlock (fun s hs => h.exec s (functionsSafe_iff.mp hbody s hs)) .null

private theorem safeUpTo_zero : SafeUpTo alarm accepts limit 0 where
  eval _ _ := Mode.Holds.exhausted
  exec _ _ := Mode.Holds.exhausted
  store _ _ _ _ _ := Mode.Holds.exhausted

/-- A block inside of a construct opens its scope and closes it, and the invariant stands in between. -/
theorem SafeUpTo.inner (h : SafeUpTo alarm accepts limit fuel) {scope : Scope} {body : List Stmt}
    (hscope : EntriesMeet .safe scope) (hbody : ∀ s ∈ body, s.functionsSafe = true) :
    Mode.agreement.Holds (Machine.Meets .safe)
      (fun guard => runScoped (execObserved (loopControlAt alarm accepts guard) limit fuel) scope body)
      (Flow.Meets .safe) := by
  have hI := invariant_meets (γ := γ) .safe
  apply Mode.Holds.runScoped
  · exact fun s hs => h.exec s (hbody s hs)
  · exact fun m hm => hI.openScope hm hscope
  · exact fun m hm => hI.closeScope hm

/-- An expression makes functions of its closures only, and those are safe. -/
private theorem SafeUpTo.eval_succ (haccepts : PassedBySafe accepts) (h : SafeUpTo alarm accepts limit fuel) {e : Expr}
    (he : e.functionsSafe = true) :
    Mode.agreement.Holds (Machine.Meets .safe)
      (fun guard => evalObserved (loopControlAt alarm accepts guard) limit (fuel + 1) e) (Value.Meets .safe) := by
  obtain ⟨hparts, hbody⟩ := Expr.functionsSafe_iff.mp he
  -- First without the audit, by the rule for expressions; the audit of the value comes last.
  have hmade : Mode.agreement.Holds (Machine.Meets .safe)
      (fun guard => evalWith (evalObserved (loopControlAt alarm accepts guard) limit fuel)
        ((loopControlAt alarm accepts guard).caller limit
          (runBlock (execObserved (loopControlAt alarm accepts guard) limit fuel) .null)) e) (Value.Meets .safe) := by
    apply Mode.Holds.evalWith (invariant_meets .safe).toStable
    · exact fun e' he' => h.eval e' (hparts e' he')
    · exact holdsCalls_safe haccepts fun body hsafe => h.block (isSafe_iff.mp hsafe).2
    · rintro params body p rfl
      exact hbody
  apply hmade.checked haccepts ?_ rfl rfl
  intro v hv
  exact List.forall_mem_singleton.mpr hv

/-- A statement makes a function if it declares one. -/
private theorem SafeUpTo.exec_succ (haccepts : PassedBySafe accepts) (h : SafeUpTo alarm accepts limit fuel) {s : Stmt}
    (hs : s.functionsSafe = true) :
    Mode.agreement.Holds (Machine.Meets .safe)
      (fun guard => execObserved (loopControlAt alarm accepts guard) limit (fuel + 1) s) (Flow.Meets .safe) := by
  obtain ⟨hfunction, hparts, hbody⟩ := Stmt.functionsSafe_iff.mp hs
  -- As for expressions, with the loop that takes `break` and `continue` of its body.
  have hdone : Mode.agreement.Holds (Machine.Meets .safe)
      (fun guard => execWith (evalObserved (loopControlAt alarm accepts guard) limit fuel)
        (storeObserved (loopControlAt alarm accepts guard) limit fuel)
        (runScoped (execObserved (loopControlAt alarm accepts guard) limit fuel)) (runWhile fuel) s)
      (Flow.Meets .safe) := by
    apply Mode.Holds.execWith (invariant_meets .safe).toStable
    · exact fun e he => h.eval e (hparts e he)
    · exact fun e he v p hv => h.store e v p (hparts e he) hv
    · exact fun scope body hscope _ hsub => h.inner hscope fun s' hs' => hbody s' (hsub hs')
    · rintro cond body rfl
      have hcond := (h.eval cond (hparts cond (List.mem_singleton_self cond))).mono fun _ _ => trivial
      exact Mode.Holds.runWhile Mode.Holds.exhausted hcond (h.inner entriesMeet_nil hbody) .null
    · rintro name params body p rfl
      exact isSafe_iff.mpr ⟨hfunction, functionsSafe_iff.mpr hbody⟩
  exact hdone.checked haccepts (fun _ hflow => Flow.values_meet hflow) rfl rfl

/-- A write puts a safe value into a safe one. -/
private theorem SafeUpTo.store_succ (haccepts : PassedBySafe accepts) (h : SafeUpTo alarm accepts limit fuel)
    {target : Expr}
    {v : Value} (p : Pos) (htarget : target.functionsSafe = true) (hv : v.Meets .safe) :
    Mode.agreement.Holds (Machine.Meets .safe)
      (fun guard => storeObserved (loopControlAt alarm accepts guard) limit (fuel + 1) target v p) fun _ => True := by
  obtain ⟨hparts, _⟩ := Expr.functionsSafe_iff.mp htarget
  have hwritten : Mode.agreement.Holds (Machine.Meets .safe)
      (fun guard => storeWith (evalObserved (loopControlAt alarm accepts guard) limit fuel)
        (storeObserved (loopControlAt alarm accepts guard) limit fuel) target v p) fun _ => True := by
    apply Mode.Holds.storeWith (invariant_meets .safe).toStable hv
    · exact fun e he => h.eval e (hparts e he)
    · exact fun e he v p hv => h.store e v p (hparts e he) hv
  apply hwritten.checked haccepts ?_ rfl rfl
  exact fun _ _ w hw => absurd hw List.not_mem_nil

/-- By induction on the bound: each construct is safe if the constructs in it are. -/
private theorem safeUpTo (haccepts : PassedBySafe accepts) (limit fuel : Nat) : SafeUpTo alarm accepts limit fuel := by
  induction fuel with
  | zero => exact safeUpTo_zero
  | succ fuel ih =>
    constructor
    · exact fun e he => ih.eval_succ haccepts he
    · exact fun s hs => ih.exec_succ haccepts hs
    · exact fun target v p htarget hv => ih.store_succ haccepts p htarget hv

/-- A safe program does the same with the observer and without it. -/
theorem runObserved_safe (alarm : Alarm γ) (haccepts : PassedBySafe accepts) (limit fuel : Nat) {program : List Stmt}
    (hprogram : functionsSafe program = true) :
    Mode.agreement.Holds (Machine.Meets .safe)
      (fun guard => runObserved (loopControlAt alarm accepts guard) limit fuel program) (Value.Meets .safe) :=
  ((safeUpTo haccepts limit fuel).block hprogram).bind fun _ hflow => Mode.Holds.ofResult (Flow.result_meets hflow)

end Agreement

/-! ## Section 4: Failures -/

/-- No failure is about a stray `break` or `continue`. -/
def neverStray : Ending γ where
  running _ := True
  failed e _ := e.cause ≠ .strayLoopControl
  assigned _ _ := trivial
  raised _ _ h := h
  located := by
    rintro ⟨cause, pos, trace⟩ g p h
    cases pos <;> exact h

section Failures

variable {accepts : Machine γ → List Value → Bool} {limit fuel : Nat}

/-- A check may cut a run off, and does nothing else to it. -/
theorem Ending.Governs.checked {E : Ending γ} {held : α → List Value} {run : Run γ α} (h : E.Governs run) :
    E.Governs (run.checked (fun _ => Run.exhausted) accepts held) := by
  intro m hm
  have hended := h m hm
  unfold Run.checked
  revert hended
  generalize run m = ended
  intro hended
  cases ended with
  | none => trivial
  | some o =>
    show E.Allows (if _ then _ else _)
    split
    · exact hended
    · trivial

omit [Globals γ] in
theorem Stays.checked {run : Run γ Flow} (h : Stays run) {held : Flow → List Value} :
    Stays (run.checked (fun _ => Run.exhausted) accepts held) := by
  intro m hm o ho
  obtain ⟨o', ho', hchecked⟩ := Option.bind_eq_some_iff.mp ho
  split at hchecked
  · cases hchecked
    exact h m hm o ho'
  · contradiction

/-- The observer that is cut off where it would raise the alarm. -/
abbrev cutOffUnlessSafe (accepts : Machine γ → List Value → Bool) : Observer γ :=
  loopControl (fun _ => Run.exhausted) accepts

/-- A statement that is not loose does not leave the loop around it, whatever is cut off. -/
private theorem stays_execObserved {s : Stmt} (hs : s.isLoose = false) :
    Stays (execObserved (cutOffUnlessSafe accepts) limit fuel s) := by
  induction fuel generalizing s with
  | zero => exact Stays.exhausted
  | succ fuel ih => exact (Stays.execWith (fun s hs => ih hs) hs).checked

/-- A safe body does not leave the loop around the call. -/
private theorem stays_body {body : List Stmt} (hbody : isSafe body = true) :
    Stays (runBlock (execObserved (cutOffUnlessSafe accepts) limit fuel) .null body) :=
  Stays.runBlock fun s hs => stays_execObserved (anyLoose_eq_false.mp (isSafe_iff.mp hbody).1 s hs)

/-- A body that does not leave the loop around it has a result. -/
theorem Ending.Governs.result {run : Run γ Flow} (h : neverStray.Governs run) (hstays : Stays run) :
    neverStray.Governs (do
      let flow ← run
      Run.ofResult flow.result) := by
  apply h.bind_of_ok
  intro m flow m' hrun
  have hflow := (hstays m trivial _ hrun).2 flow rfl
  cases flow with
  | next v | returned v => exact Ending.Governs.pure v
  | broke | continued => contradiction

/-- Only safe bodies are entered, so no call fails because of a stray `break` or `continue`. -/
private theorem cutOffUnlessSafe_within : (cutOffUnlessSafe accepts).Within fun _ : Unit => neverStray where
  expr h := h.checked
  stmt h := h.checked
  target h := h.checked
  call h := h.checked
  body := by
    intro _ limit fuel routine p frame hbody
    let run := (cutOffUnlessSafe accepts).body routine p
      (runBlock (execObserved (cutOffUnlessSafe accepts) limit fuel) .null routine.body)
    -- a body that is entered is safe, and any other one is cut off
    have hentered : neverStray.Governs run ∧ Stays run := by
      show neverStray.Governs (if isSafe routine.body then _ else _) ∧ Stays (if isSafe routine.body then _ else _)
      split
      · next hsafe => exact ⟨hbody (), stays_body hsafe⟩
      · exact ⟨Ending.Governs.exhausted, Stays.exhausted⟩
    have hresult := (hentered.1.withFrame frame).result (hentered.2.withFrame frame)
    exact hresult.mapFailure rfl fun e g h => h

/-- A program whose body is safe does not fail because of a stray `break` or `continue`, unless it is cut off. -/
theorem neverStray_program (accepts : Machine γ → List Value → Bool) (limit fuel : Nat) {program : List Stmt}
    (hprogram : isSafe program = true) :
    neverStray.Governs (runObserved (cutOffUnlessSafe accepts) limit fuel program) :=
  (Ending.Governs.runBlock (cutOffUnlessSafe_within.governed limit fuel ()).exec .null program).result
    (stays_body hprogram)

end Failures

/-! ## Section 5: Programs -/

/-- A safe program, started with globals whose functions are all safe, raises no alarm at any moment, whatever the test is
that safe machines and values pass: it enters safe bodies only, and makes safe functions only. All functions that it
leaves behind are safe, and it does not end in the error of a stray `break` or `continue`. -/
theorem runProgram_loopControl (limit fuel serial : Nat) (output : Output) (globals : γ) (program : List Stmt)
    (alarm : Alarm γ)
    (accepts : Machine γ → List Value → Bool) (haccepts : PassedBySafe accepts) (hprogram : isSafe program = true)
    (hglobals : ∀ name v, Globals.lookup globals name = some v → v.Meets .safe) :
    runObserved (loopControl alarm accepts) limit fuel program (Machine.start globals serial output) =
        runProgram limit fuel program (Machine.start globals serial output) ∧
      ∀ r m', runProgram limit fuel program (Machine.start globals serial output) = some (r, m') →
        m'.Meets .safe ∧ (∀ v, r = .ok v → v.Meets .safe) ∧ ∀ e, r = .error (.script e) → e.cause ≠ .strayLoopControl := by
  have hstart : (Machine.start globals serial output).Meets .safe :=
    ⟨hglobals, by simp [Machine.start], by simp [Machine.start]⟩
  have hagree : ∀ alarm : Alarm γ,
      runObserved (loopControl alarm accepts) limit fuel program (Machine.start globals serial output) =
          runProgram limit fuel program (Machine.start globals serial output) ∧
        ∀ o, runProgram limit fuel program (Machine.start globals serial output) = some o →
          o.2.Meets .safe ∧ ∀ v, o.1 = .ok v → v.Meets .safe := by
    intro alarm
    have hsafe := runObserved_safe alarm haccepts limit fuel (isSafe_iff.mp hprogram).2
      (Machine.start globals serial output) hstart
    rw [← runObserved_idle]
    exact hsafe
  refine ⟨(hagree alarm).1, ?_⟩
  intro r m' hrun
  obtain ⟨hmachine, hvalue⟩ := (hagree alarm).2 (r, m') hrun
  refine ⟨hmachine, hvalue, ?_⟩
  rintro e rfl
  -- the program does not meet the alarm, so it may as well be cut off there
  have hnever := neverStray_program accepts limit fuel hprogram (Machine.start globals serial output) trivial
  rw [(hagree fun _ => Run.exhausted).1, hrun] at hnever
  exact hnever

/-- A function with a `break` in a branch in its loop, called by a closure for the items of a list in a loop that is left
by a `break` of its own. -/
def brokenLoops : List Stmt :=
  [.function "firstOf" ["list"]
      [.declare "found" none ⟨2, 1⟩,
        .forLoop "x" (.var "list" ⟨3, 10⟩)
          [.branch (.var "x" ⟨4, 5⟩) [.assign (.var "found" ⟨4, 9⟩) .set (.var "x" ⟨4, 17⟩) ⟨4, 15⟩, .breaks]
            (some [.continues])] ⟨3, 1⟩,
        .returns (some (.var "found" ⟨5, 8⟩))] ⟨1, 1⟩,
    .whileLoop (.bool true)
      [.assign (.var "made" ⟨7, 1⟩) .set
        (.method (.var "items" ⟨7, 8⟩) "map"
          [.closure ["y"] [.expr (.call (.var "firstOf" ⟨7, 24⟩) [.list [.null, .var "y" ⟨7, 39⟩]] ⟨7, 31⟩)] ⟨7, 18⟩]
          ⟨7, 13⟩) ⟨7, 6⟩, .breaks],
    .expr (.method (.index (.var "made" ⟨8, 1⟩) (.int 1) ⟨8, 5⟩) "call" [] ⟨8, 8⟩)]

/-- A number and a function with a loop of its own and with a local that it has captured. -/
def brokenLoopsItems : OrderedMap Value :=
  [("items", .list [.int 1, .function ⟨none, [], [.whileLoop (.bool true) [.breaks]]⟩ 0 [("n", .int 2)]])]

/-- Whether the functions among some values have safe bodies. -/
def functionsAreSafe (vs : List Value) : Bool :=
  vs.all fun
    | .function routine _ _ => isSafe routine.body
    | _ => true

/-- Loops are left by `break` at three places here, once inside of a function that a method calls. -/
theorem runProgram_loopControl_broken :
    let run : Run (OrderedMap Value) Value := runProgram 10 40 brokenLoops
    let observed : Run (OrderedMap Value) Value :=
      runObserved (loopControl (fun _ => Run.fail .strayLoopControl) fun _ => functionsAreSafe) 10 40 brokenLoops
    let m : Machine (OrderedMap Value) := Machine.start brokenLoopsItems 1
    isSafe brokenLoops = true ∧
      PassedBySafe (γ := OrderedMap Value) (fun _ => functionsAreSafe) ∧
      (∀ name v, Globals.lookup brokenLoopsItems name = some v → v.Meets .safe) ∧
      (run m).map (fun o => (o.1.isOk, OrderedMap.keys o.2.globals)) = some (true, ["items", "firstOf", "made"]) ∧
      observed m = run m ∧ ∀ r m', run m = some (r, m') → m'.Meets .safe := by
  intro run observed m
  have hsafe : isSafe brokenLoops = true := by decide +kernel
  have haccepts : PassedBySafe (γ := OrderedMap Value) fun _ => functionsAreSafe := by
    intro _ vs _ hvs
    apply List.all_eq_true.mpr
    intro v hv
    cases hvs v hv with
    | function hroutine _ => exact hroutine
    | _ => rfl
  have hbody : isSafe [.whileLoop (.bool true) [.breaks]] = true := by decide
  -- One of the globals is a list that holds a function with a loop that breaks.
  have hentries : EntriesMeet .safe brokenLoopsItems := by
    intro entry hentry
    rw [List.mem_singleton.mp hentry]
    refine .list (List.forall_mem_cons.mpr ⟨.int 1, List.forall_mem_singleton.mpr ?_⟩)
    exact .function hbody (List.forall_mem_singleton.mpr (.int 2))
  have hitems : ∀ name v, Globals.lookup brokenLoopsItems name = some v → v.Meets .safe :=
    fun name v hv => hentries.lookup hv
  obtain ⟨hsame, hafter⟩ := runProgram_loopControl 10 40 1 {} brokenLoopsItems brokenLoops
    (fun _ => Run.fail .strayLoopControl) (fun _ => functionsAreSafe) haccepts hsafe hitems
  exact ⟨hsafe, haccepts, hitems, by decide +kernel, hsame, fun r m' hrun => (hafter r m' hrun).1⟩

end RowConsole.Script
