import RowConsole.Proofs.Script.Compared.Evaluation
import RowConsole.Proofs.Script.Failure.Runs

/-!
# Observed Runs

An observer does something around every expression, every statement, every write to a place, every call and every body
of a routine that is called. It may keep what it has seen beside the globals, where scripts cannot reach it.

What all observers share is said here once: an observer that lets runs pass on changes nothing, and what it sees in the
end is known if each of its parts keeps to an ending.

Main statements: `runObserved_of_runProgram` and `Observer.Within.program`.
-/

namespace RowConsole.Script

variable {γ γ' ν : Type}

/-! ## Section 1: Observers -/

/-- What is done around the constructs of a program when they run. -/
structure Observer (γ : Type) where
  expr : Run γ Value → Run γ Value
  stmt : Run γ Flow → Run γ Flow
  target : Run γ Unit → Run γ Unit
  /-- Around a call of any value, also of one that is refused. -/
  call : Run γ Value → Run γ Value
  /-- Around the body of a routine, which runs because of the call at a position. -/
  body : Routine → Pos → Run γ Flow → Run γ Flow

/-- Does nothing around anything. -/
def Observer.idle : Observer γ where
  expr run := run
  stmt run := run
  target run := run
  call run := run
  body _ _ run := run

variable [Globals γ] [Globals γ']

/-- A way to run the bodies of a value that is called, with an observer around the body. -/
def Observer.around (o : Observer γ) (p : Pos) (f : Value) (block : List Stmt → Run γ Flow) :
    List Stmt → Run γ Flow :=
  match f with
  | .function routine _ _ => fun body => o.body routine p (block body)
  | _ => block

/-- Calls values with an observer around the calls and the bodies. -/
def Observer.caller (o : Observer γ) (limit : Nat) (block : List Stmt → Run γ Flow) (p : Pos) : Caller γ :=
  fun f args => o.call (callWith limit (o.around p f block) p f args)

mutual

/-- The value of an expression, with an observer. -/
def evalObserved (o : Observer γ) (limit fuel : Nat) (e : Expr) : Run γ Value :=
  match fuel with
  | 0 => Run.exhausted
  | fuel + 1 =>
    o.expr (evalWith (evalObserved o limit fuel) (o.caller limit (runBlock (execObserved o limit fuel) .null)) e)
termination_by structural fuel

/-- Runs a statement with an observer. -/
def execObserved (o : Observer γ) (limit fuel : Nat) (s : Stmt) : Run γ Flow :=
  match fuel with
  | 0 => Run.exhausted
  | fuel + 1 =>
    o.stmt (execWith (evalObserved o limit fuel) (storeObserved o limit fuel) (runScoped (execObserved o limit fuel))
      (runWhile fuel) s)
termination_by structural fuel

/-- Writes a value into the place that an expression names, with an observer. -/
def storeObserved (o : Observer γ) (limit fuel : Nat) (target : Expr) (v : Value) (p : Pos) : Run γ Unit :=
  match fuel with
  | 0 => Run.exhausted
  | fuel + 1 => o.target (storeWith (evalObserved o limit fuel) (storeObserved o limit fuel) target v p)
termination_by structural fuel

end

/-- Runs a program with an observer. -/
def runObserved (o : Observer γ) (limit fuel : Nat) (program : List Stmt) : Run γ Value := do
  let flow ← runBlock (execObserved o limit fuel) .null program
  Run.ofResult flow.result

/-! ## Section 2: Observers That Change Nothing -/

omit [Globals γ] in
theorem Observer.caller_idle (limit : Nat) (block : List Stmt → Run γ Flow) (p : Pos) :
    Observer.idle.caller limit block p = callWith limit block p := by
  funext f args
  cases f <;> rfl

/-- With an observer that does nothing, constructs run as they do without one. -/
theorem observed_idle (limit fuel : Nat) :
    evalObserved (γ := γ) .idle limit fuel = eval limit fuel ∧
      execObserved (γ := γ) .idle limit fuel = exec limit fuel ∧
      storeObserved (γ := γ) .idle limit fuel = store limit fuel := by
  induction fuel with
  | zero => exact ⟨rfl, rfl, rfl⟩
  | succ fuel ih =>
    obtain ⟨heval, hexec, hstore⟩ := ih
    -- The observed evaluator is the plain one with the observer around each part, so idle hooks leave it as it is.
    have hcaller : Observer.idle.caller (γ := γ) limit (runBlock (exec limit fuel) .null) =
        callWith limit (runBlock (exec limit fuel) .null) := funext (Observer.caller_idle limit _)
    refine ⟨funext fun e => ?_, funext fun s => ?_, funext fun target => funext fun v => funext fun p => ?_⟩
    · show evalWith _ _ e = evalWith _ _ e
      rw [heval, hexec, hcaller]
    · show execWith _ _ _ _ s = execWith _ _ _ _ s
      rw [heval, hexec, hstore]
    · show storeWith _ _ target v p = storeWith _ _ target v p
      rw [heval, hstore]

theorem runObserved_idle (limit fuel : Nat) (program : List Stmt) :
    runObserved (γ := γ) .idle limit fuel program = runProgram limit fuel program := by
  rw [runObserved, runProgram, (observed_idle limit fuel).2.1]

variable {C : Comparison γ γ'} {o : Observer γ} {limit : Nat}

/-- What is compared is not touched by an observer. -/
structure Observer.Transparent (o : Observer γ) (C : Comparison γ γ') : Prop where
  expr : ∀ {run run'}, C.Follows run run' → C.Follows (o.expr run) run'
  stmt : ∀ {run run'}, C.Follows run run' → C.Follows (o.stmt run) run'
  target : ∀ {run run'}, C.Follows run run' → C.Follows (o.target run) run'
  call : ∀ {run run'}, C.Follows run run' → C.Follows (o.call run) run'
  body : ∀ {run run'} routine p, C.Follows run run' → C.Follows (o.body routine p run) run'

namespace Comparison

/-- Up to some fuel, the interpreter follows the one with an observer. -/
structure FollowsObserved (C : Comparison γ γ') (o : Observer γ) (limit fuel : Nat) : Prop where
  eval : ∀ e, C.Follows (evalObserved o limit fuel e) (Script.eval limit fuel e)
  exec : ∀ s, C.Follows (execObserved o limit fuel s) (Script.exec limit fuel s)
  store : ∀ target v p, C.Follows (storeObserved o limit fuel target v p) (Script.store limit fuel target v p)

/-- A run that does nothing more is still followed. -/
theorem Follows.bind_idle {α : Type} {run : Run γ α} {run' : Run γ' α} {next : α → Run γ α} (h : C.Follows run run')
    (hnext : ∀ a, C.Follows (next a) (pure a)) : C.Follows (run >>= next) run' := by
  have hboth := h.bind hnext
  rwa [bind_pure] at hboth

theorem Follows.caller (ho : o.Transparent C) {block : List Stmt → Run γ Flow} {block' : List Stmt → Run γ' Flow}
    (hblock : ∀ body, C.Follows (block body) (block' body)) (p : Pos) :
    C.FollowsCalls (o.caller limit block p) (Script.callWith limit block' p) := by
  intro f args
  have haround : ∀ body, C.Follows (o.around p f block body) (block' body) := by
    intro body
    cases f with
    | function routine serial captured => exact ho.body routine p (hblock body)
    | _ => exact hblock body
  apply ho.call
  exact Follows.callWith (Nat.le_refl limit) (fun h => absurd h (Nat.lt_irrefl limit)) haround p f args

private theorem followsObserved (ho : o.Transparent C) (fuel : Nat) : C.FollowsObserved o limit fuel := by
  -- on the fuel: each construct is made of constructs that are evaluated with less of it
  induction fuel with
  | zero => exact ⟨fun _ => Follows.exhausted, fun _ => Follows.exhausted, fun _ _ _ => Follows.exhausted⟩
  | succ fuel ih =>
    constructor
    · intro e
      apply ho.expr
      exact C.congruence.evalWith ih.eval (Follows.caller ho (C.congruence.runBlock ih.exec .null)) e
    · intro s
      apply ho.stmt
      exact C.congruence.execWith ih.eval ih.store (C.congruence.runScoped ih.exec) (C.congruence.runWhile fuel) s
    · intro target v p
      apply ho.target
      exact C.congruence.storeWith ih.eval ih.store target v p

/-- A program follows the same program with an observer. -/
theorem Follows.runObserved (ho : o.Transparent C) (fuel : Nat) (program : List Stmt) :
    C.Follows (Script.runObserved o limit fuel program) (Script.runProgram limit fuel program) := by
  apply Follows.bind (C.congruence.runBlock (followsObserved ho fuel).exec .null program)
  intro flow
  exact Follows.ofResult flow.result

end Comparison

/-! ## Section 3: What Is Seen -/

/-- A store of globals, and what an observer keeps beside it. -/
structure Watched (γ ν : Type) where
  store : γ
  seen : ν

/-- What is kept beside the store has no part in what is bound. -/
instance : Globals (Watched γ ν) where
  lookup w := Globals.lookup w.store
  assign w name v := (Globals.assign w.store name v).map fun store => { w with store := store }
  lookup_assign := by
    intro w w' name v h
    cases hassign : Globals.assign w.store name v with
    | error reason =>
      rw [hassign] at h
      contradiction
    | ok store =>
      rw [hassign] at h
      cases h
      exact Globals.lookup_assign hassign

/-- A name that is taken changes the store only. -/
theorem Watched.seen_of_assign {w w' : Watched γ ν} {name : String} {v : Value}
    (h : Globals.assign w name v = .ok w') : w'.seen = w.seen := by
  change (Globals.assign w.store name v).map (fun store => { w with store := store }) = .ok w' at h
  cases hassign : Globals.assign w.store name v with
  | error reason =>
    rw [hassign] at h
    contradiction
  | ok store =>
    rw [hassign] at h
    cases h
    rfl

/-- The same machine, watched by an observer. -/
def Machine.watched (m : Machine γ) (seen : ν) : Machine (Watched γ ν) :=
  m.withStore ⟨m.globals, seen⟩

/-- What is seen changes, and nothing else. -/
def see (change : ν → ν) : Run (Watched γ ν) Unit :=
  modify fun m => { m with globals := { m.globals with seen := change m.globals.seen } }

omit [Globals γ] in
theorem see_bind_apply {α : Type} (change : ν → ν) (run : Run (Watched γ ν) α) (m : Machine (Watched γ ν)) :
    (do see change; run) m = run { m with globals := { m.globals with seen := change m.globals.seen } } := by
  rw [Run.bind_apply]
  rfl

/-- A store that is watched belongs to the one that it is by itself. -/
def Comparison.unwatched : Comparison (Watched γ ν) γ where
  paired w g := w.store = g
  excused _ := False
  lookup_eq := by
    rintro w g rfl name
    rfl
  assigned := by
    rintro w g rfl name v
    have hassign : Globals.assign w name v =
        (Globals.assign w.store name v).map fun store => { w with store := store } := rfl
    cases hstore : Globals.assign w.store name v with
    | ok store => exact .inl ⟨{ w with store := store }, store, by rw [hassign, hstore]; rfl, rfl, rfl⟩
    | error reason => exact .inr ⟨reason, by rw [hassign, hstore]; rfl, .inr rfl⟩

/-- What is seen makes no difference. -/
theorem Comparison.Follows.see_bind {α : Type} (change : ν → ν) {run : Run (Watched γ ν) α} {run' : Run γ α}
    (h : Comparison.unwatched.Follows run run') : Comparison.unwatched.Follows (do see change; run) run' := by
  intro m g hg
  rw [see_bind_apply]
  exact h { m with globals := { m.globals with seen := change m.globals.seen } } g hg

/-- What a program does, it does as well while an observer that changes nothing watches it. -/
theorem runObserved_of_runProgram {o : Observer (Watched γ ν)} (ho : o.Transparent (Comparison.unwatched (γ := γ)))
    {fuel : Nat} {program : List Stmt} {m m' : Machine γ} {r : Attempt Value} (seen : ν)
    (hrun : runProgram limit fuel program m = some (r, m')) :
    ∃ seen', runObserved o limit fuel program (m.watched seen) = some (r, m'.watched seen') := by
  have hfollows : Comparison.unwatched.Follows (runObserved o limit fuel program) (runProgram limit fuel program) :=
    Comparison.Follows.runObserved ho fuel program
  have hsame := hfollows (m.watched seen) m.globals rfl
  have hmachine : (m.watched seen).withStore m.globals = m := rfl
  rw [hmachine, hrun] at hsame
  generalize runObserved o limit fuel program (m.watched seen) = observed at hsame
  cases hsame with
  | excused hexcused => exact hexcused.elim
  | @same r m₁ g hg =>
    cases hg
    exact ⟨m₁.globals.seen, rfl⟩

/-! ## Section 4: Endings of Observed Runs -/

/-- What a call makes of the run of the body of its routine. -/
def Observer.callOf (o : Observer γ) (routine : Routine) (p : Pos) (frame : Frame) (run : Run γ Flow) : Run γ Value :=
  Run.mapFailure (fun e => e.inCall routine.displayName p) do
    let flow ← withFrame frame (o.body routine p run)
    Run.ofResult flow.result

/-- Each part of an observer keeps to the endings of a family. A body may be judged by any of them. -/
structure Observer.Within {ι : Type} (o : Observer γ) (E : ι → Ending γ) : Prop where
  expr : ∀ {i run}, (E i).Governs run → (E i).Governs (o.expr run)
  stmt : ∀ {i run}, (E i).Governs run → (E i).Governs (o.stmt run)
  target : ∀ {i run}, (E i).Governs run → (E i).Governs (o.target run)
  call : ∀ {i run}, (E i).Governs run → (E i).Governs (o.call run)
  body : ∀ i limit fuel routine p frame,
    (∀ j, (E j).Governs (runBlock (execObserved o limit fuel) .null routine.body)) →
      (E i).Governs (o.callOf routine p frame (runBlock (execObserved o limit fuel) .null routine.body))

/-- Up to some fuel, observed runs end as they may. -/
structure Ending.GovernsObserved (E : Ending γ) (o : Observer γ) (limit fuel : Nat) : Prop where
  eval : ∀ e, E.Governs (evalObserved o limit fuel e)
  exec : ∀ s, E.Governs (execObserved o limit fuel s)
  store : ∀ target v p, E.Governs (storeObserved o limit fuel target v p)

variable {ι : Type} {E : ι → Ending γ}

theorem Observer.Within.caller (ho : o.Within E) {fuel : Nat}
    (hexec : ∀ i s, (E i).Governs (execObserved o limit fuel s)) (i : ι) (p : Pos) :
    (E i).GovernsCalls (o.caller limit (runBlock (execObserved o limit fuel) .null) p) := by
  intro f args
  apply ho.call
  apply Ending.Governs.callWith
  rintro routine serial captured frame rfl
  exact ho.body i limit fuel routine p frame fun j => Ending.Governs.runBlock (hexec j) .null routine.body

/-- Observed expressions, statements and writes end as they may. -/
theorem Observer.Within.governed (ho : o.Within E) (limit fuel : Nat) (i : ι) :
    (E i).GovernsObserved o limit fuel := by
  -- on the fuel, for all endings at once: the bodies of calls run under other ones
  induction fuel generalizing i with
  | zero =>
    exact ⟨fun _ => Ending.Governs.exhausted, fun _ => Ending.Governs.exhausted,
      fun _ _ _ => Ending.Governs.exhausted⟩
  | succ fuel ih =>
    obtain ⟨heval, hexec, hstore⟩ := ih i
    have hcaller := ho.caller (fun j => (ih j).exec) i
    constructor
    · intro e
      apply ho.expr
      exact Ending.Governs.evalWith heval hcaller e
    · intro s
      apply ho.stmt
      exact Ending.Governs.execWith heval hstore (Ending.Governs.runScoped hexec) (Ending.Governs.runWhile fuel) s
    · intro target v p
      apply ho.target
      exact Ending.Governs.storeWith heval hstore target v p

/-- An observed program ends as it may, if it may be left by a stray `break` or `continue`. -/
theorem Observer.Within.program (ho : o.Within E) (i : ι)
    (hstray : ∀ g, (E i).running g → (E i).failed { cause := .strayLoopControl } g) (limit fuel : Nat)
    (program : List Stmt) : (E i).Governs (runObserved o limit fuel program) := by
  apply (Ending.Governs.runBlock (ho.governed limit fuel i).exec .null program).bind
  intro flow
  cases flow with
  | next v | returned v => exact Ending.Governs.pure v
  | broke | continued => exact Ending.Governs.throw hstray

/-- The error in which a run has ended. -/
def failureOf {α : Type} : Option (Attempt α × Machine γ) → Option ScriptError
  | some (.error (.script e), _) => some e
  | _ => none

omit [Globals γ] in
theorem exists_of_failureOf {α : Type} {o : Option (Attempt α × Machine γ)} {e : ScriptError}
    (h : failureOf o = some e) : ∃ m, o = some (.error (.script e), m) := by
  rcases o with _ | ⟨⟨_ | _⟩ | _, m⟩
  · contradiction
  · cases h
    exact ⟨m, rfl⟩
  · contradiction
  · contradiction

end RowConsole.Script
