import RowConsole.Proofs.Script.Compared.Runs

/-!
# Judging Failures

A run that has not failed keeps something of the globals, and a failure has some property together with the globals
that it leaves behind. Since nothing in a script catches a failure, what the globals are then is what they were when the
failure arose.

Operations fail plainly, without a position. Whatever calls an operation attaches a position, so such failures stay
inside of a construct: they are let through by a weaker way to judge, from which attaching a position leads back.

Main statements: one rule for each way in which runs are put together, `Ending.congruence` and `Governs.callWith`.
-/

namespace RowConsole.Script

variable {γ α β δ : Type} [Globals γ]

/-! ## Section 1: Endings -/

/-- How runs may end. -/
structure Ending (γ : Type) [Globals γ] where
  /-- What holds of the globals as long as nothing has failed. -/
  running : γ → Prop
  /-- What holds of a failure and of the globals that it leaves behind. -/
  failed : ScriptError → γ → Prop
  assigned : ∀ {g g' : γ} {name : String} {v : Value}, running g → Globals.assign g name v = .ok g' → running g'
  /-- An operation may fail at any position. -/
  raised : ∀ {g cause} (p : Pos), running g → cause ≠ .strayLoopControl → failed { cause := cause, pos := some p } g
  /-- Around a failure, a position may be attached to it. -/
  located : ∀ {e g} (p : Pos), failed e g → failed (e.located p) g

namespace Ending

/-- The same endings, and plain failures in addition. -/
def unplaced (E : Ending γ) : Ending γ where
  running := E.running
  failed e g := E.failed e g ∨ E.running g ∧ e.IsPlain
  assigned := E.assigned
  raised p hg hcause := .inl (E.raised p hg hcause)
  located := by
    rintro e g p (he | ⟨hg, cause, hcause, rfl⟩)
    · exact .inl (E.located p he)
    · exact .inl (E.raised p hg hcause)

/-- Whether a run has ended as it may. A run that is cut off has not ended, and behind a crash there is nothing. -/
def Allows (E : Ending γ) : Option (Attempt α × Machine γ) → Prop
  | none => True
  | some (.ok _, m) => E.running m.globals
  | some (.error (.script e), m) => E.failed e m.globals
  | some (.error (.crash _), _) => True

/-- Where nothing has failed yet, a run ends as it may. -/
def Governs (E : Ending γ) (run : Run γ α) : Prop :=
  ∀ m, E.running m.globals → E.Allows (run m)

variable {E : Ending γ}

namespace Governs

/-! ## Section 2: Runs Put Together -/

/-- A value ends a run without a failure. -/
protected theorem pure (a : α) : E.Governs (pure a : Run γ α) :=
  fun _ hm => hm

/-- A failure may be thrown wherever it may be. -/
theorem throw {e : ScriptError} (h : ∀ g, E.running g → E.failed e g) :
    E.Governs (MonadExcept.throw (.script e) : Run γ α) :=
  fun m hm => h m.globals hm

/-- A failure at a position may arise as long as nothing has failed. -/
theorem failAt {cause : Cause} (h : cause ≠ .strayLoopControl) (p : Pos) :
    E.Governs (Run.failAt cause p : Run γ α) :=
  throw fun _ hg => E.raised p hg h

/-- A run that is cut off has not ended. -/
theorem exhausted : E.Governs (Run.exhausted : Run γ α) :=
  fun _ _ => trivial

/-- The second run is judged where the first one has not failed; what the first one gave is known of its value. -/
theorem bind_of_ok {run : Run γ α} {next : α → Run γ β} (h : E.Governs run)
    (hnext : ∀ m a m', run m = some (.ok a, m') → E.Governs (next a)) : E.Governs (run >>= next) := by
  intro m hm
  have hrun := h m hm
  rw [Run.bind_apply]
  cases hfirst : run m with
  | none => trivial
  | some o =>
    obtain ⟨r, m'⟩ := o
    rw [hfirst] at hrun
    cases r with
    | ok a => exact hnext m a m' hfirst m' hrun
    -- What has failed or broken down does not go on.
    | error e => cases e <;> exact hrun

/-- A sequence ends as it may if both of its parts do. -/
protected theorem bind {run : Run γ α} {next : α → Run γ β} (h : E.Governs run)
    (hnext : ∀ a, E.Governs (next a)) : E.Governs (run >>= next) :=
  h.bind_of_ok fun _ a _ _ => hnext a

/-- What goes on from the machine finds globals as they are while nothing has failed. -/
theorem get_bind {next : Machine γ → Run γ α} (h : ∀ m, E.running m.globals → E.Governs (next m)) :
    E.Governs (MonadState.get >>= next) := by
  intro m hm
  rw [Run.bind_apply]
  exact h m hm m hm

/-- A machine is put in place as long as its globals are in order. -/
protected theorem set {m : Machine γ} (hm : E.running m.globals) :
    E.Governs (MonadStateOf.set m : Run γ PUnit) :=
  fun _ _ => hm

/-- A run inside one more scope. -/
theorem withScope (scope : Scope) {run : Run γ α} (h : E.Governs run) :
    E.Governs (Script.withScope scope run) := by
  intro m hm
  have hrun := h { m with frame := { m.frame with scopes := scope :: m.frame.scopes } } hm
  rw [Run.withScope_apply]
  revert hrun
  rcases run { m with frame := { m.frame with scopes := scope :: m.frame.scopes } } with _ | ⟨⟨_ | _⟩ | _, _⟩
  all_goals exact id

/-- A run inside one more frame. -/
theorem withFrame (frame : Frame) {run : Run γ α} (h : E.Governs run) :
    E.Governs (Script.withFrame frame run) := by
  intro m hm
  have hrun := h { m with frame := frame, callers := m.frame :: m.callers } hm
  rw [Run.withFrame_apply]
  revert hrun
  -- the frame that is removed holds no globals
  rcases run { m with frame := frame, callers := m.frame :: m.callers } with _ | ⟨⟨_ | _⟩ | _, _⟩
  · exact id
  all_goals simp only [Option.bind_some, Allows, Machine.globals_popFrame, imp_self]

/-- An error that is changed is judged as what it becomes. -/
theorem mapFailure {E' : Ending γ} {change : ScriptError → ScriptError} {run : Run γ α} (h : E'.Governs run)
    (hrunning : E'.running = E.running) (hchange : ∀ e g, E'.failed e g → E.failed (change e) g) :
    E.Governs (run.mapFailure (·.map change)) := by
  intro m hm
  rw [← hrunning] at hm
  have hrun := h m hm
  rw [Run.mapFailure_apply]
  -- The change applies to failures only, and leaves the machine.
  cases hfirst : run m with
  | none => trivial
  | some o =>
    obtain ⟨r, m'⟩ := o
    rw [hfirst] at hrun
    cases r with
    | ok a =>
      show E.running m'.globals
      rw [← hrunning]
      exact hrun
    | error e =>
      cases e with
      | script e => exact hchange e m'.globals hrun
      | crash c => trivial

/-! ## Section 3: Failures without a Position -/

/-- What ends as it may does so where plain failures are let through. -/
protected theorem unplaced {run : Run γ α} (h : E.Governs run) : E.unplaced.Governs run := by
  intro m hm
  have hrun := h m hm
  revert hrun
  rcases run m with _ | ⟨⟨_ | _⟩ | _, _⟩
  · exact id
  · exact Or.inl
  · exact id
  · exact id

/-- Without a position, a failure is let through inside of a construct. -/
theorem fail {cause : Cause} (h : cause ≠ .strayLoopControl) : E.unplaced.Governs (Run.fail cause : Run γ α) :=
  throw fun _ hg => .inr ⟨hg, cause, h, rfl⟩

/-- Operations fail plainly, or break down. -/
theorem ofResult {r : Attempt α} (h : FailsPlainly r) : E.unplaced.Governs (Run.ofResult r) := by
  cases r with
  | ok a => exact Governs.pure a
  | error e =>
    cases e with
    | script e => exact throw fun _ hg => .inr ⟨hg, h e rfl⟩
    | crash c => exact fun _ _ => trivial

/-- Attaching a position puts plain failures into their place. -/
theorem located (p : Pos) {run : Run γ α} (h : E.unplaced.Governs run) : E.Governs (run.located p) := by
  refine mapFailure (E := E) h rfl ?_
  rintro e g (he | ⟨hg, cause, hcause, rfl⟩)
  · exact E.located p he
  · exact E.raised p hg hcause

/-- An operation that is given a position ends as it may. -/
theorem ofResultAt (p : Pos) {r : Attempt α} (h : FailsPlainly r) : E.Governs (Run.ofResultAt p r) :=
  (ofResult h).located p

/-! ## Section 4: Steps of the Machine -/

/-- Writing to the globals is allowed, or refused for a reason. -/
theorem assignGlobal (name : String) (v : Value) : E.unplaced.Governs (Script.assignGlobal name v : Run γ Unit) := by
  unfold Script.assignGlobal
  apply get_bind
  intro m hm
  split
  · next taken hassign => exact Governs.set (m := { m with globals := taken }) (E.assigned hm hassign)
  · exact fail (by simp)

/-- A declaration in a scope leaves the globals alone. -/
theorem declareName (name : String) (v : Value) : E.unplaced.Governs (Script.declareName name v : Run γ Unit) := by
  unfold Script.declareName
  apply get_bind
  intro m hm
  split
  -- Inside of a scope the name is local.
  · next scope outer _ _ => exact Governs.set hm
  · exact assignGlobal name v

/-- An assignment to a local name leaves the globals alone. -/
theorem assignName (name : String) (v : Value) : E.unplaced.Governs (Script.assignName name v : Run γ Unit) := by
  unfold Script.assignName
  apply get_bind
  intro m hm
  split
  -- The name was found in one of the scopes.
  · next scopes _ => exact Governs.set hm
  · exact assignGlobal name v

/-- Writing leaves the globals alone, also where the output refuses it. -/
theorem write (text : String) : E.unplaced.Governs (Script.write text : Run γ Unit) := by
  unfold Script.write
  apply get_bind
  intro m hm
  obtain ⟨refused, output⟩ := m.output.write text
  apply Governs.bind (Governs.set (m := { m with output := output }) hm)
  intro _
  cases refused with
  | none => exact Governs.pure ()
  | some reason => exact fail (by simp)

/-- A new function takes a serial number and nothing else. -/
theorem newFunction (routine : Routine) (captured : OrderedMap Value) :
    E.Governs (Script.newFunction routine captured : Run γ Value) :=
  fun _ hm => hm

end Governs

/-! ## Section 5: Constructs -/

/-- To end as it may is a congruence of each run with itself. Inside of a construct plain failures are let through. -/
def congruence (E : Ending γ) : Congruence γ γ where
  Rel run _ := E.Governs run
  pure := Governs.pure
  bind := Governs.bind
  unplaced := { Rel := fun run _ => E.unplaced.Governs run, pure := Governs.pure, bind := Governs.bind }
  weaken h := h.unplaced
  fail h := Governs.fail h
  crash c := Governs.ofResult (failsPlainly_crash c)
  located p _ _ h := h.located p
  exhausted := Governs.exhausted
  get_bind h := Governs.get_bind fun m _ => h m m ⟨fun _ => rfl, rfl⟩
  withScope scope _ _ h := h.withScope scope
  declareName := Governs.declareName
  assignName := Governs.assignName
  write := Governs.write
  newFunction := Governs.newFunction

/-- All calls end as they may. -/
def GovernsCalls (E : Ending γ) (call : Caller γ) : Prop :=
  ∀ f args, E.Governs (call f args)

namespace Governs

variable {exec : Stmt → Run γ Flow}

/-- A block ends as it may if its statements do. -/
theorem runBlock (hexec : ∀ s, E.Governs (exec s)) (last : Value) (stmts : List Stmt) :
    E.Governs (Script.runBlock exec last stmts) :=
  show E.congruence.Rel _ (Script.runBlock exec last stmts) from E.congruence.runBlock hexec last stmts

/-- The statements of a block in one more scope. -/
theorem runScoped (hexec : ∀ s, E.Governs (exec s)) (scope : Scope) (body : List Stmt) :
    E.Governs (Script.runScoped exec scope body) :=
  (runBlock hexec .null body).withScope scope

/-- A loop on a condition ends as it may if its condition and its body do. -/
theorem runWhile {cond : Run γ Value} {body : Run γ Flow} (fuel : Nat) (hcond : E.Governs cond)
    (hbody : E.Governs body) : E.Governs (Script.runWhile fuel cond body) :=
  show E.congruence.Rel _ (Script.runWhile fuel cond body) from E.congruence.runWhile fuel hcond hbody

variable {eval : Expr → Run γ Value} {call : Pos → Caller γ} {store : Expr → Value → Pos → Run γ Unit}

/-- An expression ends as it may if its parts and calls do. -/
theorem evalWith (heval : ∀ e, E.Governs (eval e)) (hcall : ∀ p, E.GovernsCalls (call p)) (e : Expr) :
    E.Governs (Script.evalWith eval call e) :=
  show E.congruence.Rel _ (Script.evalWith eval call e) from E.congruence.evalWith heval hcall e

/-- A statement ends as it may if its expressions, its targets, its blocks and its loop on a condition do. -/
theorem execWith {inner : Scope → List Stmt → Run γ Flow} {loop : Run γ Value → Run γ Flow → Run γ Flow}
    (heval : ∀ e, E.Governs (eval e)) (hstore : ∀ e v p, E.Governs (store e v p))
    (hinner : ∀ scope body, E.Governs (inner scope body))
    (hloop : ∀ {cond body}, E.Governs cond → E.Governs body → E.Governs (loop cond body)) (s : Stmt) :
    E.Governs (Script.execWith eval store inner loop s) :=
  show E.congruence.Rel _ (Script.execWith eval store inner loop s) from
    E.congruence.execWith heval hstore hinner (fun hcond hbody => hloop hcond hbody) s

/-- A write to a place ends as it may if the expressions around it and the writes to them do. -/
theorem storeWith (heval : ∀ e, E.Governs (eval e)) (hstore : ∀ e v p, E.Governs (store e v p)) (target : Expr)
    (v : Value) (p : Pos) : E.Governs (Script.storeWith eval store target v p) :=
  show E.congruence.Rel _ (Script.storeWith eval store target v p) from
    E.congruence.storeWith heval hstore target v p

variable {limit : Nat} {block : List Stmt → Run γ Flow} {p : Pos}

/-- A call that is refused fails like an operation. -/
theorem callRoutine {routine : Routine} {captured : OrderedMap Value} {args : List Value}
    (hbody : ∀ frame, E.Governs (Run.mapFailure (fun e => e.inCall routine.displayName p) (do
      let flow ← Script.withFrame frame (block routine.body)
      Run.ofResult flow.result))) :
    E.Governs (Script.callRoutine limit block routine captured args p) := by
  apply get_bind
  intro m _
  split
  · exact failAt (by simp) p
  · split
    · exact failAt (by simp) p
    · exact hbody _

/-- Calls of values end as they may if the bodies of the routines do. -/
theorem callWith {f : Value}
    (hbody : ∀ routine serial captured frame, f = .function routine serial captured →
      E.Governs (Run.mapFailure (fun e => e.inCall routine.displayName p) (do
        let flow ← Script.withFrame frame (block routine.body)
        Run.ofResult flow.result)))
    (args : List Value) : E.Governs (Script.callWith limit block p f args) := by
  show E.congruence.Rel _ (Script.callWith limit block p f args)
  apply E.congruence.callWith
  intro routine serial captured hf
  exact callRoutine fun frame => hbody routine serial captured frame hf

end Governs

end Ending

end RowConsole.Script
