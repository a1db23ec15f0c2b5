import RowConsole.Script.Evaluate

/-!
# Judging Runs

A family of runs is judged from states with an invariant: its outcomes leave the invariant in force, and a
result has a given property. What it means to judge the outcomes of a family is a parameter, a mode, so that
one set of rules serves agreement of two runs and termination for large enough bounds. Main statements: one
rule for each way in which runs are put together. Behind them stands what single expressions are evaluated to
once the outcomes of their parts are known.
-/

namespace RowConsole.Script

/-! ## Section 1: Modes -/

/-- A way to judge the outcomes of a family of computations. An outcome that all of them share may be judged
by itself, and judgements compose along sequences. -/
structure Mode (ι : Type) where
  judges : {β : Type} → (ι → Option β) → (β → Prop) → Prop
  judges_some : ∀ {β : Type} {φ : β → Prop} {b : β}, φ b → judges (fun _ => some b) φ
  judges_bind : ∀ {β β' : Type} {x : ι → Option β} {k : ι → β → Option β'} {φ : β → Prop} {ψ : β' → Prop},
    judges x φ → (∀ b, φ b → judges (fun i => k i b) ψ) → judges (fun i => (x i).bind (k i)) ψ

/-- Two computations agree, and an outcome has the property. -/
def Mode.agreement : Mode Bool where
  judges x φ := x true = x false ∧ ∀ b, x false = some b → φ b
  judges_some h := ⟨rfl, fun b hb => Option.some.inj hb ▸ h⟩
  judges_bind := by
    intro β β' x k φ ψ hagree hk
    obtain ⟨hsame, hx⟩ := hagree
    cases hfalse : x false with
    | none => simp [hsame, hfalse]
    | some b => simpa [hsame, hfalse] using hk b (hx b hfalse)

/-- From some index on, all computations have the same outcome, and it has the property. -/
def Mode.eventually : Mode Nat where
  judges x φ := ∃ b, (∃ n, ∀ i, n ≤ i → x i = some b) ∧ φ b
  judges_some h := ⟨_, ⟨0, fun _ _ => rfl⟩, h⟩
  judges_bind := by
    intro β β' x k φ ψ hbound hk
    obtain ⟨b, ⟨n, hx⟩, hb⟩ := hbound
    obtain ⟨c, ⟨n', hk⟩, hc⟩ := hk b hb
    -- From the larger of the two bounds on, both parts have their outcomes.
    refine ⟨c, ⟨max n n', fun i hi => ?_⟩, hc⟩
    show (x i).bind (k i) = some c
    rw [hx i (Nat.le_trans (Nat.le_max_left n n') hi)]
    exact hk i (Nat.le_trans (Nat.le_max_right n n') hi)

/-- What happens eventually does not depend on where the count starts. -/
theorem Mode.eventually_of_succ {β : Type} {x : Nat → Option β} {φ : β → Prop}
    (h : Mode.eventually.judges (fun i => x (i + 1)) φ) : Mode.eventually.judges x φ := by
  obtain ⟨b, ⟨n, hx⟩, hb⟩ := h
  refine ⟨b, ⟨n + 1, fun i hi => ?_⟩, hb⟩
  obtain ⟨j, rfl⟩ := Nat.exists_eq_add_of_le' (Nat.le_trans (Nat.le_add_left 1 n) hi)
  exact hx j (Nat.le_of_add_le_add_right hi)

/-- Whatever follows from a property may be judged instead of it. -/
private theorem Mode.judges_mono {ι β : Type} (M : Mode ι) {x : ι → Option β} {φ ψ : β → Prop}
    (h : M.judges x φ) (hφ : ∀ b, φ b → ψ b) : M.judges x ψ := by
  have := M.judges_bind (k := fun _ b => some b) h fun b hb => M.judges_some (hφ b hb)
  simpa using this

/-! ## Section 2: Judgements -/

variable {ι γ α β : Type} {M : Mode ι} {I J : Machine γ → Prop}

/-- From a state with the invariant, the runs of a family leave it in force, and a result has the property. -/
def Mode.Holds (M : Mode ι) (I : Machine γ → Prop) (run : ι → Run γ α) (Q : α → Prop) : Prop :=
  ∀ m, I m → M.judges (fun i => run i m) fun (r, m') => I m' ∧ ∀ a, r = .ok a → Q a

namespace Run

/-- A sequence of runs: the second one starts where the first one ended, unless that failed. -/
theorem bind_apply (run : Run γ α) (f : α → Run γ β) (m : Machine γ) :
    (run >>= f) m = (run m).bind fun
      | (.ok a, m') => f a m'
      | (.error e, m') => some (.error e, m') := by
  cases h : run m with
  | none => simp [bind, ExceptT.bind, ExceptT.mk, StateT.bind, h]
  | some o =>
    obtain ⟨r, m'⟩ := o
    cases r with
    | ok a => simp [bind, ExceptT.bind, ExceptT.mk, ExceptT.bindCont, StateT.bind, h]
    | error e =>
      simp only [bind, ExceptT.bind, ExceptT.mk, ExceptT.bindCont, StateT.bind, h, Option.bind_some]
      rfl

/-- Behind a run that has ended well, a sequence is its second run. -/
theorem bind_of_ok {run : Run γ α} {next : α → Run γ β} {m m' : Machine γ} {a : α} (h : run m = some (.ok a, m')) :
    (run >>= next) m = next a m' := by
  rw [bind_apply, h]
  rfl

/-- A run that has failed is all that a sequence does. -/
theorem bind_of_error {run : Run γ α} {next : α → Run γ β} {m m' : Machine γ} {e : Failure}
    (h : run m = some (.error e, m')) : (run >>= next) m = some (.error e, m') := by
  rw [bind_apply, h]
  rfl

/-- What asks for the machine goes on with the one that it is run on. -/
theorem get_apply (next : Machine γ → Run γ α) (m : Machine γ) : (get >>= next) m = next m m :=
  rfl

/-- The result of an operation that is reported at a position. -/
theorem ofResultAt_apply (p : Pos) (r : Attempt α) (m : Machine γ) :
    ofResultAt p r m = some (r.mapError (·.located p), m) := by
  cases r <;> rfl

/-- A run with its failure changed. -/
theorem mapFailure_apply (f : Failure → Failure) (run : Run γ α) (m : Machine γ) :
    run.mapFailure f m = (run m).bind fun
      | (.ok a, m') => some (.ok a, m')
      | (.error e, m') => some (.error (f e), m') := by
  unfold mapFailure
  split
  · next h => simp [h]
  · next other h =>
    cases hrun : run m with
    | none => rfl
    | some o =>
      obtain ⟨r, m'⟩ := o
      cases r with
      | ok a => rfl
      | error e => exact absurd hrun (h e m')

/-- A run inside one more scope. -/
theorem withScope_apply (scope : Scope) (run : Run γ α) (m : Machine γ) :
    withScope scope run m =
      (run { m with frame := { m.frame with scopes := scope :: m.frame.scopes } }).bind fun o =>
        some (o.1, { o.2 with frame := { o.2.frame with scopes := o.2.frame.scopes.tail } }) := by
  unfold withScope
  cases run { m with frame := { m.frame with scopes := scope :: m.frame.scopes } } <;> rfl

/-- A run inside one more frame. -/
theorem withFrame_apply (frame : Frame) (run : Run γ α) (m : Machine γ) :
    withFrame frame run m =
      (run { m with frame := frame, callers := m.frame :: m.callers }).bind fun o =>
        some (o.1, o.2.popFrame) := by
  unfold withFrame
  cases run { m with frame := frame, callers := m.frame :: m.callers } <;> rfl

end Run

namespace Mode.Holds

/-- A judgement about the results covers all that follows from it. -/
theorem mono {run : ι → Run γ α} {Q R : α → Prop} (h : M.Holds I run Q)
    (hQ : ∀ a, Q a → R a) : M.Holds I run R := fun m hm =>
  M.judges_mono (h m hm) fun _ ⟨hI, ho⟩ => ⟨hI, fun a ha => hQ a (ho a ha)⟩

/-- A result that is there already leaves the state alone. -/
protected theorem pure {a : α} {Q : α → Prop} (h : Q a) :
    M.Holds I (fun _ => (pure a : Run γ α)) Q := fun _ hm =>
  M.judges_some ⟨hm, fun _ hb => Except.ok.inj hb ▸ h⟩

/-- A failure leaves the state alone, and it has no result that a property could ask about. -/
theorem throw (e : Failure) {Q : α → Prop} :
    M.Holds I (fun _ => (MonadExcept.throw e : Run γ α)) Q := fun _ hm =>
  M.judges_some ⟨hm, fun _ hb => nomatch hb⟩

/-- A failure that is given by its cause leaves the state alone. -/
theorem fail (cause : Cause) {Q : α → Prop} : M.Holds I (fun _ => (Run.fail cause : Run γ α)) Q :=
  throw _

/-- A failure at a position leaves the state alone. -/
theorem failAt (cause : Cause) (p : Pos) {Q : α → Prop} :
    M.Holds I (fun _ => (Run.failAt cause p : Run γ α)) Q :=
  throw _

/-- A sequence is judged by its first run and by its second one for each result of the first. -/
protected theorem bind {run : ι → Run γ α} {f : ι → α → Run γ β} {Q : α → Prop} {R : β → Prop}
    (h : M.Holds I run Q) (hf : ∀ a, Q a → M.Holds I (fun i => f i a) R) :
    M.Holds I (fun i => run i >>= f i) R := by
  intro m hm
  simp only [Run.bind_apply]
  refine M.judges_bind (h m hm) ?_
  rintro ⟨r, m'⟩ ⟨hm', ha⟩
  cases r with
  | ok a => exact hf a (ha a rfl) m' hm'
  | error e => exact M.judges_some ⟨hm', fun _ hb => nomatch hb⟩

/-- Changing the failures of a run changes nothing that is judged. -/
theorem mapFailure (f : Failure → Failure) {run : ι → Run γ α} {Q : α → Prop}
    (h : M.Holds I run Q) : M.Holds I (fun i => (run i).mapFailure f) Q := by
  intro m hm
  simp only [Run.mapFailure_apply]
  refine M.judges_bind (h m hm) ?_
  rintro ⟨r, m'⟩ ⟨hm', ha⟩
  cases r with
  | ok a => exact M.judges_some ⟨hm', ha⟩
  | error e => exact M.judges_some ⟨hm', fun _ hb => nomatch hb⟩

/-- A failure may be given a position. -/
theorem located (p : Pos) {run : ι → Run γ α} {Q : α → Prop} (h : M.Holds I run Q) :
    M.Holds I (fun i => (run i).located p) Q :=
  h.mapFailure _

/-- An operation without effects is judged by its result. -/
theorem ofResult {r : Attempt α} {Q : α → Prop} (h : ∀ a, r = .ok a → Q a) :
    M.Holds I (fun _ => (Run.ofResult r : Run γ α)) Q := by
  cases r with
  | ok a => exact Holds.pure (h a rfl)
  | error e => exact throw e

/-- An operation whose failure is reported at a position is judged by its result. -/
theorem ofResultAt (p : Pos) {r : Attempt α} {Q : α → Prop} (h : ∀ a, r = .ok a → Q a) :
    M.Holds I (fun _ => (Run.ofResultAt p r : Run γ α)) Q :=
  (ofResult h).located p

/-- Reading the state gives a state with the invariant. -/
protected theorem get : M.Holds I (fun _ => (MonadState.get : Run γ (Machine γ))) I := fun _ hm =>
  M.judges_some ⟨hm, fun _ hb => Except.ok.inj hb ▸ hm⟩

/-- A state that is put in place needs the invariant itself. -/
protected theorem set {m : Machine γ} (h : I m) {Q : PUnit → Prop} (hQ : Q ()) :
    M.Holds I (fun _ => (MonadStateOf.set m : Run γ PUnit)) Q := fun _ _ =>
  M.judges_some ⟨h, fun _ _ => hQ⟩

/-- A judgement may be made for each state under an invariant of its own. -/
theorem of_each {run : ι → Run γ α} {Q : α → Prop}
    (h : ∀ m, I m → ∃ J : Machine γ → Prop, J m ∧ (∀ m', J m' → I m') ∧ M.Holds J run Q) :
    M.Holds I run Q := by
  intro m hm
  obtain ⟨J, hJ, hI, hrun⟩ := h m hm
  exact M.judges_mono (hrun m hJ) fun _ ⟨hm', ha⟩ => ⟨hI _ hm', ha⟩

/-- A run inside one more scope is judged under an invariant for the inside. -/
theorem withScope {scope : Scope} {run : ι → Run γ α} {Q : α → Prop} (h : M.Holds J run Q)
    (hin : ∀ m, I m → J { m with frame := { m.frame with scopes := scope :: m.frame.scopes } })
    (hout : ∀ m, J m → I { m with frame := { m.frame with scopes := m.frame.scopes.tail } }) :
    M.Holds I (fun i => Script.withScope scope (run i)) Q := by
  intro m hm
  simp only [Run.withScope_apply]
  exact M.judges_bind (h _ (hin m hm)) fun _ ⟨hm', ha⟩ => M.judges_some ⟨hout _ hm', ha⟩

/-- A run inside one more frame is judged under an invariant for the inside. -/
theorem withFrame {frame : Frame} {run : ι → Run γ α} {Q : α → Prop} (h : M.Holds J run Q)
    (hin : ∀ m, I m → J { m with frame := frame, callers := m.frame :: m.callers })
    (hout : ∀ m, J m → I m.popFrame) :
    M.Holds I (fun i => Script.withFrame frame (run i)) Q := by
  intro m hm
  simp only [Run.withFrame_apply]
  exact M.judges_bind (h _ (hin m hm)) fun _ ⟨hm', ha⟩ => M.judges_some ⟨hout _ hm', ha⟩

/-- Runs for the items of a list, in order. -/
theorem mapM {f : ι → α → Run γ β} {items : List α} {Q : β → Prop}
    (h : ∀ item ∈ items, M.Holds I (fun i => f i item) Q) :
    M.Holds I (fun i => items.mapM (f i)) fun made => ∀ b ∈ made, Q b := by
  induction items with
  | nil =>
    simp only [List.mapM_nil]
    exact Holds.pure fun b hb => nomatch hb
  | cons item rest ih =>
    simp only [List.mapM_cons]
    refine (h item (List.mem_cons_self ..)).bind fun b hb => ?_
    refine (ih fun x hx => h x (List.mem_cons_of_mem _ hx)).bind fun made hmade => ?_
    exact Holds.pure (List.forall_mem_cons.mpr ⟨hb, hmade⟩)

/-- Runs for the items of a list, in order and for their effects only. -/
theorem forM {f : ι → α → Run γ PUnit} {items : List α}
    (h : ∀ item ∈ items, M.Holds I (fun i => f i item) fun _ => True) :
    M.Holds I (fun i => items.forM (f i)) fun _ => True := by
  induction items with
  | nil => exact Holds.pure trivial
  | cons item rest ih =>
    simp only [List.forM]
    exact (h item (List.mem_cons_self ..)).bind fun _ _ => ih fun x hx => h x (List.mem_cons_of_mem _ hx)

/-- Statements in order, until one leaves the block. -/
theorem runBlock {exec : ι → Stmt → Run γ Flow} {Q : Flow → Prop} {stmts : List Stmt}
    (h : ∀ s ∈ stmts, M.Holds I (fun i => exec i s) Q) {last : Value} (hlast : Q (.next last)) :
    M.Holds I (fun i => Script.runBlock (exec i) last stmts) Q := by
  induction stmts generalizing last with
  | nil => exact Holds.pure hlast
  | cons s rest ih =>
    simp only [Script.runBlock]
    refine (h s (List.mem_cons_self ..)).bind fun flow hflow => ?_
    cases flow with
    | next v => exact ih (fun x hx => h x (List.mem_cons_of_mem _ hx)) hflow
    | _ => exact Holds.pure hflow

/-- The body of a loop for the elements in order, until it leaves the loop. -/
theorem runFor {body : ι → Value → Run γ Flow} {Q : Flow → Prop} {items : List Value}
    (h : ∀ item ∈ items, M.Holds I (fun i => body i item) Q) (hnull : Q (.next .null)) :
    M.Holds I (fun i => Script.runFor (body i) items) Q := by
  induction items with
  | nil => exact Holds.pure hnull
  | cons item rest ih =>
    simp only [Script.runFor]
    refine (h item (List.mem_cons_self ..)).bind fun flow hflow => ?_
    cases flow with
    -- Only `break` and `return` end the loop; `continue` has ended the body, and the rest of the items follows.
    | broke => exact Holds.pure hnull
    | returned v => exact Holds.pure hflow
    | _ => exact ih fun x hx => h x (List.mem_cons_of_mem _ hx)

/-- The body of a loop on a condition. -/
theorem runWhile {n : Nat} {cond : ι → Run γ Value} {body : ι → Run γ Flow} {Q : Flow → Prop}
    (hexhausted : M.Holds I (fun _ => (Run.exhausted : Run γ Flow)) Q)
    (hcond : M.Holds I cond fun _ => True) (hbody : M.Holds I body Q) (hnull : Q (.next .null)) :
    M.Holds I (fun i => Script.runWhile n (cond i) (body i)) Q := by
  -- On the steps that are left: without any, the loop is cut off, and the mode says what that means.
  induction n with
  | zero => exact hexhausted
  | succ n ih =>
    simp only [Script.runWhile]
    refine hcond.bind fun v _ => ?_
    split
    · refine hbody.bind fun flow hflow => ?_
      cases flow with
      | broke => exact Holds.pure hnull
      | returned v => exact Holds.pure hflow
      | _ => exact ih
    · exact Holds.pure hnull

end Mode.Holds

/-! ## Section 3: Expressions with Known Parts -/

section Expressions

variable {γ : Type} [Globals γ] {limit fuel : Nat} {m m₁ m₂ : Machine γ} {left right : Expr} {v w : Value}

/-- A variable is what the machine finds at its name. -/
theorem eval_var {name : String} (h : m.lookup name = some v) (p : Pos) :
    eval limit (fuel + 1) (.var name p) m = some (.ok v, m) := by
  rw [eval, evalWith, Run.get_apply, h]
  rfl

/-- An operator is applied to what its operands are evaluated to, from left to right. -/
theorem eval_binary (hleft : eval limit fuel left m = some (.ok v, m₁))
    (hright : eval limit fuel right m₁ = some (.ok w, m₂)) (op : BinaryOp) (p : Pos) :
    eval limit (fuel + 1) (.binary op left right p) m =
      some ((applyBinary op v w).mapError (·.located p), m₂) := by
  rw [eval, evalWith, Run.bind_of_ok hleft, Run.bind_of_ok hright]
  exact Run.ofResultAt_apply p _ m₂

/-- An operator on one value is applied to what its operand is evaluated to. -/
theorem eval_unary (hleft : eval limit fuel left m = some (.ok v, m₁)) (op : UnaryOp) (p : Pos) :
    eval limit (fuel + 1) (.unary op left p) m = some ((applyUnary op v).mapError (·.located p), m₁) := by
  rw [eval, evalWith, Run.bind_of_ok hleft]
  exact Run.ofResultAt_apply p _ m₁

/-- An element is that of the container and of the index, in the order in which they are written. -/
theorem eval_index (hleft : eval limit fuel left m = some (.ok v, m₁))
    (hright : eval limit fuel right m₁ = some (.ok w, m₂)) (p : Pos) :
    eval limit (fuel + 1) (.index left right p) m = some ((elementAt v w).mapError (·.located p), m₂) := by
  rw [eval, evalWith, Run.bind_of_ok hleft, Run.bind_of_ok hright]
  exact Run.ofResultAt_apply p _ m₂

/-- A single argument gives a list of one value. -/
theorem mapM_eval_singleton (h : eval limit fuel left m = some (.ok v, m₁)) :
    [left].mapM (eval limit fuel) m = some (.ok [v], m₁) := by
  rw [List.mapM_cons, Run.bind_of_ok h]
  rfl

/-- A method that calls nothing is an operation on its receiver and its arguments. A map is asked for an entry of that
name first. -/
theorem eval_method_args {name : String} {args : List Expr} {values : List Value} {r : Attempt Value}
    (hleft : eval limit fuel left m = some (.ok v, m₁))
    (hargs : args.mapM (eval limit fuel) m₁ = some (.ok values, m₂)) (hentry : ∀ entries, v ≠ .map entries)
    (hmethod : ∀ call : Caller γ, invokeMethod call v name values = Run.ofResult r) (p : Pos) :
    eval limit (fuel + 1) (.method left name args p) m = some (r.mapError (·.located p), m₂) := by
  have hcall : ∀ call : Caller γ, callMethod call p v name values = Run.ofResultAt p r := by
    intro call
    rw [Run.ofResultAt, ← hmethod call]
    cases v with
    -- Only a map looks for an entry before it looks for a method.
    | map entries => exact absurd rfl (hentry entries)
    | _ => rfl
  rw [eval, evalWith, Run.bind_of_ok hleft, Run.bind_of_ok hargs, hcall]
  exact Run.ofResultAt_apply p r m₂

/-- A method without arguments is an operation on its receiver. -/
theorem eval_method {name : String} {r : Attempt Value} (hleft : eval limit fuel left m = some (.ok v, m₁))
    (hentry : ∀ entries, v ≠ .map entries)
    (hmethod : ∀ call : Caller γ, invokeMethod call v name [] = Run.ofResult r) (p : Pos) :
    eval limit (fuel + 1) (.method left name [] p) m = some (r.mapError (·.located p), m₁) :=
  eval_method_args hleft rfl hentry hmethod p

/-- A builtin function that writes nothing is an operation on its arguments. -/
theorem eval_builtin {name : String} {b : Builtin} {args : List Expr} {values : List Value}
    (hname : m.lookup name = some (.builtin b)) (hargs : args.mapM (eval limit fuel) m = some (.ok values, m₁))
    (happly : b.apply values = .ok (v, none)) (q p : Pos) :
    eval limit (fuel + 1) (.call (.var name q) args p) m = some (.ok v, m₁) := by
  rw [eval, evalWith, Run.get_apply, hname]
  show (args.mapM (eval limit fuel) >>= fun values => callWith limit _ p (.builtin b) values) m = _
  rw [Run.bind_of_ok hargs, callWith, happly]
  rfl

end Expressions

end RowConsole.Script
