import RowConsole.Proofs.Script.Congruence.Evaluation

/-!
# Runs on Two Stores

A run on one store of globals is compared with a run on another one, from machines that agree in everything but
their stores. The second run follows the first one if it ends alike: with the same result, and in machines that
agree again. It need not follow a run that has failed for an excused cause, since nothing in a script catches a
failure: such a run does nothing more, and its failure is the one in which the whole program ends.

Main statements: one rule for each way in which runs are put together, and `Comparison.congruence`.
-/

namespace RowConsole.Script

variable {γ γ' α β : Type}

/-! ## Section 1: Comparisons -/

/-- The same machine with another store. -/
def Machine.withStore (m : Machine γ) (g : γ') : Machine γ' :=
  { globals := g, output := m.output, frame := m.frame, callers := m.callers, serial := m.serial }

private theorem Machine.popFrame_withStore (m : Machine γ) (g : γ') :
    (m.withStore g).popFrame = m.popFrame.withStore g := by
  obtain ⟨globals, output, frame, callers, serial⟩ := m
  cases callers <;> rfl

theorem Machine.globals_popFrame (m : Machine γ) : m.popFrame.globals = m.globals := by
  obtain ⟨globals, output, frame, callers, serial⟩ := m
  cases callers <;> rfl

/-- What is compared: which stores belong together, and for which causes the first run may fail alone. -/
structure Comparison (γ γ' : Type) [Globals γ] [Globals γ'] where
  paired : γ → γ' → Prop
  excused : Cause → Prop
  /-- Stores that belong together know the same names. -/
  lookup_eq : ∀ {g g'}, paired g g' → ∀ name, Globals.lookup g' name = Globals.lookup g name
  /-- A name that is taken is taken by both stores, and a refusal that is not excused is shared. -/
  assigned : ∀ {g g'}, paired g g' → ∀ name v,
    (∃ h h', Globals.assign g name v = .ok h ∧ Globals.assign g' name v = .ok h' ∧ paired h h') ∨
      ∃ reason, Globals.assign g name v = .error reason ∧
        (excused (.rejectedName reason) ∨ Globals.assign g' name v = .error reason)

variable [Globals γ] [Globals γ'] {C : Comparison γ γ'}

/-- Two outcomes that do not differ: both runs are cut off, the first one has failed for an excused cause, or both
end with the same result in machines that agree. -/
inductive Comparison.Outcomes (C : Comparison γ γ') :
    Option (Attempt α × Machine γ) → Option (Attempt α × Machine γ') → Prop where
  | cutOff : C.Outcomes none none
  | excused {e : ScriptError} {m : Machine γ} {o : Option (Attempt α × Machine γ')} :
    C.excused e.cause → C.Outcomes (some (.error (.script e), m)) o
  | same {r : Attempt α} {m : Machine γ} {g : γ'} :
    C.paired m.globals g → C.Outcomes (some (r, m)) (some (r, m.withStore g))

/-- The second run follows the first one from every two machines that agree. -/
def Comparison.Follows (C : Comparison γ γ') (run : Run γ α) (run' : Run γ' α) : Prop :=
  ∀ m g, C.paired m.globals g → C.Outcomes (run m) (run' (m.withStore g))

/-- Outcomes that do not differ are worked on further, and an excused failure stays one. -/
theorem Comparison.Outcomes.bind {o : Option (Attempt α × Machine γ)}
    {o' : Option (Attempt α × Machine γ')}
    {next : Attempt α × Machine γ → Option (Attempt β × Machine γ)}
    {next' : Attempt α × Machine γ' → Option (Attempt β × Machine γ')} (h : C.Outcomes o o')
    (hsame : ∀ r m g, C.paired m.globals g → C.Outcomes (next (r, m)) (next' (r, m.withStore g)))
    (hexcused : ∀ e m, C.excused e.cause →
      ∃ e₁ m₁, next (.error (.script e), m) = some (.error (.script e₁), m₁) ∧ C.excused e₁.cause) :
    C.Outcomes (o.bind next) (o'.bind next') := by
  cases h with
  | cutOff => exact .cutOff
  | @excused e m _ he =>
    -- whatever the second run has made of it meanwhile
    obtain ⟨e₁, m₁, hnext, he₁⟩ := hexcused e m he
    rw [Option.bind_some, hnext]
    exact .excused he₁
  | @same r m g hg => exact hsame r m g hg

/-- Machines that agree know the same names. -/
theorem Comparison.lookup_withStore {m : Machine γ} {g : γ'} (hg : C.paired m.globals g) (name : String) :
    (m.withStore g).lookup name = m.lookup name := by
  unfold Machine.lookup
  simp only [Machine.withStore, C.lookup_eq hg]

namespace Comparison.Follows

/-! ## Section 2: Runs Put Together -/

protected theorem pure (a : α) : C.Follows (pure a) (pure a) :=
  fun _ _ hg => .same hg

theorem throw (e : Failure) :
    C.Follows (MonadExcept.throw e : Run γ α) (MonadExcept.throw e) :=
  fun _ _ hg => .same hg

/-- A failure stays the same on both sides. -/
theorem fail (cause : Cause) : C.Follows (Run.fail cause : Run γ α) (Run.fail cause) :=
  throw _

theorem failAt (cause : Cause) (p : Pos) : C.Follows (Run.failAt cause p : Run γ α) (Run.failAt cause p) :=
  throw _

/-- Whatever the second run does, it follows a run that fails for an excused cause. -/
theorem of_excused {e : ScriptError} (he : C.excused e.cause) (run' : Run γ' α) :
    C.Follows (MonadExcept.throw (.script e)) run' :=
  fun _ _ _ => .excused he

/-- Both runs are cut off. -/
theorem exhausted : C.Follows (Run.exhausted : Run γ α) Run.exhausted :=
  fun _ _ _ => .cutOff

protected theorem bind {run : Run γ α} {run' : Run γ' α} {next : α → Run γ β} {next' : α → Run γ' β}
    (h : C.Follows run run') (hnext : ∀ a, C.Follows (next a) (next' a)) :
    C.Follows (run >>= next) (run' >>= next') := by
  intro m g hg
  rw [Run.bind_apply, Run.bind_apply]
  apply (h m g hg).bind
  · intro r m' g' hg'
    -- both runs go on with the same value, or both stop with the same failure
    cases r with
    | ok a => exact hnext a m' g' hg'
    | error e => exact .same hg'
  · exact fun e m' he => ⟨e, m', rfl, he⟩

/-- Both runs read their machine, which differs in the store only. -/
theorem get_bind {next : Machine γ → Run γ α} {next' : Machine γ' → Run γ' α}
    (h : ∀ m g, C.paired m.globals g → C.Follows (next m) (next' (m.withStore g))) :
    C.Follows (MonadState.get >>= next) (MonadState.get >>= next') := by
  intro m g hg
  rw [Run.bind_apply, Run.bind_apply]
  exact h m g hg m g hg

protected theorem set {m : Machine γ} {g : γ'} (hg : C.paired m.globals g) :
    C.Follows (MonadStateOf.set m : Run γ PUnit) (MonadStateOf.set (m.withStore g)) :=
  fun _ _ _ => .same hg

/-- A failure may be changed as long as its cause is kept, since it is excused for that. -/
theorem mapFailure {change : ScriptError → ScriptError} (hchange : ∀ e, (change e).cause = e.cause)
    {run : Run γ α} {run' : Run γ' α} (h : C.Follows run run') :
    C.Follows (run.mapFailure (·.map change)) (run'.mapFailure (·.map change)) := by
  intro m g hg
  rw [Run.mapFailure_apply, Run.mapFailure_apply]
  apply (h m g hg).bind
  · intro r m' g' hg'
    cases r <;> exact .same hg'
  · exact fun e m' he => ⟨change e, m', rfl, (hchange e).symm ▸ he⟩

/-- A failure may be given a position. -/
theorem located (p : Pos) {run : Run γ α} {run' : Run γ' α} (h : C.Follows run run') :
    C.Follows (run.located p) (run'.located p) := by
  apply h.mapFailure
  rintro ⟨cause, pos, trace⟩
  cases pos <;> rfl

/-- A failure may be given a call in its trace. -/
theorem inCall (name : String) (p : Pos) {run : Run γ α} {run' : Run γ' α} (h : C.Follows run run') :
    C.Follows (run.mapFailure fun e => e.inCall name p) (run'.mapFailure fun e => e.inCall name p) := by
  apply h.mapFailure
  exact fun _ => rfl

/-- An operation does not read the store. -/
theorem ofResult (r : Attempt α) : C.Follows (Run.ofResult r) (Run.ofResult r) := by
  cases r with
  | ok a => exact Follows.pure a
  | error e => exact throw e

theorem ofResultAt (p : Pos) (r : Attempt α) : C.Follows (Run.ofResultAt p r) (Run.ofResultAt p r) :=
  (ofResult r).located p

/-- A run inside one more scope. -/
theorem withScope (scope : Scope) {run : Run γ α} {run' : Run γ' α} (h : C.Follows run run') :
    C.Follows (Script.withScope scope run) (Script.withScope scope run') := by
  intro m g hg
  rw [Run.withScope_apply, Run.withScope_apply]
  apply (h { m with frame := { m.frame with scopes := scope :: m.frame.scopes } } g hg).bind
  · exact fun r m' g' hg' => .same hg'
  · exact fun e m' he => ⟨e, _, rfl, he⟩

/-- A run inside one more frame. -/
theorem withFrame (frame : Frame) {run : Run γ α} {run' : Run γ' α} (h : C.Follows run run') :
    C.Follows (Script.withFrame frame run) (Script.withFrame frame run') := by
  intro m g hg
  rw [Run.withFrame_apply, Run.withFrame_apply]
  apply (h { m with frame := frame, callers := m.frame :: m.callers } g hg).bind
  · intro r m' g' hg'
    rw [Machine.popFrame_withStore]
    -- the frame that is removed holds no globals
    exact .same (m'.globals_popFrame.symm ▸ hg')
  · exact fun e m' he => ⟨e, _, rfl, he⟩

/-! ## Section 3: Steps of the Machine -/

/-- The only step in which the two runs can part: the first store may refuse a name that the second one takes. -/
theorem assignGlobal (name : String) (v : Value) :
    C.Follows (Script.assignGlobal name v) (Script.assignGlobal name v) := by
  unfold Script.assignGlobal
  apply get_bind
  intro m g hg
  dsimp only [Machine.withStore]
  rcases C.assigned hg name v with ⟨taken, taken', hfirst, hsecond, hpaired⟩ | ⟨reason, hfirst, hrefused⟩
  · rw [hfirst, hsecond]
    exact Follows.set (m := { m with globals := taken }) hpaired
  · -- the first store refuses: the run is excused, or the second store refuses for the same reason
    rw [hfirst]
    rcases hrefused with hexcused | hsecond
    · exact of_excused hexcused _
    · rw [hsecond]
      exact fail _

/-- A name that a call keeps to itself is not seen by the store. -/
theorem declareName (name : String) (v : Value) :
    C.Follows (Script.declareName name v) (Script.declareName name v) := by
  apply get_bind
  intro m g hg
  obtain ⟨globals, output, ⟨scopes, topLevel⟩, callers, serial⟩ := m
  -- only a call that has a scope keeps the name to itself
  cases topLevel with
  | true => cases scopes <;> exact assignGlobal name v
  | false =>
    cases scopes with
    | nil => exact assignGlobal name v
    | cons scope outer =>
      exact Follows.set (m := ⟨globals, output, ⟨OrderedMap.insert scope name v :: outer, false⟩, callers, serial⟩) hg

/-- A name is bound in the same scope, or else given to both stores. -/
theorem assignName (name : String) (v : Value) :
    C.Follows (Script.assignName name v) (Script.assignName name v) := by
  unfold Script.assignName
  apply get_bind
  intro m g hg
  dsimp only [Machine.withStore]
  cases rebindScopes? name v m.frame.scopes with
  | some scopes => exact Follows.set (m := { m with frame := { m.frame with scopes := scopes } }) hg
  | none => exact assignGlobal name v

/-- Both runs write to the same output. -/
theorem write (text : String) : C.Follows (Script.write text) (Script.write text) := by
  unfold Script.write
  apply get_bind
  intro m g hg
  dsimp only [Machine.withStore]
  obtain ⟨refused, output⟩ := m.output.write text
  apply Follows.bind (Follows.set (m := { m with output := output }) hg)
  intro _
  cases refused with
  | none => exact Follows.pure ()
  | some reason => exact fail _

/-- Functions are counted alike on both sides. -/
theorem newFunction (routine : Routine) (captured : OrderedMap Value) :
    C.Follows (Script.newFunction routine captured) (Script.newFunction routine captured) :=
  fun m _ hg => .same (m := { m with serial := m.serial + 1 }) hg

end Comparison.Follows

/-! ## Section 4: Constructs -/

/-- To follow a run is a congruence. A failure without a position is excused for its cause alone, so the relation is the
same inside of a construct. -/
def Comparison.congruence (C : Comparison γ γ') : Congruence γ γ' where
  Rel := C.Follows
  pure := Follows.pure
  bind := Follows.bind
  unplaced := { Rel := C.Follows, pure := Follows.pure, bind := Follows.bind }
  weaken h := h
  fail _ := Follows.fail _
  crash c := Follows.ofResult (crash c)
  located p _ _ h := h.located p
  exhausted := Follows.exhausted
  get_bind h := Follows.get_bind fun m g hg => h m (m.withStore g) ⟨C.lookup_withStore hg, rfl⟩
  withScope scope _ _ h := h.withScope scope
  declareName := Follows.declareName
  assignName := Follows.assignName
  write := Follows.write
  newFunction := Follows.newFunction

/-- The calls of the second run follow those of the first one. -/
def Comparison.FollowsCalls (C : Comparison γ γ') (call : Caller γ) (call' : Caller γ') : Prop :=
  ∀ f args, C.Follows (call f args) (call' f args)

end RowConsole.Script
