import RowConsole.Proofs.Script.Failure.Operations
import RowConsole.Proofs.Script.Judgement

/-!
# Congruences of Runs

Some relations between runs on two stores are kept whenever runs are put together: if the parts are related, so is the
whole. What has to be known of such a relation are sequences and the steps on the machine. Methods and constructs are
made of nothing else, so what the interpreter makes of related runs is walked through once for all congruences. A
property of runs is a congruence as well, one that does not look at the second run.

Operations fail without a position, and whatever calls an operation attaches one. Inside of a construct failures are
therefore related by a relation that may be weaker, from which attaching a position leads back.

Main statements: `Congruence.mapM` for lists of runs, and `Congruence.callMethod` for the methods.
-/

namespace RowConsole.Script

variable {γ γ' α β δ : Type}

/-! ## Section 1: Relations between Runs -/

/-- A relation between runs on two stores that sequences keep. -/
structure RunRelation (γ γ' : Type) where
  Rel : {α : Type} → Run γ α → Run γ' α → Prop
  protected pure : ∀ {α : Type} (a : α), Rel (pure a) (pure a)
  protected bind : ∀ {α β : Type} {run : Run γ α} {run' : Run γ' α} {next : α → Run γ β} {next' : α → Run γ' β},
    Rel run run' → (∀ a, Rel (next a) (next' a)) → Rel (run >>= next) (run' >>= next')

namespace RunRelation

variable (R : RunRelation γ γ')

/-- Runs for the items of a list, in order. -/
theorem mapM {run : δ → Run γ α} {run' : δ → Run γ' α} (h : ∀ item, R.Rel (run item) (run' item)) (items : List δ) :
    R.Rel (items.mapM run) (items.mapM run') := by
  induction items with
  | nil =>
    rw [List.mapM_nil, List.mapM_nil]
    exact R.pure []
  | cons item rest ih =>
    rw [List.mapM_cons, List.mapM_cons]
    apply R.bind (h item)
    intro a
    exact R.bind ih fun made => R.pure (a :: made)

/-- Runs for the items of a list, in order and for their effects only. -/
theorem forM {run : δ → Run γ PUnit} {run' : δ → Run γ' PUnit} (h : ∀ item, R.Rel (run item) (run' item))
    (items : List δ) : R.Rel (items.forM run) (items.forM run') := by
  induction items with
  | nil => exact R.pure PUnit.unit
  | cons item rest ih =>
    rw [List.forM, List.forM]
    exact R.bind (h item) fun _ => ih

/-- All calls are related. -/
def Calls (call : Caller γ) (call' : Caller γ') : Prop :=
  ∀ f args, R.Rel (call f args) (call' f args)

variable {R} {call : Caller γ} {call' : Caller γ'}

/-- Calls for all items are related if all calls are. -/
theorem callEach (hcall : R.Calls call call') (f : Value) (items : List Value) :
    R.Rel (Script.callEach call f items) (Script.callEach call' f items) := by
  apply R.mapM
  intro item
  exact R.bind (hcall f [item]) fun v => R.pure (item, v)

/-- Calls up to the first one that says yes are related if all calls are. -/
theorem findFirst (hcall : R.Calls call call') (f : Value) (items : List Value) :
    R.Rel (Script.findFirst call f items) (Script.findFirst call' f items) := by
  induction items with
  | nil => exact R.pure _
  | cons item rest ih =>
    rw [Script.findFirst, Script.findFirst]
    apply R.bind (hcall f [item])
    intro v
    split
    · exact R.pure item
    · exact ih

end RunRelation

/-! ## Section 2: Congruences -/

/-- Two machines on which names stand for the same. -/
structure Machine.Alike [Globals γ] [Globals γ'] (m : Machine γ) (m' : Machine γ') : Prop where
  lookup : ∀ name, m'.lookup name = m.lookup name
  scopes : m'.frame.scopes = m.frame.scopes

/-- A relation between runs that everything keeps of which methods and constructs are made. -/
structure Congruence (γ γ' : Type) [Globals γ] [Globals γ'] extends RunRelation γ γ' where
  /-- The relation inside of a construct, where failures may have no position yet. -/
  unplaced : RunRelation γ γ'
  weaken : ∀ {α : Type} {run : Run γ α} {run' : Run γ' α}, Rel run run' → unplaced.Rel run run'
  /-- Operations fail like this, and none of them has to do with loops. -/
  fail : ∀ {α : Type} {cause : Cause}, cause ≠ .strayLoopControl →
    unplaced.Rel (Run.fail cause : Run γ α) (Run.fail cause)
  /-- Operations break down like this. -/
  crash : ∀ {α : Type} (c : Crash),
    unplaced.Rel (Run.ofResult (Script.crash c) : Run γ α) (Run.ofResult (Script.crash c))
  located : ∀ {α : Type} (p : Pos) {run : Run γ α} {run' : Run γ' α}, unplaced.Rel run run' →
    Rel (run.located p) (run'.located p)
  exhausted : ∀ {α : Type}, Rel (Run.exhausted : Run γ α) Run.exhausted
  get_bind : ∀ {α : Type} {next : Machine γ → Run γ α} {next' : Machine γ' → Run γ' α},
    (∀ m m', m.Alike m' → Rel (next m) (next' m')) → Rel (MonadState.get >>= next) (MonadState.get >>= next')
  withScope : ∀ {α : Type} (scope : Scope) {run : Run γ α} {run' : Run γ' α}, Rel run run' →
    Rel (Script.withScope scope run) (Script.withScope scope run')
  declareName : ∀ name v, unplaced.Rel (Script.declareName name v) (Script.declareName name v)
  assignName : ∀ name v, unplaced.Rel (Script.assignName name v) (Script.assignName name v)
  write : ∀ text, unplaced.Rel (Script.write text) (Script.write text)
  newFunction : ∀ routine captured,
    Rel (Script.newFunction routine captured) (Script.newFunction routine captured)

namespace Congruence

variable [Globals γ] [Globals γ'] (K : Congruence γ γ')

/-- An operation without effects is related to itself: it gives a value, fails, or breaks down. -/
theorem ofResult {r : Attempt α} (h : FailsPlainly r) : K.unplaced.Rel (Run.ofResult r) (Run.ofResult r) := by
  cases r with
  | ok a => exact K.unplaced.pure a
  | error e =>
    cases e with
    | script e =>
      obtain ⟨cause, hcause, rfl⟩ := h e rfl
      exact K.fail hcause
    | crash c => exact K.crash c

/-- An operation whose failure is given a position is related to itself. -/
theorem ofResultAt (p : Pos) {r : Attempt α} (h : FailsPlainly r) :
    K.Rel (Run.ofResultAt p r) (Run.ofResultAt p r) :=
  K.located p (K.ofResult h)

/-- A failure that is there from the start is related to itself. -/
theorem failAt {cause : Cause} (h : cause ≠ .strayLoopControl) (p : Pos) :
    K.Rel (Run.failAt cause p : Run γ α) (Run.failAt cause p) :=
  K.located p (K.fail h)

/-! ## Section 3: Methods -/

variable {K} {call : Caller γ} {call' : Caller γ'}

/-- Results of a function for each item of a list, the function given as the only argument of a method. -/
theorem results (hcall : K.unplaced.Calls call call') (name : String) (args items : List Value)
    (made : List (Value × Value) → Value) :
    K.unplaced.Rel
      (do
        let f ← Run.ofResult (closureArg name args)
        let results ← Script.callEach call f items
        return made results)
      (do
        let f ← Run.ofResult (closureArg name args)
        let results ← Script.callEach call' f items
        return made results) := by
  apply K.unplaced.bind (K.ofResult (failsPlainly_closureArg name args))
  intro f
  exact K.unplaced.bind (RunRelation.callEach hcall f items) fun results => K.unplaced.pure (made results)

/-- Sorting calls the key function for every item before it compares any keys. -/
theorem sortItems (hcall : K.unplaced.Calls call call') (items args : List Value) :
    K.unplaced.Rel (Script.sortItems call items args) (Script.sortItems call' items args) := by
  apply K.unplaced.bind (K.ofResult (failsPlainly_checkArity "sort" args 0 1))
  intro _
  cases args with
  | nil =>
    -- without a key function the items are their own keys
    apply K.unplaced.bind (K.unplaced.pure (items.map fun item => (item, item)))
    exact fun keyed => K.ofResult (failsPlainly_sortedList keyed)
  | cons f rest =>
    apply K.unplaced.bind (RunRelation.callEach hcall f items)
    intro results
    apply K.unplaced.bind (K.unplaced.pure (results.map fun r => (r.2, r.1)))
    exact fun keyed => K.ofResult (failsPlainly_sortedList keyed)

/-- The methods of lists are related if the calls that they make are. -/
theorem listMethod (hcall : K.unplaced.Calls call call') (items : List Value) (name : String) (args : List Value) :
    K.unplaced.Rel (Script.listMethod call items name args) (Script.listMethod call' items name args) := by
  have hone : ∀ {name : String} {made : Value → Attempt Value}, (∀ v, FailsPlainly (made v)) →
      FailsPlainly (oneArg name args >>= made) := failsPlainly_bind (failsPlainly_oneArg _ args)
  unfold Script.listMethod
  split
  case h_5 => exact K.ofResult (hone fun index => failsPlainly_elementAt _ index)
  case h_6 => exact K.ofResult (hone fun v => failsPlainly_pure _)
  case h_9 | h_10 =>
    exact K.ofResult (hone fun v => failsPlainly_bind (failsPlainly_intArg _ v) fun n => failsPlainly_pure _)
  case h_11 => exact K.ofResult (failsPlainly_bind (failsPlainly_checkArity _ _ _ _) fun _ => failsPlainly_pure _)
  case h_12 => exact K.ofResult (failsPlainly_sumItems items)
  case h_13 => exact sortItems hcall items args
  case h_14 =>
    apply K.unplaced.bind (K.ofResult (failsPlainly_closureArg _ args))
    exact fun f => RunRelation.findFirst hcall f items
  -- the others compute their result without a call, or make it of the results for all items
  all_goals first
    | exact K.unplaced.pure _
    | exact results hcall _ args items _
    | exact K.fail (by simp)

/-- The methods of maps are related if the calls that they make are. -/
theorem mapMethod (hcall : K.unplaced.Calls call call') (entries : OrderedMap Value) (name : String)
    (args : List Value) :
    K.unplaced.Rel (Script.mapMethod call entries name args) (Script.mapMethod call' entries name args) := by
  unfold Script.mapMethod
  split
  -- The methods that are not listed need no argument: they are pure or fail.
  case h_3 | h_4 => exact K.ofResult (failsPlainly_keysOf _)
  case h_6 =>
    apply K.ofResult
    apply failsPlainly_bind (failsPlainly_checkArity _ _ _ _)
    intro _
    apply failsPlainly_bind (failsPlainly_elementAt _ _)
    intro found
    split <;> exact failsPlainly_pure _
  case h_7 => exact K.ofResult (failsPlainly_bind (failsPlainly_oneArg _ args) fun key => failsPlainly_pure _)
  case h_8 =>
    apply K.unplaced.bind (K.ofResult (failsPlainly_closureArg "each" args))
    intro f
    apply K.unplaced.bind (K.unplaced.forM (fun entry => ?_) entries)
    · exact fun _ => K.unplaced.pure (Value.map entries)
    · exact K.unplaced.bind (hcall f (entryArgs f entry.1 entry.2)) fun _ => K.unplaced.pure PUnit.unit
  all_goals first
    | exact K.unplaced.pure _
    | exact K.fail (by simp)

/-- The methods that the language knows. -/
theorem invokeMethod (hcall : K.unplaced.Calls call call') (receiver : Value) (name : String) (args : List Value) :
    K.unplaced.Rel (Script.invokeMethod call receiver name args) (Script.invokeMethod call' receiver name args) := by
  -- All values without methods of their own are tested for being callable.
  have hother : ∀ f : Value, K.unplaced.Rel
      (if f.isCallable && name = "call" then call f args else Run.fail (.noMethod name f.type))
      (if f.isCallable && name = "call" then call' f args else Run.fail (.noMethod name f.type)) := by
    intro f
    split
    · exact hcall f args
    · exact K.fail (by simp)
  unfold Script.invokeMethod
  split
  · exact K.unplaced.pure _
  · exact K.unplaced.pure _
  · cases receiver with
    | list items => exact listMethod hcall items name args
    | map entries => exact mapMethod hcall entries name args
    | str s => exact K.ofResult (failsPlainly_stringMethod s name args)
    | null => exact K.fail (by simp)
    | int n =>
      dsimp only
      split
      · exact K.ofResult (failsPlainly_checked _)
      · exact K.fail (by simp)
    | float x =>
      dsimp only
      split
      · exact K.unplaced.pure _
      · exact K.fail (by simp)
    | _ => exact hother _

/-- The methods that the language knows and the entries of maps that are called like methods. -/
theorem callMethod (hcall : K.Calls call call') (p : Pos) (receiver : Value) (name : String) (args : List Value) :
    K.Rel (Script.callMethod call p receiver name args) (Script.callMethod call' p receiver name args) := by
  unfold Script.callMethod
  dsimp only
  split
  · next f _ => exact hcall f args
  · -- a call inside of a method has placed its failure already
    have hinner : K.unplaced.Calls call call' := fun f args => K.weaken (hcall f args)
    exact K.located p (invokeMethod hinner receiver name args)

end Congruence

end RowConsole.Script
