import RowConsole.Proofs.Script.Judgement
import RowConsole.Proofs.Script.Moved.Operations

/-!
# Runs at Moved Positions

A run moves along with the positions if from a machine with moved positions it ends in the machine that it
ends in otherwise, with moved positions, and with the same outcome up to them. The rules put such runs
together.

Main statements: one rule for each way in which runs are put together, and `Moves.callMethod` for the methods.
-/

namespace RowConsole.Script

/-! ## Section 1: Moved Machines -/

/-- A store of globals whose values can be moved. -/
class Movable (γ : Type) [Globals γ] where
  mapPos : (Pos → Pos) → γ → γ
  lookup_mapPos : ∀ (f : Pos → Pos) (g : γ) (name : String),
    Globals.lookup (mapPos f g) name = (Globals.lookup g name).map (Value.mapPos f)
  assign_mapPos : ∀ (f : Pos → Pos) (g : γ) (name : String) (v : Value),
    Globals.assign (mapPos f g) name (v.mapPos f) = (Globals.assign g name v).map (mapPos f)

variable {γ α β α' β' : Type} [Globals γ] [Movable γ] (f : Pos → Pos)

/-- Scopes whose values are moved. -/
def mapPosScopes (scopes : List Scope) : List Scope :=
  scopes.map (mapValues (Value.mapPos f))

/-- A frame whose values are moved. -/
def Frame.mapPos (frame : Frame) : Frame :=
  { frame with scopes := mapPosScopes f frame.scopes }

/-- A machine whose values are moved. -/
def Machine.mapPos (m : Machine γ) : Machine γ :=
  { m with
    globals := Movable.mapPos f m.globals
    frame := m.frame.mapPos f
    callers := m.callers.map (Frame.mapPos f) }

/-- The innermost scope that binds a name is the same one. -/
private theorem lookupScopes_mapPos (name : String) (scopes : List Scope) :
    lookupScopes name (mapPosScopes f scopes) = (lookupScopes name scopes).map (Value.mapPos f) := by
  induction scopes with
  | nil => rfl
  | cons scope outer ih =>
    show ((mapValues (Value.mapPos f) scope :: mapPosScopes f outer).findSome? fun scope =>
      OrderedMap.get? scope name) = _
    -- in this scope or in an outer one
    rw [List.findSome?_cons, get?_mapValues]
    unfold lookupScopes at ih ⊢
    rw [List.findSome?_cons, ih]
    cases OrderedMap.get? scope name <;> rfl

/-- The same scope is written to, or none. -/
private theorem rebindScopes?_mapPos (name : String) (v : Value) (scopes : List Scope) :
    rebindScopes? name (v.mapPos f) (mapPosScopes f scopes) =
      (rebindScopes? name v scopes).map (mapPosScopes f) := by
  induction scopes with
  | nil => rfl
  | cons scope outer ih =>
    show rebindScopes? name (v.mapPos f) (mapValues (Value.mapPos f) scope :: mapPosScopes f outer) = _
    simp only [rebindScopes?, contains_mapValues, insert_mapValues, ih]
    split
    · rfl
    · cases rebindScopes? name v outer <;> rfl

/-- What a closure captures, from the merge of all scopes. -/
theorem flattenScopes_mapPos (scopes : List Scope) :
    flattenScopes (mapPosScopes f scopes) = mapValues (Value.mapPos f) (flattenScopes scopes) := by
  have hfold : ∀ (scopes : List Scope) (m : OrderedMap Value),
      (mapPosScopes f scopes).foldl OrderedMap.merge (mapValues (Value.mapPos f) m) =
        mapValues (Value.mapPos f) (scopes.foldl OrderedMap.merge m) := by
    intro scopes
    induction scopes with
    | nil => exact fun m => rfl
    | cons scope rest ih =>
      intro m
      rw [List.foldl_cons, ← ih, ← merge_mapValues]
      rfl
  have hreverse : (mapPosScopes f scopes).reverse = mapPosScopes f scopes.reverse := List.map_reverse.symm
  rw [flattenScopes, hreverse]
  exact hfold scopes.reverse []

/-- A name is found in the same place, and its value moved. -/
theorem Machine.lookup_mapPos (m : Machine γ) (name : String) :
    (m.mapPos f).lookup name = (m.lookup name).map (Value.mapPos f) := by
  unfold Machine.lookup
  dsimp only [Machine.mapPos, Frame.mapPos]
  rw [lookupScopes_mapPos]
  cases lookupScopes name m.frame.scopes with
  | some v => rfl
  | none =>
    dsimp only [Option.map_none]
    rw [Movable.lookup_mapPos]
    cases Globals.lookup m.globals name with
    | some v => rfl
    | none => cases Builtin.ofName? name <;> rfl

@[simp] theorem Machine.output_mapPos (m : Machine γ) : (m.mapPos f).output = m.output := rfl

@[simp] theorem Machine.serial_mapPos (m : Machine γ) : (m.mapPos f).serial = m.serial := rfl

@[simp] theorem Machine.depth_mapPos (m : Machine γ) : (m.mapPos f).depth = m.depth := by
  simp [Machine.depth, Machine.mapPos]

/-- The frame of the caller comes back moved. -/
private theorem Machine.popFrame_mapPos (m : Machine γ) : (m.mapPos f).popFrame = m.popFrame.mapPos f := by
  obtain ⟨globals, output, frame, callers, serial⟩ := m
  cases callers <;> rfl

/-! ## Section 2: Runs -/

/-- The outcome of a run, with moved positions. -/
def moveOutcome (g : α → β) (o : Attempt α × Machine γ) : Attempt β × Machine γ :=
  (moveAttempt f g o.1, o.2.mapPos f)

/-- From a machine with moved positions, the second run ends like the first one, with moved positions. -/
def Moves (g : α → β) (run : Run γ α) (run' : Run γ β) : Prop :=
  ∀ m, run' (m.mapPos f) = (run m).map (moveOutcome f g)

namespace Moves

variable {f} {g : α → β} {g' : α' → β'}

protected theorem pure {a : α} {b : β} (h : g a = b) : Moves f g (pure a : Run γ α) (pure b : Run γ β) := by
  intro m
  subst h
  rfl

/-- A failure is moved as it is thrown. -/
theorem throw {e e' : Failure} (h : e.mapPos f = e') :
    Moves f g (MonadExcept.throw e : Run γ α) (MonadExcept.throw e' : Run γ β) := by
  intro m
  subst h
  rfl

theorem fail (cause : Cause) : Moves f g (Run.fail cause : Run γ α) (Run.fail cause : Run γ β) :=
  throw rfl

/-- A failure at a position is moved with its position. -/
theorem failAt (cause : Cause) (p : Pos) :
    Moves f g (Run.failAt cause p : Run γ α) (Run.failAt cause (f p) : Run γ β) :=
  throw rfl

/-- A run without fuel has no outcome on either side. -/
theorem exhausted : Moves f g (Run.exhausted : Run γ α) (Run.exhausted : Run γ β) :=
  fun _ => rfl

protected theorem bind {run : Run γ α} {run' : Run γ β} {next : α → Run γ α'} {next' : β → Run γ β'}
    (h : Moves f g run run') (hnext : ∀ a, Moves f g' (next a) (next' (g a))) :
    Moves f g' (run >>= next) (run' >>= next') := by
  intro m
  rw [Run.bind_apply, Run.bind_apply, h m]
  cases run m with
  | none => rfl
  | some o =>
    obtain ⟨r, m'⟩ := o
    cases r with
    | ok a => exact hnext a m'
    | error e => rfl

/-- A failure may be changed by functions that move along. -/
theorem mapFailure {change change' : Failure → Failure}
    (hchange : ∀ e, change' (e.mapPos f) = (change e).mapPos f) {run : Run γ α} {run' : Run γ β}
    (h : Moves f g run run') : Moves f g (run.mapFailure change) (run'.mapFailure change') := by
  intro m
  rw [Run.mapFailure_apply, Run.mapFailure_apply, h m]
  cases run m with
  | none => rfl
  | some o =>
    obtain ⟨r, m'⟩ := o
    cases r with
    | ok a => rfl
    | error e =>
      have herror : (Except.error (change' (e.mapPos f)) : Attempt β) = .error ((change e).mapPos f) := by
        rw [hchange]
      exact congrArg (fun r => some (r, m'.mapPos f)) herror

/-- A failure that has no position yet is given the moved one. -/
theorem located (p : Pos) {run : Run γ α} {run' : Run γ β} (h : Moves f g run run') :
    Moves f g (run.located p) (run'.located (f p)) := by
  apply mapFailure _ h
  intro e
  cases e with
  | crash c => rfl
  | script e =>
    -- a failure that has a position keeps it
    obtain ⟨cause, pos, trace⟩ := e
    cases pos <;> rfl

/-- The calls that a failure has passed through are moved one by one. -/
theorem inCall (name : String) (p : Pos) {run : Run γ α} {run' : Run γ β} (h : Moves f g run run') :
    Moves f g (run.mapFailure fun e => e.inCall name p) (run'.mapFailure fun e => e.inCall name (f p)) := by
  apply mapFailure _ h
  intro e
  cases e with
  | crash c => rfl
  | script e => simp [Failure.inCall, Failure.mapPos, Failure.map, ScriptError.inCall, ScriptError.mapPos]

/-- The result of an operation, as the outcome of a run. -/
theorem ofResult {r : Attempt α} {r' : Attempt β} (h : r' = moveAttempt f g r) :
    Moves f g (Run.ofResult r : Run γ α) (Run.ofResult r' : Run γ β) := by
  subst h
  cases r with
  | ok a => exact Moves.pure rfl
  | error e => exact throw rfl

theorem ofResultAt (p : Pos) {r : Attempt α} {r' : Attempt β} (h : r' = moveAttempt f g r) :
    Moves f g (Run.ofResultAt p r : Run γ α) (Run.ofResultAt (f p) r' : Run γ β) :=
  (ofResult h).located p

protected theorem get : Moves f (Machine.mapPos f) (MonadState.get : Run γ (Machine γ)) MonadState.get :=
  fun _ => rfl

protected theorem set {m m' : Machine γ} (h : m.mapPos f = m') {g : PUnit → PUnit} :
    Moves f g (MonadStateOf.set m : Run γ PUnit) (MonadStateOf.set m' : Run γ PUnit) := by
  intro _
  subst h
  rfl

/-- A run inside one more scope. -/
theorem withScope (scope : Scope) {run : Run γ α} {run' : Run γ β} (h : Moves f g run run') :
    Moves f g (Script.withScope scope run) (Script.withScope (mapValues (Value.mapPos f) scope) run') := by
  intro m
  rw [Run.withScope_apply, Run.withScope_apply]
  have hinner := h { m with frame := { m.frame with scopes := scope :: m.frame.scopes } }
  -- opening a scope and moving may change places
  have hopened : ({ m with frame := { m.frame with scopes := scope :: m.frame.scopes } } : Machine γ).mapPos f =
      { m.mapPos f with frame := { (m.mapPos f).frame with
        scopes := mapValues (Value.mapPos f) scope :: (m.mapPos f).frame.scopes } } := rfl
  rw [← hopened, hinner]
  cases run { m with frame := { m.frame with scopes := scope :: m.frame.scopes } } with
  | none => rfl
  | some o =>
    obtain ⟨r, m'⟩ := o
    have htail : mapPosScopes f m'.frame.scopes.tail = (mapPosScopes f m'.frame.scopes).tail := List.map_tail
    simp only [Option.map_some, Option.bind_some, moveOutcome, Machine.mapPos, Frame.mapPos, htail]

/-- A run inside one more frame. -/
theorem withFrame (frame : Frame) {run : Run γ α} {run' : Run γ β} (h : Moves f g run run') :
    Moves f g (Script.withFrame frame run) (Script.withFrame (frame.mapPos f) run') := by
  intro m
  rw [Run.withFrame_apply, Run.withFrame_apply]
  have hinner := h { m with frame := frame, callers := m.frame :: m.callers }
  -- and so may entering a call
  have hpushed : ({ m with frame := frame, callers := m.frame :: m.callers } : Machine γ).mapPos f =
      { m.mapPos f with frame := frame.mapPos f, callers := (m.mapPos f).frame :: (m.mapPos f).callers } := rfl
  rw [← hpushed, hinner]
  cases run { m with frame := frame, callers := m.frame :: m.callers } with
  | none => rfl
  | some o =>
    obtain ⟨r, m'⟩ := o
    simp only [Option.map_some, Option.bind_some, moveOutcome, Machine.popFrame_mapPos]

/-! ## Section 3: Steps of the Machine -/

/-- The store of the globals takes a moved value or refuses the name for the same reason. -/
theorem assignGlobal (name : String) (v : Value) :
    Moves f id (Script.assignGlobal name v : Run γ Unit) (Script.assignGlobal name (v.mapPos f)) := by
  unfold Script.assignGlobal
  apply Moves.get.bind
  intro m
  have hassign := Movable.assign_mapPos f m.globals name v
  dsimp only [Machine.mapPos]
  rw [hassign]
  cases Globals.assign m.globals name v with
  | ok globals => exact Moves.set rfl
  | error reason => exact fail _

/-- A name is declared in the innermost scope, or globally at the top level. -/
theorem declareName (name : String) (v : Value) :
    Moves f id (Script.declareName name v : Run γ Unit) (Script.declareName name (v.mapPos f)) := by
  unfold Script.declareName
  apply Moves.get.bind
  intro m
  obtain ⟨globals, output, ⟨scopes, topLevel⟩, callers, serial⟩ := m
  -- at the top level there is a scope as well, but names are declared in the globals
  cases topLevel with
  | true => cases scopes <;> exact assignGlobal name v
  | false =>
    cases scopes with
    | nil => exact assignGlobal name v
    | cons scope outer =>
      apply Moves.set
      simp only [Machine.mapPos, Frame.mapPos, mapPosScopes, List.map_cons, insert_mapValues]

/-- A name is assigned to where it is bound, or globally. -/
theorem assignName (name : String) (v : Value) :
    Moves f id (Script.assignName name v : Run γ Unit) (Script.assignName name (v.mapPos f)) := by
  unfold Script.assignName
  apply Moves.get.bind
  intro m
  dsimp only [Machine.mapPos, Frame.mapPos]
  rw [rebindScopes?_mapPos]
  cases rebindScopes? name v m.frame.scopes with
  | some scopes => exact Moves.set rfl
  | none => exact assignGlobal name v

/-- A text is written to the same output, which may refuse it. -/
theorem write (text : String) : Moves f id (Script.write text : Run γ Unit) (Script.write text) := by
  unfold Script.write
  apply Moves.get.bind
  intro m
  rw [Machine.output_mapPos]
  apply (Moves.set (g := id) rfl).bind
  intro _
  -- what is taken of a text does not depend on values
  split
  · exact fail _
  · exact Moves.pure rfl

/-- A new function gets the same serial number. -/
theorem newFunction (routine : Routine) (captured : OrderedMap Value) :
    Moves f (Value.mapPos f) (Script.newFunction routine captured : Run γ Value)
      (Script.newFunction (routine.mapPos f) (mapValues (Value.mapPos f) captured)) := by
  intro m
  have hvalue := mapPos_function f routine m.serial captured
  exact congrArg (fun v => some (Except.ok v, ({ m with serial := m.serial + 1 } : Machine γ).mapPos f)) hvalue.symm

/-! ## Section 4: Lists of Runs -/

/-- Runs for the items of a list, in order. -/
theorem mapM {δ δ' : Type} {h : δ → δ'} {run : δ → Run γ α} {run' : δ' → Run γ β} {items : List δ}
    (hitems : ∀ item ∈ items, Moves f g (run item) (run' (h item))) :
    Moves f (List.map g) (items.mapM run) ((items.map h).mapM run') := by
  induction items with
  | nil =>
    simp only [List.map_nil, List.mapM_nil]
    exact Moves.pure rfl
  | cons item rest ih =>
    simp only [List.map_cons, List.mapM_cons]
    apply (hitems item List.mem_cons_self).bind
    intro b
    apply (ih fun x hx => hitems x (List.mem_cons_of_mem _ hx)).bind
    intro made
    exact Moves.pure rfl

/-- Runs for the items of a list, in order and for their effects only. -/
theorem forM {δ δ' : Type} {h : δ → δ'} {run : δ → Run γ PUnit} {run' : δ' → Run γ PUnit} {items : List δ}
    (hitems : ∀ item ∈ items, Moves f id (run item) (run' (h item))) :
    Moves f id (items.forM run) ((items.map h).forM run') := by
  induction items with
  | nil => exact Moves.pure rfl
  | cons item rest ih =>
    simp only [List.map_cons, List.forM]
    apply (hitems item List.mem_cons_self).bind
    intro _
    exact ih fun x hx => hitems x (List.mem_cons_of_mem _ hx)

end Moves

/-! ## Section 5: Methods -/

/-- Calls move along with the positions. -/
def MovesCalls (call call' : Caller γ) : Prop :=
  ∀ v args, Moves f (Value.mapPos f) (call v args) (call' (v.mapPos f) (args.map (Value.mapPos f)))

namespace Moves

variable {f} {call call' : Caller γ}

/-- Results are kept beside their items. -/
theorem callEach (hcall : MovesCalls f call call') (v : Value) (items : List Value) :
    Moves f (mapPosResults f) (Script.callEach call v items)
      (Script.callEach call' (v.mapPos f) (items.map (Value.mapPos f))) := by
  apply Moves.mapM
  intro item _
  exact (hcall v [item]).bind fun _ => Moves.pure rfl

/-- The first item whose result is true is the same one. -/
theorem findFirst (hcall : MovesCalls f call call') (v : Value) (items : List Value) :
    Moves f (Value.mapPos f) (Script.findFirst call v items)
      (Script.findFirst call' (v.mapPos f) (items.map (Value.mapPos f))) := by
  induction items with
  | nil => exact Moves.pure rfl
  | cons item rest ih =>
    simp only [List.map_cons, Script.findFirst]
    apply (hcall v [item]).bind
    intro result
    rw [truthy_mapPos]
    split
    · exact Moves.pure rfl
    · exact ih

/-- Results of a function for each item of a list, the function given as the only argument of a method. -/
theorem results (hcall : MovesCalls f call call') (name : String) (args items : List Value)
    {made : List (Value × Value) → Value} {made' : List (Value × Value) → Value}
    (hmade : ∀ results, (made results).mapPos f = made' (mapPosResults f results)) :
    Moves f (Value.mapPos f)
      (do
        let v ← Run.ofResult (closureArg name args)
        let results ← Script.callEach call v items
        return made results)
      (do
        let v ← Run.ofResult (closureArg name (args.map (Value.mapPos f)))
        let results ← Script.callEach call' v (items.map (Value.mapPos f))
        return made' results) := by
  apply (Moves.ofResult (closureArg_map f name args)).bind
  intro v
  exact (callEach hcall v items).bind fun results => Moves.pure (hmade results)

/-- A sort by keys moves along, and so does its refusal. -/
theorem sortedList (keyed : List (Value × Value)) :
    Moves f (Value.mapPos f) (Run.ofResult (Script.sortedList keyed) : Run γ Value)
      (Run.ofResult (Script.sortedList (mapPosResults f keyed))) := by
  apply Moves.ofResult
  rw [Script.sortedList, sortByKey_map]
  exact moveAttempt_bind f (List.map (Value.mapPos f)) fun sorted => congrArg Except.ok (mapPos_list f sorted).symm

/-- Items are sorted by themselves or by the results of a function. -/
theorem sortItems (hcall : MovesCalls f call call') (items args : List Value) :
    Moves f (Value.mapPos f) (Script.sortItems call items args)
      (Script.sortItems call' (items.map (Value.mapPos f)) (args.map (Value.mapPos f))) := by
  unfold Script.sortItems
  apply (Moves.ofResult (checkArity_map f "sort" args 0 1)).bind
  intro _
  -- without a function the items are their own keys
  cases args with
  | nil =>
    have hkeyed : mapPosResults f (items.map fun item => (item, item)) =
        (items.map (Value.mapPos f)).map fun item => (item, item) := by
      simp [mapPosResults, Function.comp_def]
    exact (Moves.pure hkeyed).bind sortedList
  | cons v rest =>
    apply (callEach hcall v items).bind
    intro results
    have hkeyed : mapPosResults f (results.map fun r => (r.2, r.1)) =
        (mapPosResults f results).map fun r => (r.2, r.1) := by
      simp [mapPosResults, Function.comp_def]
    exact (Moves.pure hkeyed).bind sortedList

theorem head?_getD_map (items : List Value) :
    (items.head?.getD .null).mapPos f = (items.map (Value.mapPos f)).head?.getD .null := by
  cases items <;> rfl

/-- The methods of lists move with their arguments. -/
theorem listMethod (hcall : MovesCalls f call call') (items : List Value) (name : String) (args : List Value) :
    Moves f (Value.mapPos f) (Script.listMethod call items name args)
      (Script.listMethod call' (items.map (Value.mapPos f)) name (args.map (Value.mapPos f))) := by
  unfold Script.listMethod
  -- One case for each method, in the order of the definition.
  split
  · exact Moves.pure (by simp [countValue])
  · exact Moves.pure (by simp)
  · exact Moves.pure (head?_getD_map items)
  · apply Moves.pure
    cases hlast : items.getLast? <;> simp [hlast]
  · apply Moves.ofResult
    rw [← mapPos_list]
    exact oneArg_bind_map f (elementAt_mapPos f (.list items)) args
  · apply Moves.ofResult
    apply oneArg_bind_map
    intro v
    rw [isIn_mapPos]
    rfl
  · exact Moves.pure (by simp)
  · exact Moves.pure (by rw [mapPos_list, uniqueItems_map])
  · apply Moves.ofResult
    apply oneArg_bind_map
    intro v
    rw [intArg_mapPos]
    exact moveAttempt_bind f id fun n => by simp [List.map_take, pure, Except.pure]
  · apply Moves.ofResult
    apply oneArg_bind_map
    intro v
    rw [intArg_mapPos]
    exact moveAttempt_bind f id fun n => by simp [List.map_drop, pure, Except.pure]
  · apply Moves.ofResult
    rw [checkArity_map]
    refine moveAttempt_bind f id fun _ => ?_
    -- The separator is shown as a text, and that is the same when moved.
    have hseparator : ((args.map (Value.mapPos f)).head?.map Value.display).getD "" =
        (args.head?.map Value.display).getD "" := by
      cases args <;> simp
    rw [hseparator]
    simp [pure, Except.pure, Function.comp_def]
  · exact Moves.ofResult (sumItems_map f items)
  · exact sortItems hcall items args
  · exact (Moves.ofResult (closureArg_map f _ args)).bind fun v => findFirst hcall v items
  · exact results hcall _ args items fun results => by rw [mapPos_list, chosen_map]
  · exact results hcall _ args items fun results => by rw [mapPos_list, chosen_map]
  · exact results hcall _ args items fun results => by simp [mapPosResults, Function.comp_def]
  · exact results hcall _ args items fun results => by simp [mapPosResults, Function.comp_def]
  · exact results hcall _ args items fun results => mapPos_list f items
  · exact results hcall _ args items fun results => by simp [mapPosResults, List.any_map, Function.comp_def]
  · exact results hcall _ args items fun results => by simp [mapPosResults, List.all_map, Function.comp_def]
  · exact results hcall _ args items fun results => by simp [chosen_map, countValue]
  · refine results hcall _ args items fun results => ?_
    rw [mapPos_map, grouped_map]
    simp [mapValues, Function.comp_def]
  · exact fail _

/-- The methods of maps move with their arguments. -/
theorem mapMethod (hcall : MovesCalls f call call') (entries : OrderedMap Value) (name : String)
    (args : List Value) :
    Moves f (Value.mapPos f) (Script.mapMethod call entries name args)
      (Script.mapMethod call' (mapValues (Value.mapPos f) entries) name (args.map (Value.mapPos f))) := by
  unfold Script.mapMethod
  -- One case for each method, in the order of the definition.
  split
  · exact Moves.pure (by simp [countValue])
  · exact Moves.pure (by simp)
  · exact Moves.ofResult (by rw [← mapPos_map, keysOf_mapPos])
  · exact Moves.ofResult (by rw [← mapPos_map, keysOf_mapPos])
  · exact Moves.pure (by simp)
  · apply Moves.ofResult
    rw [checkArity_map]
    refine moveAttempt_bind f id fun _ => ?_
    rw [← head?_getD_map args, ← mapPos_map, elementAt_mapPos]
    refine moveAttempt_bind f (Value.mapPos f) fun found => ?_
    rw [List.getElem?_map]
    cases found <;> cases args[1]? <;> rfl
  · apply Moves.ofResult
    apply oneArg_bind_map
    intro v
    rw [keyText_mapPos, contains_mapValues]
    rfl
  · apply (Moves.ofResult (closureArg_map f _ args)).bind
    intro v
    -- the entries one by one; the map itself is the result
    refine (Moves.forM fun entry _ => ?_).bind fun _ => Moves.pure (mapPos_map f entries)
    obtain ⟨key, w⟩ := entry
    dsimp only [Prod.map, id]
    rw [entryArgs_mapPos]
    exact (hcall v _).bind fun _ => Moves.pure rfl
  · exact fail _

/-- The methods that the language knows. -/
theorem invokeMethod (hcall : MovesCalls f call call') (receiver : Value) (name : String) (args : List Value) :
    Moves f (Value.mapPos f) (Script.invokeMethod call receiver name args)
      (Script.invokeMethod call' (receiver.mapPos f) name (args.map (Value.mapPos f))) := by
  -- All values without methods of their own are tested for being callable.
  have hother : ∀ v : Value, Moves f (Value.mapPos f)
      (if v.isCallable && name = "call" then call v args else Run.fail (.noMethod name v.type))
      (if (v.mapPos f).isCallable && name = "call" then call' (v.mapPos f) (args.map (Value.mapPos f))
        else Run.fail (.noMethod name (v.mapPos f).type)) := by
    intro v
    rw [isCallable_mapPos, type_mapPos]
    split
    · exact hcall v args
    · exact fail _
  unfold Script.invokeMethod
  split
  · exact Moves.pure (by simp)
  · exact Moves.pure (by simp)
  · cases receiver with
    | list items =>
      rw [mapPos_list]
      exact listMethod hcall items name args
    | map entries =>
      rw [mapPos_map]
      exact mapMethod hcall entries name args
    | str s => exact Moves.ofResult (stringMethod_map f s name args)
    | null => exact fail _
    | int n =>
      dsimp only [mapPos_int]
      split
      · exact Moves.ofResult (moveValue_checked f _).symm
      · exact fail _
    | float x =>
      dsimp only [mapPos_float]
      split
      · exact Moves.pure rfl
      · exact fail _
    | _ => exact hother _

/-- The methods that the language knows and the entries of maps that are called like methods. -/
theorem callMethod (hcall : MovesCalls f call call') (p : Pos) (receiver : Value) (name : String)
    (args : List Value) :
    Moves f (Value.mapPos f) (Script.callMethod call p receiver name args)
      (Script.callMethod call' (f p) (receiver.mapPos f) name (args.map (Value.mapPos f))) := by
  have hinvoke := (invokeMethod hcall receiver name args).located p
  cases receiver with
  | map entries =>
    rw [mapPos_map] at hinvoke ⊢
    -- An entry that can be called comes before the methods of maps; moving keeps which entries can.
    have hentry : (OrderedMap.get? (mapValues (Value.mapPos f) entries) name).filter Value.isCallable =
        ((OrderedMap.get? entries name).filter Value.isCallable).map (Value.mapPos f) := by
      rw [get?_mapValues]
      cases OrderedMap.get? entries name with
      | none => rfl
      | some v => simp [Option.filter, apply_ite (Option.map (Value.mapPos f))]
    unfold Script.callMethod
    dsimp only
    rw [hentry]
    cases (OrderedMap.get? entries name).filter Value.isCallable with
    | some v => exact hcall v args
    | none => exact hinvoke
  | _ => exact hinvoke

end Moves

end RowConsole.Script
