import RowConsole.Proofs.Script.Moved.Runs
import RowConsole.Script.Evaluate

/-!
# Evaluation at Moved Positions

No expression, statement or call looks at the positions in the tree that it runs or in the values that it
meets. So a program with moved positions, run on globals with moved positions, does what the program does,
with moved positions: the outcome, the globals, the output and the serial numbers are the same up to them,
and it is cut off if and only if the program is.

Main statement: `Moves.runProgram`.
-/

namespace RowConsole.Script

variable {γ : Type} [Globals γ] [Movable γ] {f : Pos → Pos}

/-! ## Section 1: Control Flow -/

/-- The end of a statement, its value with moved positions. -/
def Flow.mapPos (f : Pos → Pos) : Flow → Flow
  | .next v => .next (v.mapPos f)
  | .returned v => .returned (v.mapPos f)
  | .broke => .broke
  | .continued => .continued

/-- What a call makes of the end of its body moves along. -/
private theorem Flow.result_mapPos (flow : Flow) :
    (flow.mapPos f).result = moveAttempt f (Value.mapPos f) flow.result := by
  cases flow <;> rfl

/-- Moving a list of expressions is moving each of them. -/
private theorem mapPosExprs_eq (es : List Expr) : mapPosExprs f es = es.map (Expr.mapPos f) := by
  induction es with
  | nil => rfl
  | cons e es ih => rw [mapPosExprs, ih, List.map_cons]

/-- Moving the entries of a map is moving their expressions. -/
private theorem mapPosEntries_eq (entries : List (String × Expr)) :
    mapPosEntries f entries = mapValues (Expr.mapPos f) entries := by
  induction entries with
  | nil => rfl
  | cons entry rest ih => rw [mapPosEntries, ih, mapValues, mapValues, List.map_cons, Prod.map, id]

namespace Moves

/-- Statements in order, all of which move along. -/
theorem runBlock {exec exec' : Stmt → Run γ Flow} (stmts : List Stmt)
    (hexec : ∀ s, Moves f (Flow.mapPos f) (exec s) (exec' (s.mapPos f))) (last : Value) :
    Moves f (Flow.mapPos f) (Script.runBlock exec last stmts)
      (Script.runBlock exec' (last.mapPos f) (mapPosStmts f stmts)) := by
  -- On the statements: how one of them ends decides whether the next one is run, and positions have no part in
  -- that.
  induction stmts generalizing last with
  | nil => exact Moves.pure rfl
  | cons s rest ih =>
    rw [mapPosStmts, Script.runBlock, Script.runBlock]
    apply (hexec s).bind
    intro flow
    cases flow with
    | next v => exact ih v
    | returned v => exact Moves.pure rfl
    | broke => exact Moves.pure rfl
    | continued => exact Moves.pure rfl

/-- A loop over elements whose body moves along. -/
theorem runFor {body body' : Value → Run γ Flow} (items : List Value)
    (hbody : ∀ v, Moves f (Flow.mapPos f) (body v) (body' (v.mapPos f))) :
    Moves f (Flow.mapPos f) (Script.runFor body items) (Script.runFor body' (items.map (Value.mapPos f))) := by
  induction items with
  | nil => exact Moves.pure rfl
  | cons item rest ih =>
    rw [List.map_cons, Script.runFor, Script.runFor]
    apply (hbody item).bind
    intro flow
    cases flow with
    | next v => exact ih
    | returned v => exact Moves.pure rfl
    | broke => exact Moves.pure rfl
    | continued => exact ih

/-- A loop on a condition that moves along with its body. -/
theorem runWhile {cond cond' : Run γ Value} {body body' : Run γ Flow} (fuel : Nat)
    (hcond : Moves f (Value.mapPos f) cond cond') (hbody : Moves f (Flow.mapPos f) body body') :
    Moves f (Flow.mapPos f) (Script.runWhile fuel cond body) (Script.runWhile fuel cond' body') := by
  -- On the bound, which is the same on both sides.
  induction fuel with
  | zero => exact exhausted
  | succ fuel ih =>
    rw [Script.runWhile, Script.runWhile]
    apply hcond.bind
    intro v
    rw [truthy_mapPos]
    split
    · apply hbody.bind
      intro flow
      cases flow with
      | next v => exact ih
      | returned v => exact Moves.pure rfl
      | broke => exact Moves.pure rfl
      | continued => exact ih
    · exact Moves.pure rfl

end Moves

/-! ## Section 2: Calls -/

/-- Parameters are bound to the arguments as they are. -/
private theorem bindParams_map (params : List String) (args : List Value) (scope : Scope) :
    bindParams params (args.map (Value.mapPos f)) (mapValues (Value.mapPos f) scope) =
      mapValues (Value.mapPos f) (bindParams params args scope) := by
  induction params generalizing args scope with
  | nil => rfl
  | cons p params ih =>
    rw [bindParams, bindParams, ← Moves.head?_getD_map, insert_mapValues, ← List.map_tail, ih]

/-- The scope of a call moves along with its arguments. -/
private theorem paramScope_map (routine : Routine) (args : List Value) :
    paramScope (routine.mapPos f) (args.map (Value.mapPos f)) =
      mapValues (Value.mapPos f) (paramScope routine args) := by
  unfold paramScope
  rw [← bindParams_map, ← Moves.head?_getD_map]
  show bindParams routine.params _ (if routine.isClosure && routine.params.isEmpty then _ else _) = _
  split <;> rfl

namespace Moves

variable {limit : Nat} {block block' : List Stmt → Run γ Flow}

/-- Calls of routines move along if their bodies do. -/
theorem callRoutine (hblock : ∀ body, Moves f (Flow.mapPos f) (block body) (block' (mapPosStmts f body)))
    (routine : Routine) (captured : OrderedMap Value) (args : List Value) (p : Pos) :
    Moves f (Value.mapPos f) (Script.callRoutine limit block routine captured args p)
      (Script.callRoutine limit block' (routine.mapPos f) (mapValues (Value.mapPos f) captured)
        (args.map (Value.mapPos f)) (f p)) := by
  -- How many frames there are and how many arguments are given does not depend on positions.
  unfold Script.callRoutine
  apply Moves.get.bind
  intro m
  rw [Machine.depth_mapPos, List.length_map]
  split
  · exact failAt _ p
  · show Moves f _ _ (if !routine.isClosure && args.length ≠ routine.params.length then _ else _)
    split
    · exact failAt _ p
    · -- the frame of the call and the body that runs in it
      apply inCall
      have hframe : (⟨[paramScope routine args, captured], false⟩ : Frame).mapPos f =
          ⟨[paramScope (routine.mapPos f) (args.map (Value.mapPos f)), mapValues (Value.mapPos f) captured], false⟩ := by
        rw [paramScope_map]
        rfl
      rw [← hframe]
      apply ((hblock routine.body).withFrame _).bind
      intro flow
      exact ofResult (Flow.result_mapPos flow)

/-- Calls of values move along if the bodies of routines do. -/
theorem callWith (hblock : ∀ body, Moves f (Flow.mapPos f) (block body) (block' (mapPosStmts f body)))
    (p : Pos) : MovesCalls f (Script.callWith limit block p) (Script.callWith limit block' (f p)) := by
  intro v args
  cases v with
  | builtin b =>
    apply (ofResultAt p (builtin_mapPos f b args)).bind
    intro made
    obtain ⟨made, written⟩ := made
    -- what a function writes is not moved
    cases written with
    | none => exact Moves.pure rfl
    | some text => exact ((write text).located p).bind fun _ => Moves.pure rfl
  | function routine serial captured =>
    rw [mapPos_function]
    exact callRoutine hblock routine captured args p
  | list items =>
    rw [mapPos_list]
    exact failAt _ p
  | map entries =>
    rw [mapPos_map]
    exact failAt _ p
  | _ => exact failAt _ p

end Moves

/-! ## Section 3: One Construct -/

namespace Moves

variable {eval eval' : Expr → Run γ Value} {call call' : Pos → Caller γ}
  {store store' : Expr → Value → Pos → Run γ Unit}

/-- Expressions in order move along if each of them does. -/
private theorem evalEach (heval : ∀ e, Moves f (Value.mapPos f) (eval e) (eval' (e.mapPos f))) (es : List Expr) :
    Moves f (List.map (Value.mapPos f)) (es.mapM eval) ((mapPosExprs f es).mapM eval') := by
  rw [mapPosExprs_eq]
  exact mapM fun e _ => heval e

/-- An expression moves along if its parts and calls do. -/
theorem evalWith (heval : ∀ e, Moves f (Value.mapPos f) (eval e) (eval' (e.mapPos f)))
    (hcall : ∀ p, MovesCalls f (call p) (call' (f p))) (e : Expr) :
    Moves f (Value.mapPos f) (Script.evalWith eval call e) (Script.evalWith eval' call' (e.mapPos f)) := by
  have hargs := evalEach heval
  cases e with
  | list items => exact (hargs items).bind fun values => Moves.pure (mapPos_list f values)
  | map entries =>
    rw [Expr.mapPos, mapPosEntries_eq]
    have hentries : Moves f (mapValues (Value.mapPos f))
        (entries.mapM fun entry => do return (entry.1, ← eval entry.2))
        ((mapValues (Expr.mapPos f) entries).mapM fun entry => do return (entry.1, ← eval' entry.2)) := by
      apply mapM
      rintro ⟨key, e⟩ _
      exact (heval e).bind fun v => Moves.pure rfl
    apply hentries.bind
    intro made
    apply Moves.pure
    rw [mapPos_map, ofEntries_mapValues]
  | var name p =>
    apply Moves.get.bind
    intro m
    rw [Machine.lookup_mapPos]
    cases m.lookup name with
    | none => exact failAt _ p
    | some v => exact Moves.pure rfl
  | unary op operand p =>
    apply (heval operand).bind
    intro v
    exact ofResultAt p (applyUnary_mapPos f op v)
  | binary op left right p =>
    apply (heval left).bind
    intro v
    apply (heval right).bind
    intro w
    exact ofResultAt p (applyBinary_mapPos f op v w)
  | and left right =>
    apply (heval left).bind
    intro v
    rw [truthy_mapPos]
    split
    · exact (heval right).bind fun w => Moves.pure (by rw [truthy_mapPos, mapPos_bool])
    · exact Moves.pure rfl
  | or left right =>
    apply (heval left).bind
    intro v
    rw [truthy_mapPos]
    split
    · exact Moves.pure rfl
    · exact (heval right).bind fun w => Moves.pure (by rw [truthy_mapPos, mapPos_bool])
  | member object name p =>
    apply (heval object).bind
    intro v
    exact ofResultAt p (member_mapPos f name v)
  | index object place p =>
    apply (heval object).bind
    intro v
    apply (heval place).bind
    intro w
    exact ofResultAt p (elementAt_mapPos f v w)
  | call callee args p =>
    -- a name that is called is looked up before its arguments are evaluated
    have hother : Moves f (Value.mapPos f)
        (do
          let v ← eval callee
          let args ← args.mapM eval
          call p v args)
        (do
          let v ← eval' (callee.mapPos f)
          let args ← (mapPosExprs f args).mapM eval'
          call' (f p) v args) := by
      apply (heval callee).bind
      intro v
      exact (hargs args).bind fun values => hcall p v values
    cases callee with
    | var name q =>
      apply Moves.get.bind
      intro m
      rw [Machine.lookup_mapPos]
      cases m.lookup name with
      | none => exact failAt _ p
      | some v => exact (hargs args).bind fun values => hcall p v values
    | _ => exact hother
  | method receiver name args p =>
    apply (heval receiver).bind
    intro v
    apply (hargs args).bind
    intro values
    exact callMethod (hcall p) p v name values
  | closure params body p =>
    apply Moves.get.bind
    intro m
    -- A closure captures the local names of the place where it is made, with their values.
    have hlocals := flattenScopes_mapPos f m.frame.scopes
    show Moves f _ _ (Script.newFunction (Routine.mapPos f ⟨none, params, body⟩)
      (flattenScopes (mapPosScopes f m.frame.scopes)))
    rw [hlocals]
    exact newFunction _ _
  | _ => exact Moves.pure rfl

/-- A statement moves along if its expressions, its targets, its blocks and its loop on a condition do. -/
theorem execWith {inner inner' : Scope → List Stmt → Run γ Flow}
    {loop loop' : Run γ Value → Run γ Flow → Run γ Flow}
    (heval : ∀ e, Moves f (Value.mapPos f) (eval e) (eval' (e.mapPos f)))
    (hstore : ∀ e v p, Moves f id (store e v p) (store' (e.mapPos f) (v.mapPos f) (f p)))
    (hinner : ∀ scope body, Moves f (Flow.mapPos f) (inner scope body)
      (inner' (mapValues (Value.mapPos f) scope) (mapPosStmts f body)))
    (hloop : ∀ {cond cond' body body'}, Moves f (Value.mapPos f) cond cond' → Moves f (Flow.mapPos f) body body' →
      Moves f (Flow.mapPos f) (loop cond body) (loop' cond' body')) (s : Stmt) :
    Moves f (Flow.mapPos f) (Script.execWith eval store inner loop s)
      (Script.execWith eval' store' inner' loop' (s.mapPos f)) := by
  cases s with
  | expr e => exact (heval e).bind fun v => Moves.pure rfl
  | declare name init p =>
    have hdeclared : ∀ v, Moves f (Flow.mapPos f)
        (do
          (Script.declareName name v : Run γ Unit).located p
          return Flow.next v)
        (do
          (Script.declareName name (v.mapPos f) : Run γ Unit).located (f p)
          return Flow.next (v.mapPos f)) := by
      intro v
      apply ((declareName name v).located p).bind
      exact fun _ => Moves.pure rfl
    cases init with
    | none =>
      have hnull : Moves f (Value.mapPos f) (pure .null : Run γ Value) (pure .null) := Moves.pure rfl
      exact hnull.bind hdeclared
    | some e => exact (heval e).bind hdeclared
  | assign target op e p =>
    have hstored : ∀ v, Moves f (Flow.mapPos f)
        (do
          store target v p
          return Flow.next v)
        (do
          store' (target.mapPos f) (v.mapPos f) (f p)
          return Flow.next (v.mapPos f)) := fun v =>
      (hstore target v p).bind fun _ => Moves.pure rfl
    apply (heval e).bind
    intro right
    -- the old value is read only where the new one is made of it
    have hupdated : ∀ binary v, Moves f (Flow.mapPos f)
        (do
          let made ← Run.ofResultAt p (applyBinary binary v right)
          store target made p
          return Flow.next made)
        (do
          let made ← Run.ofResultAt (f p) (applyBinary binary (v.mapPos f) (right.mapPos f))
          store' (target.mapPos f) made (f p)
          return Flow.next made) := fun binary v =>
      (ofResultAt p (applyBinary_mapPos f binary v right)).bind hstored
    cases op with
    | set =>
      have hright : Moves f (Value.mapPos f) (pure right : Run γ Value) (pure (right.mapPos f)) := Moves.pure rfl
      exact hright.bind hstored
    | add => exact (heval target).bind (hupdated .add)
    | sub => exact (heval target).bind (hupdated .sub)
  | function name params body p =>
    apply (newFunction ⟨some name, params, body⟩ []).bind
    intro v
    exact ((declareName name v).located p).bind fun _ => Moves.pure rfl
  | branch cond thenBody elseBody =>
    have hbranch : ∀ other other', Moves f (Flow.mapPos f) other other' → Moves f (Flow.mapPos f)
        (do if (← eval cond).truthy then inner [] thenBody else other)
        (do if (← eval' (cond.mapPos f)).truthy then inner' [] (mapPosStmts f thenBody) else other') := by
      intro other other' hother
      apply (heval cond).bind
      intro v
      rw [truthy_mapPos]
      split
      · exact hinner [] thenBody
      · exact hother
    cases elseBody with
    | none => exact hbranch _ _ (Moves.pure rfl)
    | some body => exact hbranch _ _ (hinner [] body)
  | whileLoop cond body => exact hloop (heval cond) (hinner [] body)
  | forLoop name items body p =>
    apply (heval items).bind
    intro v
    -- The elements are those of the moved value, in the same order.
    apply (ofResultAt p (elements_mapPos f v)).bind
    intro visited
    exact runFor visited fun item => hinner [(name, item)] body
  | returns value =>
    cases value with
    | none => exact Moves.pure rfl
    | some e => exact (heval e).bind fun v => Moves.pure rfl
  | breaks => exact Moves.pure rfl
  | continues => exact Moves.pure rfl

/-- A write to a place moves along if the expressions around it and the writes to them do. -/
theorem storeWith (heval : ∀ e, Moves f (Value.mapPos f) (eval e) (eval' (e.mapPos f)))
    (hstore : ∀ e v p, Moves f id (store e v p) (store' (e.mapPos f) (v.mapPos f) (f p)))
    (target : Expr) (v : Value) (p : Pos) :
    Moves f id (Script.storeWith eval store target v p)
      (Script.storeWith eval' store' (target.mapPos f) (v.mapPos f) (f p)) := by
  -- A place in a container is stored by storing the changed container, which is what `hstore` is for.
  cases target with
  | var name q => exact (assignName name v).located p
  | member object name q =>
    apply (heval object).bind
    intro container
    apply (ofResultAt q (setMember_mapPos f container name v)).bind
    intro updated
    exact hstore object updated p
  | index object place q =>
    apply (heval object).bind
    intro container
    apply (heval place).bind
    intro index
    apply (ofResultAt q (setElement_mapPos f container index v)).bind
    intro updated
    exact hstore object updated p
  | _ => exact failAt _ p

/-! ## Section 4: Programs -/

/-- The statements of a block in one more scope. -/
theorem runScoped {exec exec' : Stmt → Run γ Flow}
    (hexec : ∀ s, Moves f (Flow.mapPos f) (exec s) (exec' (s.mapPos f))) (scope : Scope) (body : List Stmt) :
    Moves f (Flow.mapPos f) (Script.runScoped exec scope body)
      (Script.runScoped exec' (mapValues (Value.mapPos f) scope) (mapPosStmts f body)) :=
  (runBlock body hexec .null).withScope scope

end Moves

variable (γ f)

/-- Up to some fuel, expressions, statements and writes move along. -/
structure MovesUpTo (limit fuel : Nat) : Prop where
  eval : ∀ e : Expr, Moves f (Value.mapPos f) (eval limit fuel e : Run γ Value) (Script.eval limit fuel (e.mapPos f))
  exec : ∀ s : Stmt, Moves f (Flow.mapPos f) (exec limit fuel s : Run γ Flow) (Script.exec limit fuel (s.mapPos f))
  store : ∀ (target : Expr) (v : Value) (p : Pos), Moves f id (store limit fuel target v p : Run γ Unit)
    (Script.store limit fuel (target.mapPos f) (v.mapPos f) (f p))

private theorem movesUpTo (limit fuel : Nat) : MovesUpTo γ f limit fuel := by
  induction fuel with
  | zero => exact ⟨fun _ => Moves.exhausted, fun _ => Moves.exhausted, fun _ _ _ => Moves.exhausted⟩
  | succ fuel ih =>
    have hblock := fun body => Moves.runBlock body ih.exec .null
    constructor
    · exact Moves.evalWith ih.eval (Moves.callWith hblock)
    · exact Moves.execWith ih.eval ih.store (Moves.runScoped ih.exec) (Moves.runWhile fuel)
    · exact Moves.storeWith ih.eval ih.store

variable {γ f}

/-- A program with moved positions does what the program does, with moved positions. -/
theorem Moves.runProgram (limit fuel : Nat) (program : List Stmt) :
    Moves f (Value.mapPos f) (Script.runProgram limit fuel program : Run γ Value)
      (Script.runProgram limit fuel (mapPosStmts f program)) := by
  apply (Moves.runBlock program (movesUpTo γ f limit fuel).exec .null).bind
  intro flow
  exact ofResult (Flow.result_mapPos flow)

end RowConsole.Script
