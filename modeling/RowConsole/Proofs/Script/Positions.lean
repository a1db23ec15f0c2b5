import RowConsole.Proofs.Script.Syntax
import RowConsole.Script.Error

/-!
# Moved Positions

What becomes of trees, of errors, and of results that may be errors, when positions are moved.
-/

namespace RowConsole.Script

/-! ## Section 1: Trees -/

mutual

/-- Positions that stay where they are make the same expression. -/
theorem Expr.mapPos_id (e : Expr) : e.mapPos id = e := by
  cases e with
  | list items => rw [Expr.mapPos, mapPosExprs_id]
  | map entries => rw [Expr.mapPos, mapPosEntries_id]
  | unary op operand p => rw [Expr.mapPos, operand.mapPos_id, id]
  | binary op left right p => rw [Expr.mapPos, left.mapPos_id, right.mapPos_id, id]
  | and left right => rw [Expr.mapPos, left.mapPos_id, right.mapPos_id]
  | or left right => rw [Expr.mapPos, left.mapPos_id, right.mapPos_id]
  | member object name p => rw [Expr.mapPos, object.mapPos_id, id]
  | index object place p => rw [Expr.mapPos, object.mapPos_id, place.mapPos_id, id]
  | call callee args p => rw [Expr.mapPos, callee.mapPos_id, mapPosExprs_id, id]
  | method receiver name args p => rw [Expr.mapPos, receiver.mapPos_id, mapPosExprs_id, id]
  | closure params body p => rw [Expr.mapPos, mapPosStmts_id, id]
  | _ => rfl

/-- Lists of trees follow from the trees in them. -/
private theorem mapPosExprs_id (es : List Expr) : mapPosExprs id es = es := by
  cases es with
  | nil => rfl
  | cons e es => rw [mapPosExprs, e.mapPos_id, mapPosExprs_id es]

private theorem mapPosEntries_id (entries : List (String × Expr)) : mapPosEntries id entries = entries := by
  cases entries with
  | nil => rfl
  | cons entry entries =>
    obtain ⟨key, e⟩ := entry
    rw [mapPosEntries, e.mapPos_id, mapPosEntries_id entries]

/-- Positions that stay where they are make the same statement. -/
theorem Stmt.mapPos_id (s : Stmt) : s.mapPos id = s := by
  cases s with
  | expr e => rw [Stmt.mapPos, e.mapPos_id]
  | declare name init p =>
    cases init with
    | none => rfl
    | some e => rw [Stmt.mapPos, e.mapPos_id, id]
  | assign target op e p => rw [Stmt.mapPos, target.mapPos_id, e.mapPos_id, id]
  | function name params body p => rw [Stmt.mapPos, mapPosStmts_id, id]
  | branch cond thenBody elseBody =>
    cases elseBody with
    | none => rw [Stmt.mapPos, cond.mapPos_id, mapPosStmts_id]
    | some elseBody => rw [Stmt.mapPos, cond.mapPos_id, mapPosStmts_id, mapPosStmts_id]
  | whileLoop cond body => rw [Stmt.mapPos, cond.mapPos_id, mapPosStmts_id]
  | forLoop name items body p => rw [Stmt.mapPos, items.mapPos_id, mapPosStmts_id, id]
  | returns value =>
    cases value with
    | none => rfl
    | some e => rw [Stmt.mapPos, e.mapPos_id]
  | _ => rfl

theorem mapPosStmts_id (stmts : List Stmt) : mapPosStmts id stmts = stmts := by
  cases stmts with
  | nil => rfl
  | cons s stmts => rw [mapPosStmts, s.mapPos_id, mapPosStmts_id stmts]

end

/-! ## Section 2: Results -/

section Results

variable {α β α' β' : Type} (f : Pos → Pos) (g : α → β)

/-- An error whose positions are moved. -/
def ScriptError.mapPos (e : ScriptError) : ScriptError :=
  { cause := e.cause, pos := e.pos.map f, trace := e.trace.map fun c => { c with pos := f c.pos } }

/-- A result whose value is changed, or an error whose positions are moved. -/
def moveResult : ScriptResult α → ScriptResult β
  | .ok a => .ok (g a)
  | .error e => .error (e.mapPos f)

/-- A result with a value moves by the change of the value. -/
@[simp] theorem moveResult_ok (a : α) : moveResult f g (.ok a) = .ok (g a) := rfl

/-- A result with an error moves by the place of the error. -/
@[simp] theorem moveResult_error (e : ScriptError) : moveResult f g (.error e) = .error (e.mapPos f) := rfl

@[simp] theorem moveResult_refusalAt (cause : Cause) (p : Pos) :
    moveResult f g (refusalAt cause p) = refusalAt cause (f p) := rfl

/-- A failure whose positions are moved. -/
def Failure.mapPos (e : Failure) : Failure :=
  e.map (·.mapPos f)

/-- A result of running whose value is changed, or a failure whose positions are moved. -/
def moveAttempt : Attempt α → Attempt β
  | .ok a => .ok (g a)
  | .error e => .error (e.mapPos f)

@[simp] theorem moveAttempt_ok (a : α) : moveAttempt f g (.ok a) = .ok (g a) := rfl

@[simp] theorem moveAttempt_error (e : Failure) : moveAttempt f g (.error e) = .error (e.mapPos f) := rfl

/-- A failure of an operation has no position yet. -/
@[simp] theorem moveAttempt_failure (cause : Cause) : moveAttempt f g (failure cause) = failure cause := rfl

/-- A crash has no position. -/
@[simp] theorem moveAttempt_crash (c : Crash) : moveAttempt f g (crash c) = crash c := rfl

/-- Operations whose second step does the same at moved positions do so as a whole. -/
theorem moveAttempt_bind {r : Attempt α} {next : α → Attempt α'} {next' : β → Attempt β'} {g' : α' → β'}
    (h : ∀ a, next' (g a) = moveAttempt f g' (next a)) :
    (moveAttempt f g r >>= next') = moveAttempt f g' (r >>= next) := by
  cases r with
  | ok a => exact h a
  | error e => rfl

end Results

end RowConsole.Script
