import RowConsole.Proofs.Script.Grammar.Indexed.Agreement

/-!
# The Procedures over an Index

Each procedure over an index does what the procedure of the same name does from a cursor. A step says so of one
procedure, given that the procedures which it calls agree with one recursion less; what its parts are is seen
from its body, so that most steps only open the two bodies.

Main statements: `mirrors_run`, for every procedure, and `mirrors_program`.
-/

namespace RowConsole.Script.Grammar.Indexed

variable {α : Type}

/-- The procedure that reads the same from a cursor. -/
@[reducible] def Procedure.read (fuel depth : Nat) : {α : Type} → Procedure α → Parser α
  | _, .statements stop => Grammar.statements fuel depth stop
  | _, .braced => Grammar.braced fuel depth
  | _, .block => Grammar.block fuel depth
  | _, .statement => Grammar.statement fuel depth
  | _, .declaration => Grammar.declaration fuel depth
  | _, .condition => Grammar.condition fuel depth
  | _, .conditional => Grammar.conditional fuel depth
  | _, .forLoop => Grammar.forLoop fuel depth
  | _, .commandCall => Grammar.commandCall fuel depth
  | _, .commandArgs => Grammar.commandArgs fuel depth
  | _, .simple => Grammar.simple fuel depth
  | _, .expr => Grammar.expr fuel depth
  | _, .binary level => Grammar.binary fuel depth level
  | _, .binaryFrom level left => Grammar.binaryFrom fuel depth level left
  | _, .operand level => Grammar.operand fuel depth level
  | _, .unary => Grammar.unary fuel depth
  | _, .chain => Grammar.chain fuel depth
  | _, .chainFrom object => Grammar.chainFrom fuel depth object
  | _, .callArgs => Grammar.callArgs fuel depth
  | _, .argsFrom => Grammar.argsFrom fuel depth
  | _, .primary => Grammar.primary fuel depth
  | _, .collection => Grammar.collection fuel depth
  | _, .items => Grammar.items fuel depth
  | _, .entries => Grammar.entries fuel depth
  | _, .closure => Grammar.closure fuel depth

section Steps

-- The longest of the procedures have more parts than a search for an instance visits by default.
set_option synthInstance.maxSize 1000

/-- The names of parameters are collected by a recursion of their own, on a bound of its own. -/
instance Mirrors.paramsFrom {depth : Nat} (fuel : Nat) (names : List String) :
    Mirrors depth (Indexed.paramsFrom fuel names) (Grammar.paramsFrom fuel names) := by
  induction fuel generalizing names with
  | zero => exact Mirrors.exhausted
  | succ fuel ih =>
    unfold Indexed.paramsFrom Grammar.paramsFrom
    dsimp only
    infer_instance

instance Mirrors.params {depth : Nat} (fuel : Nat) :
    Mirrors depth (Indexed.params fuel) (Grammar.params fuel) := by
  unfold Indexed.params Grammar.params
  infer_instance

variable {fuel : Nat}
  (h : ∀ (depth : Nat) {α : Type} (q : Procedure α), Mirrors depth (run fuel q) (q.read fuel depth))
  (depth : Nat)

include h

/-- Statements are followed to the closing token or to the end of the input. -/
private theorem mirrors_statements_step (stop : TokenKind) :
    Mirrors depth (step fuel (run fuel) (.statements stop)) (Grammar.statements (fuel + 1) depth stop) := by
  unfold step Grammar.statements
  infer_instance

/-- A body is its statements and the brace behind them. -/
private theorem mirrors_braced_step :
    Mirrors depth (step fuel (run fuel) .braced) (Grammar.braced (fuel + 1) depth) := by
  unfold step Grammar.braced
  infer_instance

/-- A block counts as one level of nesting, be it braced or a single statement. -/
private theorem mirrors_block_step :
    Mirrors depth (step fuel (run fuel) .block) (Grammar.block (fuel + 1) depth) := by
  unfold step Grammar.block
  infer_instance

/-- A function or a variable, told apart by the parenthesis behind the name. -/
private theorem mirrors_declaration_step :
    Mirrors depth (step fuel (run fuel) .declaration) (Grammar.declaration (fuel + 1) depth) := by
  unfold step Grammar.declaration
  infer_instance

private theorem mirrors_condition_step :
    Mirrors depth (step fuel (run fuel) .condition) (Grammar.condition (fuel + 1) depth) := by
  unfold step Grammar.condition
  infer_instance

private theorem mirrors_forLoop_step :
    Mirrors depth (step fuel (run fuel) .forLoop) (Grammar.forLoop (fuel + 1) depth) := by
  unfold step Grammar.forLoop
  infer_instance

private theorem mirrors_commandCall_step :
    Mirrors depth (step fuel (run fuel) .commandCall) (Grammar.commandCall (fuel + 1) depth) := by
  unfold step Grammar.commandCall
  infer_instance

private theorem mirrors_commandArgs_step :
    Mirrors depth (step fuel (run fuel) .commandArgs) (Grammar.commandArgs (fuel + 1) depth) := by
  unfold step Grammar.commandArgs
  infer_instance

/-- An expression counts as one level of nesting and starts at the weakest operators. -/
private theorem mirrors_expr_step :
    Mirrors depth (step fuel (run fuel) .expr) (Grammar.expr (fuel + 1) depth) := by
  unfold step Grammar.expr
  infer_instance

private theorem mirrors_binary_step (level : Level) :
    Mirrors depth (step fuel (run fuel) (.binary level)) (Grammar.binary (fuel + 1) depth level) := by
  unfold step Grammar.binary
  infer_instance

private theorem mirrors_chain_step :
    Mirrors depth (step fuel (run fuel) .chain) (Grammar.chain (fuel + 1) depth) := by
  unfold step Grammar.chain
  infer_instance

/-- Arguments in parentheses, with the closure that may follow them. -/
private theorem mirrors_callArgs_step :
    Mirrors depth (step fuel (run fuel) .callArgs) (Grammar.callArgs (fuel + 1) depth) := by
  unfold step Grammar.callArgs
  infer_instance

private theorem mirrors_argsFrom_step :
    Mirrors depth (step fuel (run fuel) .argsFrom) (Grammar.argsFrom (fuel + 1) depth) := by
  unfold step Grammar.argsFrom
  infer_instance

private theorem mirrors_items_step :
    Mirrors depth (step fuel (run fuel) .items) (Grammar.items (fuel + 1) depth) := by
  unfold step Grammar.items
  infer_instance

private theorem mirrors_entries_step :
    Mirrors depth (step fuel (run fuel) .entries) (Grammar.entries (fuel + 1) depth) := by
  unfold step Grammar.entries
  infer_instance

private theorem mirrors_collection_step :
    Mirrors depth (step fuel (run fuel) .collection) (Grammar.collection (fuel + 1) depth) := by
  unfold step Grammar.collection
  infer_instance

/-- Which procedure reads a statement is decided by its first token. -/
private theorem mirrors_statement_step :
    Mirrors depth (step fuel (run fuel) .statement) (Grammar.statement (fuel + 1) depth) := by
  unfold step Grammar.statement
  refine @Mirrors.bind _ _ _ _ _ _ _ _ fun kind => ?_
  -- only a keyword decides by itself; every other token starts a call or an expression
  cases kind with
  | keyword k => cases k <;> infer_instance
  | _ => infer_instance

/-- Behind the body both look for `else`, and go back to the same place if it is not there. -/
private theorem mirrors_conditional_step :
    Mirrors depth (step fuel (run fuel) .conditional) (Grammar.conditional (fuel + 1) depth) := by
  unfold step Grammar.conditional
  -- the search for instances stops at `else`, where the two go back in different ways
  refine @Mirrors.bind _ _ _ _ _ _ _ _ fun _ => @Mirrors.bind _ _ _ _ _ _ _ _ fun cond =>
    @Mirrors.bind _ _ _ _ _ _ _ _ fun thenBody => ?_
  exact Mirrors.lookBehind

/-- An assignment or an expression, told apart by the token behind the target. -/
private theorem mirrors_simple_step :
    Mirrors depth (step fuel (run fuel) .simple) (Grammar.simple (fuel + 1) depth) := by
  unfold step Grammar.simple
  refine @Mirrors.bind _ _ _ _ _ _ _ _ fun start => @Mirrors.bind _ _ _ _ _ _ _ _ fun target =>
    @Mirrors.bind _ _ _ _ _ _ _ _ fun kind => ?_
  -- an operator of assignments, or the end of the statement
  cases assignOp? kind <;> infer_instance

/-- Operators of one level are taken as long as there are any. -/
private theorem mirrors_binaryFrom_step (level : Level) (left : Expr) :
    Mirrors depth (step fuel (run fuel) (.binaryFrom level left))
      (Grammar.binaryFrom (fuel + 1) depth level left) := by
  unfold step Grammar.binaryFrom
  refine @Mirrors.bind _ _ _ _ _ _ _ _ fun kind => @Mirrors.bind _ _ _ _ _ _ _ _ fun p => ?_
  -- a further operand, or the end of the level
  cases level.join? kind p <;> infer_instance

/-- The operands of a level are those of the next one, and unary expressions at the last. -/
private theorem mirrors_operand_step (level : Level) :
    Mirrors depth (step fuel (run fuel) (.operand level)) (Grammar.operand (fuel + 1) depth level) := by
  unfold step Grammar.operand
  dsimp only
  -- the match on the level has to be opened before instances are found in it
  cases level.tighter? <;> infer_instance

/-- An operator in front, or a chain. -/
private theorem mirrors_unary_step :
    Mirrors depth (step fuel (run fuel) .unary) (Grammar.unary (fuel + 1) depth) := by
  unfold step Grammar.unary
  refine @Mirrors.bind _ _ _ _ _ _ _ _ fun kind => ?_
  cases unaryOp? kind <;> infer_instance

/-- Members, elements and calls are told apart by the symbol in front of them. -/
private theorem mirrors_chainFrom_step (object : Expr) :
    Mirrors depth (step fuel (run fuel) (.chainFrom object)) (Grammar.chainFrom (fuel + 1) depth object) := by
  unfold step Grammar.chainFrom
  refine @Mirrors.bind _ _ _ _ _ _ _ _ fun _ => @Mirrors.bind _ _ _ _ _ _ _ _ fun kind => ?_
  cases kind with
  | symbol symbol => cases symbol <;> infer_instance
  | _ => infer_instance

/-- A leaf or a form in brackets, told apart by its first token. -/
private theorem mirrors_primary_step :
    Mirrors depth (step fuel (run fuel) .primary) (Grammar.primary (fuel + 1) depth) := by
  rw [primary_eq]
  unfold step
  refine @Mirrors.bind _ _ _ _ _ _ _ _ fun kind => ?_
  cases kind with
  | keyword k => cases k <;> infer_instance
  | symbol symbol => cases symbol <;> infer_instance
  | _ => infer_instance

/-- The body of a closure is one level deeper, which `Mirrors.enclosed` says of both. -/
private theorem mirrors_closure_step :
    Mirrors depth (step fuel (run fuel) .closure) (Grammar.closure (fuel + 1) depth) := by
  rw [closure_eq]
  unfold step
  refine @Mirrors.bind _ _ _ _ _ _ _ _ fun start => ?_
  exact Mirrors.enclosed (h := fun depth => inferInstance)

end Steps

/-- Every procedure does what the one that reads from a cursor does. -/
theorem mirrors_run (fuel depth : Nat) {α : Type} (q : Procedure α) :
    Mirrors depth (run fuel q) (q.read fuel depth) := by
  -- As for the other facts on all procedures: one step lemma for each of them, with the fuel as the measure.
  induction fuel generalizing depth α with
  | zero =>
    cases q <;> exact Mirrors.exhausted
  | succ fuel ih =>
    cases q with
    | statements stop => exact mirrors_statements_step ih depth stop
    | braced => exact mirrors_braced_step ih depth
    | block => exact mirrors_block_step ih depth
    | statement => exact mirrors_statement_step ih depth
    | declaration => exact mirrors_declaration_step ih depth
    | condition => exact mirrors_condition_step ih depth
    | conditional => exact mirrors_conditional_step ih depth
    | forLoop => exact mirrors_forLoop_step ih depth
    | commandCall => exact mirrors_commandCall_step ih depth
    | commandArgs => exact mirrors_commandArgs_step ih depth
    | simple => exact mirrors_simple_step ih depth
    | expr => exact mirrors_expr_step ih depth
    | binary level => exact mirrors_binary_step ih depth level
    | binaryFrom level left => exact mirrors_binaryFrom_step ih depth level left
    | operand level => exact mirrors_operand_step ih depth level
    | unary => exact mirrors_unary_step ih depth
    | chain => exact mirrors_chain_step ih depth
    | chainFrom object => exact mirrors_chainFrom_step ih depth object
    | callArgs => exact mirrors_callArgs_step ih depth
    | argsFrom => exact mirrors_argsFrom_step ih depth
    | primary => exact mirrors_primary_step ih depth
    | collection => exact mirrors_collection_step ih depth
    | items => exact mirrors_items_step ih depth
    | entries => exact mirrors_entries_step ih depth
    | closure => exact mirrors_closure_step ih depth

/-- A whole program is read as from a cursor. -/
instance mirrors_program (fuel : Nat) : Mirrors 0 (program fuel) (Grammar.program fuel) := by
  have h := @mirrors_run fuel
  unfold program Grammar.program
  infer_instance

end RowConsole.Script.Grammar.Indexed
