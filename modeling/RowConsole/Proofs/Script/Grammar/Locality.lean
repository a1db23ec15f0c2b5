import RowConsole.Proofs.Script.Grammar.Seam

/-!
# Reading Is Local

Every procedure of the grammar reads the same up to a seam, whether the input ends there or goes on behind a
line feed. Main statement: `allAgree`, by induction on the bound on the recursion.
-/

namespace RowConsole.Script

/-! ## Section 1: Moving Positions -/

/-- Whether something can be assigned to an expression does not depend on where it stands. -/
theorem Expr.isTarget_mapPos (f : Pos → Pos) (e : Expr) : (e.mapPos f).isTarget = e.isTarget := by
  cases e <;> rfl

/-- Lists of expressions are moved part by part. -/
theorem mapPosExprs_append (f : Pos → Pos) (es es' : List Expr) :
    mapPosExprs f (es ++ es') = mapPosExprs f es ++ mapPosExprs f es' := by
  induction es with
  | nil => rfl
  | cons e es ih => exact congrArg (e.mapPos f :: ·) ih

end RowConsole.Script

namespace RowConsole.Script.Grammar

/-- How a token joins operands does not depend on its position but for the position of the tree. -/
theorem Level.join?_mapPos (f : Pos → Pos) (level : Level) (kind : TokenKind) (p : Pos) :
    (level.join? kind p = none ∧ level.join? kind (f p) = none) ∨
      ∃ join join', level.join? kind p = some join ∧ level.join? kind (f p) = some join' ∧
        ∀ left right, join' (left.mapPos f) (right.mapPos f) = (join left right).mapPos f := by
  unfold join?
  split
  · exact Or.inr ⟨_, _, rfl, rfl, fun _ _ => rfl⟩
  · exact Or.inr ⟨_, _, rfl, rfl, fun _ _ => rfl⟩
  · next symbol _ _ =>
    cases level.operator? symbol with
    | none => exact Or.inl ⟨rfl, rfl⟩
    | some op => exact Or.inr ⟨_, _, rfl, rfl, fun _ _ => rfl⟩
  · exact Or.inl ⟨rfl, rfl⟩

/-! ## Section 2: Parameters -/

namespace Seam

-- The longest of the procedures have more parts than a search for an instance visits by default.
set_option synthInstance.maxSize 1000

variable {s : Seam} {c d : Cursor}

/-- Names are read one by one on both sides, and a name that is repeated is found on both. -/
private theorem agrees_paramsFrom {fuel : Nat} (names : List String) (hcd : s.Facing c d) :
    s.Agrees id (paramsFrom fuel names) (paramsFrom fuel names) c d := by
  -- on the bound; the names read so far are the same on both sides
  induction fuel generalizing names c d with
  | zero => exact Matches.failed_both rfl rfl
  | succ fuel ih =>
    unfold paramsFrom
    dsimp only
    apply Matches.bind (Agrees.eat hcd (by simp) (by simp))
    intro _ c₁ d₁ hcd₁
    apply Matches.bind (Agrees.expectIdent hcd₁)
    intro name c₂ d₂ hcd₂
    apply Matches.ite Iff.rfl
    · intro _
      -- a repeated name fails on both sides, wherever it stands
      apply Matches.position
      exact Matches.failed_both rfl rfl
    · intro _
      apply Matches.bindTakes (follows_skipNewlines hcd₂)
      intro _ c₃ d₃ hcd₃
      apply Matches.bind (Agrees.eat hcd₃ (by simp) (by simp))
      intro taken c₄ d₄ hcd₄
      apply Matches.ite Iff.rfl
      · intro _
        apply Matches.bindTakes (follows_skipNewlines hcd₄)
        intro _ c₅ d₅ hcd₅
        exact ih _ hcd₅
      · intro _
        apply Matches.bind (Agrees.expect hcd₄ (by simp) (by simp) _)
        intro _ c₅ d₅ hcd₅
        exact Matches.pure hcd₅ rfl

/-- Parameters may be empty, or a list up to the closing parenthesis. -/
private theorem agrees_params {fuel : Nat} (hcd : s.Facing c d) :
    s.Agrees id (params fuel) (params fuel) c d := by
  unfold params
  apply Matches.bind (Agrees.expect hcd (by simp) (by simp) _)
  intro _ c₁ d₁ hcd₁
  apply Matches.bindTakes (follows_skipNewlines hcd₁)
  intro _ c₂ d₂ hcd₂
  apply Matches.bind (Agrees.eat hcd₂ (by simp) (by simp))
  intro taken c₃ d₃ hcd₃
  apply Matches.ite Iff.rfl
  · intro _
    exact Matches.pure hcd₃ rfl
  · intro _
    exact agrees_paramsFrom [] hcd₃

/-! ## Section 3: All Procedures -/

/-- Every procedure agrees on both sides of facing cursors, with a bound on its recursion. Only statements up
to a closing token may go on from the seam. -/
structure AllAgree (s : Seam) (fuel : Nat) : Prop where
  statements : ∀ depth stop {c d}, s.Facing c d →
    s.Follows (mapPosStmts s.shift) (statements fuel depth stop) (statements fuel depth stop) c d
  braced : ∀ depth {c d}, s.Facing c d →
    s.Agrees (mapPosStmts s.shift) (braced fuel depth) (braced fuel depth) c d
  block : ∀ depth {c d}, s.Facing c d →
    s.Agrees (mapPosStmts s.shift) (block fuel depth) (block fuel depth) c d
  statement : ∀ depth {c d}, s.Facing c d →
    s.Agrees (Stmt.mapPos s.shift) (statement fuel depth) (statement fuel depth) c d
  declaration : ∀ depth {c d}, s.Inside c d →
    s.Agrees (Stmt.mapPos s.shift) (declaration fuel depth) (declaration fuel depth) c d
  condition : ∀ depth {c d}, s.Facing c d →
    s.Agrees (Expr.mapPos s.shift) (condition fuel depth) (condition fuel depth) c d
  conditional : ∀ depth {c d}, s.Inside c d →
    s.Agrees (Stmt.mapPos s.shift) (conditional fuel depth) (conditional fuel depth) c d
  forLoop : ∀ depth {c d}, s.Inside c d →
    s.Agrees (Stmt.mapPos s.shift) (forLoop fuel depth) (forLoop fuel depth) c d
  commandCall : ∀ depth {c d}, s.Facing c d →
    s.Agrees (Stmt.mapPos s.shift) (commandCall fuel depth) (commandCall fuel depth) c d
  commandArgs : ∀ depth {c d}, s.Facing c d →
    s.Agrees (mapPosExprs s.shift) (commandArgs fuel depth) (commandArgs fuel depth) c d
  simple : ∀ depth {c d}, s.Facing c d →
    s.Agrees (Stmt.mapPos s.shift) (simple fuel depth) (simple fuel depth) c d
  expr : ∀ depth {c d}, s.Facing c d →
    s.Agrees (Expr.mapPos s.shift) (expr fuel depth) (expr fuel depth) c d
  binary : ∀ depth level {c d}, s.Facing c d →
    s.Agrees (Expr.mapPos s.shift) (binary fuel depth level) (binary fuel depth level) c d
  binaryFrom : ∀ depth level left {c d}, s.Facing c d →
    s.Agrees (Expr.mapPos s.shift) (binaryFrom fuel depth level left)
      (binaryFrom fuel depth level (left.mapPos s.shift)) c d
  operand : ∀ depth level {c d}, s.Facing c d →
    s.Agrees (Expr.mapPos s.shift) (operand fuel depth level) (operand fuel depth level) c d
  unary : ∀ depth {c d}, s.Facing c d →
    s.Agrees (Expr.mapPos s.shift) (unary fuel depth) (unary fuel depth) c d
  chain : ∀ depth {c d}, s.Facing c d →
    s.Agrees (Expr.mapPos s.shift) (chain fuel depth) (chain fuel depth) c d
  chainFrom : ∀ depth object {c d}, s.Facing c d →
    s.Agrees (Expr.mapPos s.shift) (chainFrom fuel depth object)
      (chainFrom fuel depth (object.mapPos s.shift)) c d
  callArgs : ∀ depth {c d}, s.Facing c d →
    s.Agrees (mapPosExprs s.shift) (callArgs fuel depth) (callArgs fuel depth) c d
  argsFrom : ∀ depth {c d}, s.Facing c d →
    s.Agrees (mapPosExprs s.shift) (argsFrom fuel depth) (argsFrom fuel depth) c d
  primary : ∀ depth {c d}, s.Facing c d →
    s.Agrees (Expr.mapPos s.shift) (primary fuel depth) (primary fuel depth) c d
  collection : ∀ depth {c d}, s.Inside c d →
    s.Agrees (Expr.mapPos s.shift) (collection fuel depth) (collection fuel depth) c d
  items : ∀ depth {c d}, s.Facing c d →
    s.Agrees (mapPosExprs s.shift) (items fuel depth) (items fuel depth) c d
  entries : ∀ depth {c d}, s.Facing c d →
    s.Agrees (mapPosEntries s.shift) (entries fuel depth) (entries fuel depth) c d
  closure : ∀ depth {c d}, s.Facing c d →
    s.Agrees (Expr.mapPos s.shift) (closure fuel depth) (closure fuel depth) c d

/-- At the end of the piece no statements are left. -/
theorem statementsHere_last (s : Seam) (fuel depth : Nat) (stop : TokenKind) :
    statementsHere fuel depth stop ⟨s.last, []⟩ = .ok ([], ⟨s.last, []⟩) := by
  show (if (s.last.kind = stop || s.last.kind = .eof) = true then _ else _ : Parser (List Stmt)) _ = _
  rw [if_pos (by simp [s.isEnd])]
  rfl

section Step

variable {fuel : Nat} (h : AllAgree s fuel) (depth : Nat)

include h

/-- Statements end at the same place, unless the piece ends first: then they go on in the longer list. -/
theorem follows_statements_step (stop : TokenKind) (hcd : s.Facing c d) :
    s.Follows (mapPosStmts s.shift) (statements (fuel + 1) depth stop) (statements (fuel + 1) depth stop) c d := by
  apply Matches.congr (statements_apply fuel depth stop c) (statements_apply fuel depth stop d)
  -- separators may lead over the seam: behind it the longer list goes on, and the piece has ended
  rcases hcd.skip isSeparator with hin | ⟨hc, hd⟩
  · apply Matches.peek
    rw [hin.kind_eq]
    apply Matches.ite Iff.rfl
    · intro _
      exact Matches.pure hin.facing rfl
    · intro _
      apply Matches.bind (h.statement depth hin.facing)
      intro stmt c₁ d₁ hcd₁
      apply Matches.peek
      apply Matches.ite
      · rw [hcd₁.ask (fun kind => isSeparator kind || kind = .eof || kind = stop) (by simp [isSeparator])]
      · intro _
        exact Matches.map (h.statements depth stop hcd₁) fun _ => rfl
      · intro _
        exact Matches.unexpected
  · rw [hc, hd]
    exact Matches.stops (statementsHere_last s fuel depth stop) (closed_skipFrom s.closed)
      (Cursor.From.skip isSeparator s.beyond).weight_le

/-- The brace behind the statements is on this side of the seam if it is there at all. -/
private theorem agrees_braced_step (hcd : s.Facing c d) :
    s.Agrees (mapPosStmts s.shift) (braced (fuel + 1) depth) (braced (fuel + 1) depth) c d := by
  unfold braced
  apply Matches.bindTakes (h.statements depth _ hcd)
  intro body c₁ d₁ hcd₁
  apply Matches.bind (Agrees.expect hcd₁ (by simp) (by simp) _)
  intro _ c₂ d₂ hcd₂
  exact Matches.pure hcd₂ rfl

/-- A block is braced or a single statement, at one more level of nesting. -/
private theorem agrees_block_step (hcd : s.Facing c d) :
    s.Agrees (mapPosStmts s.shift) (block (fuel + 1) depth) (block (fuel + 1) depth) c d := by
  unfold block
  apply Matches.bind (Agrees.enter hcd depth)
  intro depth' c₁ d₁ hcd₁
  apply Matches.bindTakes (follows_skipNewlines hcd₁)
  intro _ c₂ d₂ hcd₂
  apply Matches.bind (Agrees.eat hcd₂ (by simp) (by simp))
  intro taken c₃ d₃ hcd₃
  apply Matches.ite Iff.rfl
  · intro _
    exact h.braced depth' hcd₃
  · intro _
    exact Matches.map (h.statement depth' hcd₃) fun _ => rfl

/-- The first token decides on both sides alike, since it is the same token. -/
private theorem agrees_statement_step (hcd : s.Facing c d) :
    s.Agrees (Stmt.mapPos s.shift) (statement (fuel + 1) depth) (statement (fuel + 1) depth) c d := by
  -- a statement takes tokens, so at the end of the piece nothing is left to compare
  apply Matches.of_inside hcd
  intro hin
  unfold statement
  apply Matches.peek
  rw [hin.kind_eq]
  split
  · exact h.declaration depth hin
  · exact h.declaration depth hin
  · exact h.conditional depth hin
  · apply Matches.advance
    apply Matches.bind (h.condition depth hin.advance)
    intro cond c₁ d₁ hcd₁
    exact Matches.map (h.block depth hcd₁) fun _ => rfl
  · exact h.forLoop depth hin
  · apply Matches.advance
    apply Matches.peek
    apply Matches.ite
    · rw [hin.advance.ask (fun kind => isSeparator kind || kind = .symbol .braceClose || kind = .eof) rfl]
    · intro _
      -- a `return` without a value, which the seam may end as well
      exact Matches.pure hin.advance rfl
    · intro _
      exact Matches.map (h.expr depth hin.advance) fun _ => rfl
  · apply Matches.advance
    exact Matches.pure hin.advance rfl
  · apply Matches.advance
    exact Matches.pure hin.advance rfl
  · apply Matches.get
    apply Matches.ite
    · rw [hcd.isCommandCall_eq]
    · intro _
      exact h.commandCall depth hcd
    · intro _
      exact h.simple depth hcd

/-- A function or a variable, told apart by the token behind the name. -/
private theorem agrees_declaration_step (hin : s.Inside c d) :
    s.Agrees (Stmt.mapPos s.shift) (declaration (fuel + 1) depth) (declaration (fuel + 1) depth) c d := by
  unfold declaration
  apply Matches.advance
  have hpos := hin.facing.pos
  apply Matches.bind (Agrees.expectIdent hin.advance)
  intro name c₁ d₁ hcd₁
  apply Matches.peek
  apply Matches.ite (hcd₁.kind_eq_iff (by simp) (by simp))
  · intro _
    -- a named function
    apply Matches.bind (agrees_params hcd₁)
    intro ps c₂ d₂ hcd₂
    apply Matches.bindTakes (follows_skipNewlines hcd₂)
    intro _ c₃ d₃ hcd₃
    apply Matches.bind (Agrees.expect hcd₃ (by simp) (by simp) _)
    intro _ c₄ d₄ hcd₄
    apply Matches.map (h.braced depth hcd₄)
    intro body
    rw [hpos]
    rfl
  · intro _
    -- a variable, with or without a value
    apply Matches.bind (Agrees.eat hcd₁ (by simp) (by simp))
    intro taken c₂ d₂ hcd₂
    apply Matches.ite Iff.rfl
    · intro _
      apply Matches.bindTakes (follows_skipNewlines hcd₂)
      intro _ c₃ d₃ hcd₃
      apply Matches.map (h.expr depth hcd₃)
      intro e
      rw [hpos]
      rfl
    · intro _
      apply Matches.pure hcd₂
      rw [hpos]
      rfl

/-- A condition stands in parentheses, so that line feeds in it are skipped on both sides. -/
private theorem agrees_condition_step (hcd : s.Facing c d) :
    s.Agrees (Expr.mapPos s.shift) (condition (fuel + 1) depth) (condition (fuel + 1) depth) c d := by
  unfold condition
  apply Matches.bind (Agrees.expect hcd (by simp) (by simp) _)
  intro _ c₁ d₁ hcd₁
  apply Matches.bindTakes (follows_skipNewlines hcd₁)
  intro _ c₂ d₂ hcd₂
  apply Matches.bind (h.expr depth hcd₂)
  intro cond c₃ d₃ hcd₃
  apply Matches.bindTakes (follows_skipNewlines hcd₃)
  intro _ c₄ d₄ hcd₄
  apply Matches.bind (Agrees.expect hcd₄ (by simp) (by simp) _)
  intro _ c₅ d₅ hcd₅
  exact Matches.pure hcd₅ rfl

/-- A line feed may stand in front of `else`, so the two may look for it beyond the seam and come back. -/
private theorem agrees_conditional_step (hin : s.Inside c d) :
    s.Agrees (Stmt.mapPos s.shift) (conditional (fuel + 1) depth) (conditional (fuel + 1) depth) c d := by
  unfold conditional
  apply Matches.advance
  apply Matches.bind (h.condition depth hin.advance)
  intro cond c₁ d₁ hcd₁
  apply Matches.bind (h.block depth hcd₁)
  intro thenBody c₂ d₂ hcd₂
  apply Agrees.lookElse hcd₂
  · intro c₃ d₃ hcd₃
    apply Matches.peek
    apply Matches.ite (hcd₃.kind_eq_iff (by simp) (by simp))
    · intro hif
      exact Matches.map (h.conditional depth (hcd₃.isInside (by simp [hif]))) fun _ => rfl
    · intro _
      exact Matches.map (h.block depth hcd₃) fun _ => rfl
  · exact Matches.pure hcd₂ rfl

/-- The head of a loop, in which the variable may be declared by a keyword, and its body. -/
private theorem agrees_forLoop_step (hin : s.Inside c d) :
    s.Agrees (Stmt.mapPos s.shift) (forLoop (fuel + 1) depth) (forLoop (fuel + 1) depth) c d := by
  unfold forLoop
  apply Matches.advance
  -- The keyword lies before the seam, so its place is the moved one.
  have hpos := hin.facing.pos
  apply Matches.bind (Agrees.expect hin.advance (by simp) (by simp) _)
  intro _ c₁ d₁ hcd₁
  apply Matches.bind (Agrees.skipDeclarator hcd₁)
  intro _ c₂ d₂ hcd₂
  apply Matches.bind (Agrees.expectIdent hcd₂)
  intro var c₃ d₃ hcd₃
  apply Matches.bind (Agrees.expect hcd₃ (by simp) (by simp) _)
  intro _ c₄ d₄ hcd₄
  apply Matches.bind (h.expr depth hcd₄)
  intro items c₅ d₅ hcd₅
  apply Matches.bind (Agrees.expect hcd₅ (by simp) (by simp) _)
  intro _ c₆ d₆ hcd₆
  apply Matches.map (h.block depth hcd₆)
  intro body
  rw [hpos]
  rfl

/-- A call without parentheses: a name, and arguments on the same line. -/
private theorem agrees_commandCall_step (hcd : s.Facing c d) :
    s.Agrees (Stmt.mapPos s.shift) (commandCall (fuel + 1) depth) (commandCall (fuel + 1) depth) c d := by
  unfold commandCall
  apply Matches.position
  rw [hcd.pos]
  apply Matches.bind (Agrees.expectIdent hcd)
  intro name c₁ d₁ hcd₁
  exact Matches.map (h.commandArgs depth hcd₁) fun _ => rfl

/-- Arguments end where no comma follows, which a line feed does not change. -/
private theorem agrees_commandArgs_step (hcd : s.Facing c d) :
    s.Agrees (mapPosExprs s.shift) (commandArgs (fuel + 1) depth) (commandArgs (fuel + 1) depth) c d := by
  unfold commandArgs
  apply Matches.bind (h.expr depth hcd)
  intro arg c₁ d₁ hcd₁
  apply Matches.bind (Agrees.eat hcd₁ (by simp) (by simp))
  intro taken c₂ d₂ hcd₂
  apply Matches.ite Iff.rfl
  · intro _
    apply Matches.bindTakes (follows_skipNewlines hcd₂)
    intro _ c₃ d₃ hcd₃
    exact Matches.map (h.commandArgs depth hcd₃) fun _ => rfl
  · intro _
    exact Matches.pure hcd₂ rfl

private theorem agrees_simple_step (hcd : s.Facing c d) :
    s.Agrees (Stmt.mapPos s.shift) (simple (fuel + 1) depth) (simple (fuel + 1) depth) c d := by
  unfold simple
  apply Matches.position
  rw [hcd.pos]
  -- how a later part shrinks the cursor is not found by itself, since a match stands in the way
  refine @Matches.bind _ _ _ _ _ _ _ _ _ _ _ _ _ _ ?shrinks (h.expr depth hcd) ?behind
  case shrinks =>
    intro target
    refine @Shrinks.bind _ _ _ _ _ fun kind => ?_
    split <;> infer_instance
  intro target c₁ d₁ hcd₁
  apply Matches.peek
  rw [hcd₁.ask assignOp? rfl]
  split
  · exact Matches.pure hcd₁ rfl
  · next op hop =>
    -- an operator of assignments is no end of the input, so the seam has not been reached
    have hin := hcd₁.isInside (by
      intro heof
      rw [heof] at hop
      contradiction)
    apply Matches.ite
    · rw [Expr.isTarget_mapPos]
    · intro _
      apply Matches.advance
      apply Matches.bindTakes (follows_skipNewlines hin.advance)
      intro _ c₂ d₂ hcd₂
      exact Matches.map (h.expr depth hcd₂) fun _ => rfl
    · intro _
      exact Matches.failWith

/-- An expression is one level deeper than what it stands in. -/
private theorem agrees_expr_step (hcd : s.Facing c d) :
    s.Agrees (Expr.mapPos s.shift) (expr (fuel + 1) depth) (expr (fuel + 1) depth) c d := by
  unfold expr
  apply Matches.bind (Agrees.enter hcd depth)
  intro depth' c₁ d₁ hcd₁
  exact h.binary depth' .or hcd₁

/-- An operand and the operators behind it. -/
private theorem agrees_binary_step (level : Level) (hcd : s.Facing c d) :
    s.Agrees (Expr.mapPos s.shift) (binary (fuel + 1) depth level) (binary (fuel + 1) depth level) c d := by
  unfold binary
  apply Matches.bind (h.operand depth level hcd)
  intro left c₁ d₁ hcd₁
  exact h.binaryFrom depth level left hcd₁

/-- An operator at the seam would have to stand on the line: a line feed joins nothing. -/
private theorem agrees_binaryFrom_step (level : Level) (left : Expr) (hcd : s.Facing c d) :
    s.Agrees (Expr.mapPos s.shift) (binaryFrom (fuel + 1) depth level left)
      (binaryFrom (fuel + 1) depth level (left.mapPos s.shift)) c d := by
  unfold binaryFrom
  apply Matches.peek
  apply Matches.position
  -- no operator: a line feed joins operands no more than an end does
  have hline : level.join? .newline d.token.pos = level.join? .eof d.token.pos := by
    cases level <;> rfl
  rw [hcd.ask (level.join? · d.token.pos) hline, hcd.pos]
  rcases level.join?_mapPos s.shift c.kind c.token.pos with ⟨hc, hd⟩ | ⟨join, join', hc, hd, hjoin⟩
  · rw [hc, hd]
    -- the operand on the left is all there is
    exact Matches.pure hcd rfl
  · have hin := hcd.isInside (by
      intro heof
      rw [heof] at hc
      cases level <;> contradiction)
    rw [hc, hd]
    apply Matches.advance
    apply Matches.bindTakes (follows_skipNewlines hin.advance)
    intro _ c₁ d₁ hcd₁
    apply Matches.bind (h.operand depth level hcd₁)
    intro right c₂ d₂ hcd₂
    rw [hjoin]
    exact h.binaryFrom depth level _ hcd₂

private theorem agrees_operand_step (level : Level) (hcd : s.Facing c d) :
    s.Agrees (Expr.mapPos s.shift) (operand (fuel + 1) depth level) (operand (fuel + 1) depth level) c d := by
  unfold operand
  split
  · exact h.binary depth _ hcd
  · exact h.unary depth hcd

/-- An operator in front needs an operand on the line. -/
private theorem agrees_unary_step (hcd : s.Facing c d) :
    s.Agrees (Expr.mapPos s.shift) (unary (fuel + 1) depth) (unary (fuel + 1) depth) c d := by
  unfold unary
  apply Matches.peek
  rw [hcd.ask unaryOp? rfl]
  split
  · exact h.chain depth hcd
  · next op hop =>
    -- an operator is no end of the input
    have hin := hcd.isInside (by
      intro heof
      rw [heof] at hop
      contradiction)
    apply Matches.advance
    apply Matches.bind (Agrees.enter hin.advance depth)
    intro depth' c₁ d₁ hcd₁
    apply Matches.map (h.unary depth' hcd₁)
    intro e
    rw [hcd.pos]
    rfl

/-- The head of a chain and its links. -/
private theorem agrees_chain_step (hcd : s.Facing c d) :
    s.Agrees (Expr.mapPos s.shift) (chain (fuel + 1) depth) (chain (fuel + 1) depth) c d := by
  unfold chain
  apply Matches.bind (h.primary depth hcd)
  intro head c₁ d₁ hcd₁
  exact h.chainFrom depth head hcd₁

/-- A link may start on a later line with a dot, so that the two look beyond line feeds for one. -/
private theorem agrees_chainFrom_step (object : Expr) (hcd : s.Facing c d) :
    s.Agrees (Expr.mapPos s.shift) (chainFrom (fuel + 1) depth object)
      (chainFrom (fuel + 1) depth (object.mapPos s.shift)) c d := by
  unfold chainFrom
  apply Matches.skipToChain hcd
  intro c₁ d₁ hcd₁
  apply Matches.peek
  rcases hcd₁.inside_or_atEnd with hin | ⟨rfl, rfl⟩
  · rw [hin.kind_eq]
    have hpos := hcd₁.pos
    split
    · apply Matches.advance
      dsimp only
      rw [hpos]
      apply Matches.bind (Agrees.expectIdent hin.advance)
      intro name c₂ d₂ hcd₂
      apply Matches.peek
      apply Matches.ite (hcd₂.kind_eq_iff (by simp) (by simp))
      · intro _
        apply Matches.bind (h.callArgs depth hcd₂)
        intro args c₃ d₃ hcd₃
        exact h.chainFrom depth _ hcd₃
      · intro _
        apply Matches.ite (hcd₂.kind_eq_iff (by simp) (by simp))
        · intro _
          apply Matches.bind (h.closure depth hcd₂)
          intro body c₃ d₃ hcd₃
          exact h.chainFrom depth _ hcd₃
        · intro _
          exact h.chainFrom depth _ hcd₂
    · apply Matches.advance
      dsimp only
      rw [hpos]
      apply Matches.bindTakes (follows_skipNewlines hin.advance)
      intro _ c₂ d₂ hcd₂
      apply Matches.bind (h.expr depth hcd₂)
      intro index c₃ d₃ hcd₃
      apply Matches.bindTakes (follows_skipNewlines hcd₃)
      intro _ c₄ d₄ hcd₄
      apply Matches.bind (Agrees.expect hcd₄ (by simp) (by simp) _)
      intro _ c₅ d₅ hcd₅
      exact h.chainFrom depth _ hcd₅
    · apply Matches.position
      rw [hpos]
      apply Matches.bind (h.callArgs depth hcd₁)
      intro args c₂ d₂ hcd₂
      exact h.chainFrom depth _ hcd₂
    · exact Matches.pure hcd₁ rfl
  · -- neither the end nor a line feed continues the chain
    have hlast : (Cursor.kind ⟨s.last, []⟩) = .eof := s.isEnd
    rw [hlast]
    rcases s.isNext with hnext | hnext
    · rw [show s.beyond.kind = .eof from hnext]
      exact Matches.pure hcd₁ rfl
    · rw [show s.beyond.kind = .newline from hnext]
      exact Matches.pure hcd₁ rfl

/-- Arguments in parentheses, which may be none, and the closure that may follow them. -/
private theorem agrees_callArgs_step (hcd : s.Facing c d) :
    s.Agrees (mapPosExprs s.shift) (callArgs (fuel + 1) depth) (callArgs (fuel + 1) depth) c d := by
  unfold callArgs
  dsimp only
  -- a closure may stand behind the closing parenthesis as one more argument
  have htrailing : ∀ args {c d}, s.Facing c d → s.Agrees (mapPosExprs s.shift)
      (do if (← peek) = .symbol .braceOpen then return args ++ [← closure fuel depth] else return args)
      (do
        if (← peek) = .symbol .braceOpen then return mapPosExprs s.shift args ++ [← closure fuel depth]
        else return mapPosExprs s.shift args) c d := by
    intro args c d hcd
    apply Matches.peek
    apply Matches.ite (hcd.kind_eq_iff (by simp) (by simp))
    · intro _
      exact Matches.map (h.closure depth hcd) fun body => (mapPosExprs_append s.shift args [body]).symm
    · intro _
      exact Matches.pure hcd rfl
  apply Matches.bind (Agrees.expect hcd (by simp) (by simp) _)
  intro _ c₁ d₁ hcd₁
  apply Matches.bindTakes (follows_skipNewlines hcd₁)
  intro _ c₂ d₂ hcd₂
  apply Matches.bind (Agrees.eat hcd₂ (by simp) (by simp))
  intro taken c₃ d₃ hcd₃
  apply Matches.ite Iff.rfl
  · intro _
    exact htrailing [] hcd₃
  · intro _
    apply Matches.bind (h.argsFrom depth hcd₃)
    intro args c₄ d₄ hcd₄
    exact htrailing args hcd₄

/-- Arguments up to the closing parenthesis, over as many lines as they need. -/
private theorem agrees_argsFrom_step (hcd : s.Facing c d) :
    s.Agrees (mapPosExprs s.shift) (argsFrom (fuel + 1) depth) (argsFrom (fuel + 1) depth) c d := by
  unfold argsFrom
  apply Matches.bind (h.expr depth hcd)
  intro arg c₁ d₁ hcd₁
  apply Matches.bindTakes (follows_skipNewlines hcd₁)
  intro _ c₂ d₂ hcd₂
  apply Matches.bind (Agrees.eat hcd₂ (by simp) (by simp))
  intro taken c₃ d₃ hcd₃
  apply Matches.ite Iff.rfl
  · intro _
    apply Matches.bindTakes (follows_skipNewlines hcd₃)
    intro _ c₄ d₄ hcd₄
    exact Matches.map (h.argsFrom depth hcd₄) fun _ => rfl
  · intro _
    apply Matches.bind (Agrees.expect hcd₃ (by simp) (by simp) _)
    intro _ c₄ d₄ hcd₄
    exact Matches.pure hcd₄ rfl

/-- Leaves are single tokens, and the forms in brackets are followed to their closing brackets. -/
private theorem agrees_primary_step (hcd : s.Facing c d) :
    s.Agrees (Expr.mapPos s.shift) (primary (fuel + 1) depth) (primary (fuel + 1) depth) c d := by
  apply Matches.of_inside hcd
  intro hin
  -- most expressions of one token are that token moved
  have hleaf : ∀ e e' : Expr, e' = e.mapPos s.shift → s.Agrees (Expr.mapPos s.shift)
      (advance >>= fun _ => (pure e : Parser Expr)) (advance >>= fun _ => pure e') c d :=
    fun e e' he => Matches.advance (Matches.pure hin.advance he)
  rw [primary_eq]
  apply Matches.peek
  rw [hin.kind_eq]
  cases c.kind with
  | int n => exact hleaf _ _ rfl
  | float literal => exact hleaf _ _ rfl
  | str text => exact hleaf _ _ rfl
  | ident name =>
    apply Matches.position
    apply hleaf
    rw [hcd.pos]
    rfl
  | keyword k =>
    cases k with
    | trues => exact hleaf _ _ rfl
    | falses => exact hleaf _ _ rfl
    | nulls => exact hleaf _ _ rfl
    | _ => exact Matches.unexpected
  | symbol sym =>
    cases sym with
    | parenOpen =>
      apply Matches.advance
      apply Matches.bindTakes (follows_skipNewlines hin.advance)
      intro _ c₁ d₁ hcd₁
      apply Matches.bind (h.expr depth hcd₁)
      intro inner c₂ d₂ hcd₂
      apply Matches.bindTakes (follows_skipNewlines hcd₂)
      intro _ c₃ d₃ hcd₃
      apply Matches.bind (Agrees.expect hcd₃ (by simp) (by simp) _)
      intro _ c₄ d₄ hcd₄
      exact Matches.pure hcd₄ rfl
    | bracketOpen => exact h.collection depth hin
    | braceOpen => exact h.closure depth hcd
    | _ => exact Matches.unexpected
  | newline => exact Matches.unexpected
  | eof => exact Matches.unexpected

/-- An empty map, a map or a list: the tokens behind the bracket decide. -/
private theorem agrees_collection_step (hin : s.Inside c d) :
    s.Agrees (Expr.mapPos s.shift) (collection (fuel + 1) depth) (collection (fuel + 1) depth) c d := by
  unfold collection
  apply Matches.advance
  apply Matches.bindTakes (follows_skipNewlines hin.advance)
  intro _ c₁ d₁ hcd₁
  apply Matches.bind (Agrees.eat hcd₁ (by simp) (by simp))
  intro taken c₂ d₂ hcd₂
  apply Matches.ite Iff.rfl
  · intro _
    apply Matches.bind (Agrees.expect hcd₂ (by simp) (by simp) _)
    intro _ c₃ d₃ hcd₃
    exact Matches.pure hcd₃ rfl
  · intro _
    apply Matches.get
    apply Matches.ite
    · -- Whether a map or a list is read is decided two tokens ahead, which the seam does not change.
      rw [hcd₂.isMapKey_eq]
    · intro _
      exact Matches.map (h.entries depth hcd₂) fun _ => rfl
    · intro _
      exact Matches.map (h.items depth hcd₂) fun _ => rfl

/-- Items up to the closing bracket, with a comma allowed behind the last. -/
private theorem agrees_items_step (hcd : s.Facing c d) :
    s.Agrees (mapPosExprs s.shift) (items (fuel + 1) depth) (items (fuel + 1) depth) c d := by
  unfold items
  apply Matches.bindTakes (follows_skipNewlines hcd)
  intro _ c₁ d₁ hcd₁
  apply Matches.bind (Agrees.eat hcd₁ (by simp) (by simp))
  intro closed c₂ d₂ hcd₂
  apply Matches.ite Iff.rfl
  · intro _
    -- the bracket is closed, be it behind a comma
    exact Matches.pure hcd₂ rfl
  · intro _
    apply Matches.bind (h.expr depth hcd₂)
    intro item c₃ d₃ hcd₃
    apply Matches.bindTakes (follows_skipNewlines hcd₃)
    intro _ c₄ d₄ hcd₄
    apply Matches.bind (Agrees.eat hcd₄ (by simp) (by simp))
    intro taken c₅ d₅ hcd₅
    apply Matches.ite Iff.rfl
    · intro _
      exact Matches.map (h.items depth hcd₅) fun _ => rfl
    · intro _
      apply Matches.bind (Agrees.expect hcd₅ (by simp) (by simp) _)
      intro _ c₆ d₆ hcd₆
      exact Matches.pure hcd₆ rfl

/-- Entries are read as items are, each with a key and a colon in front. -/
private theorem agrees_entries_step (hcd : s.Facing c d) :
    s.Agrees (mapPosEntries s.shift) (entries (fuel + 1) depth) (entries (fuel + 1) depth) c d := by
  unfold entries
  apply Matches.bindTakes (follows_skipNewlines hcd)
  intro _ c₁ d₁ hcd₁
  apply Matches.bind (Agrees.eat hcd₁ (by simp) (by simp))
  intro closed c₂ d₂ hcd₂
  apply Matches.ite Iff.rfl
  · intro _
    -- the bracket is closed, be it behind a comma
    exact Matches.pure hcd₂ rfl
  · intro _
    apply Matches.bind (Agrees.expectKey hcd₂)
    intro key c₃ d₃ hcd₃
    apply Matches.bind (Agrees.expect hcd₃ (by simp) (by simp) _)
    intro _ c₄ d₄ hcd₄
    apply Matches.bindTakes (follows_skipNewlines hcd₄)
    intro _ c₅ d₅ hcd₅
    apply Matches.bind (h.expr depth hcd₅)
    intro value c₆ d₆ hcd₆
    apply Matches.bindTakes (follows_skipNewlines hcd₆)
    intro _ c₇ d₇ hcd₇
    apply Matches.bind (Agrees.eat hcd₇ (by simp) (by simp))
    intro taken c₈ d₈ hcd₈
    apply Matches.ite Iff.rfl
    · intro _
      exact Matches.map (h.entries depth hcd₈) fun _ => rfl
    · intro _
      apply Matches.bind (Agrees.expect hcd₈ (by simp) (by simp) _)
      intro _ c₉ d₉ hcd₉
      exact Matches.pure hcd₉ rfl

/-- The parameters are looked for as far as their arrow, and given back if there is none. -/
private theorem agrees_closure_step (hcd : s.Facing c d) :
    s.Agrees (Expr.mapPos s.shift) (closure (fuel + 1) depth) (closure (fuel + 1) depth) c d := by
  rw [closure_eq]
  apply Matches.bind (Agrees.expect hcd (by simp) (by simp) _)
  intro start c₁ d₁ hcd₁
  apply Matches.bind (Agrees.enter hcd₁ depth)
  intro depth' c₂ d₂ hcd₂
  apply Matches.bindTakes (follows_skipNewlines hcd₂)
  intro _ c₃ d₃ hcd₃
  apply Agrees.behindParams hcd₃
  intro names c₄ d₄ hcd₄
  exact Matches.map (h.braced depth' hcd₄) fun _ => rfl

end Step

/-- Without a bound to spend both sides fail. -/
private theorem allAgree_zero (s : Seam) : s.AllAgree 0 := by
  constructor
  all_goals
    intros
    exact Matches.failed_both rfl rfl

/-- Every procedure agrees on both sides of a seam, whatever the bound on its recursion is. -/
theorem allAgree (s : Seam) (fuel : Nat) : s.AllAgree fuel := by
  -- Each procedure agrees with itself on the other side if those that it calls do.
  induction fuel with
  | zero => exact allAgree_zero s
  | succ fuel ih =>
    exact {
      statements := fun depth stop _ _ => follows_statements_step ih depth stop
      braced := fun depth _ _ => agrees_braced_step ih depth
      block := fun depth _ _ => agrees_block_step ih depth
      statement := fun depth _ _ => agrees_statement_step ih depth
      declaration := fun depth _ _ => agrees_declaration_step ih depth
      condition := fun depth _ _ => agrees_condition_step ih depth
      conditional := fun depth _ _ => agrees_conditional_step ih depth
      forLoop := fun depth _ _ => agrees_forLoop_step ih depth
      commandCall := fun depth _ _ => agrees_commandCall_step ih depth
      commandArgs := fun depth _ _ => agrees_commandArgs_step ih depth
      simple := fun depth _ _ => agrees_simple_step ih depth
      expr := fun depth _ _ => agrees_expr_step ih depth
      binary := fun depth level _ _ => agrees_binary_step ih depth level
      binaryFrom := fun depth level left _ _ => agrees_binaryFrom_step ih depth level left
      operand := fun depth level _ _ => agrees_operand_step ih depth level
      unary := fun depth _ _ => agrees_unary_step ih depth
      chain := fun depth _ _ => agrees_chain_step ih depth
      chainFrom := fun depth object _ _ => agrees_chainFrom_step ih depth object
      callArgs := fun depth _ _ => agrees_callArgs_step ih depth
      argsFrom := fun depth _ _ => agrees_argsFrom_step ih depth
      primary := fun depth _ _ => agrees_primary_step ih depth
      collection := fun depth _ _ => agrees_collection_step ih depth
      items := fun depth _ _ => agrees_items_step ih depth
      entries := fun depth _ _ => agrees_entries_step ih depth
      closure := fun depth _ _ => agrees_closure_step ih depth }

end Seam

end RowConsole.Script.Grammar
