import RowConsole.Proofs.Script.Grammar.Breaks.Tracking

/-!
# Every Procedure Reads past a Line Break

With a line feed between two tokens where it may stand, every procedure of the grammar reads the same tree. Where lines
are not joined, on the way through statements, the line feed is never met. Operands start behind it and end before it.

Main statement: `allTrack`, by induction on the bound on the recursion.
-/

namespace RowConsole.Script.Grammar

variable {α β : Type}

/-- No operand starts with a token that may have a line feed before it. -/
theorem startsOperand_of_breaksBefore {kind : TokenKind} (h : breaksBefore kind = true) :
    startsOperand kind = false := by
  rcases breaksBefore_cases h with rfl | rfl | rfl | rfl | rfl <;> rfl

namespace Gap

variable {gap : Gap} {past : Past} {c d : Cursor}

/-! ## Section 1: Parameters -/

/-- Parameters stand in parentheses, where a line feed more does not matter. -/
private theorem tracks_paramsFrom {fuel : Nat} {outer : List Bool} (names : List String) (hal : gap.Aligned past c d)
    (hopened : opened past = false :: outer) :
    gap.Tracks past c d id (paramsFrom fuel names) (paramsFrom fuel names) (opened · = outer) := by
  induction fuel generalizing names past c d with
  | zero => exact Tracks.failed rfl
  | succ fuel ih =>
    -- inside of these parentheses lines are not joined, so the line feed is not met
    have hnot := not_enclosed_of_opened hopened
    unfold paramsFrom
    dsimp only
    apply Tracks.bind (Tracks.eatLoose hal (by simp) (by simp) rfl)
    intro _ past₁ c₁ d₁ hcd₁ hopened₁
    have hloose₁ := hcd₁.loose hopened₁ hnot
    apply Tracks.bind (Tracks.expectIdent fun _ _ => hloose₁.aligned)
    rintro name _ c₂ d₂ hcd₂ ⟨name', rfl⟩
    apply Tracks.ite Iff.rfl
    · intro _
      exact Tracks.failed rfl
    · intro _
      apply Tracks.skipLoose (hcd₂.loose (opened_plain rfl) hloose₁.notEnclosed)
      intro past₃ c₃ d₃ hloose₃ hopened₃
      have hopened₃ : opened past₃ = false :: outer :=
        (hopened₃.trans (opened_plain rfl)).trans (hopened₁.trans hopened)
      apply Tracks.eat hloose₃.aligned (by simp) (by simp)
      · intro hcd₄
        apply Tracks.skipLoose (hcd₄.loose (opened_plain rfl) hloose₃.notEnclosed)
        intro past₅ c₅ d₅ hloose₅ hopened₅
        exact ih _ hloose₅.aligned ((hopened₅.trans (opened_plain rfl)).trans hopened₃)
      · intro _
        exact Tracks.map (Tracks.expectClose hloose₃.aligned (Or.inl rfl) hopened₃) (fun _ => rfl) fun _ hends => hends.1

/-- The parameters of a named function, behind its keyword and its name. -/
theorem tracks_params {fuel : Nat} (hal : gap.Aligned past c d) (hjoins : joins past .paren = false) :
    gap.Tracks past c d id (params fuel) (params fuel) (opened · = opened past) := by
  unfold params
  apply Tracks.bind (Tracks.expect (fun _ => hal) (by simp) (by simp))
  rintro _ _ c₁ d₁ hcd₁ rfl
  have hopened₁ : opened (.symbol .parenOpen :: past) = false :: opened past := by
    rw [opened_opens (b := .paren) rfl, hjoins]
  apply Tracks.skipLoose (hcd₁.loose rfl (not_enclosed_of_opened hopened₁))
  intro past₂ c₂ d₂ hloose₂ hopened₂
  apply Tracks.eat hloose₂.aligned (by simp) (by simp)
  · intro hcd₃
    exact Tracks.pure hcd₃ rfl (endsIn_closes (hopened₂.trans hopened₁) .paren).1
  · intro _
    exact tracks_paramsFrom [] hloose₂.aligned (hopened₂.trans hopened₁)

/-! ## Section 2: All Procedures -/

variable (gap) in
/-- A reader that starts where lines are not joined and leaves no bracket open. -/
def Passes (g : α → α) (p : Parser α) : Prop :=
  ∀ {past c d}, gap.Loose past c d → gap.Tracks past c d g p p (opened · = opened past)

variable (gap) in
/-- A reader that ends an operand and leaves no bracket open. -/
def Operates (g : α → α) (p : Parser α) : Prop :=
  ∀ {past c d}, gap.Aligned past c d → Ready past → gap.Tracks past c d g p p (EndsIn (opened past))

variable (gap) in
/-- A reader that continues an operand. -/
def Continues (g : α → β) (p : Parser α) (q : Parser β) : Prop :=
  ∀ {past c d outer}, gap.Faces past c d → EndsIn outer past → gap.Tracks past c d g p q (EndsIn outer)

/-- What every procedure does past a line break, with a bound on its recursion. -/
structure AllTrack (gap : Gap) (fuel : Nat) : Prop where
  statements : ∀ depth stop, gap.Passes (mapPosStmts gap.shift) (statements fuel depth stop)
  braced : ∀ depth {past c d outer}, gap.Aligned past c d → opened past = false :: outer →
    gap.Tracks past c d (mapPosStmts gap.shift) (braced fuel depth) (braced fuel depth) (EndsIn outer)
  block : ∀ depth, gap.Passes (mapPosStmts gap.shift) (block fuel depth)
  statement : ∀ depth, gap.Passes (Stmt.mapPos gap.shift) (statement fuel depth)
  declaration : ∀ depth {past c d}, c.kind = .keyword .defines ∨ c.kind = .keyword .varies → gap.Loose past c d →
    gap.Tracks past c d (Stmt.mapPos gap.shift) (declaration fuel depth) (declaration fuel depth)
      (opened · = opened past)
  condition : ∀ depth, gap.Passes (Expr.mapPos gap.shift) (condition fuel depth)
  conditional : ∀ depth {past c d}, c.kind = .keyword .ifs → gap.Loose past c d →
    gap.Tracks past c d (Stmt.mapPos gap.shift) (conditional fuel depth) (conditional fuel depth)
      (opened · = opened past)
  forLoop : ∀ depth {past c d}, c.kind = .keyword .fors → gap.Loose past c d →
    gap.Tracks past c d (Stmt.mapPos gap.shift) (forLoop fuel depth) (forLoop fuel depth) (opened · = opened past)
  commandCall : ∀ depth, gap.Passes (Stmt.mapPos gap.shift) (commandCall fuel depth)
  commandArgs : ∀ depth, gap.Passes (mapPosExprs gap.shift) (commandArgs fuel depth)
  simple : ∀ depth, gap.Passes (Stmt.mapPos gap.shift) (simple fuel depth)
  expr : ∀ depth, gap.Operates (Expr.mapPos gap.shift) (expr fuel depth)
  binary : ∀ depth level, gap.Operates (Expr.mapPos gap.shift) (binary fuel depth level)
  binaryFrom : ∀ depth level left, gap.Continues (Expr.mapPos gap.shift) (binaryFrom fuel depth level left)
    (binaryFrom fuel depth level (left.mapPos gap.shift))
  operand : ∀ depth level, gap.Operates (Expr.mapPos gap.shift) (operand fuel depth level)
  unary : ∀ depth, gap.Operates (Expr.mapPos gap.shift) (unary fuel depth)
  chain : ∀ depth, gap.Operates (Expr.mapPos gap.shift) (chain fuel depth)
  chainFrom : ∀ depth object, gap.Continues (Expr.mapPos gap.shift) (chainFrom fuel depth object)
    (chainFrom fuel depth (object.mapPos gap.shift))
  callArgs : ∀ depth {past c d}, gap.Aligned past c d →
    gap.Tracks past c d (mapPosExprs gap.shift) (callArgs fuel depth) (callArgs fuel depth) (EndsIn (opened past))
  argsFrom : ∀ depth {past c d b outer}, gap.Aligned past c d → Ready past → opened past = b :: outer →
    gap.Tracks past c d (mapPosExprs gap.shift) (argsFrom fuel depth) (argsFrom fuel depth) (EndsIn outer)
  primary : ∀ depth, gap.Operates (Expr.mapPos gap.shift) (primary fuel depth)
  collection : ∀ depth {past c d}, c.kind = .symbol .bracketOpen → gap.Aligned past c d →
    gap.Tracks past c d (Expr.mapPos gap.shift) (collection fuel depth) (collection fuel depth) (EndsIn (opened past))
  items : ∀ depth {past c d b outer}, gap.Faces past c d → Free past → opened past = b :: outer →
    gap.Tracks past c d (mapPosExprs gap.shift) (items fuel depth) (items fuel depth) (EndsIn outer)
  entries : ∀ depth {past c d b outer}, gap.Faces past c d → Free past → opened past = b :: outer →
    gap.Tracks past c d (mapPosEntries gap.shift) (entries fuel depth) (entries fuel depth) (EndsIn outer)
  closure : ∀ depth {past c d}, gap.Aligned past c d →
    gap.Tracks past c d (Expr.mapPos gap.shift) (closure fuel depth) (closure fuel depth) (EndsIn (opened past))

section Step

variable {fuel : Nat} (h : AllTrack gap fuel) (depth : Nat)

include h

/-- Statements are read up to the same end. -/
private theorem tracks_statements_step (stop : TokenKind) :
    gap.Passes (mapPosStmts gap.shift) (statements (fuel + 1) depth stop) := by
  intro past c d hloose
  have hbeyond := (Faces.aligned hloose.aligned).skip isSeparator rfl
  -- the separators that are skipped are plain tokens and open nothing
  obtain ⟨past₁, hloose₁, hpassage, hopened₁⟩ :=
    hbeyond.exists_passage (fun _ => role_of_isSeparator) hloose.notEnclosed
  refine Tracks.moved (statements_apply fuel depth stop c) (statements_apply fuel depth stop d) hpassage ?_
  apply Tracks.peek
  rw [hloose₁.aligned.kind_eq]
  apply Tracks.ite Iff.rfl
  · intro _
    exact Tracks.pure (.aligned hloose₁.aligned) rfl hopened₁
  · intro _
    apply Tracks.bind (h.statement depth hloose₁)
    intro stmt past₂ c₂ d₂ hcd₂ hopened₂
    have hloose₂ := hcd₂.loose hopened₂ hloose₁.notEnclosed
    apply Tracks.peek
    rw [hloose₂.aligned.kind_eq]
    apply Tracks.ite Iff.rfl
    · intro _
      exact Tracks.map (h.statements depth stop hloose₂) (fun _ => rfl) fun _ hopened =>
        hopened.trans (hopened₂.trans hopened₁)
    · intro _
      exact Tracks.failed rfl

/-- Statements in braces end with the brace that closes them. -/
private theorem tracks_braced_step {outer : List Bool} (hal : gap.Aligned past c d)
    (hopened : opened past = false :: outer) :
    gap.Tracks past c d (mapPosStmts gap.shift) (braced (fuel + 1) depth) (braced (fuel + 1) depth)
      (EndsIn outer) := by
  unfold braced
  have hnot := not_enclosed_of_opened hopened
  apply Tracks.bind (h.statements depth _ ⟨hal, hnot⟩)
  intro body past₁ c₁ d₁ hcd₁ hopened₁
  apply Tracks.bind (Tracks.expect (fun _ => (hcd₁.loose hopened₁ hnot).aligned) (by simp) (by simp))
  rintro _ _ c₂ d₂ hcd₂ rfl
  exact Tracks.pure hcd₂ rfl (endsIn_closes (hopened₁.trans hopened) .brace)

/-- A block is read with one more brace open. -/
private theorem tracks_block_step : gap.Passes (mapPosStmts gap.shift) (block (fuel + 1) depth) := by
  intro past c d hloose
  unfold block
  apply Tracks.enter
  apply Tracks.skipLoose hloose
  intro past₁ c₁ d₁ hloose₁ hopened₁
  apply Tracks.eat hloose₁.aligned (by simp) (by simp)
  · intro hcd₂
    have hopened₂ : opened (.symbol .braceOpen :: past₁) = false :: opened past := congrArg (false :: ·) hopened₁
    have hal₂ := hcd₂.aligned_of_loose (not_enclosed_of_opened hopened₂)
    exact (h.braced (depth + 1) hal₂ hopened₂).mono fun _ hends => hends.1
  · intro _
    exact Tracks.map (h.statement (depth + 1) hloose₁) (fun _ => rfl) fun _ hopened => hopened.trans hopened₁

/-- Which statement it is follows from its first token, which is the same on both sides. -/
private theorem tracks_statement_step : gap.Passes (Stmt.mapPos gap.shift) (statement (fuel + 1) depth) := by
  intro past c d hloose
  unfold statement
  apply Tracks.peek
  rw [hloose.aligned.kind_eq]
  split
  · next hkind => exact h.declaration depth (Or.inl hkind) hloose
  · next hkind => exact h.declaration depth (Or.inr hkind) hloose
  · next hkind => exact h.conditional depth hkind hloose
  · next hkind =>
    apply Tracks.advance hloose.aligned hkind (by simp) (by simp)
    intro hcd₁
    apply Tracks.bind (h.condition depth (hcd₁.loose (opened_plain rfl) hloose.notEnclosed))
    intro cond past₂ c₂ d₂ hcd₂ hopened₂
    have hopened₂ := hopened₂.trans (opened_plain rfl)
    exact Tracks.map (h.block depth (hcd₂.loose hopened₂ hloose.notEnclosed)) (fun _ => rfl) fun _ hopened =>
      hopened.trans hopened₂
  · next hkind => exact h.forLoop depth hkind hloose
  · next hkind =>
    apply Tracks.advance hloose.aligned hkind (by simp) (by simp)
    intro hcd₁
    have hloose₁ := hcd₁.loose (opened_plain rfl) hloose.notEnclosed
    apply Tracks.peek
    rw [hloose₁.aligned.kind_eq]
    apply Tracks.ite Iff.rfl
    · intro _
      exact Tracks.pure hcd₁ rfl (opened_plain rfl)
    · intro _
      -- the value of a `return`
      have hvalue := h.expr depth hloose₁.aligned (ready_of_loose hloose₁.notEnclosed)
      exact Tracks.map hvalue (fun _ => rfl) fun _ hends => hends.1.trans (opened_plain rfl)
  · next hkind =>
    apply Tracks.advance hloose.aligned hkind (by simp) (by simp)
    intro hcd₁
    exact Tracks.pure hcd₁ rfl (opened_plain rfl)
  · next hkind =>
    apply Tracks.advance hloose.aligned hkind (by simp) (by simp)
    intro hcd₁
    exact Tracks.pure hcd₁ rfl (opened_plain rfl)
  · apply Tracks.get
    apply Tracks.ite
    · rw [hloose.isCommandCall_eq]
    · intro _
      exact h.commandCall depth hloose
    · intro _
      exact h.simple depth hloose

/-- Declarations have a name, and functions have parameters and a body behind it. -/
private theorem tracks_declaration_step (hkind : c.kind = .keyword .defines ∨ c.kind = .keyword .varies)
    (hloose : gap.Loose past c d) :
    gap.Tracks past c d (Stmt.mapPos gap.shift) (declaration (fuel + 1) depth) (declaration (fuel + 1) depth)
      (opened · = opened past) := by
  have hplain : c.kind.role = .plain := by rcases hkind with hkind | hkind <;> rw [hkind] <;> rfl
  unfold declaration
  apply Tracks.advance hloose.aligned rfl (by rcases hkind with hkind | hkind <;> simp [hkind])
    (by rcases hkind with hkind | hkind <;> simp [hkind])
  intro hcd₁
  have hpos := hloose.aligned.pos_eq
  have hloose₁ := hcd₁.loose (opened_plain hplain) hloose.notEnclosed
  apply Tracks.bind (Tracks.expectIdent fun _ _ => hloose₁.aligned)
  rintro name _ c₂ d₂ hcd₂ ⟨name', rfl⟩
  have hopened₂ : opened (.ident name' :: c.kind :: past) = opened past := (opened_plain rfl).trans (opened_plain hplain)
  have hloose₂ := hcd₂.loose hopened₂ hloose.notEnclosed
  apply Tracks.peek
  rw [hloose₂.aligned.kind_eq]
  apply Tracks.ite Iff.rfl
  · intro _
    -- a named function: the parentheses of its parameters join no lines
    have hjoins : joins (.ident name' :: c.kind :: past) .paren = false := by
      rcases hkind with hkind | hkind <;> rw [hkind] <;> rfl
    apply Tracks.bind (tracks_params hloose₂.aligned hjoins)
    intro ps past₃ c₃ d₃ hcd₃ hopened₃
    apply Tracks.skipLoose (hcd₃.loose hopened₃ hloose₂.notEnclosed)
    intro past₄ c₄ d₄ hloose₄ hopened₄
    apply Tracks.bind (Tracks.expect (fun _ => hloose₄.aligned) (by simp) (by simp))
    rintro _ _ c₅ d₅ hcd₅ rfl
    have hopened₅ : opened (.symbol .braceOpen :: past₄) = false :: opened past :=
      congrArg (false :: ·) (hopened₄.trans (hopened₃.trans hopened₂))
    have hal₅ := hcd₅.aligned_of_loose (not_enclosed_of_opened hopened₅)
    refine Tracks.map (h.braced depth hal₅ hopened₅) (fun body => ?_) fun _ hends => hends.1
    rw [hpos]
    rfl
  · intro _
    -- a variable, with or without a value
    apply Tracks.eat hloose₂.aligned (by simp) (by simp)
    · intro hcd₃
      apply Tracks.skipLoose (hcd₃.loose (opened_plain rfl) hloose₂.notEnclosed)
      intro past₄ c₄ d₄ hloose₄ hopened₄
      have hvalue := h.expr depth hloose₄.aligned (ready_of_loose hloose₄.notEnclosed)
      refine Tracks.map hvalue (fun e => ?_) fun _ hends =>
        hends.1.trans (hopened₄.trans ((opened_plain rfl).trans hopened₂))
      rw [hpos]
      rfl
    · intro _
      apply Tracks.pure hcd₂ _ hopened₂
      rw [hpos]
      rfl

/-- A condition in parentheses, which may be any that join lines or not. -/
theorem tracks_condition_step : gap.Passes (Expr.mapPos gap.shift) (condition (fuel + 1) depth) := by
  intro past c d hloose
  unfold condition
  apply Tracks.bind (Tracks.expect (fun _ => hloose.aligned) (by simp) (by simp))
  rintro _ _ c₁ d₁ hcd₁ rfl
  apply Tracks.skipFree hcd₁ (free_of_breaksBehind rfl (by simp))
  intro past₂ c₂ d₂ hal₂ hopened₂ hfree₂
  apply Tracks.bind (h.expr depth hal₂ hfree₂.ready)
  intro cond past₃ c₃ d₃ hcd₃ hends₃
  apply Tracks.closing hcd₃ (Or.inl rfl) ⟨hends₃.1.trans (hopened₂.trans (opened_opens rfl)), hends₃.2⟩
  intro past₄ c₄ d₄ hcd₄ hends₄
  exact Tracks.pure hcd₄ rfl hends₄.1

/-- The branches of a condition are blocks, or conditions again behind `else`. -/
private theorem tracks_conditional_step (hkind : c.kind = .keyword .ifs) (hloose : gap.Loose past c d) :
    gap.Tracks past c d (Stmt.mapPos gap.shift) (conditional (fuel + 1) depth) (conditional (fuel + 1) depth)
      (opened · = opened past) := by
  unfold conditional
  apply Tracks.advance hloose.aligned hkind (by simp) (by simp)
  intro hcd₁
  apply Tracks.bind (h.condition depth (hcd₁.loose (opened_plain rfl) hloose.notEnclosed))
  intro cond past₂ c₂ d₂ hcd₂ hopened₂
  have hopened₂ := hopened₂.trans (opened_plain rfl)
  apply Tracks.bind (h.block depth (hcd₂.loose hopened₂ hloose.notEnclosed))
  intro thenBody past₃ c₃ d₃ hcd₃ hopened₃
  have hopened₃ := hopened₃.trans hopened₂
  -- the alternative may stand behind line feeds, and if there is none, they have not been taken
  apply Tracks.lookElse (hcd₃.loose hopened₃ hloose.notEnclosed)
  · intro past₄ c₄ d₄ hloose₄ hopened₄
    have hopened₄ := hopened₄.trans hopened₃
    apply Tracks.peek
    rw [hloose₄.aligned.kind_eq]
    apply Tracks.ite Iff.rfl
    · intro hif
      exact Tracks.map (h.conditional depth hif hloose₄) (fun _ => rfl) fun _ hopened => hopened.trans hopened₄
    · intro _
      exact Tracks.map (h.block depth hloose₄) (fun _ => rfl) fun _ hopened => hopened.trans hopened₄
  · exact Tracks.pure hcd₃ rfl hopened₃

/-- The head of a loop gives line feeds no place but within its expression. -/
private theorem tracks_forLoop_step (hkind : c.kind = .keyword .fors) (hloose : gap.Loose past c d) :
    gap.Tracks past c d (Stmt.mapPos gap.shift) (forLoop (fuel + 1) depth) (forLoop (fuel + 1) depth)
      (opened · = opened past) := by
  unfold forLoop
  apply Tracks.advance hloose.aligned hkind (by simp) (by simp)
  intro hcd₁
  have hpos := hloose.aligned.pos_eq
  have hloose₁ := hcd₁.loose (opened_plain rfl) hloose.notEnclosed
  apply Tracks.bind (Tracks.expect (fun _ => hloose₁.aligned) (by simp) (by simp))
  rintro _ _ c₂ d₂ hcd₂ rfl
  -- inside of these parentheses lines are not joined
  have hopened₂ : opened (.symbol .parenOpen :: .keyword .fors :: past) = false :: opened past := rfl
  have hnot₂ := not_enclosed_of_opened hopened₂
  apply Tracks.bind (Tracks.skipDeclarator (hcd₂.loose rfl hnot₂))
  intro _ past₃ c₃ d₃ hcd₃ hopened₃
  apply Tracks.bind (Tracks.expectIdent fun _ _ => (hcd₃.loose hopened₃ hnot₂).aligned)
  rintro var _ c₄ d₄ hcd₄ ⟨name, rfl⟩
  have hopened₄ : opened (.ident name :: past₃) = opened (.symbol .parenOpen :: .keyword .fors :: past) :=
    (opened_plain rfl).trans hopened₃
  apply Tracks.bind (Tracks.expect (fun _ => (hcd₄.loose hopened₄ hnot₂).aligned) (by simp) (by simp))
  rintro _ _ c₅ d₅ hcd₅ rfl
  have hopened₅ := (opened_plain rfl : opened (.keyword .ins :: .ident name :: past₃) = _).trans hopened₄
  have hloose₅ := hcd₅.loose hopened₅ hnot₂
  apply Tracks.bind (h.expr depth hloose₅.aligned (ready_of_loose hloose₅.notEnclosed))
  intro items past₆ c₆ d₆ hcd₆ hends₆
  have hopened₆ := hends₆.1.trans hopened₅
  apply Tracks.bind (Tracks.expect (fun _ => (hcd₆.loose hopened₆ hnot₂).aligned) (by simp) (by simp))
  rintro _ _ c₇ d₇ hcd₇ rfl
  have hopened₇ := (endsIn_closes (hopened₆.trans hopened₂) .paren).1
  refine Tracks.map (h.block depth (hcd₇.loose hopened₇ hloose.notEnclosed)) (fun body => ?_) fun _ hopened =>
    hopened.trans hopened₇
  rw [hpos]
  rfl

/-- A call without parentheses is recognized by the tokens on its line. -/
private theorem tracks_commandCall_step : gap.Passes (Stmt.mapPos gap.shift) (commandCall (fuel + 1) depth) := by
  intro past c d hloose
  unfold commandCall
  apply Tracks.position
  rw [hloose.aligned.pos_eq]
  apply Tracks.bind (Tracks.expectIdent fun _ _ => hloose.aligned)
  rintro name _ c₁ d₁ hcd₁ ⟨name', rfl⟩
  exact Tracks.map (h.commandArgs depth (hcd₁.loose (opened_plain rfl) hloose.notEnclosed)) (fun _ => rfl)
    fun _ hopened => hopened.trans (opened_plain rfl)

/-- The arguments of a call without parentheses are separated by commas. -/
private theorem tracks_commandArgs_step : gap.Passes (mapPosExprs gap.shift) (commandArgs (fuel + 1) depth) := by
  intro past c d hloose
  unfold commandArgs
  apply Tracks.bind (h.expr depth hloose.aligned (ready_of_loose hloose.notEnclosed))
  intro arg past₁ c₁ d₁ hcd₁ hends₁
  have hloose₁ := hcd₁.loose hends₁.1 hloose.notEnclosed
  apply Tracks.eat hloose₁.aligned (by simp) (by simp)
  · intro hcd₂
    apply Tracks.skipLoose (hcd₂.loose (opened_plain rfl) hloose₁.notEnclosed)
    intro past₃ c₃ d₃ hloose₃ hopened₃
    exact Tracks.map (h.commandArgs depth hloose₃) (fun _ => rfl) fun _ hopened =>
      hopened.trans (hopened₃.trans ((opened_plain rfl).trans hends₁.1))
  · intro _
    exact Tracks.pure hcd₁ rfl hends₁.1

/-- All other statements are expressions or assignments. -/
private theorem tracks_simple_step : gap.Passes (Stmt.mapPos gap.shift) (simple (fuel + 1) depth) := by
  intro past c d hloose
  unfold simple
  apply Tracks.position
  rw [hloose.aligned.pos_eq]
  apply Tracks.bind (h.expr depth hloose.aligned (ready_of_loose hloose.notEnclosed))
  intro target past₁ c₁ d₁ hcd₁ hends₁
  have hloose₁ := hcd₁.loose hends₁.1 hloose.notEnclosed
  apply Tracks.peek
  rw [hloose₁.aligned.kind_eq]
  split
  · -- an expression alone
    exact Tracks.pure hcd₁ rfl hends₁.1
  · next op hop =>
    apply Tracks.ite
    · rw [Expr.isTarget_mapPos]
    · intro _
      have hplain := role_of_assignOp hop
      apply Tracks.advance hloose₁.aligned rfl (fun heof => by rw [heof] at hop; contradiction)
        (fun hnewline => by rw [hnewline] at hop; contradiction)
      intro hcd₂
      apply Tracks.skipLoose (hcd₂.loose (opened_plain hplain) hloose₁.notEnclosed)
      intro past₃ c₃ d₃ hloose₃ hopened₃
      have hvalue := h.expr depth hloose₃.aligned (ready_of_loose hloose₃.notEnclosed)
      exact Tracks.map hvalue (fun _ => rfl) fun _ hends =>
        hends.1.trans (hopened₃.trans ((opened_plain hplain).trans hends₁.1))
    · intro _
      exact Tracks.failed rfl

/-- An expression is one of the loosest level. -/
private theorem tracks_expr_step : gap.Operates (Expr.mapPos gap.shift) (expr (fuel + 1) depth) := by
  intro past c d hal hready
  unfold expr
  apply Tracks.enter
  exact h.binary (depth + 1) .or hal hready

/-- A level begins with an operand and goes on by its operators. -/
private theorem tracks_binary_step (level : Level) :
    gap.Operates (Expr.mapPos gap.shift) (binary (fuel + 1) depth level) := by
  intro past c d hal hready
  unfold binary
  apply Tracks.bind (h.operand depth level hal hready)
  intro left past₁ c₁ d₁ hcd₁ hends₁
  exact h.binaryFrom depth level left hcd₁ hends₁

/-- Behind an operand a line feed may stand only before a token that is no operator. -/
theorem tracks_binaryFrom_step (level : Level) (left : Expr) :
    gap.Continues (Expr.mapPos gap.shift) (binaryFrom (fuel + 1) depth level left)
      (binaryFrom (fuel + 1) depth level (left.mapPos gap.shift)) := by
  intro past c d outer hcd hends
  unfold binaryFrom
  apply Tracks.peek
  apply Tracks.position
  rcases hcd.cases_kind with hal | ⟨hd, _, hbreakable⟩
  · rw [hal.kind_eq, hal.pos_eq]
    rcases level.join?_mapPos gap.shift c.kind c.token.pos with ⟨hc, hd⟩ | ⟨join, join', hc, hd, hjoin⟩
    · rw [hc, hd]
      exact Tracks.pure hcd rfl hends
    · rw [hc, hd]
      have hplain := role_of_join hc
      have hfree : Free (c.kind :: past) := free_of_breaksBehind (breaksBehind_of_join hc hends.2) fun hcolon => by
        rw [Option.some.inj hcolon] at hc
        cases level <;> contradiction
      apply Tracks.advance hal rfl (fun heof => by rw [heof] at hc; cases level <;> contradiction)
        (fun hnewline => by rw [hnewline] at hc; cases level <;> contradiction)
      intro hcd₁
      apply Tracks.skipFree hcd₁ hfree
      intro past₂ c₂ d₂ hal₂ hopened₂ hfree₂
      apply Tracks.bind (h.operand depth level hal₂ hfree₂.ready)
      intro right past₃ c₃ d₃ hcd₃ hends₃
      rw [hjoin]
      exact h.binaryFrom depth level _ hcd₃
        ⟨hends₃.1.trans (hopened₂.trans ((opened_plain hplain).trans hends.1)), hends₃.2⟩
  · -- neither the line feed nor what stands behind it is an operator
    have hnone : ∀ {kind : TokenKind} {p : Pos}, breaksBefore kind = true → level.join? kind p = none := by
      intro kind p hkind
      rcases breaksBefore_cases hkind with rfl | rfl | rfl | rfl | rfl <;> cases level <;> rfl
    rw [breakable_of_endsOperand hends.2] at hbreakable
    rw [hnone hbreakable, hnone (by rw [hd]; rfl)]
    exact Tracks.pure hcd rfl hends

/-- An operand of a level is one of the next tighter level. -/
private theorem tracks_operand_step (level : Level) :
    gap.Operates (Expr.mapPos gap.shift) (operand (fuel + 1) depth level) := by
  intro past c d hal hready
  unfold operand
  split
  · exact h.binary depth _ hal hready
  · exact h.unary depth hal hready

/-- Behind a unary operator no line feed may stand before an operand. -/
theorem tracks_unary_step : gap.Operates (Expr.mapPos gap.shift) (unary (fuel + 1) depth) := by
  intro past c d hal hready
  unfold unary
  apply Tracks.peek
  rw [hal.kind_eq]
  split
  · exact h.chain depth hal hready
  · next op hop =>
    have hplain := role_of_unaryOp hop
    apply Tracks.advance hal rfl (fun heof => by rw [heof] at hop; contradiction)
      (fun hnewline => by rw [hnewline] at hop; contradiction)
    intro hcd₁
    dsimp only
    rw [hal.pos_eq]
    apply Tracks.enter
    have hready₁ : Ready (c.kind :: past) := fun _ => by
      unfold unaryOp? at hop
      split at hop <;> first | contradiction | simp_all [endsOperand]
    -- where a line feed may stand behind the operator, it stands before a token that starts no operand
    have hbefore : Enclosed (c.kind :: past) → ∀ next, breakable (c.kind :: past) next = true →
        breaksBefore next = true := by
      intro henclosed next hnext
      have hoperand := hready ((enclosed_plain hplain).mp henclosed)
      unfold unaryOp? at hop
      split at hop <;> simp_all [breakable, breaksBehind, joinsOperands]
    refine Tracks.settle hcd₁ (fun henclosed hbreakable => ?_) fun hal₁ => ?_
    · exact (unary_refuses (startsOperand_of_breaksBefore (hbefore henclosed _ hbreakable)) fuel (depth + 1)).bind _
    · refine Tracks.map (h.unary (depth + 1) hal₁ hready₁) (fun _ => rfl) fun _ hends => ?_
      rwa [opened_plain hplain] at hends

/-- A chain begins with a primary expression. -/
private theorem tracks_chain_step : gap.Operates (Expr.mapPos gap.shift) (chain (fuel + 1) depth) := by
  intro past c d hal hready
  unfold chain
  apply Tracks.bind (h.primary depth hal hready)
  intro head past₁ c₁ d₁ hcd₁ hends₁
  exact h.chainFrom depth head hcd₁ hends₁

/-- Behind an operand line feeds may stand before the point that continues it, and before what ends it. -/
theorem tracks_chainFrom_step (object : Expr) :
    gap.Continues (Expr.mapPos gap.shift) (chainFrom (fuel + 1) depth object)
      (chainFrom (fuel + 1) depth (object.mapPos gap.shift)) := by
  intro past c d outer hcd hends
  unfold chainFrom
  apply Tracks.skipToChain hcd hends.2
  · intro past₁ c₁ d₁ hal₁ hopened₁ hend₁
    have hopened₁ := hopened₁.trans hends.1
    apply Tracks.peek
    rw [hal₁.kind_eq]
    split
    · next hkind =>
      apply Tracks.advance hal₁ hkind (by simp) (by simp)
      intro hcd₂
      dsimp only
      rw [hal₁.pos_eq]
      apply Tracks.bind (Tracks.expectIdent fun name hname => hcd₂.aligned_of_not_breakable (by rw [hname]; rfl))
      rintro name _ c₃ d₃ hcd₃ ⟨name', rfl⟩
      have hends₃ : EndsIn outer (.ident name' :: .symbol .dot :: past₁) := ⟨hopened₁, rfl⟩
      apply Tracks.peek
      apply Tracks.ite (hcd₃.kind_eq_iff (by simp) rfl)
      · intro hparen
        apply Tracks.bind (h.callArgs depth (hcd₃.aligned_of_not_breakable (by rw [hparen]; rfl)))
        intro args past₄ c₄ d₄ hcd₄ hends₄
        exact h.chainFrom depth _ hcd₄ ⟨hends₄.1.trans hends₃.1, hends₄.2⟩
      · intro _
        apply Tracks.ite (hcd₃.kind_eq_iff (by simp) rfl)
        · intro hbrace
          apply Tracks.bind (h.closure depth (hcd₃.aligned_of_not_breakable (by rw [hbrace]; rfl)))
          intro body past₄ c₄ d₄ hcd₄ hends₄
          exact h.chainFrom depth _ hcd₄ ⟨hends₄.1.trans hends₃.1, hends₄.2⟩
        · intro _
          exact h.chainFrom depth _ hcd₃ hends₃
    · next hkind =>
      apply Tracks.advance hal₁ hkind (by simp) (by simp)
      intro hcd₂
      dsimp only
      rw [hal₁.pos_eq]
      apply Tracks.skipFree hcd₂ (free_of_breaksBehind rfl (by simp))
      intro past₃ c₃ d₃ hal₃ hopened₃ hfree₃
      apply Tracks.bind (h.expr depth hal₃ hfree₃.ready)
      intro index past₄ c₄ d₄ hcd₄ hends₄
      have hopened₄ : opened past₄ = true :: outer :=
        hends₄.1.trans (hopened₃.trans (congrArg (true :: ·) hopened₁))
      apply Tracks.closing hcd₄ (Or.inr rfl) ⟨hopened₄, hends₄.2⟩
      intro past₅ c₅ d₅ hcd₅ hends₅
      exact h.chainFrom depth _ hcd₅ hends₅
    · apply Tracks.position
      rw [hal₁.pos_eq]
      apply Tracks.bind (h.callArgs depth hal₁)
      intro args past₂ c₂ d₂ hcd₂ hends₂
      exact h.chainFrom depth _ hcd₂ ⟨hends₂.1.trans hopened₁, hends₂.2⟩
    · next hdot _ _ => exact Tracks.pure (.aligned hal₁) rfl ⟨hopened₁, hend₁ hdot⟩
  · intro hbefore hdot hd
    -- the chain ends before the line feed, and also where it does not stand
    apply Tracks.peek
    rw [hd]
    rcases breaksBefore_cases hbefore with hc | hc | hc | hc | hc
    case inr.inr.inr.inr => exact absurd hc hdot
    all_goals
      rw [hc]
      exact Tracks.pure hcd rfl hends

/-- Arguments and what follows them begin in the line in which the callee ends. -/
theorem tracks_callArgs_step (hal : gap.Aligned past c d) :
    gap.Tracks past c d (mapPosExprs gap.shift) (callArgs (fuel + 1) depth) (callArgs (fuel + 1) depth)
      (EndsIn (opened past)) := by
  unfold callArgs
  dsimp only
  -- a closure may stand behind the closing parenthesis, where no line feed may
  have htrailing : ∀ args {past' c d}, gap.Faces past' c d → EndsIn (opened past) past' →
      gap.Tracks past' c d (mapPosExprs gap.shift)
        (do if (← peek) = .symbol .braceOpen then return args ++ [← closure fuel depth] else return args)
        (do
          if (← peek) = .symbol .braceOpen then return mapPosExprs gap.shift args ++ [← closure fuel depth]
          else return mapPosExprs gap.shift args) (EndsIn (opened past)) := by
    intro args past' c d hcd hends
    have hnot : breakable past' (.symbol .braceOpen) = false := breakable_of_endsOperand hends.2
    apply Tracks.peek
    apply Tracks.ite (hcd.kind_eq_iff (by simp) hnot)
    · intro hbrace
      have hclosure := h.closure depth (hcd.aligned_of_not_breakable (by rw [hbrace]; exact hnot))
      rw [hends.1] at hclosure
      exact Tracks.map hclosure (fun body => (mapPosExprs_append gap.shift args [body]).symm) fun _ => id
    · intro _
      exact Tracks.pure hcd rfl hends
  apply Tracks.bind (Tracks.expect (fun _ => hal) (by simp) (by simp))
  rintro _ _ c₁ d₁ hcd₁ rfl
  apply Tracks.skipFree hcd₁ (free_of_breaksBehind rfl (by simp))
  intro past₂ c₂ d₂ hal₂ hopened₂ hfree₂
  have hopened₂ := hopened₂.trans (opened_opens (b := .paren) rfl)
  apply Tracks.eat hal₂ (by simp) (by simp)
  · intro hcd₃
    exact htrailing [] hcd₃ (endsIn_closes hopened₂ .paren)
  · intro _
    apply Tracks.bind (h.argsFrom depth hal₂ hfree₂.ready hopened₂)
    intro args past₃ c₃ d₃ hcd₃ hends₃
    exact htrailing args hcd₃ hends₃

/-- Arguments end with the bracket that closes them. -/
private theorem tracks_argsFrom_step {b : Bool} {outer : List Bool} (hal : gap.Aligned past c d) (hready : Ready past)
    (hopened : opened past = b :: outer) :
    gap.Tracks past c d (mapPosExprs gap.shift) (argsFrom (fuel + 1) depth) (argsFrom (fuel + 1) depth)
      (EndsIn outer) := by
  unfold argsFrom
  apply Tracks.bind (h.expr depth hal hready)
  intro arg past₁ c₁ d₁ hcd₁ hends₁
  refine Tracks.listing hcd₁ (Or.inl rfl) ⟨hends₁.1.trans hopened, hends₁.2⟩ rfl ?_
  intro past₂ c₂ d₂ hcd₂ hopened₂ hfree₂
  apply Tracks.skipFree hcd₂ hfree₂
  intro past₃ c₃ d₃ hal₃ hopened₃ hfree₃
  exact Tracks.map (h.argsFrom depth hal₃ hfree₃.ready (hopened₃.trans hopened₂)) (fun _ => rfl) fun _ => id

/-- Literals and names are single tokens; parentheses, brackets and braces open one more. -/
private theorem tracks_primary_step : gap.Operates (Expr.mapPos gap.shift) (primary (fuel + 1) depth) := by
  intro past c d hal hready
  -- most expressions of one token are that token moved
  have hleaf : ∀ (e e' : Expr), c.kind.role = .plain → endsOperand (c.kind :: past) = true →
      e' = e.mapPos gap.shift → gap.Tracks past c d (Expr.mapPos gap.shift)
        (advance >>= fun _ => (pure e : Parser Expr)) (advance >>= fun _ => pure e') (EndsIn (opened past)) := by
    intro e e' hplain hend he
    apply Tracks.advance hal rfl (fun heof => by rw [heof] at hend; contradiction)
      (fun hnewline => by rw [hnewline] at hend; contradiction)
    intro hcd
    exact Tracks.pure hcd he (endsIn_plain hplain hend)
  rw [primary_eq]
  apply Tracks.peek
  rw [hal.kind_eq]
  cases hkind : c.kind with
  | int n | float literal | str text => exact hleaf _ _ (by rw [hkind]; rfl) (by rw [hkind]; rfl) rfl
  | ident name =>
    apply Tracks.position
    apply hleaf _ _ (by rw [hkind]; rfl) (by rw [hkind]; rfl)
    rw [hal.pos_eq]
    rfl
  | keyword k =>
    cases k with
    | trues | falses | nulls => exact hleaf _ _ (by rw [hkind]; rfl) (by rw [hkind]; rfl) rfl
    | _ => exact Tracks.failed rfl
  | symbol sym =>
    cases sym with
    | parenOpen =>
      apply Tracks.advance hal hkind (by simp) (by simp)
      intro hcd₁
      apply Tracks.skipFree hcd₁ (free_of_breaksBehind rfl (by simp))
      intro past₂ c₂ d₂ hal₂ hopened₂ hfree₂
      apply Tracks.bind (h.expr depth hal₂ hfree₂.ready)
      intro inner past₃ c₃ d₃ hcd₃ hends₃
      apply Tracks.closing hcd₃ (Or.inl rfl) ⟨hends₃.1.trans (hopened₂.trans (opened_opens rfl)), hends₃.2⟩
      intro past₄ c₄ d₄ hcd₄ hends₄
      exact Tracks.pure hcd₄ rfl hends₄
    | bracketOpen => exact h.collection depth hkind hal
    | braceOpen => exact h.closure depth hal
    | _ => exact Tracks.failed rfl
  | newline | eof => exact Tracks.failed rfl

/-- Lists and maps begin alike, and what stands behind the first token or word tells them apart. -/
private theorem tracks_collection_step (hkind : c.kind = .symbol .bracketOpen) (hal : gap.Aligned past c d) :
    gap.Tracks past c d (Expr.mapPos gap.shift) (collection (fuel + 1) depth) (collection (fuel + 1) depth)
      (EndsIn (opened past)) := by
  unfold collection
  apply Tracks.advance hal hkind (by simp) (by simp)
  intro hcd₁
  apply Tracks.skipFree hcd₁ (free_of_breaksBehind rfl (by simp))
  intro past₂ c₂ d₂ hal₂ hopened₂ hfree₂
  have hopened₂ : opened past₂ = true :: opened past := hopened₂
  apply Tracks.eat hal₂ (by simp) (by simp)
  · intro hcd₃
    -- the colon of an empty map and its bracket stand in one line
    apply Tracks.bind (Tracks.expect (fun hc => hcd₃.aligned_of_not_breakable (by rw [hc]; rfl)) (by simp) (by simp))
    rintro _ _ c₄ d₄ hcd₄ rfl
    exact Tracks.pure hcd₄ rfl (endsIn_closes ((opened_plain rfl).trans hopened₂) .bracket)
  · intro _
    apply Tracks.get
    apply Tracks.ite
    · rw [hal₂.isMapKey_eq]
    · intro _
      exact Tracks.map (h.entries depth (.aligned hal₂) hfree₂ hopened₂) (fun _ => rfl) fun _ => id
    · intro _
      exact Tracks.map (h.items depth (.aligned hal₂) hfree₂ hopened₂) (fun _ => rfl) fun _ => id

/-- Items end with the bracket that closes them. -/
private theorem tracks_items_step {b : Bool} {outer : List Bool} (hcd : gap.Faces past c d) (hfree : Free past)
    (hopened : opened past = b :: outer) :
    gap.Tracks past c d (mapPosExprs gap.shift) (items (fuel + 1) depth) (items (fuel + 1) depth)
      (EndsIn outer) := by
  unfold items
  apply Tracks.skipFree hcd hfree
  intro past₁ c₁ d₁ hal₁ hopened₁ hfree₁
  have hopened₁ := hopened₁.trans hopened
  apply Tracks.eat hal₁ (by simp) (by simp)
  · intro hcd₂
    exact Tracks.pure hcd₂ rfl (endsIn_closes hopened₁ .bracket)
  · intro _
    apply Tracks.bind (h.expr depth hal₁ hfree₁.ready)
    intro item past₂ c₂ d₂ hcd₂ hends₂
    refine Tracks.listing hcd₂ (Or.inr rfl) ⟨hends₂.1.trans hopened₁, hends₂.2⟩ rfl ?_
    intro past₃ c₃ d₃ hcd₃ hopened₃ hfree₃
    exact Tracks.map (h.items depth hcd₃ hfree₃ hopened₃) (fun _ => rfl) fun _ => id

/-- Between the key of an entry and its colon no line feed may stand, but behind the colon one may. -/
theorem tracks_entries_step {b : Bool} {outer : List Bool} (hcd : gap.Faces past c d) (hfree : Free past)
    (hopened : opened past = b :: outer) :
    gap.Tracks past c d (mapPosEntries gap.shift) (entries (fuel + 1) depth) (entries (fuel + 1) depth)
      (EndsIn outer) := by
  unfold entries
  apply Tracks.skipFree hcd hfree
  intro past₁ c₁ d₁ hal₁ hopened₁ hfree₁
  have hopened₁ := hopened₁.trans hopened
  apply Tracks.eat hal₁ (by simp) (by simp)
  · intro hcd₂
    exact Tracks.pure hcd₂ rfl (endsIn_closes hopened₁ .bracket)
  · intro _
    apply Tracks.bind (Tracks.expectKey hal₁)
    intro key past₂ c₂ d₂ hcd₂ hends₂
    have hcolon : breakable past₂ (.symbol .colon) = false := breakable_of_endsOperand hends₂.2
    apply Tracks.bind (Tracks.expect (fun hc => hcd₂.aligned_of_not_breakable (by rw [hc]; exact hcolon)) (by simp)
      (by simp))
    rintro _ _ c₃ d₃ hcd₃ rfl
    apply Tracks.skipNewlines hcd₃
    · -- a value does not start with the bracket, so that the colon is not the one of an empty map
      intro _ c' a c'' hok
      have hvalue : c'.kind ≠ .symbol .bracketClose := fun hc =>
        (expr_refuses (by rw [hc]; rfl) fuel depth).bind _ a c'' hok
      simp [breakable, breaksBehind, hvalue]
    · intro feeds c₄ d₄ hfeeds hal₄
      have hready₄ : Ready (feeds ++ .symbol .colon :: past₂) := ready_lines hfeeds fun _ => rfl
      have hopened₄ : opened (feeds ++ .symbol .colon :: past₂) = b :: outer :=
        (Tracks.opened_lines hfeeds).trans ((opened_plain rfl).trans (hends₂.1.trans hopened₁))
      apply Tracks.bind (h.expr depth hal₄ hready₄)
      intro value past₅ c₅ d₅ hcd₅ hends₅
      refine Tracks.listing hcd₅ (Or.inr rfl) ⟨hends₅.1.trans hopened₄, hends₅.2⟩ rfl ?_
      intro past₆ c₆ d₆ hcd₆ hopened₆ hfree₆
      exact Tracks.map (h.entries depth hcd₆ hfree₆ hopened₆) (fun _ => rfl) fun _ => id

/-- Closures begin with parameters if an arrow stands behind these, and go on with statements in braces. -/
private theorem tracks_closure_step (hal : gap.Aligned past c d) :
    gap.Tracks past c d (Expr.mapPos gap.shift) (closure (fuel + 1) depth) (closure (fuel + 1) depth)
      (EndsIn (opened past)) := by
  rw [closure_eq]
  apply Tracks.bind (Tracks.expect (fun _ => hal) (by simp) (by simp))
  rintro start _ c₁ d₁ hcd₁ rfl
  apply Tracks.enter
  have hopened₁ : opened (.symbol .braceOpen :: past) = false :: opened past := rfl
  apply Tracks.skipLoose (hcd₁.loose rfl (not_enclosed_of_opened hopened₁))
  intro past₂ c₂ d₂ hloose₂ hopened₂
  apply Tracks.behindParams hloose₂
  intro names past₃ c₃ d₃ hloose₃ hopened₃
  exact Tracks.map (h.braced (depth + 1) hloose₃.aligned (hopened₃.trans (hopened₂.trans hopened₁))) (fun _ => rfl)
    fun _ => id

end Step

/-- Without steps nothing is read. -/
private theorem allTrack_zero (gap : Gap) : gap.AllTrack 0 := by
  -- without fuel nothing succeeds
  have hpasses : ∀ {α : Type} {g : α → α} {p : Parser α}, (∀ c, p c = .error .exhausted) → gap.Passes g p :=
    fun hp _ c _ _ => Tracks.failed (hp c)
  have hoperates : ∀ {g : Expr → Expr} {p : Parser Expr}, (∀ c, p c = .error .exhausted) → gap.Operates g p :=
    fun hp _ c _ _ _ => Tracks.failed (hp c)
  have hcontinues : ∀ {g : Expr → Expr} {p q : Parser Expr}, (∀ c, p c = .error .exhausted) → gap.Continues g p q :=
    fun hp _ c _ _ _ _ => Tracks.failed (hp c)
  constructor
  case statements | block | statement | condition | commandCall | commandArgs | simple =>
    intros
    exact hpasses fun _ => rfl
  case expr | binary | operand | unary | chain | primary =>
    intros
    exact hoperates fun _ => rfl
  case binaryFrom | chainFrom =>
    intros
    exact hcontinues fun _ => rfl
  all_goals
    intros
    exact Tracks.failed rfl

/-- What every procedure does past a line break, whatever the bound on its recursion is. -/
theorem allTrack (gap : Gap) (fuel : Nat) : gap.AllTrack fuel := by
  induction fuel with
  | zero => exact allTrack_zero gap
  | succ fuel ih =>
    exact {
      statements := fun depth stop => tracks_statements_step ih depth stop
      braced := fun depth _ _ _ _ => tracks_braced_step ih depth
      block := fun depth => tracks_block_step ih depth
      statement := fun depth => tracks_statement_step ih depth
      declaration := fun depth _ _ _ => tracks_declaration_step ih depth
      condition := fun depth => tracks_condition_step ih depth
      conditional := fun depth _ _ _ => tracks_conditional_step ih depth
      forLoop := fun depth _ _ _ => tracks_forLoop_step ih depth
      commandCall := fun depth => tracks_commandCall_step ih depth
      commandArgs := fun depth => tracks_commandArgs_step ih depth
      simple := fun depth => tracks_simple_step ih depth
      expr := fun depth => tracks_expr_step ih depth
      binary := fun depth level => tracks_binary_step ih depth level
      binaryFrom := fun depth level left => tracks_binaryFrom_step ih depth level left
      operand := fun depth level => tracks_operand_step ih depth level
      unary := fun depth => tracks_unary_step ih depth
      chain := fun depth => tracks_chain_step ih depth
      chainFrom := fun depth object => tracks_chainFrom_step ih depth object
      callArgs := fun depth _ _ _ => tracks_callArgs_step ih depth
      argsFrom := fun depth _ _ _ _ _ => tracks_argsFrom_step ih depth
      primary := fun depth => tracks_primary_step ih depth
      collection := fun depth _ _ _ => tracks_collection_step ih depth
      items := fun depth _ _ _ _ _ => tracks_items_step ih depth
      entries := fun depth _ _ _ _ _ => tracks_entries_step ih depth
      closure := fun depth _ _ _ => tracks_closure_step ih depth }

end Gap

end RowConsole.Script.Grammar
