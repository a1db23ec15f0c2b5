import RowConsole.Proofs.Script.Grammar.Taking

/-!
# Tokens That Are Blamed

A procedure of the grammar that fails names the position of a token: one of those from the cursor on at which it
started. Procedures never go back, and so a token that a later part of a procedure blames is one of these, too.

Main statements: `allBlame`, for every procedure, and `blames_of_parseTokens`.
-/

namespace RowConsole.Script.Grammar

variable {α β : Type}

/-! ## Section 1: Readers That Blame a Token -/

/-- An error of the syntax at the position of one of some tokens. -/
def BlamesOneOf (tokens : List Token) (e : ScriptError) : Prop :=
  e.kind = .malformed ∧ ∃ t ∈ tokens, e.pos = some t.pos

/-- A reader that fails at a cursor blames one of some tokens. -/
def BlamesAt (tokens : List Token) (c : Cursor) (p : Parser α) : Prop :=
  ∀ e, p c = .error (.failed e) → BlamesOneOf tokens e

/-- A reader that fails blames a token from its start on, wherever it starts. -/
class Blames (p : Parser α) : Prop where
  blames : ∀ c, BlamesAt (c.token :: c.rest) c p

section Sequences

variable {p q : Parser α} {k : α → Parser β} {c c' : Cursor} {tokens : List Token}

/-- The tokens from a later place on are among those from an earlier one on. -/
theorem BlamesAt.of_blames [hp : Blames p] (hsuffix : c.token :: c.rest <:+ tokens) : BlamesAt tokens c p := by
  intro e h
  obtain ⟨hkind, t, ht, hpos⟩ := hp.blames c e h
  exact ⟨hkind, t, hsuffix.mem ht, hpos⟩

/-- A sequence that fails has failed in its first part, or in the second from where the first one ended. -/
theorem BlamesAt.bind (hp : BlamesAt tokens c p) (hk : ∀ a c', p c = .ok (a, c') → BlamesAt tokens c' (k a)) :
    BlamesAt tokens c (p >>= k) := by
  intro e h
  rw [bind_apply] at h
  cases hread : p c with
  | error stop =>
    rw [hread] at h
    cases h
    exact hp e hread
  | ok read =>
    obtain ⟨a, c'⟩ := read
    rw [hread] at h
    exact hk a c' hread e h

instance Blames.bind [hshrinks : Shrinks p] [hp : Blames p] [hk : ∀ a, Blames (k a)] : Blames (p >>= k) where
  blames c := (hp.blames c).bind fun a _ hread => @BlamesAt.of_blames _ _ _ _ (hk a) (hshrinks.shrinks hread)

instance Blames.ite {P : Prop} [Decidable P] [hp : Blames p] [hq : Blames q] : Blames (if P then p else q) := by
  split
  · exact hp
  · exact hq

/-- Failing at the position of a token. -/
theorem BlamesAt.failWith {cause : Cause} (hcause : cause.kind = .malformed) {t : Token} (ht : t ∈ tokens) :
    BlamesAt tokens c (Grammar.failWith cause t.pos : Parser α) := by
  intro e h
  cases h
  exact ⟨hcause, t, ht, rfl⟩

/-- Asking for the position does not fail, and what follows may name it. -/
theorem BlamesAt.position {k : Pos → Parser β} (hk : BlamesAt tokens c (k c.token.pos)) :
    BlamesAt tokens c (Grammar.position >>= k) :=
  hk

end Sequences

section Readers

variable {kind : TokenKind} {expected : String}

/-- A reader that does not fail blames nothing. -/
theorem blames_of_ok {p : Parser α} (h : ∀ c, ∃ read, p c = .ok read) : Blames p where
  blames c e he := by
    obtain ⟨read, hread⟩ := h c
    cases hread.symm.trans he

instance Blames.pure (a : α) : Blames (Pure.pure a : Parser α) := blames_of_ok fun _ => ⟨_, rfl⟩

instance Blames.peek : Blames Grammar.peek := blames_of_ok fun _ => ⟨_, rfl⟩

instance Blames.position : Blames Grammar.position := blames_of_ok fun _ => ⟨_, rfl⟩

instance Blames.get : Blames (MonadState.get : Parser Cursor) := blames_of_ok fun _ => ⟨_, rfl⟩

instance Blames.advance : Blames Grammar.advance := blames_of_ok fun _ => ⟨_, rfl⟩

instance Blames.skipNewlines : Blames Grammar.skipNewlines := blames_of_ok fun _ => ⟨_, rfl⟩

instance Blames.skipSeparators : Blames Grammar.skipSeparators := blames_of_ok fun _ => ⟨_, rfl⟩

/-- A bound on the recursion that is used up blames nothing. -/
instance Blames.exhausted : Blames (MonadExceptOf.throw Stop.exhausted : Parser α) where
  blames _ _ h := by cases h

/-- An unexpected token is the current one. -/
instance Blames.unexpected : Blames (Grammar.unexpected expected : Parser α) where
  blames c e h := by
    cases h
    exact ⟨rfl, c.token, List.mem_cons_self, rfl⟩

/-- Nesting that is too deep is blamed on the token at which it is entered. -/
instance Blames.enter (depth : Nat) : Blames (Grammar.enter depth) := by
  unfold Grammar.enter
  split
  · exact ⟨fun c => .position (.failWith rfl List.mem_cons_self)⟩
  · infer_instance

instance Blames.eat : Blames (Grammar.eat kind) := by
  unfold Grammar.eat
  infer_instance

instance Blames.expect : Blames (Grammar.expect kind expected) := by
  unfold Grammar.expect
  infer_instance

instance Blames.expectIdent : Blames Grammar.expectIdent := by
  unfold Grammar.expectIdent
  refine @Blames.bind _ _ _ _ _ _ fun kind => ?_
  split <;> infer_instance

instance Blames.expectKey : Blames Grammar.expectKey := by
  unfold Grammar.expectKey
  refine @Blames.bind _ _ _ _ _ _ fun t => ?_
  split <;> infer_instance

instance Blames.skipDeclarator : Blames Grammar.skipDeclarator := by
  unfold Grammar.skipDeclarator
  infer_instance

instance Blames.skipToChain : Blames Grammar.skipToChain := by
  unfold Grammar.skipToChain
  infer_instance

/-- The reader blames a token from the place it has come to, be that behind the separators or in front of them. -/
instance Blames.lookBehind {p q : Parser α} [hp : Blames p] [hq : Blames q] : Blames (Grammar.lookBehind kind p q) where
  blames c e h := by
    -- where the token is not found, the reader goes back and blames one from here on
    by_cases hkind : (skipFrom isSeparator c.token c.rest).kind = kind
    · rw [lookBehind_of_eq hkind] at h
      exact BlamesAt.of_blames ((Cursor.From.skip _ c).trans (Cursor.From.advance _)) e h
    · rw [lookBehind_of_ne hkind] at h
      exact hq.blames c e h

instance Blames.behindParams {k : List String → Parser α} [hk : ∀ names, Blames (k names)] :
    Blames (Grammar.behindParams k) where
  blames c e h := by
    have hpoint : k (closureParams c).1 (closureParams c).2 = .error (.failed e) := h
    exact BlamesAt.of_blames (Cursor.From.closureParams c) e hpoint

end Readers

/-! ## Section 2: All Procedures -/

-- The longest of the procedures have more parts than a search for an instance visits by default.
set_option synthInstance.maxSize 1000

instance Blames.paramsFrom (fuel : Nat) (names : List String) : Blames (Grammar.paramsFrom fuel names) := by
  induction fuel generalizing names with
  | zero => exact Blames.exhausted
  | succ fuel ih =>
    unfold Grammar.paramsFrom
    dsimp only
    refine @Blames.bind _ _ _ _ _ _ fun _ => @Blames.bind _ _ _ _ _ _ fun name => ?_
    split
    · -- a repeated name is reported at the token behind it
      refine ⟨fun c => .position (.bind (.failWith rfl List.mem_cons_self) fun _ _ h => ?_)⟩
      contradiction
    · infer_instance

instance Blames.params (fuel : Nat) : Blames (Grammar.params fuel) := by
  unfold Grammar.params
  infer_instance

/-- Every procedure blames a token, with a bound on its recursion. -/
structure AllBlame (fuel : Nat) : Prop where
  statements : ∀ depth stop, Blames (statements fuel depth stop)
  braced : ∀ depth, Blames (braced fuel depth)
  block : ∀ depth, Blames (block fuel depth)
  statement : ∀ depth, Blames (statement fuel depth)
  declaration : ∀ depth, Blames (declaration fuel depth)
  condition : ∀ depth, Blames (condition fuel depth)
  conditional : ∀ depth, Blames (conditional fuel depth)
  forLoop : ∀ depth, Blames (forLoop fuel depth)
  commandCall : ∀ depth, Blames (commandCall fuel depth)
  commandArgs : ∀ depth, Blames (commandArgs fuel depth)
  simple : ∀ depth, Blames (simple fuel depth)
  expr : ∀ depth, Blames (expr fuel depth)
  binary : ∀ depth level, Blames (binary fuel depth level)
  binaryFrom : ∀ depth level left, Blames (binaryFrom fuel depth level left)
  operand : ∀ depth level, Blames (operand fuel depth level)
  unary : ∀ depth, Blames (unary fuel depth)
  chain : ∀ depth, Blames (chain fuel depth)
  chainFrom : ∀ depth object, Blames (chainFrom fuel depth object)
  callArgs : ∀ depth, Blames (callArgs fuel depth)
  argsFrom : ∀ depth, Blames (argsFrom fuel depth)
  primary : ∀ depth, Blames (primary fuel depth)
  collection : ∀ depth, Blames (collection fuel depth)
  items : ∀ depth, Blames (items fuel depth)
  entries : ∀ depth, Blames (entries fuel depth)
  closure : ∀ depth, Blames (closure fuel depth)

section Step

-- With the procedures of less fuel as instances, the search for an instance follows the body of a procedure from reader
-- to reader. Only where a match decides what is read are its cases split by hand.
variable {fuel : Nat} (h : AllBlame fuel) (depth : Nat)

include h

/-- A statement that does not end is blamed on the token behind it. -/
private theorem blames_statements_step (stop : TokenKind) : Blames (statements (fuel + 1) depth stop) := by
  have := h.statement
  have := h.statements
  unfold statements
  infer_instance

private theorem blames_braced_step : Blames (braced (fuel + 1) depth) := by
  have := h.statements
  unfold braced
  infer_instance

private theorem blames_block_step : Blames (block (fuel + 1) depth) := by
  have := h.braced
  have := h.statement
  unfold block
  infer_instance

/-- The first token decides which procedure may blame one. -/
private theorem blames_statement_step : Blames (statement (fuel + 1) depth) := by
  have := h.declaration
  have := h.conditional
  have := h.condition
  have := h.block
  have := h.forLoop
  have := h.commandCall
  have := h.simple
  have := h.expr
  unfold statement
  refine @Blames.bind _ _ _ _ _ _ fun kind => ?_
  split <;> infer_instance

private theorem blames_declaration_step : Blames (declaration (fuel + 1) depth) := by
  have := h.braced
  have := h.expr
  unfold declaration
  infer_instance

private theorem blames_condition_step : Blames (condition (fuel + 1) depth) := by
  have := h.expr
  unfold condition
  infer_instance

/-- The branch behind `else` may be blamed as well as the condition and the body. -/
private theorem blames_conditional_step : Blames (conditional (fuel + 1) depth) := by
  have := h.condition
  have := h.block
  have := h.conditional
  unfold conditional
  refine @Blames.bind _ _ _ _ _ _ fun _ => @Blames.bind _ _ _ _ _ _ fun cond =>
    @Blames.bind _ _ _ _ _ _ fun thenBody => ?_
  exact Blames.lookBehind

private theorem blames_forLoop_step : Blames (forLoop (fuel + 1) depth) := by
  have := h.expr
  have := h.block
  unfold forLoop
  infer_instance

private theorem blames_commandCall_step : Blames (commandCall (fuel + 1) depth) := by
  have := h.commandArgs
  unfold commandCall
  infer_instance

private theorem blames_commandArgs_step : Blames (commandArgs (fuel + 1) depth) := by
  have := h.expr
  have := h.commandArgs
  unfold commandArgs
  infer_instance

/-- A target that cannot be assigned to is blamed on its first token, which has been passed by then. -/
private theorem blames_simple_step : Blames (simple (fuel + 1) depth) := by
  have := h.expr
  unfold simple
  refine ⟨fun c => .position (.bind ((h.expr depth).blames c) fun target c₁ hread => ?_)⟩
  -- the tokens behind the target are among those from its start on
  have hfrom : c.From c₁ := Shrinks.shrinks hread
  refine .bind (.of_blames hfrom) fun kind c₂ hpeek => ?_
  have hfrom₂ : c.From c₂ := hfrom.trans (Shrinks.shrinks hpeek)
  split
  · exact .of_blames hfrom₂
  · split
    · exact .of_blames hfrom₂
    · -- what cannot be assigned to is reported where the statement starts
      exact .failWith rfl List.mem_cons_self

private theorem blames_expr_step : Blames (expr (fuel + 1) depth) := by
  have := h.binary
  unfold expr
  infer_instance

private theorem blames_binary_step (level : Level) : Blames (binary (fuel + 1) depth level) := by
  have := h.operand
  have := h.binaryFrom
  unfold binary
  infer_instance

/-- An operator may be followed by no operand. -/
private theorem blames_binaryFrom_step (level : Level) (left : Expr) : Blames
    (binaryFrom (fuel + 1) depth level left) := by
  have := h.operand
  have := h.binaryFrom
  unfold binaryFrom
  refine @Blames.bind _ _ _ _ _ _ fun kind => @Blames.bind _ _ _ _ _ _ fun p => ?_
  split <;> infer_instance

/-- The operands of one level are read as the next one, or as unary expressions. -/
private theorem blames_operand_step (level : Level) : Blames (operand (fuel + 1) depth level) := by
  have := h.binary
  have := h.unary
  unfold operand
  split <;> infer_instance

/-- An operator in front may be followed by no operand. -/
private theorem blames_unary_step : Blames (unary (fuel + 1) depth) := by
  have := h.chain
  have := h.unary
  unfold unary
  refine @Blames.bind _ _ _ _ _ _ fun kind => ?_
  split <;> infer_instance

private theorem blames_chain_step : Blames (chain (fuel + 1) depth) := by
  have := h.primary
  have := h.chainFrom
  unfold chain
  infer_instance

/-- A link of a chain may be broken off. -/
private theorem blames_chainFrom_step (object : Expr) : Blames (chainFrom (fuel + 1) depth object) := by
  have := h.chainFrom
  have := h.callArgs
  have := h.closure
  have := h.expr
  unfold chainFrom
  refine @Blames.bind _ _ _ _ _ _ fun _ => @Blames.bind _ _ _ _ _ _ fun kind => ?_
  split <;> infer_instance

private theorem blames_callArgs_step : Blames (callArgs (fuel + 1) depth) := by
  have := h.argsFrom
  have := h.closure
  unfold callArgs
  dsimp only
  infer_instance

private theorem blames_argsFrom_step : Blames (argsFrom (fuel + 1) depth) := by
  have := h.expr
  have := h.argsFrom
  unfold argsFrom
  infer_instance

/-- A token that starts no expression is blamed itself. -/
private theorem blames_primary_step : Blames (primary (fuel + 1) depth) := by
  have := h.expr
  have := h.collection
  have := h.closure
  rw [primary_eq]
  refine @Blames.bind _ _ _ _ _ _ fun kind => ?_
  cases kind with
  | keyword k => cases k <;> infer_instance
  | symbol s => cases s <;> infer_instance
  | _ => infer_instance

private theorem blames_collection_step : Blames (collection (fuel + 1) depth) := by
  have := h.items
  have := h.entries
  unfold collection
  infer_instance

private theorem blames_items_step : Blames (items (fuel + 1) depth) := by
  have := h.expr
  have := h.items
  unfold items
  infer_instance

private theorem blames_entries_step : Blames (entries (fuel + 1) depth) := by
  have := h.expr
  have := h.entries
  unfold entries
  refine @Blames.bind _ _ _ _ _ _ fun _ => @Blames.bind _ _ _ _ _ _ fun _ => ?_
  infer_instance

/-- A closure may lack its closing brace, or statements between. -/
private theorem blames_closure_step : Blames (closure (fuel + 1) depth) := by
  have := h.braced
  rw [closure_eq]
  infer_instance

end Step

/-- Without a bound to spend no procedure fails with an error of the syntax. -/
private theorem allBlame_zero : AllBlame 0 := by
  have hexhausted : ∀ {α : Type}, Blames (MonadExceptOf.throw Stop.exhausted : Parser α) := Blames.exhausted
  constructor
  all_goals
    intros
    exact hexhausted

/-- Every procedure blames a token, whatever the bound on its recursion is. -/
theorem allBlame (fuel : Nat) : AllBlame fuel := by
  induction fuel with
  | zero => exact allBlame_zero
  | succ fuel ih =>
    exact {
      statements := blames_statements_step ih
      braced := blames_braced_step ih
      block := blames_block_step ih
      statement := blames_statement_step ih
      declaration := blames_declaration_step ih
      condition := blames_condition_step ih
      conditional := blames_conditional_step ih
      forLoop := blames_forLoop_step ih
      commandCall := blames_commandCall_step ih
      commandArgs := blames_commandArgs_step ih
      simple := blames_simple_step ih
      expr := blames_expr_step ih
      binary := blames_binary_step ih
      binaryFrom := blames_binaryFrom_step ih
      operand := blames_operand_step ih
      unary := blames_unary_step ih
      chain := blames_chain_step ih
      chainFrom := blames_chainFrom_step ih
      callArgs := blames_callArgs_step ih
      argsFrom := blames_argsFrom_step ih
      primary := blames_primary_step ih
      collection := blames_collection_step ih
      items := blames_items_step ih
      entries := blames_entries_step ih
      closure := blames_closure_step ih }

/-! ## Section 3: Programs -/

/-- A token list that spells no program is blamed on one of its tokens. -/
theorem blames_of_parseTokens {tokens : List Token} {e : ScriptError} (h : parseTokens tokens = .error (.failed e)) :
    BlamesOneOf tokens e := by
  cases tokens with
  | nil => contradiction
  | cons t rest =>
    -- the bound that is chosen for a program is as good as any
    have := (allBlame (fuelFor (rest.length + 1))).statements
    have hprogram : Blames (program (fuelFor (rest.length + 1))) := by
      unfold program
      infer_instance
    apply hprogram.blames ⟨t, rest⟩
    unfold parseTokens at h
    dsimp only at h
    split at h
    · contradiction
    · next stop hstop =>
      cases h
      exact hstop

end RowConsole.Script.Grammar
