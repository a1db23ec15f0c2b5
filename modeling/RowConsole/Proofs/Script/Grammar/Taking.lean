import RowConsole.Proofs.Script.Grammar.Progress

/-!
# What the Procedures of the Grammar Take

No procedure goes back, whatever the bound on its recursion is. Most of them take a token that is not a line
feed whenever they succeed; the others are those that may end where they start: statements up to a closing
token, and the operators and members behind an expression. Whether a sequence of readers takes a token is
found from its parts, so that it can be asked of any rest of a procedure.

Main statement: `allTake`.
-/

namespace RowConsole.Script.Grammar

variable {α β : Type}

/-! ## Section 1: Places and Weights -/

/-- The second cursor stands where the first one does or behind it. -/
def Cursor.From (c c' : Cursor) : Prop :=
  c'.token :: c'.rest <:+ c.token :: c.rest

/-- The number of tokens from one on that are not line feeds. The last token, which is never taken away, does
not count. -/
def weightFrom (token : Token) : List Token → Nat
  | [] => 0
  | next :: rest => (if token.kind = .newline then 0 else 1) + weightFrom next rest

/-- The number of tokens from the current one on that are not line feeds, up to the last token. -/
def Cursor.weight (c : Cursor) : Nat :=
  weightFrom c.token c.rest

namespace Cursor.From

variable {c c' c'' : Cursor}

protected theorem refl (c : Cursor) : c.From c := List.suffix_refl _

protected theorem trans (h : c.From c') (h' : c'.From c'') : c.From c'' := List.IsSuffix.trans h' h

/-- What is left of closed tokens is closed. -/
theorem closed (h : c.From c') (hc : c.Closed) : c'.Closed := (hc.of_suffix h).1

/-- One step goes on by one token, or stays at the last one. -/
theorem advance (c : Cursor) : c.From c.advance := by
  obtain ⟨t, rest⟩ := c
  cases rest with
  | nil => exact Cursor.From.refl _
  | cons next rest => exact List.suffix_cons _ _

/-- Skipping stops at some token behind. -/
theorem skip (skips : TokenKind → Bool) (c : Cursor) : c.From (skipFrom skips c.token c.rest) := by
  obtain ⟨t, rest⟩ := c
  induction rest generalizing t with
  | nil => exact Cursor.From.refl _
  | cons next rest ih =>
    show Cursor.From _ (if skips t.kind = true then skipFrom skips next rest else _)
    split
    · exact (Cursor.From.advance ⟨t, next :: rest⟩).trans (ih next)
    · exact Cursor.From.refl _

/-- The parameters of a closure are behind the cursor with their arrow, or nothing is taken. -/
theorem closureParams (c : Cursor) : c.From (closureParams c).2 := by
  unfold Grammar.closureParams
  split
  · exact Cursor.From.advance c
  · split
    · next names p rest hnames =>
      -- names and commas are passed over; without an arrow behind them they are given back
      have hsuffix := identifiers_suffix (c.token :: c.rest)
      rw [hnames] at hsuffix
      split
      · exact Cursor.From.refl c
      · have harrow : c.From ⟨⟨.symbol .arrow, p⟩, rest⟩ := hsuffix
        exact harrow.trans (Cursor.From.advance _)
    · exact Cursor.From.refl c

/-- A cursor behind another one is not heavier. -/
theorem weight_le (h : c.From c') : c'.weight ≤ c.weight := by
  obtain ⟨t', rest⟩ := c'
  obtain ⟨t, tokens⟩ := c
  have h : t' :: rest <:+ t :: tokens := h
  show weightFrom t' rest ≤ weightFrom t tokens
  -- On the tokens behind the first cursor.
  induction tokens generalizing t with
  | nil =>
    obtain ⟨rfl, rfl⟩ := List.cons.inj (h.eq_of_length_le (by simp))
    exact Nat.le_refl _
  | cons next tokens ih =>
    -- either the cursors agree, or the other one starts behind the first token
    rcases List.suffix_cons_iff.mp h with h | h
    · obtain ⟨rfl, rfl⟩ := List.cons.inj h
      exact Nat.le_refl _
    · exact Nat.le_trans (ih next h h) (Nat.le_add_left _ _)

end Cursor.From

/-- Taking any token but a line feed and the end of the input makes a cursor lighter. -/
theorem Cursor.weight_advance_lt {c : Cursor} (hc : c.Closed) (heof : c.kind ≠ .eof)
    (hnewline : c.kind ≠ .newline) : c.advance.weight < c.weight := by
  obtain ⟨t, rest⟩ := c
  cases rest with
  | nil => exact absurd hc heof
  | cons next rest =>
    have hone : (if t.kind = .newline then 0 else 1) = 1 := if_neg hnewline
    show weightFrom next rest < (if t.kind = .newline then 0 else 1) + weightFrom next rest
    rw [hone]
    omega

/-! ## Section 2: Readers That Do Not Go Back -/

/-- A reader that succeeds does not go back. -/
class Shrinks (p : Parser α) : Prop where
  shrinks : ∀ {c : Cursor} {a : α} {c' : Cursor}, p c = .ok (a, c') → c.From c'

/-- A reader that succeeds has taken a token that is not a line feed. -/
class Takes (p : Parser α) : Prop extends Shrinks p where
  takes : ∀ {c : Cursor} {a : α} {c' : Cursor}, c.Closed → p c = .ok (a, c') → c'.weight < c.weight

/-- A sequence that succeeds has succeeded in its first part. -/
theorem bind_eq_ok {p : Parser α} {k : α → Parser β} {c c' : Cursor} {b : β}
    (h : (p >>= k) c = .ok (b, c')) : ∃ a c₁, p c = .ok (a, c₁) ∧ k a c₁ = .ok (b, c') := by
  rw [bind_apply] at h
  cases hp : p c with
  | error stop =>
    rw [hp] at h
    contradiction
  | ok read =>
    rw [hp] at h
    exact ⟨read.1, read.2, rfl, h⟩

section Sequences

variable {p : Parser α} {k : α → Parser β}

instance Shrinks.bind [hp : Shrinks p] [hk : ∀ a, Shrinks (k a)] : Shrinks (p >>= k) where
  shrinks h := by
    obtain ⟨a, c₁, h₁, h₂⟩ := bind_eq_ok h
    exact (hp.shrinks h₁).trans ((hk a).shrinks h₂)

instance Takes.bindLeft [hp : Takes p] [hk : ∀ a, Shrinks (k a)] : Takes (p >>= k) where
  takes hc h := by
    -- The first part has taken something, and the second one has not gone back.
    obtain ⟨a, c₁, h₁, h₂⟩ := bind_eq_ok h
    exact Nat.lt_of_le_of_lt ((hk a).shrinks h₂).weight_le (hp.takes hc h₁)

instance Takes.bindRight [hp : Shrinks p] [hk : ∀ a, Takes (k a)] : Takes (p >>= k) where
  takes hc h := by
    -- The first part has not gone back, and the second one has taken something.
    obtain ⟨a, c₁, h₁, h₂⟩ := bind_eq_ok h
    have hfrom := hp.shrinks h₁
    exact Nat.lt_of_lt_of_le ((hk a).takes (hfrom.closed hc) h₂) hfrom.weight_le

instance Shrinks.ite {q r : Parser α} {P : Prop} [Decidable P] [hq : Shrinks q] [hr : Shrinks r] :
    Shrinks (if P then q else r) := by
  split
  · exact hq
  · exact hr

instance Takes.ite {q r : Parser α} {P : Prop} [Decidable P] [hq : Takes q] [hr : Takes r] :
    Takes (if P then q else r) := by
  split
  · exact hq
  · exact hr

end Sequences

section Readers

variable {kind : TokenKind} {expected : String}

instance Shrinks.pure (a : α) : Shrinks (Pure.pure a : Parser α) where
  shrinks h := by
    cases h
    exact Cursor.From.refl _

instance Takes.throw (stop : Stop) : Takes (MonadExceptOf.throw stop : Parser α) where
  shrinks h := by contradiction
  takes _ h := by contradiction

instance Takes.failWith (cause : Cause) (p : Pos) : Takes (Grammar.failWith cause p : Parser α) where
  shrinks h := by contradiction
  takes _ h := by contradiction

instance Takes.unexpected : Takes (Grammar.unexpected expected : Parser α) where
  shrinks h := by contradiction
  takes _ h := by contradiction

instance Shrinks.peek : Shrinks Grammar.peek where
  shrinks h := by
    cases h
    exact Cursor.From.refl _

instance Shrinks.position : Shrinks Grammar.position where
  shrinks h := by
    cases h
    exact Cursor.From.refl _

instance Shrinks.get : Shrinks (MonadState.get : Parser Cursor) where
  shrinks h := by
    cases h
    exact Cursor.From.refl _

instance Shrinks.advance : Shrinks Grammar.advance where
  shrinks h := by
    cases h
    exact Cursor.From.advance _

instance Shrinks.skipNewlines : Shrinks Grammar.skipNewlines where
  shrinks h := by
    cases h
    exact Cursor.From.skip _ _

instance Shrinks.skipSeparators : Shrinks Grammar.skipSeparators where
  shrinks h := by
    cases h
    exact Cursor.From.skip _ _

instance Shrinks.eat : Shrinks (Grammar.eat kind) := by
  unfold Grammar.eat
  infer_instance

instance Shrinks.expect : Shrinks (Grammar.expect kind expected) := by
  unfold Grammar.expect
  infer_instance

instance Shrinks.skipDeclarator : Shrinks Grammar.skipDeclarator := by
  unfold Grammar.skipDeclarator
  infer_instance

instance Shrinks.skipToChain : Shrinks Grammar.skipToChain := by
  unfold Grammar.skipToChain
  infer_instance

instance Shrinks.enter (depth : Nat) : Shrinks (Grammar.enter depth) := by
  unfold Grammar.enter
  infer_instance

instance Shrinks.expectKey : Shrinks Grammar.expectKey := by
  unfold Grammar.expectKey
  -- the token is taken before it is looked at, so that each branch has only to stay there
  refine @Shrinks.bind _ _ _ _ _ fun t => ?_
  split <;> infer_instance

/-- A token that is there is taken. -/
theorem eat_of_eq {c : Cursor} (h : c.kind = kind) : Grammar.eat kind c = .ok (true, c.advance) := by
  show (if c.kind = kind then _ else _ : Parser Bool) c = _
  rw [if_pos h]
  rfl

/-- Where another token stands the cursor stays. -/
theorem eat_of_ne {c : Cursor} (h : c.kind ≠ kind) : Grammar.eat kind c = .ok (false, c) := by
  show (if c.kind = kind then _ else _ : Parser Bool) c = _
  rw [if_neg h]
  rfl

/-- An expected token that is there is taken, and its position is given out. -/
theorem expect_of_eq {c : Cursor} (h : c.kind = kind) :
    Grammar.expect kind expected c = .ok (c.token.pos, c.advance) := by
  show (if c.kind = kind then _ else _ : Parser Pos) c = _
  rw [if_pos h]
  rfl

/-- Without the expected token nothing is taken, and the reader fails. -/
theorem expect_of_ne {c : Cursor} (h : c.kind ≠ kind) :
    Grammar.expect kind expected c = Grammar.unexpected expected c := by
  show (if c.kind = kind then _ else _ : Parser Pos) c = _
  rw [if_neg h]

/-- Taking a token of a known kind. -/
theorem takes_expect (heof : kind ≠ .eof) (hnewline : kind ≠ .newline) :
    Takes (Grammar.expect kind expected) where
  takes {c a c'} hc h := by
    by_cases hkind : c.kind = kind
    · rw [expect_of_eq hkind] at h
      cases h
      exact Cursor.weight_advance_lt hc (hkind ▸ heof) (hkind ▸ hnewline)
    · rw [expect_of_ne hkind] at h
      contradiction

instance Takes.expectSymbol (s : Symbol) : Takes (Grammar.expect (.symbol s) expected) :=
  takes_expect (by simp) (by simp)

instance Takes.expectKeyword (k : Keyword) : Takes (Grammar.expect (.keyword k) expected) :=
  takes_expect (by simp) (by simp)

instance Shrinks.expectIdent : Shrinks Grammar.expectIdent := by
  unfold Grammar.expectIdent
  refine @Shrinks.bind _ _ _ _ _ fun kind => ?_
  split <;> infer_instance

instance Takes.expectIdent : Takes Grammar.expectIdent where
  takes {c a c'} hc h := by
    -- Looking at the kind leaves the cursor where it is.
    obtain ⟨kind, c₁, hpeek, h⟩ := bind_eq_ok h
    obtain ⟨hkind, rfl⟩ : c.kind = kind ∧ c = c₁ := by
      cases hpeek
      exact ⟨rfl, rfl⟩
    split at h
    · cases h
      exact Cursor.weight_advance_lt hc (by simp [hkind]) (by simp [hkind])
    · contradiction

/-- A token may be taken or not: where it is not, something else has to be. -/
theorem takes_eat (heof : kind ≠ .eof) (hnewline : kind ≠ .newline) {p q : Parser α} [hp : Shrinks p]
    [hq : Takes q] : Takes (Grammar.eat kind >>= fun taken => if taken = true then p else q) where
  takes {c a c'} hc h := by
    by_cases hkind : c.kind = kind
    · rw [bind_apply, eat_of_eq hkind] at h
      exact Nat.lt_of_le_of_lt (hp.shrinks h).weight_le
        (Cursor.weight_advance_lt hc (hkind ▸ heof) (hkind ▸ hnewline))
    · rw [bind_apply, eat_of_ne hkind] at h
      exact hq.takes hc h

instance Takes.eatSymbol (s : Symbol) {p q : Parser α} [Shrinks p] [Takes q] :
    Takes (Grammar.eat (.symbol s) >>= fun taken => if taken = true then p else q) :=
  takes_eat (by simp) (by simp)

/-- Looking behind the separators for a token, and going back if it is not there. -/
abbrev lookBehind (kind : TokenKind) (found missing : Parser α) : Parser α := do
  let save ← get
  Grammar.skipSeparators
  if ← Grammar.eat kind then found
  else
    set save
    missing

/-- A token behind the separators is taken with them. -/
theorem lookBehind_of_eq {c : Cursor} {p q : Parser α}
    (h : (skipFrom isSeparator c.token c.rest).kind = kind) :
    lookBehind kind p q c = p (skipFrom isSeparator c.token c.rest).advance := by
  show (Grammar.eat kind (skipFrom isSeparator c.token c.rest)).bind _ = _
  rw [eat_of_eq h]
  rfl

/-- Without the token behind them, the separators are still there for what comes next. -/
theorem lookBehind_of_ne {c : Cursor} {p q : Parser α}
    (h : (skipFrom isSeparator c.token c.rest).kind ≠ kind) : lookBehind kind p q c = q c := by
  show (Grammar.eat kind (skipFrom isSeparator c.token c.rest)).bind _ = _
  rw [eat_of_ne h]
  rfl

instance Shrinks.lookBehind {p q : Parser α} [hp : Shrinks p] [hq : Shrinks q] :
    Shrinks (Grammar.lookBehind kind p q) where
  shrinks {c a c'} h := by
    by_cases hkind : (skipFrom isSeparator c.token c.rest).kind = kind
    · rw [lookBehind_of_eq hkind] at h
      exact ((Cursor.From.skip _ c).trans (Cursor.From.advance _)).trans (hp.shrinks h)
    · rw [lookBehind_of_ne hkind] at h
      exact hq.shrinks h

/-- Going on behind the parameters of a closure. -/
abbrev behindParams (k : List String → Parser α) : Parser α := do
  let (names, c) := closureParams (← get)
  set c
  k names

instance Shrinks.behindParams {k : List String → Parser α} [hk : ∀ names, Shrinks (k names)] :
    Shrinks (Grammar.behindParams k) where
  shrinks {c a c'} h := by
    have hpoint : k (closureParams c).1 (closureParams c).2 = .ok (a, c') := h
    exact (Cursor.From.closureParams c).trans ((hk _).shrinks hpoint)

instance Takes.behindParams {k : List String → Parser α} [hk : ∀ names, Takes (k names)] :
    Takes (Grammar.behindParams k) where
  takes {c a c'} hc h := by
    have hpoint : k (closureParams c).1 (closureParams c).2 = .ok (a, c') := h
    have hfrom := Cursor.From.closureParams c
    exact Nat.lt_of_lt_of_le ((hk _).takes (hfrom.closed hc) hpoint) hfrom.weight_le

/-- The body of a closure, with its parameters read by `behindParams`. -/
theorem closure_eq (fuel depth : Nat) :
    closure (fuel + 1) depth = (do
      let start ← Grammar.expect (.symbol .braceOpen) "'\x7b'"
      let depth ← Grammar.enter depth
      Grammar.skipNewlines
      Grammar.behindParams fun names => do return .closure names (← braced fuel depth) start) :=
  rfl

/-- The leaves and the bracketed forms of an expression, as `takes_peek` takes them apart. -/
theorem primary_eq (fuel depth : Nat) :
    primary (fuel + 1) depth = (do
      let leaf (e : Expr) : Parser Expr := do
        let _ ← Grammar.advance
        return e
      match ← Grammar.peek with
      | .int n => leaf (.int n)
      | .float literal => leaf (.float literal)
      | .str text => leaf (.str text)
      | .keyword .trues => leaf (.bool true)
      | .keyword .falses => leaf (.bool false)
      | .keyword .nulls => leaf .null
      | .ident name => leaf (.var name (← Grammar.position))
      | .symbol .parenOpen =>
        let _ ← Grammar.advance
        Grammar.skipNewlines
        let inner ← expr fuel depth
        Grammar.skipNewlines
        let _ ← Grammar.expect (.symbol .parenClose) "')'"
        return inner
      | .symbol .bracketOpen => collection fuel depth
      | .symbol .braceOpen => closure fuel depth
      | _ => Grammar.unexpected "expression") :=
  rfl

/-- Statements from a token on that is no separator. -/
abbrev statementsHere (fuel depth : Nat) (stop : TokenKind) : Parser (List Stmt) := do
  let kind ← Grammar.peek
  if kind = stop || kind = .eof then return []
  else
    let s ← statement fuel depth
    let kind ← Grammar.peek
    if isSeparator kind || kind = .eof || kind = stop then return s :: (← statements fuel depth stop)
    else Grammar.unexpected "end of statement"

/-- Separators in front of a statement are skipped first. -/
theorem statements_apply (fuel depth : Nat) (stop : TokenKind) (c : Cursor) :
    statements (fuel + 1) depth stop c = statementsHere fuel depth stop (skipFrom isSeparator c.token c.rest) :=
  rfl

end Readers

/-- A reader that succeeds at a cursor has not gone back and has taken a token that is not a line feed. -/
def TakesAt (c : Cursor) (p : Parser α) : Prop :=
  ∀ a c', p c = .ok (a, c') → c.From c' ∧ (c.Closed → c'.weight < c.weight)

/-- A reader that always takes a token does so at each cursor. -/
private theorem TakesAt.of_takes {c : Cursor} {p : Parser α} [hp : Takes p] : TakesAt c p :=
  fun _ _ h => ⟨hp.shrinks h, fun hc => hp.takes hc h⟩

/-- A token that is no line feed is taken at once. What is read behind it has only not to go back. -/
theorem TakesAt.advance {c : Cursor} {k : Token → Parser α} [hk : ∀ t, Shrinks (k t)] (heof : c.kind ≠ .eof)
    (hnewline : c.kind ≠ .newline) : TakesAt c (Grammar.advance >>= k) := by
  intro a c' h
  have hfrom := (hk c.token).shrinks h
  exact ⟨(Cursor.From.advance c).trans hfrom,
    fun hc => Nat.lt_of_le_of_lt hfrom.weight_le (Cursor.weight_advance_lt hc heof hnewline)⟩

/-- Where the kind of the current token decides what is done, it is known afterwards. -/
theorem takes_peek {k : TokenKind → Parser α}
    (h : ∀ (c : Cursor) kind, c.kind = kind → TakesAt c (k kind)) : Takes (peek >>= k) where
  shrinks hp := (h _ _ rfl _ _ hp).1
  takes hc hp := (h _ _ rfl _ _ hp).2 hc

/-! ## Section 3: Parameters -/

instance Takes.paramsFrom (fuel : Nat) (names : List String) : Takes (Grammar.paramsFrom fuel names) := by
  induction fuel generalizing names with
  | zero => exact Takes.throw _
  | succ fuel ih =>
    unfold Grammar.paramsFrom
    dsimp only
    refine @Takes.bindRight _ _ _ _ _ fun _ => @Takes.bindLeft _ _ _ _ _ fun name => ?_
    infer_instance

instance Takes.params (fuel : Nat) : Takes (Grammar.params fuel) := by
  unfold Grammar.params
  infer_instance

/-! ## Section 4: All Procedures -/

/-- What every procedure takes with a bound on its recursion. -/
structure AllTake (fuel : Nat) : Prop where
  statements : ∀ depth stop, Shrinks (statements fuel depth stop)
  braced : ∀ depth, Takes (braced fuel depth)
  block : ∀ depth, Takes (block fuel depth)
  statement : ∀ depth, Takes (statement fuel depth)
  declaration : ∀ depth, Takes (declaration fuel depth)
  condition : ∀ depth, Takes (condition fuel depth)
  conditional : ∀ depth, Takes (conditional fuel depth)
  forLoop : ∀ depth, Takes (forLoop fuel depth)
  commandCall : ∀ depth, Takes (commandCall fuel depth)
  commandArgs : ∀ depth, Takes (commandArgs fuel depth)
  simple : ∀ depth, Takes (simple fuel depth)
  expr : ∀ depth, Takes (expr fuel depth)
  binary : ∀ depth level, Takes (binary fuel depth level)
  binaryFrom : ∀ depth level left, Shrinks (binaryFrom fuel depth level left)
  operand : ∀ depth level, Takes (operand fuel depth level)
  unary : ∀ depth, Takes (unary fuel depth)
  chain : ∀ depth, Takes (chain fuel depth)
  chainFrom : ∀ depth object, Shrinks (chainFrom fuel depth object)
  callArgs : ∀ depth, Takes (callArgs fuel depth)
  argsFrom : ∀ depth, Takes (argsFrom fuel depth)
  primary : ∀ depth, Takes (primary fuel depth)
  collection : ∀ depth, Takes (collection fuel depth)
  items : ∀ depth, Takes (items fuel depth)
  entries : ∀ depth, Takes (entries fuel depth)
  closure : ∀ depth, Takes (closure fuel depth)

section Step

-- The longest of the procedures have more parts than a search for an instance visits by default.
set_option synthInstance.maxSize 400

variable {fuel : Nat} (h : AllTake fuel) (depth : Nat)

include h

/-- Statements may end where they start: at the closing token. -/
private theorem takes_statements_step (stop : TokenKind) : Shrinks (statements (fuel + 1) depth stop) := by
  have := h.statement
  have := h.statements
  unfold statements
  infer_instance

private theorem takes_braced_step : Takes (braced (fuel + 1) depth) := by
  have := h.statements
  unfold braced
  infer_instance

private theorem takes_block_step : Takes (block (fuel + 1) depth) := by
  have := h.braced
  have := h.statement
  unfold block
  infer_instance

private theorem takes_declaration_step : Takes (declaration (fuel + 1) depth) := by
  have := h.braced
  have := h.expr
  unfold declaration
  infer_instance

private theorem takes_condition_step : Takes (condition (fuel + 1) depth) := by
  have := h.expr
  unfold condition
  infer_instance

private theorem takes_forLoop_step : Takes (forLoop (fuel + 1) depth) := by
  have := h.expr
  have := h.block
  unfold forLoop
  infer_instance

private theorem takes_commandCall_step : Takes (commandCall (fuel + 1) depth) := by
  have := h.commandArgs
  unfold commandCall
  infer_instance

private theorem takes_commandArgs_step : Takes (commandArgs (fuel + 1) depth) := by
  have := h.expr
  have := h.commandArgs
  unfold commandArgs
  infer_instance

private theorem takes_expr_step : Takes (expr (fuel + 1) depth) := by
  have := h.binary
  unfold expr
  infer_instance

private theorem takes_binary_step (level : Level) : Takes (binary (fuel + 1) depth level) := by
  have := h.operand
  have := h.binaryFrom
  unfold binary
  infer_instance

private theorem takes_chain_step : Takes (chain (fuel + 1) depth) := by
  have := h.primary
  have := h.chainFrom
  unfold chain
  infer_instance

private theorem takes_callArgs_step : Takes (callArgs (fuel + 1) depth) := by
  have := h.argsFrom
  have := h.closure
  unfold callArgs
  dsimp only
  infer_instance

private theorem takes_argsFrom_step : Takes (argsFrom (fuel + 1) depth) := by
  have := h.expr
  have := h.argsFrom
  unfold argsFrom
  infer_instance

private theorem takes_items_step : Takes (items (fuel + 1) depth) := by
  have := h.expr
  have := h.items
  unfold items
  infer_instance

private theorem takes_entries_step : Takes (entries (fuel + 1) depth) := by
  have := h.expr
  have := h.entries
  unfold entries
  infer_instance

private theorem takes_collection_step : Takes (collection (fuel + 1) depth) := by
  have := h.items
  have := h.entries
  unfold collection
  infer_instance

/-- A statement is known by its first token: a keyword, or the start of an expression. -/
private theorem takes_statement_step : Takes (statement (fuel + 1) depth) := by
  have := h.declaration
  have := h.conditional
  have := h.condition
  have := h.block
  have := h.forLoop
  have := h.commandCall
  have := h.simple
  have := h.expr
  unfold statement
  apply takes_peek
  intro c kind hkind
  -- Either the keyword itself is all that need be taken, or a procedure takes something.
  split
  case h_6 | h_7 | h_8 => exact TakesAt.advance (by simp [hkind]) (by simp [hkind])
  all_goals exact TakesAt.of_takes

/-- The branch behind `else` need not be there; the condition and the body have taken something by then. -/
private theorem takes_conditional_step : Takes (conditional (fuel + 1) depth) := by
  have := h.condition
  have := h.block
  have := h.conditional
  unfold conditional
  -- `if` and its condition take something; the rest is judged by `lookBehind`
  refine @Takes.bindRight _ _ _ _ _ fun _ => @Takes.bindLeft _ _ _ _ _ fun cond =>
    @Shrinks.bind _ _ _ _ _ fun thenBody => ?_
  exact Shrinks.lookBehind

/-- The target takes a token, whether an assignment follows or not. -/
private theorem takes_simple_step : Takes (simple (fuel + 1) depth) := by
  have := h.expr
  unfold simple
  -- the position comes first and takes nothing; the target takes a token
  refine @Takes.bindRight _ _ _ _ _ fun start => @Takes.bindLeft _ _ _ _ _ fun target =>
    @Shrinks.bind _ _ _ _ _ fun kind => ?_
  split <;> infer_instance

/-- The chain of operators may be empty, so that nothing is taken. -/
private theorem shrinks_binaryFrom_step (level : Level) (left : Expr) :
    Shrinks (binaryFrom (fuel + 1) depth level left) := by
  have := h.operand
  have := h.binaryFrom
  unfold binaryFrom
  -- The kind and the place are looked at only; with an operator an operand follows.
  refine @Shrinks.bind _ _ _ _ _ fun kind => @Shrinks.bind _ _ _ _ _ fun p => ?_
  split <;> infer_instance

/-- At the tightest level the operand is a unary expression, at the others the next level. -/
private theorem takes_operand_step (level : Level) : Takes (operand (fuel + 1) depth level) := by
  have := h.binary
  have := h.unary
  unfold operand
  split <;> infer_instance

private theorem takes_unary_step : Takes (unary (fuel + 1) depth) := by
  have := h.chain
  have := h.unary
  unfold unary
  -- An operator is a token by itself; without one the chain takes something.
  refine @Takes.bindRight _ _ _ _ _ fun kind => ?_
  split <;> infer_instance

/-- The chain of members and calls may be empty, too. -/
private theorem shrinks_chainFrom_step (object : Expr) : Shrinks (chainFrom (fuel + 1) depth object) := by
  have := h.chainFrom
  have := h.callArgs
  have := h.closure
  have := h.expr
  unfold chainFrom
  -- Whatever continues the chain does not go back, and neither does the end of it.
  refine @Shrinks.bind _ _ _ _ _ fun _ => @Shrinks.bind _ _ _ _ _ fun kind => ?_
  split <;> infer_instance

/-- A leaf is one token; a bracketed form starts with its bracket. -/
private theorem takes_primary_step : Takes (primary (fuel + 1) depth) := by
  have := h.expr
  have := h.collection
  have := h.closure
  -- The calls of other procedures are known to take a token; only leaves take theirs here.
  rw [primary_eq]
  apply takes_peek
  intro c kind hkind
  have hleaf : ∀ e : Expr, c.kind ≠ .eof → c.kind ≠ .newline → TakesAt c (do
      let _ ← advance
      return e) := fun e heof hnewline => TakesAt.advance heof hnewline
  cases kind with
  | int n => exact hleaf _ (by simp [hkind]) (by simp [hkind])
  | float literal => exact hleaf _ (by simp [hkind]) (by simp [hkind])
  | str text => exact hleaf _ (by simp [hkind]) (by simp [hkind])
  | ident name =>
    intro a c' h
    exact hleaf (.var name c.token.pos) (by simp [hkind]) (by simp [hkind]) a c' h
  | keyword k =>
    cases k with
    | trues => exact hleaf _ (by simp [hkind]) (by simp [hkind])
    | falses => exact hleaf _ (by simp [hkind]) (by simp [hkind])
    | nulls => exact hleaf _ (by simp [hkind]) (by simp [hkind])
    | _ => exact TakesAt.of_takes
  | symbol s =>
    cases s with
    | parenOpen => exact TakesAt.of_takes
    | bracketOpen => exact TakesAt.of_takes
    | braceOpen => exact TakesAt.of_takes
    | _ => exact TakesAt.of_takes
  | newline => exact TakesAt.of_takes
  | eof => exact TakesAt.of_takes

private theorem takes_closure_step : Takes (closure (fuel + 1) depth) := by
  have := h.braced
  rw [closure_eq]
  infer_instance

end Step

/-- Without a bound to spend every procedure fails, so that it takes whatever is asked. -/
private theorem allTake_zero : AllTake 0 := by
  have hthrow : ∀ {α : Type}, Takes (MonadExceptOf.throw Stop.exhausted : Parser α) := Takes.throw _
  -- three procedures are asked for less than the others
  constructor
  case statements | binaryFrom | chainFrom =>
    intros
    exact hthrow.toShrinks
  all_goals
    intros
    exact hthrow

/-- What every procedure takes, whatever the bound on its recursion is. -/
theorem allTake (fuel : Nat) : AllTake fuel := by
  induction fuel with
  | zero => exact allTake_zero
  | succ fuel ih =>
    exact {
      statements := takes_statements_step ih
      braced := takes_braced_step ih
      block := takes_block_step ih
      statement := takes_statement_step ih
      declaration := takes_declaration_step ih
      condition := takes_condition_step ih
      conditional := takes_conditional_step ih
      forLoop := takes_forLoop_step ih
      commandCall := takes_commandCall_step ih
      commandArgs := takes_commandArgs_step ih
      simple := takes_simple_step ih
      expr := takes_expr_step ih
      binary := takes_binary_step ih
      binaryFrom := shrinks_binaryFrom_step ih
      operand := takes_operand_step ih
      unary := takes_unary_step ih
      chain := takes_chain_step ih
      chainFrom := shrinks_chainFrom_step ih
      callArgs := takes_callArgs_step ih
      argsFrom := takes_argsFrom_step ih
      primary := takes_primary_step ih
      collection := takes_collection_step ih
      items := takes_items_step ih
      entries := takes_entries_step ih
      closure := takes_closure_step ih }

section Instances

variable (fuel depth : Nat)

instance (stop : TokenKind) : Shrinks (statements fuel depth stop) := (allTake fuel).statements depth stop
instance : Takes (braced fuel depth) := (allTake fuel).braced depth
instance : Takes (block fuel depth) := (allTake fuel).block depth
instance : Takes (statement fuel depth) := (allTake fuel).statement depth
instance : Takes (declaration fuel depth) := (allTake fuel).declaration depth
instance : Takes (condition fuel depth) := (allTake fuel).condition depth
instance : Takes (conditional fuel depth) := (allTake fuel).conditional depth
instance : Takes (forLoop fuel depth) := (allTake fuel).forLoop depth
instance : Takes (commandCall fuel depth) := (allTake fuel).commandCall depth
instance : Takes (commandArgs fuel depth) := (allTake fuel).commandArgs depth
instance : Takes (simple fuel depth) := (allTake fuel).simple depth
instance : Takes (expr fuel depth) := (allTake fuel).expr depth
instance (level : Level) : Takes (binary fuel depth level) := (allTake fuel).binary depth level
instance (level : Level) (left : Expr) : Shrinks (binaryFrom fuel depth level left) :=
  (allTake fuel).binaryFrom depth level left
instance (level : Level) : Takes (operand fuel depth level) := (allTake fuel).operand depth level
instance : Takes (unary fuel depth) := (allTake fuel).unary depth
instance : Takes (chain fuel depth) := (allTake fuel).chain depth
instance (object : Expr) : Shrinks (chainFrom fuel depth object) := (allTake fuel).chainFrom depth object
instance : Takes (callArgs fuel depth) := (allTake fuel).callArgs depth
instance : Takes (argsFrom fuel depth) := (allTake fuel).argsFrom depth
instance : Takes (primary fuel depth) := (allTake fuel).primary depth
instance : Takes (collection fuel depth) := (allTake fuel).collection depth
instance : Takes (items fuel depth) := (allTake fuel).items depth
instance : Takes (entries fuel depth) := (allTake fuel).entries depth
instance : Takes (closure fuel depth) := (allTake fuel).closure depth

end Instances

end RowConsole.Script.Grammar
