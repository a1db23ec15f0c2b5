import RowConsole.Proofs.Script.Grammar.Pieces

/-!
# Brackets

Parentheses, braces and brackets are closed in the reverse order in which they were opened, in whatever the grammar
accepts. A reader is known by the brackets that are open where it starts and that it closes on its way. What it opens
itself it closes, too, and so the readers of a sequence share out among them what is open.

Main statements: `allClose`, which brackets every procedure of the grammar closes, and `balanced_of_parseTokens`.
-/

namespace RowConsole.Script

/-! ## Section 1: Balanced Tokens -/

/-- The pairs of symbols that enclose. -/
inductive Bracket where
  | paren | brace | bracket
  deriving DecidableEq

namespace Bracket

/-- The symbol that opens. -/
def opening : Bracket → Symbol
  | .paren => .parenOpen
  | .brace => .braceOpen
  | .bracket => .bracketOpen

/-- The symbol that closes. -/
def closing : Bracket → Symbol
  | .paren => .parenClose
  | .brace => .braceClose
  | .bracket => .bracketClose

end Bracket

/-- What a token does to the brackets that are open. -/
inductive BracketRole where
  | plain
  | opens (b : Bracket)
  | closes (b : Bracket)
  deriving DecidableEq

/-- The part that a kind of token has. -/
def TokenKind.role : TokenKind → BracketRole
  | .symbol .parenOpen => .opens .paren
  | .symbol .braceOpen => .opens .brace
  | .symbol .bracketOpen => .opens .bracket
  | .symbol .parenClose => .closes .paren
  | .symbol .braceClose => .closes .brace
  | .symbol .bracketClose => .closes .bracket
  | _ => .plain

/-- Whether tokens close the brackets that are open, the innermost first, and all those that they open. -/
def closesAll : List Bracket → List TokenKind → Bool
  | pending, [] => pending.isEmpty
  | pending, kind :: rest =>
    match kind.role with
    | .plain => closesAll pending rest
    | .opens b => closesAll (b :: pending) rest
    | .closes b =>
      match pending with
      | [] => false
      | inner :: outer => inner = b && closesAll outer rest

/-- Tokens are balanced when they close all brackets that they open, the innermost first, and no others. -/
def Balanced (kinds : List TokenKind) : Prop :=
  closesAll [] kinds = true

section Balanced

variable {kind : TokenKind} {kinds : List TokenKind} {pending : List Bracket} {b : Bracket}

/-- Tokens that are no brackets do not count. -/
private theorem closesAll_plain (h : kind.role = .plain) : closesAll pending
    (kind :: kinds) = closesAll pending kinds := by
  rw [closesAll, h]

/-- A token that opens leaves one more bracket to be closed. -/
private theorem closesAll_opens (h : kind.role = .opens b) :
    closesAll pending (kind :: kinds) = closesAll (b :: pending) kinds := by
  rw [closesAll, h]

/-- A token that closes takes the innermost bracket away. -/
private theorem closesAll_closes (h : kind.role = .closes b) :
    closesAll (b :: pending) (kind :: kinds) = closesAll pending kinds := by
  rw [closesAll, h]
  simp

/-- Each bracket is opened by one symbol. -/
private theorem role_eq_opens_iff : kind.role = .opens b ↔ kind = .symbol b.opening := by
  constructor
  · intro h
    unfold TokenKind.role at h
    split at h <;> cases h <;> rfl
  · rintro rfl
    cases b <;> rfl

/-- Each bracket is closed by one symbol. -/
private theorem role_eq_closes_iff : kind.role = .closes b ↔ kind = .symbol b.closing := by
  constructor
  · intro h
    unfold TokenKind.role at h
    split at h <;> cases h <;> rfl
  · rintro rfl
    cases b <;> rfl

/-- The symbols that open are counted by what their tokens do. -/
private theorem count_opening_cons (kind : TokenKind) (kinds : List TokenKind) (b : Bracket) :
    (kind :: kinds).count (.symbol b.opening) =
      kinds.count (.symbol b.opening) + if kind.role = .opens b then 1 else 0 := by
  simp only [List.count_cons, beq_iff_eq, role_eq_opens_iff]

/-- The symbols that close are counted by what their tokens do. -/
private theorem count_closing_cons (kind : TokenKind) (kinds : List TokenKind) (b : Bracket) :
    (kind :: kinds).count (.symbol b.closing) =
      kinds.count (.symbol b.closing) + if kind.role = .closes b then 1 else 0 := by
  simp only [List.count_cons, beq_iff_eq, role_eq_closes_iff]

/-- Tokens that close all brackets close as many of each kind as are open and as they open. -/
theorem count_of_closesAll (h : closesAll pending kinds = true) (b : Bracket) :
    pending.count b + kinds.count (.symbol b.opening) = kinds.count (.symbol b.closing) := by
  -- on the tokens, whatever is pending: a bracket that opens is counted as pending behind it
  induction kinds generalizing pending with
  | nil =>
    have hnil : pending = [] := List.isEmpty_iff.mp h
    rw [hnil]
    rfl
  | cons kind kinds ih =>
    rw [count_opening_cons, count_closing_cons]
    cases hrole : kind.role with
    | plain =>
      rw [closesAll_plain hrole] at h
      simpa using ih h
    | opens b' =>
      rw [closesAll_opens hrole] at h
      have hcount := ih h
      simp only [List.count_cons, beq_iff_eq] at hcount
      simp only [BracketRole.opens.injEq, reduceCtorEq, if_false]
      omega
    | closes b' =>
      rw [closesAll, hrole] at h
      -- a token that closes needs one that is open, and it has to be of the same kind
      cases pending with
      | nil => contradiction
      | cons inner outer =>
        obtain ⟨hinner, houter⟩ := (Bool.and_eq_true _ _).mp h
        have hcount := ih houter
        rw [of_decide_eq_true hinner]
        simp only [List.count_cons, beq_iff_eq, BracketRole.closes.injEq, reduceCtorEq, if_false]
        omega

/-- Balanced tokens have as many symbols that open as ones that close, for each kind of bracket. -/
theorem Balanced.count_eq (h : Balanced kinds) (b : Bracket) :
    kinds.count (.symbol b.opening) = kinds.count (.symbol b.closing) := by
  have hcount := count_of_closesAll h b
  rwa [List.count_nil, Nat.zero_add] at hcount

end Balanced

namespace Grammar

variable {α β : Type}

/-! ## Section 2: Readers That Close Brackets -/

/-- A reader that succeeds at a cursor has closed the pending brackets, the innermost first, and what it has opened
itself. Behind it the outer ones are left to be closed. -/
def ClosesAt (c : Cursor) (pending : List Bracket) (p : Parser α) : Prop :=
  ∀ a c', c.Closed → p c = .ok (a, c') →
    c'.Closed ∧ ∀ outer, closesAll (pending ++ outer) c.kinds = closesAll outer c'.kinds

/-- A reader that succeeds has closed the pending brackets, wherever it starts. -/
class Closes (pending : List Bracket) (p : Parser α) : Prop where
  closes : ∀ c, ClosesAt c pending p

/-- The part of a kind of token, as a search for instances finds it. -/
class Acts (kind : TokenKind) (role : outParam BracketRole) : Prop where
  role_eq : kind.role = role

section Roles

instance (k : Keyword) : Acts (.keyword k) .plain := ⟨rfl⟩
instance : Acts .eof .plain := ⟨rfl⟩
instance : Acts (.symbol .comma) .plain := ⟨rfl⟩
instance : Acts (.symbol .colon) .plain := ⟨rfl⟩
instance : Acts (.symbol .assign) .plain := ⟨rfl⟩
instance : Acts (.symbol .parenOpen) (.opens .paren) := ⟨rfl⟩
instance : Acts (.symbol .braceOpen) (.opens .brace) := ⟨rfl⟩
instance : Acts (.symbol .bracketOpen) (.opens .bracket) := ⟨rfl⟩
instance : Acts (.symbol .parenClose) (.closes .paren) := ⟨rfl⟩
instance : Acts (.symbol .braceClose) (.closes .brace) := ⟨rfl⟩
instance : Acts (.symbol .bracketClose) (.closes .bracket) := ⟨rfl⟩

end Roles

section Cursors

variable {c : Cursor} {pending : List Bracket} {b : Bracket}

/-- In front of the end of the input there is a next token to step to. -/
theorem Cursor.kinds_of_closed (hc : c.Closed) (h : c.kind ≠ .eof) : c.kinds = c.kind :: c.advance.kinds := by
  obtain ⟨t, rest⟩ := c
  cases rest with
  | nil => exact absurd hc h
  | cons next rest => rfl

/-- A step over a token that is no bracket leaves the same brackets to be closed. -/
private theorem closesAll_advance_plain (h : c.kind.role = .plain) :
    closesAll pending c.kinds = closesAll pending c.advance.kinds := by
  obtain ⟨t, rest⟩ := c
  cases rest with
  | nil => rfl
  | cons next rest => exact closesAll_plain h

/-- A step over a token that opens leaves one more bracket to be closed. -/
private theorem closesAll_advance_opens (hc : c.Closed) (h : c.kind.role = .opens b) :
    closesAll pending c.kinds = closesAll (b :: pending) c.advance.kinds := by
  -- the end of the input opens nothing, so there is a token to step to
  have heof : c.kind ≠ .eof := fun heq => by
    rw [heq] at h
    contradiction
  rw [Cursor.kinds_of_closed hc heof, closesAll_opens h]

/-- A step over a token that closes leaves one bracket less. -/
private theorem closesAll_advance_closes (hc : c.Closed) (h : c.kind.role = .closes b) :
    closesAll (b :: pending) c.kinds = closesAll pending c.advance.kinds := by
  -- nor does it close anything
  have heof : c.kind ≠ .eof := fun heq => by
    rw [heq] at h
    contradiction
  rw [Cursor.kinds_of_closed hc heof, closesAll_closes h]

/-- Skipping what is no bracket leaves the same brackets to be closed. -/
private theorem closesAll_skip {skips : TokenKind → Bool} (pending : List Bracket)
    (hskips : ∀ kind, skips kind = true → kind.role = .plain)
    (c : Cursor) : closesAll pending c.kinds = closesAll pending (skipFrom skips c.token c.rest).kinds := by
  obtain ⟨t, rest⟩ := c
  induction rest generalizing t with
  | nil => rfl
  | cons next rest ih =>
    unfold skipFrom
    split
    · next h => exact (closesAll_plain (hskips _ h)).trans (ih next)
    · rfl

/-- Line feeds and semicolons are no brackets. -/
theorem role_of_isSeparator {kind : TokenKind} (h : isSeparator kind = true) : kind.role = .plain := by
  simp only [isSeparator, Bool.or_eq_true, decide_eq_true_eq] at h
  rcases h with rfl | rfl <;> rfl

/-- Names and the commas between them are no brackets. -/
private theorem closesAll_identifiers (pending : List Bracket) (tokens : List Token) :
    closesAll pending (tokens.map Token.kind) = closesAll pending ((identifiers tokens).2.map Token.kind) := by
  fun_induction identifiers tokens with
  | case1 name _ _ rest names tail hnames ih =>
    rw [hnames] at ih
    exact (closesAll_plain rfl).trans ((closesAll_plain rfl).trans ih)
  | case2 name _ rest => exact closesAll_plain rfl
  | case3 tokens => rfl

/-- The parameters of a closure and its arrow are no brackets. -/
theorem closesAll_closureParams (c : Cursor) :
    closesAll pending c.kinds = closesAll pending (closureParams c).2.kinds := by
  unfold closureParams
  split
  · next h => exact closesAll_advance_plain (by rw [h]; rfl)
  · split
    · next names p rest hnames =>
      -- the names are passed over, and given back unless an arrow follows
      have hidentifiers := closesAll_identifiers pending (c.token :: c.rest)
      rw [hnames] at hidentifiers
      split
      · rfl
      · exact hidentifiers.trans (closesAll_advance_plain (c := ⟨⟨.symbol .arrow, p⟩, rest⟩) rfl)
    · rfl

end Cursors

section Sequences

variable {pending : List Bracket} {b : Bracket} {c : Cursor} {p q : Parser α} {k : α → Parser β}

/-- The readers of a sequence share the pending brackets: the inner ones are closed by the first reader. -/
theorem ClosesAt.bind (hp : ClosesAt c pending p) {outer : List Bracket} (hk : ∀ a, Closes outer (k a)) :
    ClosesAt c (pending ++ outer) (p >>= k) := by
  intro b c' hc h
  obtain ⟨a, c₁, h₁, h₂⟩ := bind_eq_ok h
  obtain ⟨hc₁, hfirst⟩ := hp a c₁ hc h₁
  obtain ⟨hc', hsecond⟩ := (hk a).closes c₁ b c' hc₁ h₂
  refine ⟨hc', fun rest => ?_⟩
  rw [List.append_assoc, hfirst, hsecond]

/-- A reader that closes nothing that is pending may come before another one. -/
instance Closes.bind [hp : Closes [] p] [hk : ∀ a, Closes pending (k a)] : Closes pending (p >>= k) where
  closes c := (hp.closes c).bind hk

/-- A reader that closes the innermost bracket may come before one that closes the others. -/
instance Closes.bindClosing [hp : Closes [b] p] [hk : ∀ a, Closes pending (k a)] :
    Closes (b :: pending) (p >>= k) where
  closes c := (hp.closes c).bind hk

instance Closes.ite {P : Prop} [Decidable P] [hp : Closes pending p] [hq : Closes pending q] :
    Closes pending (if P then p else q) := by
  split
  · exact hp
  · exact hq

end Sequences

section Readers

variable {pending : List Bracket} {b : Bracket} {c : Cursor} {kind : TokenKind} {expected : String} {p q : Parser α}

/-- A reader that moves the cursor to a place from which the same brackets have to be closed. -/
theorem closes_of_moves (move : Cursor → Cursor) (hp : ∀ c, ∃ a, p c = .ok (a, move c))
    (hclosed : ∀ c, c.Closed → (move c).Closed)
    (hmove : ∀ outer c, closesAll outer c.kinds = closesAll outer (move c).kinds) : Closes [] p where
  closes c a c' hc h := by
    obtain ⟨a', ha'⟩ := hp c
    obtain ⟨_, rfl⟩ := Prod.mk.inj (Except.ok.inj (ha'.symm.trans h))
    exact ⟨hclosed c hc, fun outer => hmove outer c⟩

instance Closes.pure (a : α) : Closes [] (Pure.pure a : Parser α) :=
  closes_of_moves id (fun _ => ⟨a, rfl⟩) (fun _ hc => hc) fun _ _ => rfl

instance Closes.throw (stop : Stop) : Closes pending (MonadExceptOf.throw stop : Parser α) where
  closes _ _ _ _ h := by contradiction

instance Closes.failWith (cause : Cause) (p : Pos) : Closes pending (Grammar.failWith cause p : Parser α) where
  closes _ _ _ _ h := by contradiction

instance Closes.unexpected : Closes pending (Grammar.unexpected expected : Parser α) where
  closes _ _ _ _ h := by contradiction

instance Closes.peek : Closes [] Grammar.peek :=
  closes_of_moves id (fun c => ⟨c.kind, rfl⟩) (fun _ hc => hc) fun _ _ => rfl

instance Closes.position : Closes [] Grammar.position :=
  closes_of_moves id (fun c => ⟨c.token.pos, rfl⟩) (fun _ hc => hc) fun _ _ => rfl

instance Closes.get : Closes [] (MonadState.get : Parser Cursor) :=
  closes_of_moves id (fun c => ⟨c, rfl⟩) (fun _ hc => hc) fun _ _ => rfl

instance Closes.skipNewlines : Closes [] Grammar.skipNewlines :=
  closes_of_moves _ (fun _ => ⟨(), rfl⟩) (fun _ hc => closed_skipFrom hc) fun _ c =>
    closesAll_skip _ (fun _ h => by rw [of_decide_eq_true h]; rfl) c

instance Closes.skipSeparators : Closes [] Grammar.skipSeparators :=
  closes_of_moves _ (fun _ => ⟨(), rfl⟩) (fun _ hc => closed_skipFrom hc) fun _ c =>
    closesAll_skip _ (fun _ => role_of_isSeparator) c

instance Closes.enter (depth : Nat) : Closes [] (Grammar.enter depth) := by
  unfold Grammar.enter
  infer_instance

instance Closes.skipToChain : Closes [] Grammar.skipToChain := by
  unfold Grammar.skipToChain
  infer_instance

/-- A reader known to close its brackets everywhere does so here. -/
private theorem ClosesAt.of_closes [hp : Closes pending p] : ClosesAt c pending p :=
  hp.closes c

/-- Where the kind of the current token decides what is done, it is known afterwards. -/
theorem closes_peek {k : TokenKind → Parser α} (h : ∀ (c : Cursor) kind, c.kind = kind → ClosesAt c pending (k kind)) :
    Closes pending (Grammar.peek >>= k) where
  closes c := h c c.kind rfl

/-- Taking a token that is no bracket changes nothing about what is pending. -/
theorem ClosesAt.advance {k : Token → Parser α} (hrole : c.kind.role = .plain) [hk : ∀ t, Closes pending (k t)] :
    ClosesAt c pending (Grammar.advance >>= k) := by
  intro a c' hc h
  obtain ⟨hc', hcloses⟩ := (hk c.token).closes c.advance a c' hc.advance h
  exact ⟨hc', fun outer => (closesAll_advance_plain hrole).trans (hcloses outer)⟩

/-- Taking a token that opens makes one more bracket pending. -/
theorem ClosesAt.advanceOpens {k : Token → Parser α} (hrole : c.kind.role = .opens b)
    [hk : ∀ t, Closes (b :: pending) (k t)] : ClosesAt c pending (Grammar.advance >>= k) := by
  intro a c' hc h
  obtain ⟨hc', hcloses⟩ := (hk c.token).closes c.advance a c' hc.advance h
  exact ⟨hc', fun outer => (closesAll_advance_opens hc hrole).trans (hcloses outer)⟩

/-- Taking a token that closes settles the innermost bracket. -/
private theorem ClosesAt.advanceCloses {k : Token → Parser α} (hrole : c.kind.role = .closes b)
    [hk : ∀ t, Closes pending (k t)] : ClosesAt c (b :: pending) (Grammar.advance >>= k) := by
  intro a c' hc h
  obtain ⟨hc', hcloses⟩ := (hk c.token).closes c.advance a c' hc.advance h
  exact ⟨hc', fun outer => (closesAll_advance_closes hc hrole).trans (hcloses outer)⟩

/-- A token of a known kind is taken, or the reader fails. -/
theorem closes_expect {k : Pos → Parser α}
    (h : ∀ c, c.kind = kind → ClosesAt c pending (Grammar.advance >>= fun t => k t.pos)) :
    Closes pending (Grammar.expect kind expected >>= k) where
  closes c a c' hc hp := by
    by_cases hkind : c.kind = kind
    · rw [bind_apply, expect_of_eq hkind] at hp
      exact h c hkind a c' hc hp
    · rw [bind_apply, expect_of_ne hkind] at hp
      contradiction

/-- A token of a known kind is taken or not. -/
theorem closes_eat (h : ∀ c, c.kind = kind → ClosesAt c pending (Grammar.advance >>= fun _ => p))
    [hq : Closes pending q] :
    Closes pending (Grammar.eat kind >>= fun taken => if taken = true then p else q) where
  closes c a c' hc hp := by
    by_cases hkind : c.kind = kind
    · rw [bind_apply, eat_of_eq hkind] at hp
      exact h c hkind a c' hc hp
    · rw [bind_apply, eat_of_ne hkind] at hp
      exact hq.closes c a c' hc hp

instance Closes.expectPlain [hkind : Acts kind .plain] : Closes [] (Grammar.expect kind expected) := by
  rw [← bind_pure (Grammar.expect kind expected)]
  exact closes_expect fun _ h => .advance (h ▸ hkind.role_eq)

instance Closes.expectCloses [hkind : Acts kind (.closes b)] : Closes [b] (Grammar.expect kind expected) := by
  rw [← bind_pure (Grammar.expect kind expected)]
  exact closes_expect fun _ h => .advanceCloses (h ▸ hkind.role_eq)

instance Closes.expectOpens [hkind : Acts kind (.opens b)] {k : Pos → Parser α} [∀ p, Closes (b :: pending) (k p)] :
    Closes pending (Grammar.expect kind expected >>= k) :=
  closes_expect fun _ h => .advanceOpens (h ▸ hkind.role_eq)

instance Closes.eatPlain [hkind : Acts kind .plain] : Closes [] (Grammar.eat kind) where
  closes c a c' hc hp := by
    by_cases h : c.kind = kind
    · rw [eat_of_eq h] at hp
      cases hp
      exact ⟨hc.advance, fun outer => closesAll_advance_plain (h ▸ hkind.role_eq)⟩
    · rw [eat_of_ne h] at hp
      cases hp
      exact ⟨hc, fun _ => rfl⟩

instance Closes.eatOpens [hkind : Acts kind (.opens b)] [Closes (b :: pending) p] [Closes pending q] :
    Closes pending (Grammar.eat kind >>= fun taken => if taken = true then p else q) :=
  closes_eat fun _ h => .advanceOpens (h ▸ hkind.role_eq)

instance Closes.eatCloses [hkind : Acts kind (.closes b)] [Closes pending p] [Closes (b :: pending) q] :
    Closes (b :: pending) (Grammar.eat kind >>= fun taken => if taken = true then p else q) :=
  closes_eat fun _ h => .advanceCloses (h ▸ hkind.role_eq)

instance Closes.skipDeclarator : Closes [] Grammar.skipDeclarator := by
  unfold Grammar.skipDeclarator
  infer_instance

instance Closes.expectIdent : Closes [] Grammar.expectIdent := by
  unfold Grammar.expectIdent
  apply closes_peek
  intro c kind hkind
  split
  · exact .advance (by rw [hkind]; rfl)
  · exact .of_closes

instance Closes.expectKey : Closes [] Grammar.expectKey where
  closes c a c' hc h := by
    have hpoint : (match c.kind with
      | .ident name => Pure.pure name
      | .str text => Pure.pure text
      | _ => Grammar.unexpected "map key" : Parser String) c.advance = .ok (a, c') := h
    -- whatever the token is, it is no bracket if the reader succeeds
    have hmoved : c' = c.advance ∧ c.kind.role = .plain := by
      cases hkind : c.kind with
      | ident name | str text =>
        rw [hkind] at hpoint
        cases hpoint
        exact ⟨rfl, rfl⟩
      | _ =>
        rw [hkind] at hpoint
        contradiction
    rw [hmoved.1]
    exact ⟨hc.advance, fun _ => closesAll_advance_plain hmoved.2⟩

/-- What is looked for behind the separators is no bracket, so going back for it changes nothing. -/
private theorem closes_lookBehind (hkind : kind.role = .plain) (hp : Closes pending p) (hq : Closes pending q) :
    Closes pending (Grammar.lookBehind kind p q) where
  closes c a c' hc h := by
    -- the separators close nothing, so they may be skipped first in either case
    have hskip := fun outer => closesAll_skip (pending ++ outer) (fun _ => role_of_isSeparator) c
    by_cases hfound : (skipFrom isSeparator c.token c.rest).kind = kind
    · rw [lookBehind_of_eq hfound] at h
      obtain ⟨hc', hcloses⟩ := hp.closes _ a c' (closed_skipFrom hc).advance h
      refine ⟨hc', fun outer => ?_⟩
      rw [hskip, closesAll_advance_plain (hfound ▸ hkind), hcloses]
    · rw [lookBehind_of_ne hfound] at h
      exact hq.closes c a c' hc h

instance Closes.behindParams {k : List String → Parser α} [hk : ∀ names, Closes pending (k names)] :
    Closes pending (Grammar.behindParams k) where
  closes c a c' hc h := by
    have hpoint : k (closureParams c).1 (closureParams c).2 = .ok (a, c') := h
    obtain ⟨hc', hcloses⟩ := (hk _).closes _ a c' (closureParams_closed hc).1 hpoint
    exact ⟨hc', fun outer => (closesAll_closureParams c).trans (hcloses outer)⟩

/-- Asking for the position leaves the cursor where it is. -/
theorem ClosesAt.position {k : Pos → Parser α} (h : ClosesAt c pending (k c.token.pos)) :
    ClosesAt c pending (Grammar.position >>= k) := h

/-- The symbols of assignments and operators are no brackets. -/
theorem role_of_assignOp {op : AssignOp} (h : assignOp? kind = some op) : kind.role = .plain := by
  unfold assignOp? at h
  split at h
  · rfl
  · rfl
  · rfl
  · contradiction

/-- The operators in front of an operand are no brackets. -/
theorem role_of_unaryOp {op : UnaryOp} (h : unaryOp? kind = some op) : kind.role = .plain := by
  unfold unaryOp? at h
  split at h
  · rfl
  · rfl
  · contradiction

/-- The operators between operands are no brackets. -/
private theorem role_of_operator {level : Level} {s : Symbol} {op : BinaryOp} (h : level.operator? s = some op) :
    TokenKind.role (.symbol s) = .plain := by
  unfold Level.operator? at h
  split at h <;> first | rfl | contradiction

/-- What joins the operands of a level is no bracket, `and` and `or` included. -/
theorem role_of_join {level : Level} {p : Pos} {join : Expr → Expr → Expr} (h : level.join? kind p = some join) :
    kind.role = .plain := by
  unfold Level.join? at h
  split at h
  · rfl
  · rfl
  · obtain ⟨op, hop, _⟩ := Option.map_eq_some_iff.mp h
    exact role_of_operator hop
  · contradiction

end Readers

/-! ## Section 3: All Procedures -/

-- The longest of the procedures have more parts than a search for an instance visits by default.
set_option synthInstance.maxSize 600

instance Closes.paramsFrom (fuel : Nat) (names : List String) : Closes [.paren] (Grammar.paramsFrom fuel names) := by
  induction fuel generalizing names with
  | zero => exact Closes.throw _
  | succ fuel ih =>
    unfold Grammar.paramsFrom
    dsimp only
    infer_instance

instance Closes.params (fuel : Nat) : Closes [] (Grammar.params fuel) := by
  unfold Grammar.params
  infer_instance

/-- What the procedures close that start with a known token: nothing that is pending. -/
def ClosesFrom (role : BracketRole) (p : Parser α) : Prop :=
  ∀ c : Cursor, c.kind.role = role → ClosesAt c [] p

/-- What every procedure closes with a bound on its recursion. -/
structure AllClose (fuel : Nat) : Prop where
  statements : ∀ depth stop, Closes [] (statements fuel depth stop)
  braced : ∀ depth, Closes [.brace] (braced fuel depth)
  block : ∀ depth, Closes [] (block fuel depth)
  statement : ∀ depth, Closes [] (statement fuel depth)
  declaration : ∀ depth, ClosesFrom .plain (declaration fuel depth)
  condition : ∀ depth, Closes [] (condition fuel depth)
  conditional : ∀ depth, ClosesFrom .plain (conditional fuel depth)
  forLoop : ∀ depth, ClosesFrom .plain (forLoop fuel depth)
  commandCall : ∀ depth, Closes [] (commandCall fuel depth)
  commandArgs : ∀ depth, Closes [] (commandArgs fuel depth)
  simple : ∀ depth, Closes [] (simple fuel depth)
  expr : ∀ depth, Closes [] (expr fuel depth)
  binary : ∀ depth level, Closes [] (binary fuel depth level)
  binaryFrom : ∀ depth level left, Closes [] (binaryFrom fuel depth level left)
  operand : ∀ depth level, Closes [] (operand fuel depth level)
  unary : ∀ depth, Closes [] (unary fuel depth)
  chain : ∀ depth, Closes [] (chain fuel depth)
  chainFrom : ∀ depth object, Closes [] (chainFrom fuel depth object)
  callArgs : ∀ depth, Closes [] (callArgs fuel depth)
  argsFrom : ∀ depth, Closes [.paren] (argsFrom fuel depth)
  primary : ∀ depth, Closes [] (primary fuel depth)
  collection : ∀ depth, ClosesFrom (.opens .bracket) (collection fuel depth)
  items : ∀ depth, Closes [.bracket] (items fuel depth)
  entries : ∀ depth, Closes [.bracket] (entries fuel depth)
  closure : ∀ depth, Closes [] (closure fuel depth)

section Step

-- With the procedures of less fuel as instances, the search for an instance follows the body of a procedure from reader
-- to reader. Only where the kind of a token decides what is read are the cases split by hand.
variable {fuel : Nat} (h : AllClose fuel) (depth : Nat)

include h

private theorem closes_statements_step (stop : TokenKind) : Closes [] (statements (fuel + 1) depth stop) := by
  have := h.statement
  have := h.statements
  unfold statements
  infer_instance

private theorem closes_braced_step : Closes [.brace] (braced (fuel + 1) depth) := by
  have := h.statements
  unfold braced
  infer_instance

private theorem closes_block_step : Closes [] (block (fuel + 1) depth) := by
  have := h.braced
  have := h.statement
  unfold block
  infer_instance

private theorem closes_declaration_step : ClosesFrom .plain (declaration (fuel + 1) depth) := by
  have := h.braced
  have := h.expr
  intro c hrole
  unfold declaration
  exact .advance hrole

private theorem closes_condition_step : Closes [] (condition (fuel + 1) depth) := by
  have := h.expr
  unfold condition
  infer_instance

private theorem closes_forLoop_step : ClosesFrom .plain (forLoop (fuel + 1) depth) := by
  have := h.expr
  have := h.block
  intro c hrole
  unfold forLoop
  exact .advance hrole

private theorem closes_commandCall_step : Closes [] (commandCall (fuel + 1) depth) := by
  have := h.commandArgs
  unfold commandCall
  infer_instance

private theorem closes_commandArgs_step : Closes [] (commandArgs (fuel + 1) depth) := by
  have := h.expr
  have := h.commandArgs
  unfold commandArgs
  infer_instance

private theorem closes_expr_step : Closes [] (expr (fuel + 1) depth) := by
  have := h.binary
  unfold expr
  infer_instance

private theorem closes_binary_step (level : Level) : Closes [] (binary (fuel + 1) depth level) := by
  have := h.operand
  have := h.binaryFrom
  unfold binary
  infer_instance

private theorem closes_chain_step : Closes [] (chain (fuel + 1) depth) := by
  have := h.primary
  have := h.chainFrom
  unfold chain
  infer_instance

private theorem closes_callArgs_step : Closes [] (callArgs (fuel + 1) depth) := by
  have := h.argsFrom
  have := h.closure
  unfold callArgs
  dsimp only
  infer_instance

private theorem closes_argsFrom_step : Closes [.paren] (argsFrom (fuel + 1) depth) := by
  have := h.expr
  have := h.argsFrom
  unfold argsFrom
  infer_instance

private theorem closes_items_step : Closes [.bracket] (items (fuel + 1) depth) := by
  have := h.expr
  have := h.items
  unfold items
  infer_instance

private theorem closes_entries_step : Closes [.bracket] (entries (fuel + 1) depth) := by
  have := h.expr
  have := h.entries
  unfold entries
  infer_instance

/-- A list and a map start with the same bracket, which is followed to its end in either. -/
private theorem closes_collection_step : ClosesFrom (.opens .bracket) (collection (fuel + 1) depth) := by
  have := h.items
  have := h.entries
  intro c hrole
  unfold collection
  exact .advanceOpens hrole

/-- A statement is known by its first token; the procedures for keywords start at theirs. -/
private theorem closes_statement_step : Closes [] (statement (fuel + 1) depth) := by
  have := h.condition
  have := h.block
  have := h.commandCall
  have := h.simple
  have := h.expr
  unfold statement
  apply closes_peek
  intro c kind hkind
  split
  case h_1 | h_2 => exact h.declaration depth c (by rw [hkind]; rfl)
  case h_3 => exact h.conditional depth c (by rw [hkind]; rfl)
  case h_5 => exact h.forLoop depth c (by rw [hkind]; rfl)
  case h_4 | h_6 | h_7 | h_8 => exact .advance (by rw [hkind]; rfl)
  case h_9 => exact .of_closes

/-- A condition is followed by a body, and both may be followed by another branch. -/
private theorem closes_conditional_step : ClosesFrom .plain (conditional (fuel + 1) depth) := by
  have := h.condition
  have := h.block
  intro c hrole
  unfold conditional
  refine @ClosesAt.advance _ _ _ _ hrole fun _ => @Closes.bind _ _ _ _ _ _ fun cond =>
    @Closes.bind _ _ _ _ _ _ fun thenBody => ?_
  -- behind `else` another condition follows, which starts with its keyword, or a body
  refine closes_lookBehind rfl (closes_peek fun c kind hkind => ?_) inferInstance
  split
  · next hifs => exact (h.conditional depth c (by rw [hkind, hifs]; rfl)).bind fun _ => inferInstance
  · exact .of_closes

private theorem closes_simple_step : Closes [] (simple (fuel + 1) depth) := by
  have := h.expr
  unfold simple
  refine @Closes.bind _ _ _ _ _ _ fun start => @Closes.bind _ _ _ _ _ _ fun target => closes_peek fun c kind hkind => ?_
  split
  · exact .of_closes
  · next op hop =>
    split
    · exact .advance (by rw [hkind]; exact role_of_assignOp hop)
    · exact .of_closes

private theorem closes_binaryFrom_step (level : Level) (left : Expr) :
    Closes [] (binaryFrom (fuel + 1) depth level left) := by
  have := h.operand
  have := h.binaryFrom
  unfold binaryFrom
  refine closes_peek fun c kind hkind => ClosesAt.position ?_
  split
  · exact .of_closes
  · next join hjoin => exact .advance (by rw [hkind]; exact role_of_join hjoin)

private theorem closes_operand_step (level : Level) : Closes [] (operand (fuel + 1) depth level) := by
  have := h.binary
  have := h.unary
  unfold operand
  split <;> infer_instance

private theorem closes_unary_step : Closes [] (unary (fuel + 1) depth) := by
  have := h.chain
  have := h.unary
  unfold unary
  refine closes_peek fun c kind hkind => ?_
  split
  · exact .of_closes
  · next op hop => exact .advance (by rw [hkind]; exact role_of_unaryOp hop)

private theorem closes_chainFrom_step (object : Expr) : Closes [] (chainFrom (fuel + 1) depth object) := by
  have := h.chainFrom
  have := h.callArgs
  have := h.closure
  have := h.expr
  unfold chainFrom
  -- the links: a member, an index, a call and a closure; and the end of the chain
  refine @Closes.bind _ _ _ _ _ _ fun _ => closes_peek fun c kind hkind => ?_
  split
  · exact .advance (by rw [hkind]; rfl)
  · exact .advanceOpens (b := .bracket) (by rw [hkind]; rfl)
  · exact .of_closes
  · exact .of_closes

/-- A leaf is no bracket. A form in brackets is read up to the bracket that closes it. -/
private theorem closes_primary_step : Closes [] (primary (fuel + 1) depth) := by
  have := h.expr
  rw [primary_eq]
  refine closes_peek fun c kind hkind => ?_
  -- Leaves are plain; brackets are followed to where they close.
  have hleaf : ∀ e : Expr, c.kind.role = .plain → ClosesAt c [] (do
      let _ ← advance
      return e) := fun e hrole => ClosesAt.advance hrole
  cases kind with
  | int n | float literal | str text => exact hleaf _ (by rw [hkind]; rfl)
  | ident name => exact ClosesAt.position (hleaf _ (by rw [hkind]; rfl))
  | keyword k =>
    cases k with
    | trues | falses | nulls => exact hleaf _ (by rw [hkind]; rfl)
    | _ => exact Closes.unexpected.closes c
  | symbol s =>
    cases s with
    | parenOpen => exact .advanceOpens (b := .paren) (by rw [hkind]; rfl)
    | bracketOpen => exact h.collection depth c (by rw [hkind]; rfl)
    | braceOpen => exact (h.closure depth).closes c
    | _ => exact Closes.unexpected.closes c
  | _ => exact Closes.unexpected.closes c

private theorem closes_closure_step : Closes [] (closure (fuel + 1) depth) := by
  have := h.braced
  rw [closure_eq]
  infer_instance

end Step

/-- Without a bound to spend every procedure fails, so that there is nothing to show. -/
private theorem allClose_zero : AllClose 0 := by
  -- without fuel nothing succeeds
  have hthrow : ∀ {α : Type} pending, Closes pending (MonadExceptOf.throw Stop.exhausted : Parser α) := fun _ =>
    Closes.throw _
  constructor
  case declaration | conditional | forLoop | collection =>
    intros
    exact fun c _ => (hthrow []).closes c
  all_goals
    intros
    exact hthrow _

/-- What every procedure closes, whatever the bound on its recursion is. -/
theorem allClose (fuel : Nat) : AllClose fuel := by
  induction fuel with
  | zero => exact allClose_zero
  | succ fuel ih =>
    exact {
      statements := closes_statements_step ih
      braced := closes_braced_step ih
      block := closes_block_step ih
      statement := closes_statement_step ih
      declaration := closes_declaration_step ih
      condition := closes_condition_step ih
      conditional := closes_conditional_step ih
      forLoop := closes_forLoop_step ih
      commandCall := closes_commandCall_step ih
      commandArgs := closes_commandArgs_step ih
      simple := closes_simple_step ih
      expr := closes_expr_step ih
      binary := closes_binary_step ih
      binaryFrom := closes_binaryFrom_step ih
      operand := closes_operand_step ih
      unary := closes_unary_step ih
      chain := closes_chain_step ih
      chainFrom := closes_chainFrom_step ih
      callArgs := closes_callArgs_step ih
      argsFrom := closes_argsFrom_step ih
      primary := closes_primary_step ih
      collection := closes_collection_step ih
      items := closes_items_step ih
      entries := closes_entries_step ih
      closure := closes_closure_step ih }


/-! ## Section 4: Programs -/

/-- The tokens of a program are balanced. -/
theorem balanced_of_parseTokens {ts : List Token} {last : Token} {p : List Stmt} (hts : Endless ts)
    (hlast : last.kind = .eof) (h : parseTokens (ts ++ [last]) = .ok p) :
    Balanced ((ts ++ [last]).map Token.kind) := by
  obtain ⟨fuel, hreads⟩ := readsTo_of_parseTokens hts hlast h
  have hclosed : Cursor.Closed ⟨last, []⟩ := hlast
  obtain ⟨_, hcloses⟩ := ((allClose fuel).statements 0 .eof).closes _ p ⟨last, []⟩ (Cursor.closed_before ts hclosed)
    (hreads fuel (Nat.le_refl _))
  have htokens : (Cursor.before ts ⟨last, []⟩).kinds = (ts ++ [last]).map Token.kind :=
    congrArg (List.map Token.kind) (Cursor.tokens_before ts ⟨last, []⟩)
  rw [← htokens]
  -- only the end of the input is left, and it closes nothing
  have hrole : last.kind.role = .plain := by
    rw [hlast]
    rfl
  exact (hcloses []).trans (closesAll_plain hrole)

end Grammar

end RowConsole.Script
