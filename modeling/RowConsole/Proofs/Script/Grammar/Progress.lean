import RowConsole.Script.Grammar

/-!
# Progress of the Grammar

Every procedure of the grammar takes a bound on its recursion. On token lists that are closed by the end of
the input, a bound of 32 for each token left is enough: a procedure gives the same answer with a larger bound,
and it is never cut off. The reason is that no procedure calls itself again before it has taken a token.

Main statements: `allSettled`, for every procedure at every cursor, and `parseTokens_eq`, by which the bound
that is chosen for a program may be replaced by any larger one.
-/

namespace RowConsole.Script.Grammar

/-! ## Section 1: Cursors -/

/-- The number of tokens behind the current one. -/
def Cursor.size (c : Cursor) : Nat :=
  c.rest.length

/-- The last token is the end of the input. -/
def Cursor.Closed (c : Cursor) : Prop :=
  (c.rest.getLastD c.token).kind = .eof

/-- A step keeps the end of the input in sight. -/
theorem Cursor.Closed.advance {c : Cursor} (h : c.Closed) : c.advance.Closed := by
  obtain ⟨t, rest⟩ := c
  cases rest with
  | nil => exact h
  | cons next rest =>
    rw [Cursor.Closed, List.getLastD_cons] at h
    exact h

/-- Behind any token but the end of the input there is another one. -/
theorem Cursor.size_advance {c : Cursor} (h : c.Closed) (hkind : c.kind ≠ .eof) :
    c.advance.size < c.size := by
  obtain ⟨t, rest⟩ := c
  cases rest with
  | nil => exact absurd h hkind
  | cons next rest => exact Nat.lt_succ_self _

/-- A step never adds tokens. -/
private theorem Cursor.size_advance_le (c : Cursor) : c.advance.size ≤ c.size := by
  obtain ⟨t, rest⟩ := c
  cases rest with
  | nil => exact Nat.le_refl _
  | cons next rest => exact Nat.le_succ _

/-- A token that is not to be skipped is where skipping ends. -/
theorem skipFrom_of_not {skips : TokenKind → Bool} {c : Cursor} (hskips : skips c.kind = false) :
    skipFrom skips c.token c.rest = c := by
  obtain ⟨t, rest⟩ := c
  cases rest with
  | nil => rfl
  | cons next rest =>
    have ht : skips t.kind = false := hskips
    exact if_neg (by simp [ht])

/-- Tokens to skip are skipped one at a time, up to the last one. -/
theorem skipFrom_of_skips {skips : TokenKind → Bool} {c : Cursor} (hskips : skips c.kind = true) :
    skipFrom skips c.token c.rest = skipFrom skips c.advance.token c.advance.rest := by
  obtain ⟨t, rest⟩ := c
  cases rest with
  | nil => rfl
  | cons next rest => exact if_pos hskips

/-- A chain goes on behind the line feeds that are skipped, and if it does not go on, none of them is. -/
theorem skipToChain_bind {α : Type} (next : PUnit → Parser α) (c : Cursor) :
    (skipToChain >>= next) c =
      next () (if continuesChain c = true then skipFrom (· = .newline) c.token c.rest else c) := by
  show ((if continuesChain c = true then skipNewlines else pure ()) c).bind _ = _
  split <;> rfl

/-- Skipping keeps the end of the input in sight. -/
theorem closed_skipFrom {skips : TokenKind → Bool} {token : Token} {rest : List Token}
    (h : Cursor.Closed ⟨token, rest⟩) : (skipFrom skips token rest).Closed := by
  induction rest generalizing token with
  | nil => exact h
  | cons next rest ih =>
    unfold skipFrom
    split
    · exact ih (Cursor.Closed.advance h)
    · exact h

/-- Skipping adds no tokens. -/
private theorem size_skipFrom (skips : TokenKind → Bool) (token : Token) (rest : List Token) :
    (skipFrom skips token rest).size ≤ rest.length := by
  induction rest generalizing token with
  | nil => exact Nat.le_refl _
  | cons next rest ih =>
    unfold skipFrom
    split
    · exact Nat.le_trans (ih next) (Nat.le_succ _)
    · exact Nat.le_refl _

/-- Names are taken from the front of the tokens. -/
theorem identifiers_suffix (tokens : List Token) : (identifiers tokens).2 <:+ tokens := by
  -- Names are read with the commas behind them, two tokens at a time.
  fun_induction identifiers tokens with
  | case1 name _ _ rest names tail hnames ih =>
    rw [hnames] at ih
    exact (ih.trans (List.suffix_cons _ _)).trans (List.suffix_cons _ _)
  | case2 name _ rest => exact List.suffix_cons _ _
  | case3 tokens => exact List.suffix_refl _

/-- What is left of closed tokens is closed, and there is no more of it. -/
theorem Cursor.Closed.of_suffix {c : Cursor} (h : c.Closed) {t : Token} {rest : List Token}
    (hsuffix : t :: rest <:+ c.token :: c.rest) : Cursor.Closed ⟨t, rest⟩ ∧ rest.length ≤ c.size := by
  -- the two lists end alike, and one of them is not longer
  obtain ⟨before, hbefore⟩ := hsuffix
  have hlast := congrArg List.getLast? hbefore
  have hlength := congrArg List.length hbefore
  simp only [List.getLast?_append, List.getLast?_cons, Option.some_or, Option.some.injEq] at hlast
  simp only [List.length_append, List.length_cons] at hlength
  refine ⟨?_, by unfold Cursor.size; omega⟩
  rw [Cursor.Closed, List.getLastD_eq_getLast?, hlast, ← List.getLastD_eq_getLast?]
  exact h

/-- Looking for the parameters of a closure never goes back. -/
theorem closureParams_closed {c : Cursor} (h : c.Closed) :
    (closureParams c).2.Closed ∧ (closureParams c).2.size ≤ c.size := by
  unfold closureParams
  split
  · exact ⟨h.advance, c.size_advance_le⟩
  · split
    · next names p rest hnames =>
      have hsuffix := identifiers_suffix (c.token :: c.rest)
      rw [hnames] at hsuffix
      obtain ⟨hclosed, hsize⟩ := h.of_suffix hsuffix
      -- Names without an arrow behind them are given back.
      split
      · exact ⟨h, Nat.le_refl _⟩
      · exact ⟨hclosed.advance, Nat.le_trans (Cursor.size_advance_le _) hsize⟩
    · exact ⟨h, Nat.le_refl _⟩

/-! ## Section 2: Settled Readers -/

variable {α β : Type} {n : Nat} {c : Cursor}

/-- Two readers agree at a cursor and are not cut off; they leave fewer than `n` tokens behind the current
one. -/
def Settled (n : Nat) (p q : Parser α) (c : Cursor) : Prop :=
  (∃ e, p c = .error (.failed e) ∧ q c = .error (.failed e)) ∨
    ∃ a c', p c = .ok (a, c') ∧ q c = .ok (a, c') ∧ c'.Closed ∧ c'.size < n

/-- A sequence of readers: the second one starts where the first one ended, unless that failed. -/
theorem bind_apply (p : Parser α) (k : α → Parser β) (c : Cursor) :
    (p >>= k) c = (p c).bind fun (a, c') => k a c' :=
  rfl

namespace Settled

/-- Leaving fewer tokens is leaving fewer than a larger number. -/
theorem mono {m : Nat} {p q : Parser α} (h : Settled n p q c) (hnm : n ≤ m) : Settled m p q c := by
  rcases h with h | ⟨a, c', hp, hq, hc', hsize⟩
  · exact Or.inl h
  · exact Or.inr ⟨a, c', hp, hq, hc', Nat.lt_of_lt_of_le hsize hnm⟩

/-- A result is the same with any bound. -/
protected theorem pure (hc : c.Closed) (a : α) (hn : c.size < n) : Settled n (pure a) (pure a) c :=
  Or.inr ⟨a, c, rfl, rfl, hc, hn⟩

/-- A failure is the same with any bound. -/
theorem failWith (cause : Cause) (p : Pos) :
    Settled n (Grammar.failWith cause p : Parser α) (Grammar.failWith cause p) c :=
  Or.inl ⟨_, rfl, rfl⟩

/-- What comes behind a failure does not matter. -/
private theorem failWith_bind (cause : Cause) (p : Pos) {f g : α → Parser β} :
    Settled n ((Grammar.failWith cause p : Parser α) >>= f) (Grammar.failWith cause p >>= g) c :=
  Or.inl ⟨_, rfl, rfl⟩

/-- A token that was not expected is the same with any bound. -/
theorem unexpected (expected : String) :
    Settled n (Grammar.unexpected expected : Parser α) (Grammar.unexpected expected) c :=
  Or.inl ⟨_, rfl, rfl⟩

/-- A sequence is settled if its first part is and the second part is wherever the first may end. -/
protected theorem bind {m : Nat} {p q : Parser α} {f g : α → Parser β} (h : Settled m p q c)
    (hf : ∀ a c', c'.Closed → c'.size < m → Settled n (f a) (g a) c') :
    Settled n (p >>= f) (q >>= g) c := by
  rcases h with ⟨e, hp, hq⟩ | ⟨a, c', hp, hq, hc', hsize⟩
  · refine Or.inl ⟨e, ?_, ?_⟩
    · rw [bind_apply, hp]
      rfl
    · rw [bind_apply, hq]
      rfl
  -- the first parts end in the same place, and the rest is asked for there
  · have hpf : (p >>= f) c = f a c' := by
      rw [bind_apply, hp]
      rfl
    have hqg : (q >>= g) c = g a c' := by
      rw [bind_apply, hq]
      rfl
    rw [Settled, hpf, hqg]
    exact hf a c' hc' hsize

/-- Looking at a token takes none. -/
theorem peek {f g : TokenKind → Parser α} (h : Settled n (f c.kind) (g c.kind) c) :
    Settled n (Grammar.peek >>= f) (Grammar.peek >>= g) c :=
  h

/-- Asking for the position takes no token. -/
theorem position {f g : Pos → Parser α} (h : Settled n (f c.token.pos) (g c.token.pos) c) :
    Settled n (Grammar.position >>= f) (Grammar.position >>= g) c :=
  h

/-- Reading the cursor takes no token. -/
protected theorem get {f g : Cursor → Parser α} (h : Settled n (f c) (g c) c) :
    Settled n (MonadState.get >>= f) (MonadState.get >>= g) c :=
  h

/-- Setting the cursor goes on from there. -/
protected theorem set {c' : Cursor} {f g : PUnit → Parser α} (h : Settled n (f ()) (g ()) c') :
    Settled n (MonadStateOf.set c' >>= f) (MonadStateOf.set c' >>= g) c :=
  h

/-- A step is one token less, which is said where its kind is known. -/
theorem advance {f g : Token → Parser α} (h : Settled n (f c.token) (g c.token) c.advance) :
    Settled n (Grammar.advance >>= f) (Grammar.advance >>= g) c :=
  h

/-- Behind line feeds there are no more tokens than before. -/
theorem skipNewlines (hc : c.Closed) {f g : PUnit → Parser α}
    (h : ∀ c', c'.Closed → c'.size ≤ c.size → Settled n (f ()) (g ()) c') :
    Settled n (Grammar.skipNewlines >>= f) (Grammar.skipNewlines >>= g) c :=
  h _ (closed_skipFrom hc) (size_skipFrom _ c.token c.rest)

/-- Behind separators there are no more tokens than before. -/
theorem skipSeparators (hc : c.Closed) {f g : PUnit → Parser α}
    (h : ∀ c', c'.Closed → c'.size ≤ c.size → Settled n (f ()) (g ()) c') :
    Settled n (Grammar.skipSeparators >>= f) (Grammar.skipSeparators >>= g) c :=
  h _ (closed_skipFrom hc) (size_skipFrom _ c.token c.rest)

/-- A token other than the end of the input may be taken or not. -/
theorem eat (hc : c.Closed) {kind : TokenKind} (hkind : kind ≠ .eof) {f g : Bool → Parser α}
    (htaken : ∀ c', c'.Closed → c'.size < c.size → Settled n (f true) (g true) c')
    (hleft : Settled n (f false) (g false) c) :
    Settled n (Grammar.eat kind >>= f) (Grammar.eat kind >>= g) c := by
  by_cases h : c.kind = kind
  · -- Both sides take the token.
    have heat : ∀ k : Bool → Parser α, (Grammar.eat kind >>= k) c = k true c.advance := by
      intro k
      show ((if c.kind = kind then _ else _ : Parser Bool) >>= k) c = _
      rw [if_pos h]
      rfl
    rw [Settled, heat, heat]
    exact htaken _ hc.advance (Cursor.size_advance hc (h ▸ hkind))
  · -- Both sides leave it.
    have heat : ∀ k : Bool → Parser α, (Grammar.eat kind >>= k) c = k false c := by
      intro k
      show ((if c.kind = kind then _ else _ : Parser Bool) >>= k) c = _
      rw [if_neg h]
      rfl
    rw [Settled, heat, heat]
    exact hleft

/-- The same, where it does not matter what is done. -/
theorem eatAny (hc : c.Closed) {kind : TokenKind} (hkind : kind ≠ .eof) {f g : Bool → Parser α}
    (h : ∀ taken c', c'.Closed → c'.size ≤ c.size → Settled n (f taken) (g taken) c') :
    Settled n (Grammar.eat kind >>= f) (Grammar.eat kind >>= g) c :=
  eat hc hkind (fun c' hc' hsize => h true c' hc' (Nat.le_of_lt hsize)) (h false c hc (Nat.le_refl _))

/-- A keyword in front of the name, or none. -/
theorem skipDeclarator (hc : c.Closed) : Settled (c.size + 1) Grammar.skipDeclarator Grammar.skipDeclarator c := by
  refine Settled.eat hc (by simp) (fun c₁ hc₁ hsize₁ => ?_) ?_
  · exact Settled.pure hc₁ _ (by omega)
  · refine Settled.eatAny hc (by simp) fun _ c₁ hc₁ hsize₁ => ?_
    exact Settled.pure hc₁ _ (by omega)

/-- An expected token is taken, unless it would be the end of the input. -/
theorem expect (hc : c.Closed) {kind : TokenKind} (hkind : kind ≠ .eof) (expected : String) :
    Settled c.size (Grammar.expect kind expected) (Grammar.expect kind expected) c := by
  refine Settled.peek ?_
  split
  · next h => exact Settled.advance (Settled.pure hc.advance _ (Cursor.size_advance hc (h ▸ hkind)))
  · exact unexpected expected

/-- An expected token may be the end of the input, which is not taken. -/
private theorem expectAny (hc : c.Closed) (kind : TokenKind) (expected : String) :
    Settled (c.size + 1) (Grammar.expect kind expected) (Grammar.expect kind expected) c := by
  have hsize := c.size_advance_le
  refine Settled.peek ?_
  split
  · exact Settled.advance (Settled.pure hc.advance _ (by omega))
  · exact unexpected expected

/-- A key takes its token before it is looked at, so the last token may stay. -/
theorem expectKey (hc : c.Closed) : Settled (c.size + 1) Grammar.expectKey Grammar.expectKey c := by
  have hsize := c.size_advance_le
  refine Settled.advance ?_
  split
  · exact Settled.pure hc.advance _ (by omega)
  · exact Settled.pure hc.advance _ (by omega)
  · exact unexpected _

/-- Looking for a link takes line feeds at most. -/
theorem skipToChain (hc : c.Closed) {f g : PUnit → Parser α}
    (h : ∀ c', c'.Closed → c'.size ≤ c.size → Settled n (f ()) (g ()) c') :
    Settled n (Grammar.skipToChain >>= f) (Grammar.skipToChain >>= g) c := by
  refine Settled.bind (m := c.size + 1) (Settled.get ?_) fun _ c' hc' hsize => h c' hc' (by omega)
  split
  · exact Or.inr ⟨(), _, rfl, rfl, closed_skipFrom hc, Nat.lt_succ_of_le (size_skipFrom _ c.token c.rest)⟩
  · exact Settled.pure hc _ (Nat.lt_succ_self _)

/-- A name is never the end of the input. -/
theorem expectIdent (hc : c.Closed) : Settled c.size Grammar.expectIdent Grammar.expectIdent c := by
  refine Settled.peek ?_
  split
  · next name h =>
    have hkind : c.kind ≠ .eof := by simp [h]
    exact Settled.advance (Settled.pure hc.advance _ (Cursor.size_advance hc hkind))
  · exact unexpected _

/-- The depth decides whether a level is entered, with any bound. -/
theorem enter {depth : Nat} {f g : Nat → Parser α} (h : Settled n (f (depth + 1)) (g (depth + 1)) c) :
    Settled n (Grammar.enter depth >>= f) (Grammar.enter depth >>= g) c := by
  -- too deep, and both fail at the same token
  by_cases hdepth : maxNesting < depth + 1
  · refine Or.inl ⟨{ cause := .nestedTooDeeply, pos := some c.token.pos }, ?_, ?_⟩
    · show ((if maxNesting < depth + 1 then _ else _ : Parser Nat) >>= f) c = _
      rw [if_pos hdepth]
      rfl
    · show ((if maxNesting < depth + 1 then _ else _ : Parser Nat) >>= g) c = _
      rw [if_pos hdepth]
      rfl
  · have henter : ∀ k : Nat → Parser α, (Grammar.enter depth >>= k) c = k (depth + 1) c := by
      intro k
      show ((if maxNesting < depth + 1 then _ else _ : Parser Nat) >>= k) c = _
      rw [if_neg hdepth]
      rfl
    rw [Settled, henter, henter]
    exact h

end Settled

/-! ## Section 3: Parameters -/

/-- A name takes a token, so the bound goes down by less than the tokens allow. -/
private theorem settled_paramsFrom {fuel : Nat} (names : List String) (hc : c.Closed)
    (hfuel : 32 * c.size + 1 ≤ fuel) :
    Settled c.size (paramsFrom fuel names) (paramsFrom (fuel + 1) names) c := by
  -- On the bound: no tokens are few enough for none, so there is a step to take.
  induction fuel generalizing names c with
  | zero => omega
  | succ fuel ih =>
    unfold paramsFrom
    -- a keyword in front may be taken or not; the name is taken in any case
    refine Settled.eatAny hc (by simp) fun _ c₁ hc₁ hsize₁ => ?_
    refine (Settled.expectIdent hc₁).bind fun name c₂ hc₂ hsize₂ => ?_
    dsimp only
    split
    · exact Settled.position (Settled.failWith_bind _ _)
    · refine Settled.skipNewlines hc₂ fun c₃ hc₃ hsize₃ => ?_
      refine Settled.eat hc₃ (by simp) (fun c₄ hc₄ hsize₄ => ?_) ?_
      · refine Settled.skipNewlines hc₄ fun c₅ hc₅ hsize₅ => ?_
        -- A name and a comma are taken, which is more than the step in fuel needs.
        exact (ih _ hc₅ (by omega)).mono (by omega)
      · refine (Settled.expect hc₃ (by simp) _).bind fun _ c₄ hc₄ hsize₄ => ?_
        exact Settled.pure hc₄ _ (by omega)

/-- The parenthesis is a token taken before the names are counted. -/
private theorem settled_params {fuel : Nat} (hc : c.Closed) (hfuel : 32 * c.size ≤ fuel) :
    Settled c.size (params fuel) (params (fuel + 1)) c := by
  refine (Settled.expect hc (by simp) _).bind fun _ c₁ hc₁ hsize₁ => ?_
  refine Settled.skipNewlines hc₁ fun c₂ hc₂ hsize₂ => ?_
  refine Settled.eat hc₂ (by simp) (fun c₃ hc₃ hsize₃ => ?_) ?_
  · exact Settled.pure hc₃ _ (by omega)
  · exact (settled_paramsFrom [] hc₂ (by omega)).mono (by omega)

/-! ## Section 4: All Procedures -/

/-- Every procedure is settled with a bound on its recursion wherever that bound is large enough for the
tokens left. The numbers besides 32 count the procedures that may follow before a token is taken. -/
structure AllSettled (fuel : Nat) : Prop where
  statements : ∀ depth stop {c : Cursor}, c.Closed → 32 * c.size + 20 ≤ fuel →
    Settled (c.size + 1) (statements fuel depth stop) (statements (fuel + 1) depth stop) c
  braced : ∀ depth {c : Cursor}, c.Closed → 32 * c.size + 21 ≤ fuel →
    Settled c.size (braced fuel depth) (braced (fuel + 1) depth) c
  block : ∀ depth {c : Cursor}, c.Closed → 32 * c.size + 20 ≤ fuel →
    Settled c.size (block fuel depth) (block (fuel + 1) depth) c
  statement : ∀ depth {c : Cursor}, c.Closed → 32 * c.size + 19 ≤ fuel →
    Settled c.size (statement fuel depth) (statement (fuel + 1) depth) c
  declaration : ∀ depth {c : Cursor}, c.Closed → c.kind ≠ .eof → 32 * c.size ≤ fuel →
    Settled c.size (declaration fuel depth) (declaration (fuel + 1) depth) c
  condition : ∀ depth {c : Cursor}, c.Closed → 32 * c.size + 1 ≤ fuel →
    Settled c.size (condition fuel depth) (condition (fuel + 1) depth) c
  conditional : ∀ depth {c : Cursor}, c.Closed → c.kind ≠ .eof → 32 * c.size ≤ fuel →
    Settled c.size (conditional fuel depth) (conditional (fuel + 1) depth) c
  forLoop : ∀ depth {c : Cursor}, c.Closed → c.kind ≠ .eof → 32 * c.size ≤ fuel →
    Settled c.size (forLoop fuel depth) (forLoop (fuel + 1) depth) c
  commandCall : ∀ depth {c : Cursor}, c.Closed → 32 * c.size + 1 ≤ fuel →
    Settled c.size (commandCall fuel depth) (commandCall (fuel + 1) depth) c
  commandArgs : ∀ depth {c : Cursor}, c.Closed → 32 * c.size + 18 ≤ fuel →
    Settled c.size (commandArgs fuel depth) (commandArgs (fuel + 1) depth) c
  simple : ∀ depth {c : Cursor}, c.Closed → 32 * c.size + 18 ≤ fuel →
    Settled c.size (simple fuel depth) (simple (fuel + 1) depth) c
  expr : ∀ depth {c : Cursor}, c.Closed → 32 * c.size + 17 ≤ fuel →
    Settled c.size (expr fuel depth) (expr (fuel + 1) depth) c
  binary : ∀ depth level {c : Cursor}, c.Closed → 32 * c.size + (16 - 2 * level.rank) ≤ fuel →
    Settled c.size (binary fuel depth level) (binary (fuel + 1) depth level) c
  binaryFrom : ∀ depth level left {c : Cursor}, c.Closed → 32 * c.size + 1 ≤ fuel →
    Settled (c.size + 1) (binaryFrom fuel depth level left) (binaryFrom (fuel + 1) depth level left) c
  operand : ∀ depth level {c : Cursor}, c.Closed → 32 * c.size + (15 - 2 * level.rank) ≤ fuel →
    Settled c.size (operand fuel depth level) (operand (fuel + 1) depth level) c
  unary : ∀ depth {c : Cursor}, c.Closed → 32 * c.size + 4 ≤ fuel →
    Settled c.size (unary fuel depth) (unary (fuel + 1) depth) c
  chain : ∀ depth {c : Cursor}, c.Closed → 32 * c.size + 3 ≤ fuel →
    Settled c.size (chain fuel depth) (chain (fuel + 1) depth) c
  chainFrom : ∀ depth object {c : Cursor}, c.Closed → 32 * c.size + 2 ≤ fuel →
    Settled (c.size + 1) (chainFrom fuel depth object) (chainFrom (fuel + 1) depth object) c
  callArgs : ∀ depth {c : Cursor}, c.Closed → 32 * c.size + 1 ≤ fuel →
    Settled c.size (callArgs fuel depth) (callArgs (fuel + 1) depth) c
  argsFrom : ∀ depth {c : Cursor}, c.Closed → 32 * c.size + 18 ≤ fuel →
    Settled c.size (argsFrom fuel depth) (argsFrom (fuel + 1) depth) c
  primary : ∀ depth {c : Cursor}, c.Closed → 32 * c.size + 2 ≤ fuel →
    Settled c.size (primary fuel depth) (primary (fuel + 1) depth) c
  collection : ∀ depth {c : Cursor}, c.Closed → c.kind ≠ .eof → 32 * c.size ≤ fuel →
    Settled c.size (collection fuel depth) (collection (fuel + 1) depth) c
  items : ∀ depth {c : Cursor}, c.Closed → 32 * c.size + 18 ≤ fuel →
    Settled c.size (items fuel depth) (items (fuel + 1) depth) c
  entries : ∀ depth {c : Cursor}, c.Closed → 32 * c.size + 1 ≤ fuel →
    Settled c.size (entries fuel depth) (entries (fuel + 1) depth) c
  closure : ∀ depth {c : Cursor}, c.Closed → 32 * c.size + 1 ≤ fuel →
    Settled c.size (closure fuel depth) (closure (fuel + 1) depth) c

section Step

variable {fuel : Nat} (h : AllSettled fuel) (depth : Nat)
include h

/-- A statement and its separator take tokens before more statements are read. -/
private theorem statements_step (stop : TokenKind) (hc : c.Closed) (hfuel : 32 * c.size + 20 ≤ fuel + 1) :
    Settled (c.size + 1) (statements (fuel + 1) depth stop) (statements (fuel + 2) depth stop) c := by
  unfold statements
  refine Settled.skipSeparators hc fun c₁ hc₁ hsize₁ => Settled.peek ?_
  split
  · exact Settled.pure hc₁ _ (by omega)
  · next hkind =>
    refine (h.statement depth hc₁ (by omega)).bind fun s c₂ hc₂ hsize₂ => Settled.peek ?_
    split
    · refine (h.statements depth stop hc₂ (by omega)).bind fun rest c₃ hc₃ hsize₃ => ?_
      exact Settled.pure hc₃ _ (by omega)
    · exact Settled.unexpected _

/-- The statements of a body, and its closing brace. -/
private theorem braced_step (hc : c.Closed) (hfuel : 32 * c.size + 21 ≤ fuel + 1) :
    Settled c.size (braced (fuel + 1) depth) (braced (fuel + 2) depth) c := by
  unfold braced
  refine (h.statements depth _ hc (by omega)).bind fun body c₁ hc₁ hsize₁ => ?_
  refine (Settled.expect hc₁ (by simp) _).bind fun _ c₂ hc₂ hsize₂ => ?_
  exact Settled.pure hc₂ _ (by omega)

/-- A block may be a single statement, for which the bound is one less. -/
private theorem block_step (hc : c.Closed) (hfuel : 32 * c.size + 20 ≤ fuel + 1) :
    Settled c.size (block (fuel + 1) depth) (block (fuel + 2) depth) c := by
  unfold block
  refine Settled.enter (Settled.skipNewlines hc fun c₁ hc₁ hsize₁ => ?_)
  refine Settled.eat hc₁ (by simp) (fun c₂ hc₂ hsize₂ => ?_) ?_
  · exact (h.braced _ hc₂ (by omega)).mono (by omega)
  · refine (h.statement _ hc₁ (by omega)).bind fun s c₂ hc₂ hsize₂ => ?_
    exact Settled.pure hc₂ _ (by omega)

/-- Each kind of statement has a bound that fits below that of statements. -/
private theorem statement_step (hc : c.Closed) (hfuel : 32 * c.size + 19 ≤ fuel + 1) :
    Settled c.size (statement (fuel + 1) depth) (statement (fuel + 2) depth) c := by
  -- Where a keyword is taken the size goes down; elsewhere the fuel steps down with the procedure.
  unfold statement
  refine Settled.peek ?_
  split
  · next hkind => exact h.declaration depth hc (by simp [hkind]) (by omega)
  · next hkind => exact h.declaration depth hc (by simp [hkind]) (by omega)
  · next hkind => exact h.conditional depth hc (by simp [hkind]) (by omega)
  · next hkind =>
    have hsize := Cursor.size_advance hc (by simp [hkind])
    refine Settled.advance ((h.condition depth hc.advance (by omega)).bind fun cond c₁ hc₁ hsize₁ => ?_)
    refine (h.block depth hc₁ (by omega)).bind fun body c₂ hc₂ hsize₂ => ?_
    exact Settled.pure hc₂ _ (by omega)
  · next hkind => exact h.forLoop depth hc (by simp [hkind]) (by omega)
  · next hkind =>
    have hsize := Cursor.size_advance hc (by simp [hkind])
    refine Settled.advance (Settled.peek ?_)
    split
    · exact Settled.pure hc.advance _ hsize
    · refine (h.expr depth hc.advance (by omega)).bind fun e c₁ hc₁ hsize₁ => ?_
      exact Settled.pure hc₁ _ (by omega)
  · next hkind =>
    exact Settled.advance (Settled.pure hc.advance _ (Cursor.size_advance hc (by simp [hkind])))
  · next hkind =>
    exact Settled.advance (Settled.pure hc.advance _ (Cursor.size_advance hc (by simp [hkind])))
  · refine Settled.get ?_
    split
    · exact h.commandCall depth hc (by omega)
    · exact h.simple depth hc (by omega)

/-- The keyword is a token taken, so that any bound below may be asked for. -/
private theorem declaration_step (hc : c.Closed) (hkind : c.kind ≠ .eof) (hfuel : 32 * c.size ≤ fuel + 1) :
    Settled c.size (declaration (fuel + 1) depth) (declaration (fuel + 2) depth) c := by
  unfold declaration
  have hsize := Cursor.size_advance hc hkind
  refine Settled.advance ((Settled.expectIdent hc.advance).bind fun name c₁ hc₁ hsize₁ => Settled.peek ?_)
  split
  · refine (settled_params hc₁ (by omega)).bind fun ps c₂ hc₂ hsize₂ => ?_
    refine Settled.skipNewlines hc₂ fun c₃ hc₃ hsize₃ => ?_
    refine (Settled.expect hc₃ (by simp) _).bind fun _ c₄ hc₄ hsize₄ => ?_
    refine (h.braced depth hc₄ (by omega)).bind fun body c₅ hc₅ hsize₅ => ?_
    exact Settled.pure hc₅ _ (by omega)
  · refine Settled.eat hc₁ (by simp) (fun c₂ hc₂ hsize₂ => ?_) ?_
    · refine Settled.skipNewlines hc₂ fun c₃ hc₃ hsize₃ => ?_
      refine (h.expr depth hc₃ (by omega)).bind fun e c₄ hc₄ hsize₄ => ?_
      exact Settled.pure hc₄ _ (by omega)
    · exact Settled.pure hc₁ _ (by omega)

private theorem condition_step (hc : c.Closed) (hfuel : 32 * c.size + 1 ≤ fuel + 1) :
    Settled c.size (condition (fuel + 1) depth) (condition (fuel + 2) depth) c := by
  unfold condition
  refine (Settled.expect hc (by simp) _).bind fun _ c₁ hc₁ hsize₁ => ?_
  refine Settled.skipNewlines hc₁ fun c₂ hc₂ hsize₂ => ?_
  refine (h.expr depth hc₂ (by omega)).bind fun cond c₃ hc₃ hsize₃ => ?_
  refine Settled.skipNewlines hc₃ fun c₄ hc₄ hsize₄ => ?_
  refine (Settled.expect hc₄ (by simp) _).bind fun _ c₅ hc₅ hsize₅ => ?_
  exact Settled.pure hc₅ _ (by omega)

/-- A chain of conditions takes a keyword for each of them. -/
private theorem conditional_step (hc : c.Closed) (hkind : c.kind ≠ .eof) (hfuel : 32 * c.size ≤ fuel + 1) :
    Settled c.size (conditional (fuel + 1) depth) (conditional (fuel + 2) depth) c := by
  unfold conditional
  have hsize := Cursor.size_advance hc hkind
  refine Settled.advance ((h.condition depth hc.advance (by omega)).bind fun cond c₁ hc₁ hsize₁ => ?_)
  refine (h.block depth hc₁ (by omega)).bind fun body c₂ hc₂ hsize₂ => Settled.get ?_
  refine Settled.skipSeparators hc₂ fun c₃ hc₃ hsize₃ => ?_
  refine Settled.eat hc₃ (by simp) (fun c₄ hc₄ hsize₄ => Settled.peek ?_) ?_
  · split
    · next hif =>
      refine (h.conditional depth hc₄ (by simp [hif]) (by omega)).bind fun s c₅ hc₅ hsize₅ => ?_
      exact Settled.pure hc₅ _ (by omega)
    · refine (h.block depth hc₄ (by omega)).bind fun body c₅ hc₅ hsize₅ => ?_
      exact Settled.pure hc₅ _ (by omega)
  · -- Without an alternative the cursor goes back behind the body.
    exact Settled.set (Settled.pure hc₂ _ (by omega))

private theorem forLoop_step (hc : c.Closed) (hkind : c.kind ≠ .eof) (hfuel : 32 * c.size ≤ fuel + 1) :
    Settled c.size (forLoop (fuel + 1) depth) (forLoop (fuel + 2) depth) c := by
  unfold forLoop
  have hsize := Cursor.size_advance hc hkind
  refine Settled.advance ((Settled.expect hc.advance (by simp) _).bind fun _ c₁ hc₁ hsize₁ => ?_)
  refine (Settled.skipDeclarator hc₁).bind fun _ c₂ hc₂ hsize₂ => ?_
  refine (Settled.expectIdent hc₂).bind fun var c₃ hc₃ hsize₃ => ?_
  refine (Settled.expect hc₃ (by simp) _).bind fun _ c₄ hc₄ hsize₄ => ?_
  refine (h.expr depth hc₄ (by omega)).bind fun items c₅ hc₅ hsize₅ => ?_
  refine (Settled.expect hc₅ (by simp) _).bind fun _ c₆ hc₆ hsize₆ => ?_
  refine (h.block depth hc₆ (by omega)).bind fun body c₇ hc₇ hsize₇ => ?_
  exact Settled.pure hc₇ _ (by omega)

private theorem commandCall_step (hc : c.Closed) (hfuel : 32 * c.size + 1 ≤ fuel + 1) :
    Settled c.size (commandCall (fuel + 1) depth) (commandCall (fuel + 2) depth) c := by
  unfold commandCall
  refine Settled.position ((Settled.expectIdent hc).bind fun name c₁ hc₁ hsize₁ => ?_)
  refine (h.commandArgs depth hc₁ (by omega)).bind fun args c₂ hc₂ hsize₂ => ?_
  exact Settled.pure hc₂ _ (by omega)

private theorem commandArgs_step (hc : c.Closed) (hfuel : 32 * c.size + 18 ≤ fuel + 1) :
    Settled c.size (commandArgs (fuel + 1) depth) (commandArgs (fuel + 2) depth) c := by
  unfold commandArgs
  refine (h.expr depth hc (by omega)).bind fun arg c₁ hc₁ hsize₁ => ?_
  refine Settled.eat hc₁ (by simp) (fun c₂ hc₂ hsize₂ => ?_) (Settled.pure hc₁ _ (by omega))
  refine Settled.skipNewlines hc₂ fun c₃ hc₃ hsize₃ => ?_
  refine (h.commandArgs depth hc₃ (by omega)).bind fun rest c₄ hc₄ hsize₄ => ?_
  exact Settled.pure hc₄ _ (by omega)

private theorem simple_step (hc : c.Closed) (hfuel : 32 * c.size + 18 ≤ fuel + 1) :
    Settled c.size (simple (fuel + 1) depth) (simple (fuel + 2) depth) c := by
  unfold simple
  refine Settled.position ((h.expr depth hc (by omega)).bind fun target c₁ hc₁ hsize₁ => Settled.peek ?_)
  split
  · exact Settled.pure hc₁ _ hsize₁
  -- an operator of assignments is no end of the input
  · next op hop =>
    have hkind : c₁.kind ≠ .eof := by
      intro heof
      rw [heof] at hop
      contradiction
    have hsize := Cursor.size_advance hc₁ hkind
    split
    · refine Settled.advance (Settled.skipNewlines hc₁.advance fun c₂ hc₂ hsize₂ => ?_)
      refine (h.expr depth hc₂ (by omega)).bind fun e c₃ hc₃ hsize₃ => ?_
      exact Settled.pure hc₃ _ (by omega)
    · exact Settled.failWith _ _

/-- From an expression to the weakest operators: one step of the bound, and no token. -/
private theorem expr_step (hc : c.Closed) (hfuel : 32 * c.size + 17 ≤ fuel + 1) :
    Settled c.size (expr (fuel + 1) depth) (expr (fuel + 2) depth) c := by
  unfold expr
  exact Settled.enter (h.binary _ .or hc (by simp only [Level.rank]; omega))

/-- From one level to its operands, and then along its operators. -/
private theorem binary_step (level : Level) (hc : c.Closed) (hfuel : 32 * c.size + (16 - 2 * level.rank) ≤ fuel + 1) :
    Settled c.size (binary (fuel + 1) depth level) (binary (fuel + 2) depth level) c := by
  unfold binary
  have hrank := level.rank_le
  refine (h.operand depth level hc (by omega)).bind fun left c₁ hc₁ hsize₁ => ?_
  exact (h.binaryFrom depth level left hc₁ (by omega)).mono (by omega)

/-- An operator is a token taken. -/
private theorem binaryFrom_step (level : Level) (left : Expr) (hc : c.Closed) (hfuel : 32 * c.size + 1 ≤ fuel + 1) :
    Settled (c.size + 1) (binaryFrom (fuel + 1) depth level left) (binaryFrom (fuel + 2) depth level left) c := by
  unfold binaryFrom
  refine Settled.peek (Settled.position ?_)
  split
  · exact Settled.pure hc _ (Nat.lt_succ_self _)
  · next join hjoin =>
    have hkind : c.kind ≠ .eof := by
      intro heof
      rw [heof] at hjoin
      cases level <;> contradiction
    have hsize := Cursor.size_advance hc hkind
    refine Settled.advance (Settled.skipNewlines hc.advance fun c₁ hc₁ hsize₁ => ?_)
    refine (h.operand depth level hc₁ (by omega)).bind fun right c₂ hc₂ hsize₂ => ?_
    exact (h.binaryFrom depth level _ hc₂ (by omega)).mono (by omega)

/-- From one level to the next: two steps of the bound for each rank. -/
private theorem operand_step (level : Level) (hc : c.Closed) (hfuel : 32 * c.size + (15 - 2 * level.rank) ≤ fuel + 1) :
    Settled c.size (operand (fuel + 1) depth level) (operand (fuel + 2) depth level) c := by
  unfold operand
  split
  · next tighter htighter =>
    refine h.binary depth tighter hc ?_
    -- the next level has the next rank, and the bound is asked for by ranks
    cases level <;> cases htighter <;> simp only [Level.rank] at hfuel ⊢ <;> omega
  · next hlast =>
    refine h.unary depth hc ?_
    cases level <;> first | contradiction | (simp only [Level.rank] at hfuel; omega)

/-- An operator in front is a token taken; without one the bound goes down by one. -/
private theorem unary_step (hc : c.Closed) (hfuel : 32 * c.size + 4 ≤ fuel + 1) :
    Settled c.size (unary (fuel + 1) depth) (unary (fuel + 2) depth) c := by
  unfold unary
  refine Settled.peek ?_
  split
  · exact h.chain depth hc (by omega)
  · next op hop =>
    have hkind : c.kind ≠ .eof := by
      intro heof
      rw [heof] at hop
      contradiction
    have hsize := Cursor.size_advance hc hkind
    refine Settled.advance (Settled.enter ?_)
    refine (h.unary _ hc.advance (by omega)).bind fun e c₁ hc₁ hsize₁ => ?_
    exact Settled.pure hc₁ _ (by omega)

/-- The head takes a token, so there are fewer for the links. -/
private theorem chain_step (hc : c.Closed) (hfuel : 32 * c.size + 3 ≤ fuel + 1) :
    Settled c.size (chain (fuel + 1) depth) (chain (fuel + 2) depth) c := by
  unfold chain
  refine (h.primary depth hc (by omega)).bind fun head c₁ hc₁ hsize₁ => ?_
  exact (h.chainFrom depth head hc₁ (by omega)).mono (by omega)

private theorem chainFrom_step (object : Expr) (hc : c.Closed) (hfuel : 32 * c.size + 2 ≤ fuel + 1) :
    Settled (c.size + 1) (chainFrom (fuel + 1) depth object) (chainFrom (fuel + 2) depth object) c := by
  -- A link takes its first sign, so the chain behind it is shorter.
  unfold chainFrom
  refine Settled.skipToChain hc fun c₁ hc₁ hsize₁ => Settled.peek ?_
  split
  · next hkind =>
    have hsize := Cursor.size_advance hc₁ (by simp [hkind])
    refine Settled.advance ((Settled.expectIdent hc₁.advance).bind fun name c₂ hc₂ hsize₂ => Settled.peek ?_)
    split
    · refine (h.callArgs depth hc₂ (by omega)).bind fun args c₃ hc₃ hsize₃ => ?_
      exact (h.chainFrom depth _ hc₃ (by omega)).mono (by omega)
    · split
      · refine (h.closure depth hc₂ (by omega)).bind fun body c₃ hc₃ hsize₃ => ?_
        exact (h.chainFrom depth _ hc₃ (by omega)).mono (by omega)
      · exact (h.chainFrom depth _ hc₂ (by omega)).mono (by omega)
  · next hkind =>
    have hsize := Cursor.size_advance hc₁ (by simp [hkind])
    refine Settled.advance (Settled.skipNewlines hc₁.advance fun c₂ hc₂ hsize₂ => ?_)
    refine (h.expr depth hc₂ (by omega)).bind fun index c₃ hc₃ hsize₃ => ?_
    refine Settled.skipNewlines hc₃ fun c₄ hc₄ hsize₄ => ?_
    refine (Settled.expect hc₄ (by simp) _).bind fun _ c₅ hc₅ hsize₅ => ?_
    exact (h.chainFrom depth _ hc₅ (by omega)).mono (by omega)
  · refine Settled.position ((h.callArgs depth hc₁ (by omega)).bind fun args c₂ hc₂ hsize₂ => ?_)
    exact (h.chainFrom depth _ hc₂ (by omega)).mono (by omega)
  · exact Settled.pure hc₁ _ (by omega)

/-- The parenthesis is a token taken, before arguments and behind them. -/
private theorem callArgs_step (hc : c.Closed) (hfuel : 32 * c.size + 1 ≤ fuel + 1) :
    Settled c.size (callArgs (fuel + 1) depth) (callArgs (fuel + 2) depth) c := by
  unfold callArgs
  refine (Settled.expect hc (by simp) _).bind fun _ c₁ hc₁ hsize₁ => ?_
  refine Settled.skipNewlines hc₁ fun c₂ hc₂ hsize₂ => ?_
  -- A closure behind the arguments is read with and without arguments.
  have htrailing : ∀ args (c₃ : Cursor), c₃.Closed → c₃.size < c.size → Settled c.size
      (do if (← peek) = .symbol .braceOpen then return args ++ [← closure fuel depth] else return args)
      (do if (← peek) = .symbol .braceOpen then return args ++ [← closure (fuel + 1) depth] else return args)
      c₃ := by
    intro args c₃ hc₃ hsize₃
    refine Settled.peek ?_
    split
    · refine (h.closure depth hc₃ (by omega)).bind fun body c₄ hc₄ hsize₄ => ?_
      exact Settled.pure hc₄ _ (by omega)
    · exact Settled.pure hc₃ _ hsize₃
  refine Settled.eat hc₂ (by simp) (fun c₃ hc₃ hsize₃ => htrailing [] c₃ hc₃ (by omega)) ?_
  refine (h.argsFrom depth hc₂ (by omega)).bind fun args c₃ hc₃ hsize₃ => ?_
  exact htrailing args c₃ hc₃ (by omega)

private theorem argsFrom_step (hc : c.Closed) (hfuel : 32 * c.size + 18 ≤ fuel + 1) :
    Settled c.size (argsFrom (fuel + 1) depth) (argsFrom (fuel + 2) depth) c := by
  unfold argsFrom
  refine (h.expr depth hc (by omega)).bind fun arg c₁ hc₁ hsize₁ => ?_
  refine Settled.skipNewlines hc₁ fun c₂ hc₂ hsize₂ => ?_
  refine Settled.eat hc₂ (by simp) (fun c₃ hc₃ hsize₃ => ?_) ?_
  · refine Settled.skipNewlines hc₃ fun c₄ hc₄ hsize₄ => ?_
    refine (h.argsFrom depth hc₄ (by omega)).bind fun rest c₅ hc₅ hsize₅ => ?_
    exact Settled.pure hc₅ _ (by omega)
  · refine (Settled.expect hc₂ (by simp) _).bind fun _ c₃ hc₃ hsize₃ => ?_
    exact Settled.pure hc₃ _ (by omega)

/-- A leaf takes its token; a form in brackets takes its bracket. -/
private theorem primary_step (hc : c.Closed) (hfuel : 32 * c.size + 2 ≤ fuel + 1) :
    Settled c.size (primary (fuel + 1) depth) (primary (fuel + 2) depth) c := by
  -- Leaves take one token and call nothing.
  have hleaf : ∀ e : Expr, c.kind ≠ .eof →
      Settled c.size (advance >>= fun _ => (pure e : Parser Expr)) (advance >>= fun _ => pure e) c :=
    fun e hkind => Settled.advance (Settled.pure hc.advance _ (Cursor.size_advance hc hkind))
  refine Settled.peek ?_
  cases hkind : c.kind with
  | int n => exact hleaf _ (by simp [hkind])
  | float literal => exact hleaf _ (by simp [hkind])
  | str text => exact hleaf _ (by simp [hkind])
  | ident name => exact Settled.position (hleaf _ (by simp [hkind]))
  | keyword k =>
    cases k with
    | trues => exact hleaf _ (by simp [hkind])
    | falses => exact hleaf _ (by simp [hkind])
    | nulls => exact hleaf _ (by simp [hkind])
    | _ => exact Settled.unexpected _
  | symbol s =>
    cases s with
    | parenOpen =>
      have hsize := Cursor.size_advance hc (by simp [hkind])
      refine Settled.advance (Settled.skipNewlines hc.advance fun c₁ hc₁ hsize₁ => ?_)
      refine (h.expr depth hc₁ (by omega)).bind fun inner c₂ hc₂ hsize₂ => ?_
      refine Settled.skipNewlines hc₂ fun c₃ hc₃ hsize₃ => ?_
      refine (Settled.expect hc₃ (by simp) _).bind fun _ c₄ hc₄ hsize₄ => ?_
      exact Settled.pure hc₄ _ (by omega)
    | bracketOpen => exact h.collection depth hc (by simp [hkind]) (by omega)
    | braceOpen => exact h.closure depth hc (by omega)
    | _ => exact Settled.unexpected _
  | newline => exact Settled.unexpected _
  | eof => exact Settled.unexpected _

private theorem collection_step (hc : c.Closed) (hkind : c.kind ≠ .eof) (hfuel : 32 * c.size ≤ fuel + 1) :
    Settled c.size (collection (fuel + 1) depth) (collection (fuel + 2) depth) c := by
  unfold collection
  have hsize := Cursor.size_advance hc hkind
  refine Settled.advance (Settled.skipNewlines hc.advance fun c₁ hc₁ hsize₁ => ?_)
  refine Settled.eat hc₁ (by simp) (fun c₂ hc₂ hsize₂ => ?_) (Settled.get ?_)
  · refine (Settled.expect hc₂ (by simp) _).bind fun _ c₃ hc₃ hsize₃ => ?_
    exact Settled.pure hc₃ _ (by omega)
  · split
    · refine (h.entries depth hc₁ (by omega)).bind fun entries c₂ hc₂ hsize₂ => ?_
      exact Settled.pure hc₂ _ (by omega)
    · refine (h.items depth hc₁ (by omega)).bind fun items c₂ hc₂ hsize₂ => ?_
      exact Settled.pure hc₂ _ (by omega)

private theorem items_step (hc : c.Closed) (hfuel : 32 * c.size + 18 ≤ fuel + 1) :
    Settled c.size (items (fuel + 1) depth) (items (fuel + 2) depth) c := by
  unfold items
  refine Settled.skipNewlines hc fun c₁ hc₁ hsize₁ => ?_
  refine Settled.eat hc₁ (by simp) (fun c₂ hc₂ hsize₂ => Settled.pure hc₂ _ (by omega)) ?_
  refine (h.expr depth hc₁ (by omega)).bind fun item c₂ hc₂ hsize₂ => ?_
  refine Settled.skipNewlines hc₂ fun c₃ hc₃ hsize₃ => ?_
  refine Settled.eat hc₃ (by simp) (fun c₄ hc₄ hsize₄ => ?_) ?_
  · refine (h.items depth hc₄ (by omega)).bind fun rest c₅ hc₅ hsize₅ => ?_
    exact Settled.pure hc₅ _ (by omega)
  · refine (Settled.expect hc₃ (by simp) _).bind fun _ c₄ hc₄ hsize₄ => ?_
    exact Settled.pure hc₄ _ (by omega)

private theorem entries_step (hc : c.Closed) (hfuel : 32 * c.size + 1 ≤ fuel + 1) :
    Settled c.size (entries (fuel + 1) depth) (entries (fuel + 2) depth) c := by
  unfold entries
  refine Settled.skipNewlines hc fun c₁ hc₁ hsize₁ => ?_
  refine Settled.eat hc₁ (by simp) (fun c₂ hc₂ hsize₂ => Settled.pure hc₂ _ (by omega)) ?_
  refine (Settled.expectKey hc₁).bind fun key c₂ hc₂ hsize₂ => ?_
  refine (Settled.expect hc₂ (by simp) _).bind fun _ c₃ hc₃ hsize₃ => ?_
  refine Settled.skipNewlines hc₃ fun c₄ hc₄ hsize₄ => ?_
  refine (h.expr depth hc₄ (by omega)).bind fun value c₅ hc₅ hsize₅ => ?_
  refine Settled.skipNewlines hc₅ fun c₆ hc₆ hsize₆ => ?_
  refine Settled.eat hc₆ (by simp) (fun c₇ hc₇ hsize₇ => ?_) ?_
  · refine (h.entries depth hc₇ (by omega)).bind fun rest c₈ hc₈ hsize₈ => ?_
    exact Settled.pure hc₈ _ (by omega)
  · refine (Settled.expect hc₆ (by simp) _).bind fun _ c₇ hc₇ hsize₇ => ?_
    exact Settled.pure hc₇ _ (by omega)

/-- The brace is a token taken; parameters may be given back, but not the brace. -/
private theorem closure_step (hc : c.Closed) (hfuel : 32 * c.size + 1 ≤ fuel + 1) :
    Settled c.size (closure (fuel + 1) depth) (closure (fuel + 2) depth) c := by
  unfold closure
  refine (Settled.expect hc (by simp) _).bind fun start c₁ hc₁ hsize₁ => Settled.enter ?_
  refine Settled.skipNewlines hc₁ fun c₂ hc₂ hsize₂ => Settled.get ?_
  -- names may be taken and given back, but the cursor does not go in front of the brace
  obtain ⟨hclosed, hsize⟩ := closureParams_closed hc₂
  refine Settled.set ((h.braced _ hclosed (by omega)).bind fun body c₃ hc₃ hsize₃ => ?_)
  exact Settled.pure hc₃ _ (by omega)

end Step

/-- No bound of the ones that are asked for is zero, but where a keyword has yet to be taken. -/
private theorem allSettled_zero : AllSettled 0 := by
  have hend : ∀ {c : Cursor}, c.Closed → c.kind ≠ .eof → ¬ 32 * c.size ≤ 0 := by
    intro c hc hkind hfuel
    have := Cursor.size_advance hc hkind
    omega
  have hrank : ∀ level : Level, level.rank ≤ 5 := Level.rank_le
  constructor
  case declaration | conditional | forLoop | collection =>
    intro depth c hc hkind hfuel
    exact absurd hfuel (hend hc hkind)
  case binary | operand =>
    intro depth level c hc hfuel
    have := hrank level
    omega
  all_goals
    intros
    omega

/-- Every procedure is settled with every bound that is large enough. -/
theorem allSettled (fuel : Nat) : AllSettled fuel := by
  induction fuel with
  | zero => exact allSettled_zero
  | succ fuel ih =>
    exact {
      statements := fun depth stop _ => statements_step ih depth stop
      braced := fun depth _ => braced_step ih depth
      block := fun depth _ => block_step ih depth
      statement := fun depth _ => statement_step ih depth
      declaration := fun depth _ => declaration_step ih depth
      condition := fun depth _ => condition_step ih depth
      conditional := fun depth _ => conditional_step ih depth
      forLoop := fun depth _ => forLoop_step ih depth
      commandCall := fun depth _ => commandCall_step ih depth
      commandArgs := fun depth _ => commandArgs_step ih depth
      simple := fun depth _ => simple_step ih depth
      expr := fun depth _ => expr_step ih depth
      binary := fun depth level _ => binary_step ih depth level
      binaryFrom := fun depth level left _ => binaryFrom_step ih depth level left
      operand := fun depth level _ => operand_step ih depth level
      unary := fun depth _ => unary_step ih depth
      chain := fun depth _ => chain_step ih depth
      chainFrom := fun depth object _ => chainFrom_step ih depth object
      callArgs := fun depth _ => callArgs_step ih depth
      argsFrom := fun depth _ => argsFrom_step ih depth
      primary := fun depth _ => primary_step ih depth
      collection := fun depth _ => collection_step ih depth
      items := fun depth _ => items_step ih depth
      entries := fun depth _ => entries_step ih depth
      closure := fun depth _ => closure_step ih depth }

/-! ## Section 5: Programs -/

/-- A program is its statements and the end of the input. -/
private theorem settled_program {fuel : Nat} (hc : c.Closed) (hfuel : 32 * c.size + 20 ≤ fuel) :
    Settled (c.size + 1) (program fuel) (program (fuel + 1)) c := by
  refine ((allSettled fuel).statements 0 .eof hc hfuel).bind fun stmts c₁ hc₁ hsize₁ => ?_
  refine (Settled.expectAny hc₁ _ _).bind fun _ c₂ hc₂ hsize₂ => ?_
  exact Settled.pure hc₂ _ (by omega)

/-- With a large enough bound, a program is read as with any larger one. -/
theorem program_eq_of_le (hc : c.Closed) {fuel fuel' : Nat} (hfuel : 32 * c.size + 20 ≤ fuel)
    (hle : fuel ≤ fuel') : program fuel c = program fuel' c := by
  induction hle with
  | refl => rfl
  | step hle ih =>
    rw [ih]
    rcases settled_program hc (Nat.le_trans hfuel hle) with ⟨e, hp, hq⟩ | ⟨a, c', hp, hq, _⟩
    · rw [hp, hq]
    · rw [hp, hq]

/-- The bound that is chosen for a token list is large enough. -/
theorem parseTokens_eq {t : Token} {rest : List Token} (hc : Cursor.Closed ⟨t, rest⟩) {fuel : Nat}
    (hfuel : fuelFor (rest.length + 1) ≤ fuel) :
    parseTokens (t :: rest) = (program fuel ⟨t, rest⟩).map Prod.fst := by
  have hsize : 32 * Cursor.size ⟨t, rest⟩ + 20 ≤ fuelFor (rest.length + 1) := by
    simp only [Cursor.size, fuelFor]
    omega
  rw [← program_eq_of_le hc hsize hfuel]
  simp only [parseTokens, List.length_cons]
  cases program (fuelFor (rest.length + 1)) ⟨t, rest⟩ with
  | error stop => rfl
  | ok read => rfl

end RowConsole.Script.Grammar
