import RowConsole.Proofs.Script.Grammar.Progress

/-!
# Reading Given Tokens

What a procedure of the grammar does on a token list whose first tokens are known. It either takes these
tokens and goes on behind them, or fails because the constructs in them are nested too deeply. Bounds on the
recursion are left open: only what happens from some bound on counts.

Main statements: one rule for each way in which procedures are put together and for each elementary reader.
-/

namespace RowConsole.Script.Grammar

variable {α β γ : Type}

/-! ## Section 1: Outcomes -/

/-- The kinds of the tokens still unread. -/
def Cursor.kinds (c : Cursor) : List TokenKind :=
  c.kind :: c.rest.map Token.kind

/-- From some bound on, a procedure has a given outcome at a cursor. -/
def Ends (run : Nat → Parser α) (c : Cursor) (outcome : Except Stop (α × Cursor)) : Prop :=
  ∃ bound, ∀ fuel, bound ≤ fuel → run fuel c = outcome

/-- A procedure at a cursor has every outcome that another one has at another cursor. -/
def GoesOn (run : Nat → Parser α) (c : Cursor) (next : Nat → Parser α) (c' : Cursor) : Prop :=
  ∀ outcome, Ends next c' outcome → Ends run c outcome

/-- A procedure fails because constructs are nested too deeply. -/
def TooDeep (run : Nat → Parser α) (c : Cursor) : Prop :=
  ∃ e, e.cause = .nestedTooDeeply ∧ Ends run c (.error (.failed e))

/-- Where the nesting is within the limit, a procedure goes on with what it has read, up to the tokens
`rest`, and elsewhere it fails. -/
def Reads (fits : Prop) (run : Nat → Parser α) (next : β → Nat → Parser α) (made : β → Prop)
    (rest : List TokenKind) (c : Cursor) : Prop :=
  (fits ∧ ∃ b c', made b ∧ c'.kinds = rest ∧ GoesOn run c (next b) c') ∨ (¬ fits ∧ TooDeep run c)

/-- Where the nesting is within the limit, a procedure ends with what it has read. -/
abbrev Returns (fits : Prop) (run : Nat → Parser α) (made : α → Prop) (rest : List TokenKind)
    (c : Cursor) : Prop :=
  Reads fits run (fun a _ => pure a) made rest c

variable {fits fits' : Prop} {c c' : Cursor} {kind : TokenKind} {kinds rest : List TokenKind}

/-- From some bound on is also from the next one on. -/
theorem Ends.of_succ {run : Nat → Parser α} {o : Except Stop (α × Cursor)}
    (h : Ends (fun fuel => run (fuel + 1)) c o) : Ends run c o := by
  obtain ⟨bound, h⟩ := h
  refine ⟨bound + 1, fun fuel hfuel => ?_⟩
  -- the bound is at least one, so one may be taken away from the fuel
  obtain ⟨n, rfl⟩ := Nat.exists_eq_add_of_le' (Nat.le_trans (Nat.le_add_left 1 bound) hfuel)
  exact h n (Nat.le_of_add_le_add_right hfuel)

/-- Both parts of a sequence end from the larger of their bounds on. -/
theorem Ends.bind {p : Nat → Parser α} {k : Nat → α → Parser β} {a : α} {o : Except Stop (β × Cursor)}
    (h : Ends p c (.ok (a, c'))) (hk : Ends (fun fuel => k fuel a) c' o) :
    Ends (fun fuel => p fuel >>= k fuel) c o := by
  obtain ⟨bound, h⟩ := h
  obtain ⟨bound', hk⟩ := hk
  -- enough for the one and for the other
  refine ⟨max bound bound', fun fuel hfuel => ?_⟩
  show (p fuel >>= k fuel) c = o
  rw [bind_apply, h fuel (Nat.le_trans (Nat.le_max_left ..) hfuel)]
  exact hk fuel (Nat.le_trans (Nat.le_max_right ..) hfuel)

/-- A sequence fails with its first part. -/
theorem TooDeep.bind {p : Nat → Parser α} {k : Nat → α → Parser β} (h : TooDeep p c) :
    TooDeep (fun fuel => p fuel >>= k fuel) c := by
  obtain ⟨e, hcause, bound, h⟩ := h
  refine ⟨e, hcause, bound, fun fuel hfuel => ?_⟩
  show (p fuel >>= k fuel) c = _
  rw [bind_apply, h fuel hfuel]
  rfl

namespace Reads

variable {run run' : Nat → Parser α} {next : β → Nat → Parser α} {made : β → Prop}

/-- What is known of what has been read may be used. -/
theorem mono {made' : β → Prop} (h : Reads fits run next made rest c) (hmade : ∀ b, made b → made' b) :
    Reads fits run next made' rest c := by
  rcases h with ⟨hfits, b, c', hb, hrest, hgoes⟩ | h
  · exact Or.inl ⟨hfits, b, c', hmade b hb, hrest, hgoes⟩
  · exact Or.inr h

/-- The condition on the nesting may be written in another way. -/
theorem of_iff (h : Reads fits' run next made rest c) (hfits : fits ↔ fits') :
    Reads fits run next made rest c :=
  propext hfits ▸ h

/-- What has been read is read. -/
theorem here {b : β} (hfits : fits) (hb : made b) (hc : c.kinds = rest) :
    Reads fits (next b) next made rest c :=
  Or.inl ⟨hfits, b, c, hb, hc, fun _ h => h⟩

/-- A procedure may be replaced by what it does first. -/
theorem of_eq (hrun : ∀ fuel, run fuel c = run' fuel c') (h : Reads fits run' next made rest c') :
    Reads fits run next made rest c := by
  have hends : ∀ o, Ends run' c' o → Ends run c o := by
    intro o houtcome
    obtain ⟨bound, ho⟩ := houtcome
    exact ⟨bound, fun fuel hfuel => (hrun fuel).trans (ho fuel hfuel)⟩
  rcases h with ⟨hfits, b, c₁, hb, hrest, hgoes⟩ | ⟨hfits, e, hcause, he⟩
  · exact Or.inl ⟨hfits, b, c₁, hb, hrest, fun o ho => hends o (hgoes o ho)⟩
  · exact Or.inr ⟨hfits, e, hcause, hends _ he⟩

/-- What is read does not depend on where the count of the bound starts. -/
theorem succ (h : Reads fits (fun fuel => run (fuel + 1)) next made rest c) :
    Reads fits run next made rest c := by
  rcases h with ⟨hfits, b, c', hb, hrest, hgoes⟩ | ⟨hfits, e, hcause, he⟩
  · exact Or.inl ⟨hfits, b, c', hb, hrest, fun o ho => (hgoes o ho).of_succ⟩
  · exact Or.inr ⟨hfits, e, hcause, he.of_succ⟩

/-- What comes behind a part is read behind it. The whole fits only if the part does. -/
theorem trans {next' : γ → Nat → Parser α} {made' : γ → Prop} {kinds : List TokenKind}
    (h : Reads fits' run next made kinds c) (hfits : fits → fits')
    (hnext : ∀ b c', fits' → made b → c'.kinds = kinds → Reads fits (next b) next' made' rest c') :
    Reads fits run next' made' rest c := by
  rcases h with ⟨hfits', b, c', hb, hkinds, hgoes⟩ | ⟨hfits', h⟩
  -- the part fits; the rest of it may still be too deep
  · rcases hnext b c' hfits' hb hkinds with ⟨hall, a, c₂, ha, hrest, hgoes'⟩ | ⟨hall, e, hcause, he⟩
    · exact Or.inl ⟨hall, a, c₂, ha, hrest, fun o ho => hgoes o (hgoes' o ho)⟩
    · exact Or.inr ⟨hall, e, hcause, hgoes _ he⟩
  · exact Or.inr ⟨fun hall => hfits' (hfits hall), h⟩

/-- A sequence reads what its parts read. -/
protected theorem bind {p : Nat → Parser β} {k : Nat → β → Parser α} {next' : γ → Nat → Parser α}
    {made' : γ → Prop} {kinds : List TokenKind} (h : Returns fits' p made kinds c) (hfits : fits → fits')
    (hk : ∀ b c', fits' → made b → c'.kinds = kinds →
      Reads fits (fun fuel => k fuel b) next' made' rest c') :
    Reads fits (fun fuel => p fuel >>= k fuel) next' made' rest c := by
  rcases h with ⟨hfits', b, c', hb, hkinds, hgoes⟩ | ⟨hfits', h⟩
  · have hp : Ends p c (.ok (b, c')) := hgoes _ ⟨0, fun _ _ => rfl⟩
    rcases hk b c' hfits' hb hkinds with ⟨hall, a, c₂, ha, hrest, hgoes'⟩ | ⟨hall, e, hcause, he⟩
    · exact Or.inl ⟨hall, a, c₂, ha, hrest, fun o ho => hp.bind (hgoes' o ho)⟩
    · exact Or.inr ⟨hall, e, hcause, hp.bind he⟩
  · exact Or.inr ⟨fun hall => hfits' (hfits hall), h.bind⟩

/-- A procedure that enters one more construct. -/
theorem enter {depth : Nat} {k : Nat → Nat → Parser α} (hfits : fits → depth + 1 ≤ maxNesting)
    (h : depth + 1 ≤ maxNesting → Reads fits (fun fuel => k fuel (depth + 1)) next made rest c) :
    Reads fits (fun fuel => Grammar.enter depth >>= k fuel) next made rest c := by
  -- entering fails where the limit is reached, whatever would have been read
  by_cases hdepth : maxNesting < depth + 1
  · refine Or.inr ⟨fun hall => absurd (hfits hall) (Nat.not_le.mpr hdepth), ?_⟩
    refine ⟨{ cause := .nestedTooDeeply, pos := some c.token.pos }, rfl, 0, fun fuel _ => ?_⟩
    show ((if maxNesting < depth + 1 then _ else _ : Parser Nat) >>= k fuel) c = _
    rw [if_pos hdepth]
    rfl
  · refine of_eq (fun fuel => ?_) (h (Nat.le_of_not_lt hdepth))
    show ((if maxNesting < depth + 1 then _ else _ : Parser Nat) >>= k fuel) c = _
    rw [if_neg hdepth]
    rfl

end Reads

/-! ## Section 2: Elementary Readers -/

/-- The first of the kinds left is that of the current token. -/
theorem Cursor.kind_eq (hc : c.kinds = kind :: rest) : c.kind = kind :=
  (List.cons.inj hc).1

/-- Behind the current token. -/
theorem Cursor.kinds_advance (hc : c.kinds = kind :: rest) (hrest : rest ≠ []) :
    c.advance.kinds = rest := by
  obtain ⟨t, tokens⟩ := c
  obtain ⟨_, htail⟩ := List.cons.inj hc
  cases tokens with
  | nil => exact absurd htail.symm hrest
  | cons t' tokens => exact htail

/-- The key of a map that a token spells. -/
def keyOf? : TokenKind → Option String
  | .ident name => some name
  | .str text => some text
  | _ => none

/-- A key is none of the tokens that spell no key. -/
theorem keyOf?_ne {key : String} (hkey : keyOf? kind = some key) {other : TokenKind} (hother : keyOf? other = none) :
    kind ≠ other := by
  rintro rfl
  rw [hother] at hkey
  contradiction

namespace Reads

variable {next : β → Nat → Parser α} {made : β → Prop}

/-- Looking at the current token, the cursor and the position takes nothing. -/
theorem peek {k : Nat → TokenKind → Parser α} (hc : c.kinds = kind :: rest)
    (h : Reads fits (fun fuel => k fuel kind) next made kinds c) :
    Reads fits (fun fuel => Grammar.peek >>= k fuel) next made kinds c :=
  of_eq (fun fuel => show k fuel c.kind c = k fuel kind c from by rw [Cursor.kind_eq hc]) h

theorem get {k : Nat → Cursor → Parser α} (h : Reads fits (fun fuel => k fuel c) next made kinds c) :
    Reads fits (fun fuel => MonadState.get >>= k fuel) next made kinds c :=
  of_eq (fun _ => rfl) h

theorem set {k : Nat → PUnit → Parser α} (h : Reads fits (fun fuel => k fuel ()) next made kinds c') :
    Reads fits (fun fuel => MonadStateOf.set c' >>= k fuel) next made kinds c :=
  of_eq (fun _ => rfl) h

theorem position {k : Nat → Pos → Parser α} (h : ∀ p, Reads fits (fun fuel => k fuel p) next made kinds c) :
    Reads fits (fun fuel => Grammar.position >>= k fuel) next made kinds c :=
  of_eq (fun _ => rfl) (h c.token.pos)

/-- The current token is taken. It is not the last one. -/
theorem advance {k : Nat → Token → Parser α} (hc : c.kinds = kind :: rest) (hrest : rest ≠ [])
    (h : ∀ t c', t.kind = kind → c'.kinds = rest →
      Reads fits (fun fuel => k fuel t) next made kinds c') :
    Reads fits (fun fuel => Grammar.advance >>= k fuel) next made kinds c :=
  of_eq (fun _ => rfl) (h c.token c.advance (Cursor.kind_eq hc) (Cursor.kinds_advance hc hrest))

/-- A token that is there is taken. -/
theorem eat {k : Nat → Bool → Parser α} (hc : c.kinds = kind :: rest) (hrest : rest ≠ [])
    (h : ∀ c', c'.kinds = rest → Reads fits (fun fuel => k fuel true) next made kinds c') :
    Reads fits (fun fuel => Grammar.eat kind >>= k fuel) next made kinds c := by
  refine of_eq (fun fuel => ?_) (h c.advance (Cursor.kinds_advance hc hrest))
  show ((if c.kind = kind then _ else _ : Parser Bool) >>= k fuel) c = _
  rw [if_pos (Cursor.kind_eq hc)]
  rfl

/-- A token other than the one that may be taken is left. -/
theorem eatNot {k : Nat → Bool → Parser α} {other : TokenKind} (hc : c.kinds = other :: rest)
    (hother : other ≠ kind) (h : Reads fits (fun fuel => k fuel false) next made kinds c) :
    Reads fits (fun fuel => Grammar.eat kind >>= k fuel) next made kinds c := by
  refine of_eq (fun fuel => ?_) h
  show ((if c.kind = kind then _ else _ : Parser Bool) >>= k fuel) c = _
  rw [if_neg (Cursor.kind_eq hc ▸ hother)]
  rfl

/-- An expected token is there and taken. -/
theorem expect {k : Nat → Pos → Parser α} {expected : String} (hc : c.kinds = kind :: rest) (hrest : rest ≠ [])
    (h : ∀ p c', c'.kinds = rest → Reads fits (fun fuel => k fuel p) next made kinds c') :
    Reads fits (fun fuel => Grammar.expect kind expected >>= k fuel) next made kinds c := by
  refine of_eq (fun fuel => ?_) (h c.token.pos c.advance (Cursor.kinds_advance hc hrest))
  show ((if c.kind = kind then _ else _ : Parser Pos) >>= k fuel) c = _
  rw [if_pos (Cursor.kind_eq hc)]
  rfl

/-- The last token stays when it is taken. -/
theorem expectLast {k : Nat → Pos → Parser α} {expected : String} (hc : c.kinds = [kind])
    (h : ∀ p, Reads fits (fun fuel => k fuel p) next made kinds c) :
    Reads fits (fun fuel => Grammar.expect kind expected >>= k fuel) next made kinds c := by
  -- nothing stands behind the last token, so that a step stays there
  have hlast : c.advance = c := by
    obtain ⟨t, tokens⟩ := c
    obtain ⟨_, htail⟩ := List.cons.inj hc
    obtain rfl : tokens = [] := List.map_eq_nil_iff.mp htail
    rfl
  refine of_eq (fun fuel => ?_) (h c.token.pos)
  show ((if c.kind = kind then _ else _ : Parser Pos) >>= k fuel) c = _
  rw [if_pos (Cursor.kind_eq hc)]
  show k fuel c.token.pos c.advance = _
  rw [hlast]

/-- A name, which its token spells. -/
theorem expectIdent {k : Nat → String → Parser α} {name : String}
    (hc : c.kinds = .ident name :: rest) (hrest : rest ≠ [])
    (h : ∀ c', c'.kinds = rest → Reads fits (fun fuel => k fuel name) next made kinds c') :
    Reads fits (fun fuel => Grammar.expectIdent >>= k fuel) next made kinds c := by
  have hnext := Cursor.kinds_advance hc hrest
  obtain ⟨⟨kind, p⟩, tokens⟩ := c
  obtain rfl : kind = .ident name := Cursor.kind_eq hc
  exact of_eq (fun _ => rfl) (h (Cursor.advance ⟨⟨.ident name, p⟩, tokens⟩) hnext)

/-- A key, which a name or a text spells. -/
theorem expectKey {k : Nat → String → Parser α} {key : String} (hkey : keyOf? kind = some key)
    (hc : c.kinds = kind :: rest) (hrest : rest ≠ [])
    (h : ∀ c', c'.kinds = rest → Reads fits (fun fuel => k fuel key) next made kinds c') :
    Reads fits (fun fuel => Grammar.expectKey >>= k fuel) next made kinds c := by
  have hnext := Cursor.kinds_advance hc hrest
  obtain ⟨⟨head, p⟩, tokens⟩ := c
  obtain rfl : head = kind := Cursor.kind_eq hc
  refine of_eq (fun fuel => ?_) (h (Cursor.advance ⟨⟨head, p⟩, tokens⟩) hnext)
  -- a name and a text spell keys, and no other token does
  unfold keyOf? at hkey
  split at hkey
  · cases hkey
    rfl
  · cases hkey
    rfl
  · contradiction

/-- Where no line feed stands none is skipped. -/
theorem skipNewlines {k : Nat → PUnit → Parser α} (hc : c.kinds = kind :: rest) (hkind : kind ≠ .newline)
    (h : Reads fits (fun fuel => k fuel ()) next made kinds c) :
    Reads fits (fun fuel => Grammar.skipNewlines >>= k fuel) next made kinds c := by
  refine of_eq (fun fuel => ?_) h
  show k fuel () (skipFrom _ c.token c.rest) = _
  rw [skipFrom_of_not (by simpa [Cursor.kind_eq hc] using hkind)]

/-- Where line feeds stand, reading goes on behind them. -/
theorem skipLines {k : Nat → PUnit → Parser α}
    (h : Reads fits (fun fuel => k fuel ()) next made kinds (skipFrom (· = .newline) c.token c.rest)) :
    Reads fits (fun fuel => Grammar.skipNewlines >>= k fuel) next made kinds c :=
  of_eq (fun _ => rfl) h

/-- The same for line feeds and semicolons. -/
theorem skipSeparators {k : Nat → PUnit → Parser α}
    (h : Reads fits (fun fuel => k fuel ()) next made kinds (skipFrom isSeparator c.token c.rest)) :
    Reads fits (fun fuel => Grammar.skipSeparators >>= k fuel) next made kinds c :=
  of_eq (fun _ => rfl) h

/-- Where no keyword stands in front of a name none is skipped. -/
theorem skipDeclarator {k : Nat → PUnit → Parser α} (hc : c.kinds = kind :: rest)
    (hdefines : kind ≠ .keyword .defines) (hvaries : kind ≠ .keyword .varies)
    (h : ∀ c', c'.kinds = kind :: rest → Reads fits (fun fuel => k fuel ()) next made kinds c') :
    Reads fits (fun fuel => Grammar.skipDeclarator >>= k fuel) next made kinds c := by
  have hskip : Returns True (fun _ => Grammar.skipDeclarator) (fun _ => True) (kind :: rest) c :=
    eatNot hc hdefines (eatNot hc hvaries (here trivial trivial hc))
  exact hskip.bind (fun _ => trivial) fun _ c' _ _ hc' => h c' hc'

end Reads

end RowConsole.Script.Grammar
