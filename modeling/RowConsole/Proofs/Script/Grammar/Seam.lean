import RowConsole.Proofs.Script.Grammar.Taking
import RowConsole.Proofs.Script.Syntax

/-!
# Reading up to a Seam

A piece of text is read in the same way whether the input ends behind it or a line feed and more text stand
there. The place where the piece ends is a seam. Two cursors face each other if the first stands in the
tokens of the piece alone and the second at the same place in the longer list, in which the positions of the
piece may be moved as long as no line is torn apart and none are joined.

A procedure that ends in the piece alone ends at the same place of the longer list with the same tree. One
that fails in the piece alone may succeed in the longer list, but then it has taken tokens behind the seam.

Main statements: the rules by which procedures are put together, `Matches.bind` and `Matches.bindTakes`, and
that every look ahead answers the same on both sides.
-/

namespace RowConsole.Script.Grammar

variable {α β γ δ : Type}

/-! ## Section 1: Seams -/

/-- A token at another position. -/
def moveToken (f : Pos → Pos) (t : Token) : Token :=
  { t with pos := f t.pos }

/-- An end of the input and the tokens that take its place: another end, or a line feed behind which no chain
and no condition is continued. Positions of the piece in front are moved by `shift`. -/
structure Seam where
  shift : Pos → Pos
  last : Token
  next : Token
  rest : List Token
  isEnd : last.kind = .eof
  isNext : next.kind = .eof ∨ next.kind = .newline
  pos : next.pos = shift last.pos
  lines : ∀ p q, (shift p).line = (shift q).line ↔ p.line = q.line
  closed : Cursor.Closed ⟨next, rest⟩
  noChain : (skipFrom (· = .newline) next rest).kind ≠ .symbol .dot
  noElse : (skipFrom isSeparator next rest).kind ≠ .keyword .elses

namespace Seam

variable (s : Seam)

/-- A token of the piece where it stands in the longer list. -/
def move : Token → Token := moveToken s.shift

/-- The cursor at the seam. -/
def beyond : Cursor := ⟨s.next, s.rest⟩

/-- Only the end of the input stands at the end of the piece alone. -/
private theorem last_ne {kind : TokenKind} (heof : kind ≠ .eof) : s.last.kind ≠ kind :=
  fun h => heof (h.symm.trans s.isEnd)

/-- Only an end or a line feed stands where the longer list goes on. -/
private theorem next_ne {kind : TokenKind} (heof : kind ≠ .eof) (hnewline : kind ≠ .newline) :
    s.next.kind ≠ kind := by
  intro h
  rcases s.isNext with hnext | hnext
  · exact heof (h.symm.trans hnext)
  · exact hnewline (h.symm.trans hnext)

private theorem closed_last : Cursor.Closed ⟨s.last, []⟩ := s.isEnd

/-- A cursor in the piece alone and the one at the same place of the longer list. -/
inductive Facing : Cursor → Cursor → Prop where
  | inside (t : Token) (ts : List Token) (hts : ∀ t' ∈ t :: ts, t'.kind ≠ .eof) :
    Facing ⟨t, ts ++ [s.last]⟩ ⟨s.move t, ts.map s.move ++ s.next :: s.rest⟩
  | atEnd : Facing ⟨s.last, []⟩ s.beyond

/-- Two cursors that face each other before a token of the piece. -/
structure Inside (c d : Cursor) : Prop where
  facing : s.Facing c d
  kind_ne : c.kind ≠ .eof
  kind_eq : d.kind = c.kind
  advance : s.Facing c.advance d.advance

variable {s} {c d : Cursor}

/-- Two cursors that face each other stand before a token of the piece, or both at the seam. -/
theorem Facing.inside_or_atEnd (h : s.Facing c d) :
    s.Inside c d ∨ (c = ⟨s.last, []⟩ ∧ d = s.beyond) := by
  cases h with
  | atEnd => exact Or.inr ⟨rfl, rfl⟩
  | inside t ts hts =>
    refine Or.inl ⟨.inside t ts hts, hts t (List.mem_cons_self ..), rfl, ?_⟩
    cases ts with
    | nil => exact .atEnd
    | cons t' ts => exact .inside t' ts fun t'' h => hts t'' (List.mem_cons_of_mem _ h)

/-- The places of tokens that face each other differ by the move alone. -/
theorem Facing.pos (h : s.Facing c d) : d.token.pos = s.shift c.token.pos := by
  cases h with
  | inside t ts _ => rfl
  | atEnd => exact s.pos

/-- The longer list has an end of the input, wherever it is read. -/
theorem Facing.closed (h : s.Facing c d) : d.Closed := by
  cases h with
  | atEnd => exact s.closed
  | inside t ts _ =>
    have hlast := s.closed
    rw [Cursor.Closed, List.getLastD_eq_getLast?] at hlast ⊢
    simpa [List.getLast?_append, List.getLast?_cons] using hlast

/-- A question about a kind that cannot tell a line feed from the end has the same answer on both sides. -/
theorem Facing.ask {β : Type} (h : s.Facing c d) (φ : TokenKind → β) (hφ : φ .newline = φ .eof) :
    φ d.kind = φ c.kind := by
  rcases h.inside_or_atEnd with h | ⟨rfl, rfl⟩
  · rw [h.kind_eq]
  · show φ s.next.kind = φ s.last.kind
    rw [s.isEnd]
    rcases s.isNext with hnext | hnext
    · rw [hnext]
    · rw [hnext, hφ]

/-- No question about a token other than a line feed or the end is answered differently. -/
theorem Facing.kind_eq_iff (h : s.Facing c d) {kind : TokenKind} (heof : kind ≠ .eof)
    (hnewline : kind ≠ .newline) : d.kind = kind ↔ c.kind = kind := by
  have hask := h.ask (fun k => decide (k = kind)) (by simp [heof.symm, hnewline.symm])
  simpa using hask

/-- Before any token but the end, both cursors stand in the piece. -/
theorem Facing.isInside (h : s.Facing c d) (hkind : c.kind ≠ .eof) : s.Inside c d := by
  rcases h.inside_or_atEnd with h | ⟨rfl, rfl⟩
  · exact h
  · exact absurd s.isEnd hkind

/-! ## Section 2: Skipping and Looking Ahead -/

/-- Skipping stops before the same token of the piece, or it reaches the seam on both sides. -/
theorem Facing.skip (h : s.Facing c d) (skips : TokenKind → Bool) :
    s.Inside (skipFrom skips c.token c.rest) (skipFrom skips d.token d.rest) ∨
      (skipFrom skips c.token c.rest = ⟨s.last, []⟩ ∧
        skipFrom skips d.token d.rest = skipFrom skips s.next s.rest) := by
  have hstays : ∀ {c d}, s.Inside c d → skips c.kind = false →
      s.Inside (skipFrom skips c.token c.rest) (skipFrom skips d.token d.rest) := by
    intro c d hin hkind
    rwa [skipFrom_of_not hkind, skipFrom_of_not (hin.kind_eq ▸ hkind)]
  cases h with
  | atEnd => exact Or.inr ⟨rfl, rfl⟩
  | inside t ts hts =>
    -- on the tokens of the piece; behind the last of them stands the seam
    induction ts generalizing t with
    | nil =>
      cases ht : skips t.kind with
      | true => exact Or.inr ⟨if_pos ht, if_pos ht⟩
      | false => exact Or.inl (hstays ((Facing.inside t [] hts).isInside (hts t List.mem_cons_self)) ht)
    | cons t' ts ih =>
      cases ht : skips t.kind with
      | false => exact Or.inl (hstays ((Facing.inside t (t' :: ts) hts).isInside (hts t List.mem_cons_self)) ht)
      | true =>
        have hc := skipFrom_of_skips (c := ⟨t, t' :: ts ++ [s.last]⟩) ht
        have hd := skipFrom_of_skips (c := ⟨s.move t, (t' :: ts).map s.move ++ s.next :: s.rest⟩) ht
        rw [hc, hd]
        exact ih t' fun t'' h => hts t'' (List.mem_cons_of_mem _ h)

/-- No point behind line feeds is seen across the seam. -/
theorem Facing.continuesChain_eq (h : s.Facing c d) : continuesChain d = continuesChain c := by
  unfold continuesChain
  rcases h.inside_or_atEnd with hin | ⟨rfl, rfl⟩
  · rw [hin.kind_eq]
    congr 1
    rcases h.skip (· = .newline) with hskip | ⟨hc, hd⟩
    · rw [hskip.kind_eq]
    · rw [hc, hd, decide_eq_decide]
      exact ⟨fun h => absurd h s.noChain, fun h => absurd (s.isEnd.symm.trans h) (by simp)⟩
  · have hc : (Cursor.kind ⟨s.last, []⟩) = .eof := s.isEnd
    have hd : decide ((skipFrom (· = .newline) s.beyond.token s.beyond.rest).kind = .symbol .dot) = false :=
      decide_eq_false s.noChain
    rw [hc, hd]
    simp

/-- No argument of a call is seen across the seam: neither an end nor a line feed starts one. -/
theorem Facing.isCommandCall_eq (h : s.Facing c d) : isCommandCall d = isCommandCall c := by
  -- Neither end starts an argument, so a word just before the seam is no command on either side.
  have hnext : startsArgument s.next.kind = false := by
    rcases s.isNext with hnext | hnext <;> rw [hnext] <;> rfl
  have hlast : startsArgument s.last.kind = false := by
    rw [s.isEnd]
    rfl
  cases h with
  | atEnd =>
    have hc : (Cursor.kind ⟨s.last, []⟩) = .eof := s.isEnd
    unfold isCommandCall
    rw [hc]
    rcases s.isNext with hnext | hnext
    · rw [show s.beyond.kind = .eof from hnext]
    · rw [show s.beyond.kind = .newline from hnext]
  | inside t ts hts =>
    obtain ⟨kind, p⟩ := t
    cases kind with
    | ident name =>
      cases ts with
      | nil =>
        show (_ && startsArgument s.next.kind) = (_ && startsArgument s.last.kind)
        rw [hnext, hlast, Bool.and_false, Bool.and_false]
      | cons t' ts =>
        show (decide ((s.shift t'.pos).line = (s.shift p).line) && startsArgument t'.kind) =
          (decide (t'.pos.line = p.line) && startsArgument t'.kind)
        rw [decide_eq_decide.mpr (s.lines t'.pos p)]
    | _ => rfl

/-- A key and its colon are both in the piece, or neither side finds a key. -/
theorem Facing.isMapKey_eq (h : s.Facing c d) : isMapKey d = isMapKey c := by
  rcases h.inside_or_atEnd with hin | ⟨rfl, rfl⟩
  · have hnext : (d.nextKind = .symbol .colon) = (c.nextKind = .symbol .colon) :=
      propext (hin.advance.kind_eq_iff (by simp) (by simp))
    simp only [isMapKey, hin.kind_eq, hnext]
  · have hc : (Cursor.kind ⟨s.last, []⟩) = .eof := s.isEnd
    unfold isMapKey
    rw [hc]
    rcases s.isNext with hnext | hnext
    · rw [show s.beyond.kind = .eof from hnext]
    · rw [show s.beyond.kind = .newline from hnext]

/-- Without a name there is no list of names. -/
theorem identifiers_of_not_ident {t : Token} {rest : List Token} (h : ∀ name, t.kind ≠ .ident name) :
    identifiers (t :: rest) = ([], t :: rest) := by
  apply identifiers.eq_3
  · rintro name p p' rest ⟨⟩
    exact h name rfl
  · rintro name p rest ⟨⟩
    exact h name rfl

/-- Behind a name without a comma there are no more names. -/
theorem identifiers_of_not_comma {t : Token} {rest : List Token} (name : String) (p : Pos)
    (h : t.kind ≠ .symbol .comma) : identifiers (⟨.ident name, p⟩ :: t :: rest) = ([name], t :: rest) := by
  apply identifiers.eq_2
  rintro p' rest ⟨⟩
  exact h rfl

/-- Names separated by commas end before the seam, on both sides at the same token. -/
theorem identifiers_seam (s : Seam) (ts : List Token) :
    ∃ names ts', ts' <:+ ts ∧ identifiers (ts ++ [s.last]) = (names, ts' ++ [s.last]) ∧
      identifiers (ts.map s.move ++ s.next :: s.rest) = (names, ts'.map s.move ++ s.next :: s.rest) := by
  induction ts using identifiers.induct with
  -- The list goes on behind a comma; in the two other cases it stops, at the seam at the latest.
  | case1 name p p' rest names tail _ ih =>
    obtain ⟨names, ts', hsuffix, hc, hd⟩ := ih
    refine ⟨name :: names, ts', (hsuffix.trans (List.suffix_cons _ _)).trans (List.suffix_cons _ _), ?_, ?_⟩
    · show identifiers (_ :: _ :: (rest ++ [s.last])) = _
      rw [identifiers, hc]
    · show identifiers (⟨.ident name, s.shift p⟩ :: ⟨.symbol .comma, s.shift p'⟩ ::
        (rest.map s.move ++ s.next :: s.rest)) = _
      rw [identifiers, hd]
  | case2 name p rest hcomma =>
    refine ⟨[name], rest, List.suffix_cons _ _, ?_⟩
    cases rest with
    | nil =>
      exact ⟨identifiers_of_not_comma name p (s.last_ne (by simp)),
        identifiers_of_not_comma name (s.shift p) (s.next_ne (by simp) (by simp))⟩
    | cons t rest =>
      have ht : t.kind ≠ .symbol .comma := fun ht => hcomma t.pos rest (by rw [← ht])
      exact ⟨identifiers_of_not_comma name p ht, identifiers_of_not_comma name (s.shift p) ht⟩
  | case3 tokens hcomma hident =>
    refine ⟨[], tokens, List.suffix_refl _, ?_⟩
    cases tokens with
    | nil =>
      exact ⟨identifiers_of_not_ident fun _ => s.last_ne (by simp),
        identifiers_of_not_ident fun _ => s.next_ne (by simp) (by simp)⟩
    | cons t rest =>
      have ht : ∀ name, t.kind ≠ .ident name := fun name ht => hident name t.pos rest (by rw [← ht])
      exact ⟨identifiers_of_not_ident ht, identifiers_of_not_ident ht⟩

/-- Names without an arrow behind them are no parameters. -/
theorem closureParams_of_not_arrow {c : Cursor} {names : List String} {t : Token} {rest : List Token}
    (hc : c.kind ≠ .symbol .arrow) (hnames : identifiers (c.token :: c.rest) = (names, t :: rest))
    (ht : t.kind ≠ .symbol .arrow) : closureParams c = ([], c) := by
  unfold closureParams
  rw [if_neg hc, hnames]
  split
  · next harrow =>
    cases harrow
    exact absurd rfl ht
  · rfl

/-- Names with an arrow behind them are parameters, if there are any. -/
theorem closureParams_of_arrow {c : Cursor} {names : List String} {t : Token} {rest : List Token}
    (hc : c.kind ≠ .symbol .arrow) (hnames : identifiers (c.token :: c.rest) = (names, t :: rest))
    (ht : t.kind = .symbol .arrow) :
    closureParams c = if names.isEmpty then ([], c) else (names, Cursor.advance ⟨t, rest⟩) := by
  -- The arrow is the token behind the names, so the look ahead ends at it.
  obtain ⟨kind, p⟩ := t
  cases ht
  unfold closureParams
  rw [if_neg hc, hnames]

/-- The parameters of a closure are the same on both sides. -/
theorem Facing.closureParams_eq (h : s.Facing c d) :
    (closureParams d).1 = (closureParams c).1 ∧ s.Facing (closureParams c).2 (closureParams d).2 := by
  have harrow : d.kind = .symbol .arrow ↔ c.kind = .symbol .arrow := h.kind_eq_iff (by simp) (by simp)
  -- An arrow at once means that there are no parameters; it stands in the piece, so both sides see it.
  by_cases hc : c.kind = .symbol .arrow
  · have hin := h.isInside (by simp [hc])
    have hparams : ∀ c' : Cursor, c'.kind = .symbol .arrow → closureParams c' = ([], c'.advance) :=
      fun c' hc' => if_pos hc'
    rw [hparams c hc, hparams d (harrow.mpr hc)]
    exact ⟨rfl, hin.advance⟩
  have hd : d.kind ≠ .symbol .arrow := fun hd => hc (harrow.mp hd)
  cases h with
  | atEnd =>
    have hlast : closureParams ⟨s.last, []⟩ = ([], ⟨s.last, []⟩) :=
      closureParams_of_not_arrow hc (identifiers_of_not_ident fun _ => s.last_ne (by simp)) hc
    have hnext : closureParams s.beyond = ([], s.beyond) :=
      closureParams_of_not_arrow hd (identifiers_of_not_ident fun _ => s.next_ne (by simp) (by simp)) hd
    rw [hlast, hnext]
    exact ⟨rfl, .atEnd⟩
  | inside t ts hts =>
    have hface : s.Facing ⟨t, ts ++ [s.last]⟩ ⟨s.move t, ts.map s.move ++ s.next :: s.rest⟩ :=
      .inside t ts hts
    -- Both sides read the same names, and stop at tokens that face each other.
    obtain ⟨names, ts', hsuffix, hnames, hnames'⟩ := identifiers_seam s (t :: ts)
    cases ts' with
    | nil =>
      rw [closureParams_of_not_arrow hc hnames (s.last_ne (by simp)),
        closureParams_of_not_arrow hd hnames' (s.next_ne (by simp) (by simp))]
      exact ⟨rfl, hface⟩
    | cons t' ts' =>
      by_cases ht' : t'.kind = .symbol .arrow
      · rw [closureParams_of_arrow hc hnames ht', closureParams_of_arrow hd hnames' ht']
        split
        · exact ⟨rfl, hface⟩
        · have hinside : s.Facing ⟨t', ts' ++ [s.last]⟩ ⟨s.move t', ts'.map s.move ++ s.next :: s.rest⟩ :=
            .inside t' ts' fun t'' h => hts t'' (hsuffix.mem h)
          exact ⟨rfl, (hinside.isInside (by simp [Cursor.kind, ht'])).advance⟩
      · rw [closureParams_of_not_arrow hc hnames ht', closureParams_of_not_arrow hd hnames' ht']
        exact ⟨rfl, hface⟩

/-! ## Section 3: Readers That Agree -/

variable (s) in
/-- Tokens behind the seam have been taken. -/
def Past (d : Cursor) : Prop :=
  d.Closed ∧ d.weight < s.beyond.weight

variable (s) in
/-- Two readers, the first in the piece alone and the second in the longer list: they end at the same place
with results that correspond by `g`, and where the first one fails the second one goes past the seam unless it
fails too. If `loose` holds, the first one may also end at the end of the input while the second one has gone
on from the seam without taking a token that counts. -/
structure Matches (loose : Prop) (g : α → β) (p : Parser α) (q : Parser β) (c d : Cursor) : Prop where
  ok : ∀ a c', p c = .ok (a, c') → (∃ d', q d = .ok (g a, d') ∧ s.Facing c' d') ∨
    (loose ∧ c' = ⟨s.last, []⟩ ∧ ∀ b d', q d = .ok (b, d') → d'.Closed ∧ d'.weight ≤ s.beyond.weight)
  failed : ∀ e, p c = .error (.failed e) → ∀ b d', q d = .ok (b, d') → s.Past d'

variable (s) in
/-- Readers that end at the same place. -/
abbrev Agrees (g : α → β) (p : Parser α) (q : Parser β) (c d : Cursor) : Prop :=
  s.Matches False g p q c d

variable (s) in
/-- Readers of which the second one may go on from the seam. -/
abbrev Follows (g : α → β) (p : Parser α) (q : Parser β) (c d : Cursor) : Prop :=
  s.Matches True g p q c d

variable {loose : Prop} {g : α → β} {h : γ → δ} {p p' : Parser α} {q q' : Parser β} {k : α → Parser γ}
  {l : β → Parser δ}

/-- What is read in the piece alone is read in the longer list, and both readers go on from places that face each
other. -/
theorem Agrees.ok_eq (hp : s.Agrees g p q c d) {a : α} {c' : Cursor} (h : p c = .ok (a, c')) :
    ∃ d', q d = .ok (g a, d') ∧ s.Facing c' d' := by
  rcases hp.ok a c' h with h | ⟨hloose, _⟩
  · exact h
  · contradiction

namespace Matches

/-- Readers may be replaced by what they do first. -/
protected theorem congr {c' d' : Cursor} (hp : p c = p' c') (hq : q d = q' d')
    (h : s.Matches loose g p' q' c' d') : s.Matches loose g p q c d := by
  constructor
  · rw [hp, hq]
    exact h.ok
  · rw [hp, hq]
    exact h.failed

/-- Where nothing is left of the piece, a reader that takes something fails on the one side and goes past the
seam on the other. -/
theorem ended [hp : Takes p] [hq : Takes q] (hd : d.Closed) (hle : d.weight ≤ s.beyond.weight) :
    s.Matches loose g p q ⟨s.last, []⟩ d where
  ok a c' h := by
    exact absurd (hp.takes s.closed_last h) (Nat.not_lt_zero _)
  failed e _ b d' h := by
    exact ⟨(hq.shrinks h).closed hd, Nat.lt_of_lt_of_le (hq.takes hd h) hle⟩

/-- Of readers that take something, only what they do inside the piece is of interest. -/
theorem of_inside [Takes p] [Takes q] (hcd : s.Facing c d)
    (hin : s.Inside c d → s.Matches loose g p q c d) : s.Matches loose g p q c d := by
  rcases hcd.inside_or_atEnd with h | ⟨rfl, rfl⟩
  · exact hin h
  · exact ended s.closed (Nat.le_refl _)

/-- Results that correspond match where nothing is read. -/
protected theorem pure {a : α} {b : β} (hcd : s.Facing c d) (hab : b = g a) :
    s.Matches loose g (pure a) (pure b) c d where
  ok a' c' h := by
    cases h
    exact Or.inl ⟨d, by rw [hab]; rfl, hcd⟩
  failed e h := by contradiction

/-- Readers that both fail match, whatever they fail with. -/
theorem failed_both {stop stop' : Stop} (hc : p c = .error stop) (hd : q d = .error stop') :
    s.Matches loose g p q c d where
  ok a c' h := by
    rw [hc] at h
    contradiction
  failed e _ b d' h := by
    rw [hd] at h
    contradiction

/-- Where the first part fails, whatever the second one reads in the longer list lies behind the seam as well. -/
theorem failed_bind [hl : ∀ b, Shrinks (l b)] (hp : s.Matches loose g p q c d) {e : ScriptError}
    (hpc : p c = .error (.failed e)) {b : δ} {d₂ : Cursor} (hql : (q >>= l) d = .ok (b, d₂)) :
    d₂.Closed ∧ d₂.weight < s.beyond.weight := by
  -- What the first part of the longer reader has taken behind the seam, the second part does not give back.
  obtain ⟨b₁, d₁, h₁, h₂⟩ := bind_eq_ok hql
  obtain ⟨hd₁, hlt₁⟩ := hp.failed e hpc b₁ d₁ h₁
  have hfrom := (hl b₁).shrinks h₂
  exact ⟨hfrom.closed hd₁, Nat.lt_of_le_of_lt hfrom.weight_le hlt₁⟩

/-- Readers in sequence: the second parts have to match wherever the first ones may end. -/
protected theorem bind [hl : ∀ b, Shrinks (l b)] (hp : s.Agrees g p q c d)
    (hkl : ∀ a c' d', s.Facing c' d' → s.Matches loose h (k a) (l (g a)) c' d') :
    s.Matches loose h (p >>= k) (q >>= l) c d where
  ok a c₂ hpk := by
    obtain ⟨a₁, c₁, h₁, h₂⟩ := bind_eq_ok hpk
    obtain ⟨d₁, hq, hcd₁⟩ := Agrees.ok_eq hp h₁
    rw [bind_apply, hq]
    exact (hkl a₁ c₁ d₁ hcd₁).ok a c₂ h₂
  failed e hpk b d₂ hql := by
    rw [bind_apply] at hpk
    -- In the piece alone, either part may be the one that fails.
    cases hpc : p c with
    | error stop =>
      rw [hpc] at hpk
      cases hpk
      exact hp.failed_bind hpc hql
    | ok read =>
      -- the first part has not failed, so both second parts start at facing cursors
      obtain ⟨a₁, c₁⟩ := read
      rw [hpc] at hpk
      obtain ⟨b₁, d₁, h₁, h₂⟩ := bind_eq_ok hql
      obtain ⟨d₁', hq, hcd₁⟩ := Agrees.ok_eq hp hpc
      obtain ⟨rfl, rfl⟩ := Prod.mk.inj (Except.ok.inj (h₁.symm.trans hq))
      exact (hkl a₁ c₁ d₁ hcd₁).failed e hpk b d₂ h₂

/-- The same where the first parts may go on from the seam: then the second parts have to take something. -/
theorem bindTakes [hk : ∀ a, Takes (k a)] [hl : ∀ b, Takes (l b)] (hp : s.Follows g p q c d)
    (hkl : ∀ a c' d', s.Facing c' d' → s.Matches loose h (k a) (l (g a)) c' d') :
    s.Matches loose h (p >>= k) (q >>= l) c d where
  ok a c₂ hpk := by
    obtain ⟨a₁, c₁, h₁, h₂⟩ := bind_eq_ok hpk
    -- The first parts end at facing cursors, or the one in the piece alone has come to its end.
    rcases hp.ok a₁ c₁ h₁ with ⟨d₁, hq, hcd₁⟩ | ⟨_, rfl, _⟩
    · rw [bind_apply, hq]
      exact (hkl a₁ c₁ d₁ hcd₁).ok a c₂ h₂
    · -- behind the piece nothing is left to take
      exact absurd ((hk a₁).takes s.closed_last h₂) (Nat.not_lt_zero _)
  failed e hpk b d₂ hql := by
    rw [bind_apply] at hpk
    cases hpc : p c with
    | error stop =>
      rw [hpc] at hpk
      cases hpk
      exact hp.failed_bind hpc hql
    | ok read =>
      obtain ⟨a₁, c₁⟩ := read
      rw [hpc] at hpk
      obtain ⟨b₁, d₁, h₁, h₂⟩ := bind_eq_ok hql
      rcases hp.ok a₁ c₁ hpc with ⟨d₁', hq, hcd₁⟩ | ⟨_, _, hweight⟩
      · obtain ⟨rfl, rfl⟩ := Prod.mk.inj (Except.ok.inj (h₁.symm.trans hq))
        exact (hkl a₁ c₁ d₁ hcd₁).failed e hpk b d₂ h₂
      · -- the first part has gone on from the seam, and the second one takes more
        obtain ⟨hd₁, hle⟩ := hweight b₁ d₁ h₁
        have hlt₂ := (hl b₁).takes hd₁ h₂
        exact ⟨((hl b₁).shrinks h₂).closed hd₁, Nat.lt_of_lt_of_le hlt₂ hle⟩

/-- What is made of the results does not matter, as long as it corresponds. -/
protected theorem map (hp : s.Matches loose g p q c d) {φ : α → γ} {ψ : β → δ}
    (hφ : ∀ a, ψ (g a) = h (φ a)) :
    s.Matches loose h (p >>= fun a => pure (φ a)) (q >>= fun b => pure (ψ b)) c d where
  ok a c₂ hpk := by
    obtain ⟨a₁, c₁, h₁, h₂⟩ := bind_eq_ok hpk
    cases h₂
    rcases hp.ok a₁ _ h₁ with ⟨d₁, hq, hcd₁⟩ | ⟨hloose, hc₁, hweight⟩
    · left
      refine ⟨d₁, ?_, hcd₁⟩
      rw [bind_apply, hq, ← hφ]
      rfl
    · -- What follows returns at once, so it moves neither cursor.
      refine Or.inr ⟨hloose, hc₁, fun b d' hql => ?_⟩
      obtain ⟨b₁, d₁, h₁, h₂⟩ := bind_eq_ok hql
      cases h₂
      exact hweight b₁ _ h₁
  failed e hpk b d₂ hql := by
    obtain ⟨b₁, d₁, h₁, h₂⟩ := bind_eq_ok hql
    cases h₂
    rw [bind_apply] at hpk
    cases hpc : p c with
    | error stop =>
      rw [hpc] at hpk
      cases hpk
      exact hp.failed e hpc b₁ _ h₁
    | ok read =>
      rw [hpc] at hpk
      contradiction

/-- Deciding by a question that has the same answer on both sides. -/
protected theorem ite {P Q : Prop} [Decidable P] [Decidable Q] (hPQ : Q ↔ P)
    (hyes : P → s.Matches loose g p q c d) (hno : ¬ P → s.Matches loose g p' q' c d) :
    s.Matches loose g (if P then p else p') (if Q then q else q') c d := by
  by_cases hP : P
  · rw [if_pos hP, if_pos (hPQ.mpr hP)]
    exact hyes hP
  · rw [if_neg hP, if_neg fun hQ => hP (hPQ.mp hQ)]
    exact hno hP

/-- What looks at the next kind matches if what follows does for the kinds on both sides. -/
theorem peek {k : TokenKind → Parser γ} {l : TokenKind → Parser δ}
    (hkl : s.Matches loose h (k c.kind) (l d.kind) c d) :
    s.Matches loose h (Grammar.peek >>= k) (Grammar.peek >>= l) c d :=
  ⟨hkl.ok, hkl.failed⟩

/-- What looks at the next place matches if what follows does for the places on both sides. -/
theorem position {k : Pos → Parser γ} {l : Pos → Parser δ}
    (hkl : s.Matches loose h (k c.token.pos) (l d.token.pos) c d) :
    s.Matches loose h (Grammar.position >>= k) (Grammar.position >>= l) c d :=
  ⟨hkl.ok, hkl.failed⟩

/-- What looks at the cursor matches if what follows does for the cursors on both sides. -/
protected theorem get {k : Cursor → Parser γ} {l : Cursor → Parser δ}
    (hkl : s.Matches loose h (k c) (l d) c d) :
    s.Matches loose h (MonadState.get >>= k) (MonadState.get >>= l) c d :=
  ⟨hkl.ok, hkl.failed⟩

/-- What takes a token matches if what follows does behind it. -/
theorem advance {k : Token → Parser γ} {l : Token → Parser δ}
    (hkl : s.Matches loose h (k c.token) (l d.token) c.advance d.advance) :
    s.Matches loose h (Grammar.advance >>= k) (Grammar.advance >>= l) c d :=
  ⟨hkl.ok, hkl.failed⟩

/-- A token that was not expected fails on both sides. -/
theorem unexpected {expected : String} :
    s.Matches loose g (Grammar.unexpected expected) (Grammar.unexpected expected) c d :=
  failed_both rfl rfl

/-- A failure for a reason is one on both sides, wherever it is reported. -/
theorem failWith {cause : Cause} {p p' : Pos} :
    s.Matches loose g (Grammar.failWith cause p) (Grammar.failWith cause p') c d :=
  failed_both rfl rfl

/-- A reader that stops at the end of the input where nothing is left of the piece. -/
theorem stops [hq : Shrinks q] {a : α} (hp : p ⟨s.last, []⟩ = .ok (a, ⟨s.last, []⟩)) (hd : d.Closed)
    (hle : d.weight ≤ s.beyond.weight) : s.Follows g p q ⟨s.last, []⟩ d where
  ok a' c' h := by
    obtain ⟨_, rfl⟩ := Prod.mk.inj (Except.ok.inj (hp.symm.trans h))
    -- The reader in the longer list may go on, but it does not go back in front of the seam.
    refine Or.inr ⟨trivial, rfl, fun b d' hqd => ?_⟩
    have hfrom := hq.shrinks hqd
    exact ⟨hfrom.closed hd, Nat.le_trans hfrom.weight_le hle⟩
  failed e h := by
    rw [hp] at h
    contradiction

end Matches

/-! ## Section 4: Elementary Readers -/

/-- A token that may be taken is taken on both sides or on neither. -/
theorem Agrees.eat (hcd : s.Facing c d) {kind : TokenKind} (heof : kind ≠ .eof) (hnewline : kind ≠ .newline) :
    s.Agrees id (Grammar.eat kind) (Grammar.eat kind) c d := by
  apply Matches.peek
  apply Matches.ite (hcd.kind_eq_iff heof hnewline)
  · intro hkind
    apply Matches.advance
    exact Matches.pure (hcd.isInside (hkind ▸ heof)).advance rfl
  · intro _
    exact Matches.pure hcd rfl

/-- A token that has to be there is there on both sides or on neither. -/
theorem Agrees.expect (hcd : s.Facing c d) {kind : TokenKind} (heof : kind ≠ .eof) (hnewline : kind ≠ .newline)
    (expected : String) :
    s.Agrees s.shift (Grammar.expect kind expected) (Grammar.expect kind expected) c d := by
  apply Matches.peek
  apply Matches.ite (hcd.kind_eq_iff heof hnewline)
  · intro hkind
    apply Matches.advance
    exact Matches.pure (hcd.isInside (hkind ▸ heof)).advance hcd.pos
  · intro _
    exact Matches.unexpected

/-- A name that has to be there is there on both sides or on neither. -/
theorem Agrees.expectIdent (hcd : s.Facing c d) : s.Agrees id Grammar.expectIdent Grammar.expectIdent c d := by
  apply Matches.of_inside hcd
  intro hin
  apply Matches.peek
  rw [hin.kind_eq]
  split
  · apply Matches.advance
    exact Matches.pure hin.advance rfl
  · exact Matches.unexpected

/-- A key that has to be there is there on both sides or on neither. -/
theorem Agrees.expectKey (hcd : s.Facing c d) : s.Agrees id Grammar.expectKey Grammar.expectKey c d := by
  rcases hcd.inside_or_atEnd with hin | ⟨rfl, rfl⟩
  · apply Matches.advance
    have hkind : d.token.kind = c.token.kind := hin.kind_eq
    rw [hkind]
    split
    · exact Matches.pure hin.advance rfl
    · exact Matches.pure hin.advance rfl
    · exact Matches.unexpected
  · -- neither the end nor a line feed is a key
    apply Matches.advance
    rw [s.isEnd]
    rcases s.isNext with hnext | hnext
    · rw [show s.beyond.token.kind = .eof from hnext]
      exact Matches.unexpected
    · rw [show s.beyond.token.kind = .newline from hnext]
      exact Matches.unexpected

/-- A declarator is passed over on both sides or on neither. -/
theorem Agrees.skipDeclarator (hcd : s.Facing c d) :
    s.Agrees id Grammar.skipDeclarator Grammar.skipDeclarator c d := by
  apply Matches.bind (Agrees.eat hcd (by simp) (by simp))
  intro taken c₁ d₁ hcd₁
  apply Matches.ite Iff.rfl
  · intro _
    apply Matches.bind (Agrees.eat hcd₁ (by simp) (by simp))
    intro _ c₂ d₂ hcd₂
    exact Matches.pure hcd₂ rfl
  · intro _
    exact Matches.pure hcd₁ rfl

/-- How deeply constructs are nested does not depend on what is read. -/
theorem Agrees.enter (hcd : s.Facing c d) (depth : Nat) :
    s.Agrees id (Grammar.enter depth) (Grammar.enter depth) c d := by
  apply Matches.ite Iff.rfl
  · intro _
    apply Matches.position
    exact Matches.failWith
  · intro _
    exact Matches.pure hcd rfl

/-- The line feeds before a point are skipped on both sides: the point stands inside the piece. -/
theorem Matches.skipToChain (hcd : s.Facing c d) {k : PUnit → Parser γ} {l : PUnit → Parser δ}
    (hkl : ∀ c' d', s.Facing c' d' → s.Matches loose h (k ()) (l ()) c' d') :
    s.Matches loose h (Grammar.skipToChain >>= k) (Grammar.skipToChain >>= l) c d := by
  apply Matches.congr (skipToChain_bind k c) (skipToChain_bind l d)
  apply hkl
  rw [hcd.continuesChain_eq]
  split
  · next hchain =>
    have hdot := ((Bool.and_eq_true _ _).mp hchain).2
    rcases hcd.skip (· = .newline) with hin | ⟨hc, _⟩
    · exact hin.facing
    · -- a point continues the chain, and the piece ends with none
      rw [hc] at hdot
      exact absurd (of_decide_eq_true hdot) (s.last_ne (by simp))
  · exact hcd

/-- Skipping may reach the seam, and goes on behind it in the longer list. -/
theorem follows_skip (hcd : s.Facing c d) (skips : TokenKind → Bool) :
    s.Follows id (modify fun c => skipFrom skips c.token c.rest : Parser PUnit)
      (modify fun c => skipFrom skips c.token c.rest) c d where
  ok a c' h := by
    cases h
    rcases hcd.skip skips with hin | ⟨hc, hd⟩
    · exact Or.inl ⟨_, rfl, hin.facing⟩
    · refine Or.inr ⟨trivial, hc, ?_⟩
      intro b d' h
      cases h
      show (skipFrom skips d.token d.rest).Closed ∧ (skipFrom skips d.token d.rest).weight ≤ _
      rw [hd]
      exact ⟨closed_skipFrom s.closed, (Cursor.From.skip skips s.beyond).weight_le⟩
  failed e h := by contradiction

/-- Line feeds are skipped up to the same token, or across the seam in the longer list. -/
theorem follows_skipNewlines (hcd : s.Facing c d) :
    s.Follows id Grammar.skipNewlines Grammar.skipNewlines c d :=
  follows_skip hcd _

/-- Going on behind the parameters of a closure. -/
theorem Agrees.behindParams {k : List String → Parser γ} {l : List String → Parser δ} (hcd : s.Facing c d)
    (hkl : ∀ names c' d', s.Facing c' d' → s.Agrees h (k names) (l names) c' d') :
    s.Agrees h (Grammar.behindParams k) (Grammar.behindParams l) c d := by
  obtain ⟨hnames, hfacing⟩ := hcd.closureParams_eq
  have hrest := hkl (closureParams c).1 _ _ hfacing
  have hc : Grammar.behindParams k c = k (closureParams c).1 (closureParams c).2 := rfl
  have hd : Grammar.behindParams l d = l (closureParams c).1 (closureParams d).2 := hnames ▸ rfl
  exact Matches.congr hc hd hrest

/-- Looking for the alternative of a condition: it is never found across the seam. -/
theorem Agrees.lookElse {p p' : Parser γ} {q q' : Parser δ} (hcd : s.Facing c d)
    (hfound : ∀ c' d', s.Facing c' d' → s.Agrees h p q c' d') (hmissing : s.Agrees h p' q' c d) :
    s.Agrees h (lookBehind (.keyword .elses) p p') (lookBehind (.keyword .elses) q q') c d := by
  have hcases : ((skipFrom isSeparator c.token c.rest).kind = .keyword .elses ∧
      s.Inside (skipFrom isSeparator c.token c.rest) (skipFrom isSeparator d.token d.rest)) ∨
      ((skipFrom isSeparator c.token c.rest).kind ≠ .keyword .elses ∧
        (skipFrom isSeparator d.token d.rest).kind ≠ .keyword .elses) := by
    rcases hcd.skip isSeparator with hin | ⟨hc, hd⟩
    · by_cases hkind : (skipFrom isSeparator c.token c.rest).kind = .keyword .elses
      · exact Or.inl ⟨hkind, hin⟩
      · exact Or.inr ⟨hkind, hin.kind_eq ▸ hkind⟩
    · rw [hc, hd]
      exact Or.inr ⟨s.last_ne (by simp), s.noElse⟩
  rcases hcases with ⟨hkind, hin⟩ | ⟨hc, hd⟩
  · exact Matches.congr (lookBehind_of_eq hkind) (lookBehind_of_eq (hin.kind_eq.trans hkind))
      (hfound _ _ hin.advance)
  · exact Matches.congr (lookBehind_of_ne hc) (lookBehind_of_ne hd) hmissing

end Seam

end RowConsole.Script.Grammar
