import RowConsole.Proofs.Script.Grammar.Breaks.Places
import RowConsole.Proofs.Script.Grammar.Front

/-!
# Reading past a Line Break

A line feed is put between two tokens where lines are joined and a line feed may stand. Two cursors face each other if
the first stands in the tokens without it and the second at the same place of those with it, in which positions may be
moved. Only directly before the line feed do facing cursors not stand before the same token.

Main statements: what facing cursors have in common, `Aligned.advance`, `Faces.skip` and that every look ahead answers the
same on both sides.
-/

namespace RowConsole.Script.Grammar

/-! ## Section 1: Line Breaks -/

/-- Tokens on both sides of a place where a line feed may stand, and the line feed. Positions are moved by `shift`, and
no line is torn apart on either side, and none are joined. -/
structure Gap where
  shift : Pos → Pos
  front : List Token
  next : Token
  rest : List Token
  feed : Token
  isFeed : feed.kind = .newline
  closed : Cursor.Closed ⟨next, rest⟩
  enclosed : Enclosed (front.map Token.kind).reverse
  isBreakable : breakable (front.map Token.kind).reverse next.kind = true
  linesFront : ∀ t ∈ front, ∀ t' ∈ front, (shift t'.pos).line = (shift t.pos).line ↔ t'.pos.line = t.pos.line
  linesBehind : ∀ t ∈ next :: rest, ∀ t' ∈ next :: rest,
    (shift t'.pos).line = (shift t.pos).line ↔ t'.pos.line = t.pos.line

namespace Gap

variable (gap : Gap)

/-- The kinds of the tokens in front. -/
def past : Past := (gap.front.map Token.kind).reverse

/-- A token where it stands in the longer list. -/
def move : Token → Token := moveToken gap.shift

/-- The cursor before the line feed. -/
def atFeed : Cursor := ⟨gap.feed, gap.move gap.next :: gap.rest.map gap.move⟩

/-- Cursors that stand before the same token, and the kinds of the tokens in front of the first one. -/
inductive Aligned : Past → Cursor → Cursor → Prop where
  | front {done ts : List Token} {t : Token} (h : gap.front = done ++ t :: ts) :
    Aligned (done.map Token.kind).reverse ⟨t, ts ++ gap.next :: gap.rest⟩
      ⟨gap.move t, ts.map gap.move ++ gap.feed :: gap.move gap.next :: gap.rest.map gap.move⟩
  | behind {past : Past} {t : Token} {ts : List Token} (h : t :: ts <:+ gap.next :: gap.rest) :
    Aligned past ⟨t, ts⟩ ⟨gap.move t, ts.map gap.move⟩

/-- Facing cursors. -/
inductive Faces : Past → Cursor → Cursor → Prop where
  | aligned {past : Past} {c d : Cursor} (h : gap.Aligned past c d) : Faces past c d
  | atGap : Faces gap.past ⟨gap.next, gap.rest⟩ gap.atFeed

variable {gap} {past : Past} {c d : Cursor} {kind : TokenKind}

namespace Aligned

theorem token_eq (h : gap.Aligned past c d) : d.token = gap.move c.token := by
  cases h <;> rfl

theorem kind_eq (h : gap.Aligned past c d) : d.kind = c.kind := by
  unfold Cursor.kind
  rw [h.token_eq]
  rfl

theorem pos_eq (h : gap.Aligned past c d) : d.token.pos = gap.shift c.token.pos := by
  rw [h.token_eq]
  rfl

theorem closed (h : gap.Aligned past c d) : c.Closed := by
  cases h with
  | @front done ts t h => exact Cursor.closed_before (t :: ts) gap.closed
  | behind h => exact (gap.closed.of_suffix h).1

/-- Behind the last token there is nothing on either side. -/
theorem rest_eq_nil_iff (h : gap.Aligned past c d) : d.rest = [] ↔ c.rest = [] := by
  cases h <;> simp

/-- The cursors behind the token that both stand before. -/
theorem advance (h : gap.Aligned past c d) (hrest : c.rest ≠ []) :
    gap.Faces (c.kind :: past) c.advance d.advance := by
  cases h with
  | @front done ts t h =>
    have hpast : t.kind :: (done.map Token.kind).reverse = ((done ++ [t]).map Token.kind).reverse := by simp
    show gap.Faces (t.kind :: (done.map Token.kind).reverse) _ _
    rw [hpast]
    cases ts with
    | nil =>
      have hgap : ((done ++ [t]).map Token.kind).reverse = gap.past := by rw [← h, Gap.past]
      rw [hgap]
      exact .atGap
    | cons t' ts => exact .aligned (.front (by rw [h, List.append_assoc, List.singleton_append]))
  | @behind _ t ts h =>
    cases ts with
    | nil => exact absurd rfl hrest
    | cons t' ts => exact .aligned (.behind ((List.suffix_cons _ _).trans h))

theorem rest_ne_nil (h : gap.Aligned past c d) (heof : c.kind ≠ .eof) : c.rest ≠ [] := by
  intro hrest
  obtain ⟨t, rest⟩ := c
  cases hrest
  exact heof h.closed

end Aligned

namespace Faces

/-- Where lines are not joined, facing cursors stand before the same token. -/
theorem aligned_of_loose (h : gap.Faces past c d) (hnot : ¬Enclosed past) : gap.Aligned past c d := by
  cases h with
  | aligned h => exact h
  | atGap => exact absurd gap.enclosed hnot

/-- Cursors that face each other are aligned where no line feed may stand. -/
theorem aligned_of_not_breakable (h : gap.Faces past c d) (hnot : breakable past c.kind = false) :
    gap.Aligned past c d := by
  cases h with
  | aligned h => exact h
  | atGap => exact absurd (gap.isBreakable.symm.trans hnot) Bool.noConfusion

/-- Directly before the line feed, a token stands that may have one before it. -/
theorem cases_kind (h : gap.Faces past c d) :
    gap.Aligned past c d ∨ (d.kind = .newline ∧ Enclosed past ∧ breakable past c.kind = true) := by
  cases h with
  | aligned h => exact Or.inl h
  | atGap => exact Or.inr ⟨gap.isFeed, gap.enclosed, gap.isBreakable⟩

/-- Whether a token of a kind stands there that may not have a line feed before it is the same on both sides. -/
theorem kind_eq_iff (h : gap.Faces past c d) (hnewline : kind ≠ .newline)
    (hnot : breakable past kind = false) : d.kind = kind ↔ c.kind = kind := by
  rcases h.cases_kind with hal | ⟨hd, _, hc⟩
  · rw [hal.kind_eq]
  · constructor
    · intro hkind
      exact absurd (hkind.symm.trans hd) hnewline
    · intro hkind
      rw [hkind, hnot] at hc
      contradiction

end Faces

variable (gap) in
/-- Cursors that stand before the same token, where lines are not joined. -/
structure Loose (past : Past) (c d : Cursor) : Prop where
  aligned : gap.Aligned past c d
  notEnclosed : ¬Enclosed past

/-- Where lines are not joined and no bracket is left open, they are not joined behind that either. -/
theorem Faces.loose {past' : Past} (h : gap.Faces past' c d) (hopened : opened past' = opened past)
    (hnot : ¬Enclosed past) : gap.Loose past' c d := by
  have hnot' : ¬Enclosed past' := by rwa [Enclosed.congr hopened]
  exact ⟨h.aligned_of_loose hnot', hnot'⟩

theorem Loose.advance (h : gap.Loose past c d) (heof : c.kind ≠ .eof) (hplain : c.kind.role = .plain) :
    gap.Loose (c.kind :: past) c.advance d.advance :=
  (h.aligned.advance (h.aligned.rest_ne_nil heof)).loose (opened_plain hplain) h.notEnclosed

/-! ## Section 2: Skipping -/

/-- Where the line feed is to be skipped, it makes no difference. -/
theorem Faces.exists_aligned {skips : TokenKind → Bool} (h : gap.Faces past c d) (hskips : skips .newline = true) :
    ∃ d', gap.Aligned past c d' ∧ skipFrom skips d.token d.rest = skipFrom skips d'.token d'.rest := by
  cases h with
  | aligned h => exact ⟨d, h, rfl⟩
  | atGap =>
    have hfeed : skips gap.atFeed.kind = true := (congrArg skips gap.isFeed).trans hskips
    exact ⟨_, .behind (List.suffix_refl _), skipFrom_of_skips hfeed⟩

variable (gap) in
/-- Cursors that stand before the same token behind some tokens that have been passed. -/
def Beyond (passes : TokenKind → Prop) (past : Past) (c c' d' : Cursor) : Prop :=
  ∃ passed, (∀ kind ∈ passed, passes kind) ∧ c.kinds = passed ++ c'.kinds ∧ gap.Aligned (passed.reverse ++ past) c' d'

namespace Beyond

variable {passes : TokenKind → Prop} {c' d' : Cursor}

theorem here (h : gap.Aligned past c d) : gap.Beyond passes past c c d :=
  ⟨[], by simp, rfl, h⟩

theorem step (hkind : passes c.kind) (hrest : c.rest ≠ [])
    (h : gap.Beyond passes (c.kind :: past) c.advance c' d') : gap.Beyond passes past c c' d' := by
  obtain ⟨passed, hpassed, hkinds, hal⟩ := h
  refine ⟨c.kind :: passed, List.forall_mem_cons.mpr ⟨hkind, hpassed⟩, ?_, ?_⟩
  · obtain ⟨t, rest⟩ := c
    cases rest with
    | nil => exact absurd rfl hrest
    | cons next rest => exact congrArg (t.kind :: ·) hkinds
  · rwa [List.reverse_cons, List.append_assoc, List.singleton_append]

theorem advance (h : gap.Beyond (·.role = .plain) past c c' d') (hnot : ¬Enclosed past) (heof : c'.kind ≠ .eof)
    (hplain : c'.kind.role = .plain) : gap.Beyond (·.role = .plain) past c c'.advance d'.advance := by
  obtain ⟨passed, hpassed, hkinds, hal⟩ := h
  have hnot' : ¬Enclosed (passed.reverse ++ past) := by
    rwa [Enclosed.congr (opened_append fun kind hkind => hpassed kind (List.mem_reverse.mp hkind))]
  refine ⟨passed ++ [c'.kind], ?_, ?_, ?_⟩
  · rw [List.forall_mem_append]
    exact ⟨hpassed, by simpa using hplain⟩
  · rw [hkinds, Cursor.kinds_of_closed hal.closed heof, List.append_assoc, List.singleton_append]
  · rw [List.reverse_append]
    exact (Loose.advance ⟨hal, hnot'⟩ heof hplain).aligned

end Beyond

/-- Skipping stops before the same token on both sides. -/
theorem Faces.skip (skips : TokenKind → Bool) (hskips : skips .newline = true) (h : gap.Faces past c d) :
    gap.Beyond (skips · = true) past c (skipFrom skips c.token c.rest) (skipFrom skips d.token d.rest) := by
  obtain ⟨t, rest⟩ := c
  -- on the tokens that are left; at each of them the line feed may stand in between
  induction rest generalizing t past d with
  | nil =>
    obtain ⟨d', hal, hd⟩ := h.exists_aligned hskips
    have hrest := hal.rest_eq_nil_iff.mpr rfl
    obtain ⟨t', rest'⟩ := d'
    cases hrest
    rw [hd]
    exact .here hal
  | cons next rest ih =>
    obtain ⟨d', hal, hd⟩ := h.exists_aligned hskips
    rw [hd]
    cases ht : skips t.kind with
    | false =>
      rw [skipFrom_of_not (c := ⟨t, next :: rest⟩) ht, skipFrom_of_not (hal.kind_eq ▸ ht)]
      exact .here hal
    | true =>
      rw [skipFrom_of_skips (c := ⟨t, next :: rest⟩) ht, skipFrom_of_skips (c := d') (hal.kind_eq ▸ ht)]
      exact .step ht (by simp) (ih next (hal.advance (by simp)))

/-! ## Section 3: Looking Ahead -/

/-- Where lines are not joined, an argument in the same line is one on both sides. -/
theorem Loose.isCommandCall_eq (h : gap.Loose past c d) : isCommandCall d = isCommandCall c := by
  have hlines : ∀ {t next : Token} {rest rest' : List Token},
      ((gap.shift next.pos).line = (gap.shift t.pos).line ↔ next.pos.line = t.pos.line) →
      isCommandCall ⟨gap.move t, gap.move next :: rest⟩ = isCommandCall ⟨t, next :: rest'⟩ := by
    rintro ⟨kind, p⟩ next rest rest' hline
    cases kind with
    | ident name =>
      exact congrArg (· && startsArgument next.kind) (decide_eq_decide.mpr hline)
    | _ => rfl
  obtain ⟨hal, hnot⟩ := h
  cases hal with
  | @front done ts t h =>
    cases ts with
    | cons next ts => exact hlines (gap.linesFront t (by simp [h]) next (by simp [h]))
    | nil =>
      -- behind a name, which is no bracket, lines would be joined if they were before it
      obtain ⟨kind, p⟩ := t
      cases kind with
      | ident name =>
        have henclosed := gap.enclosed
        rw [h, List.map_append, List.reverse_append] at henclosed
        exact absurd ((enclosed_plain rfl).mp henclosed) hnot
      | _ => rfl
  | @behind _ t ts h =>
    cases ts with
    | cons next ts => exact hlines (gap.linesBehind t (h.mem (by simp)) next (h.mem (by simp)))
    | nil =>
      obtain ⟨kind, p⟩ := t
      cases kind <;> rfl

/-- Whether an entry of a map starts here is the same on both sides: no line feed may stand before a colon. -/
theorem Aligned.isMapKey_eq (h : gap.Aligned past c d) : isMapKey d = isMapKey c := by
  have hnext : endsOperand (c.kind :: past) = true → c.kind ≠ .eof →
      (d.nextKind = .symbol .colon ↔ c.nextKind = .symbol .colon) := fun hend heof =>
    (h.advance (h.rest_ne_nil heof)).kind_eq_iff (by simp) (breakable_of_endsOperand hend)
  unfold isMapKey
  rw [h.kind_eq]
  split
  · next name hname => rw [decide_eq_decide.mpr (hnext (by rw [hname]; rfl) (by simp [hname]))]
  · next text htext => rw [decide_eq_decide.mpr (hnext (by rw [htext]; rfl) (by simp [htext]))]
  · rfl

private theorem Cursor.tokens_of_rest {c : Cursor} (hrest : c.rest ≠ []) :
    c.token :: c.rest = c.token :: c.advance.token :: c.advance.rest := by
  obtain ⟨t, rest⟩ := c
  cases rest with
  | nil => exact absurd rfl hrest
  | cons next rest => rfl

/-- A name with a comma behind it is one of several names. -/
theorem identifiers_of_comma {c : Cursor} {name : String} (hrest : c.rest ≠ []) (hrest' : c.advance.rest ≠ [])
    (hname : c.kind = .ident name) (hcomma : c.advance.kind = .symbol .comma) :
    identifiers (c.token :: c.rest) =
      (name :: (identifiers (c.advance.advance.token :: c.advance.advance.rest)).1,
        (identifiers (c.advance.advance.token :: c.advance.advance.rest)).2) := by
  obtain ⟨⟨kind, p⟩, rest⟩ := c
  cases rest with
  | nil => exact absurd rfl hrest
  | cons next rest =>
    obtain ⟨kind', p'⟩ := next
    cases rest with
    | nil => exact absurd rfl hrest'
    | cons next' rest =>
      cases hname
      cases hcomma
      rfl

/-- A name without a comma behind it is the only one. -/
theorem identifiers_of_name {c : Cursor} {name : String} (hrest : c.rest ≠ []) (hname : c.kind = .ident name)
    (hcomma : c.advance.kind ≠ .symbol .comma) :
    identifiers (c.token :: c.rest) = ([name], c.advance.token :: c.advance.rest) := by
  rw [Cursor.tokens_of_rest hrest]
  obtain ⟨⟨kind, p⟩, rest⟩ := c
  cases hname
  exact Seam.identifiers_of_not_comma name p hcomma

/-- Names separated by commas are the same on both sides where lines are not joined. -/
theorem Loose.identifiers_eq (h : gap.Loose past c d) :
    ∃ names c' d', gap.Beyond (·.role = .plain) past c c' d' ∧
      identifiers (c.token :: c.rest) = (names, c'.token :: c'.rest) ∧
      identifiers (d.token :: d.rest) = (names, d'.token :: d'.rest) := by
  -- on the number of tokens that are left: behind a name and a comma there are two less
  induction hsize : c.size using Nat.strongRecOn generalizing past c d with
  | _ n ih =>
    by_cases hident : ∃ name, c.kind = .ident name
    · obtain ⟨name, hname⟩ := hident
      have heof : c.kind ≠ .eof := by simp [hname]
      have hplain : c.kind.role = .plain := by rw [hname]; rfl
      have hrest := h.aligned.rest_ne_nil heof
      have hrest' : d.rest ≠ [] := fun hd => hrest (h.aligned.rest_eq_nil_iff.mp hd)
      have hloose := h.advance heof hplain
      by_cases hcomma : c.advance.kind = .symbol .comma
      · have heof₁ : c.advance.kind ≠ .eof := by simp [hcomma]
        have hplain₁ : c.advance.kind.role = .plain := by rw [hcomma]; rfl
        have hrest₁ := hloose.aligned.rest_ne_nil heof₁
        have hrest₁' : d.advance.rest ≠ [] := fun hd => hrest₁ (hloose.aligned.rest_eq_nil_iff.mp hd)
        have hless : c.advance.advance.size < n :=
          hsize ▸ Nat.lt_trans (Cursor.size_advance hloose.aligned.closed heof₁) (Cursor.size_advance h.aligned.closed heof)
        obtain ⟨names, c', d', hbeyond, hc, hd⟩ := ih _ hless (hloose.advance heof₁ hplain₁) rfl
        refine ⟨name :: names, c', d', .step hplain hrest (.step hplain₁ hrest₁ hbeyond), ?_, ?_⟩
        · rw [identifiers_of_comma hrest hrest₁ hname hcomma, hc]
        · rw [identifiers_of_comma hrest' hrest₁' (h.aligned.kind_eq.trans hname) (hloose.aligned.kind_eq.trans hcomma),
            hd]
      · refine ⟨[name], c.advance, d.advance, .step hplain hrest (.here hloose.aligned), ?_, ?_⟩
        · exact identifiers_of_name hrest hname hcomma
        · exact identifiers_of_name hrest' (h.aligned.kind_eq.trans hname) (hloose.aligned.kind_eq.symm ▸ hcomma)
    · rw [not_exists] at hident
      exact ⟨[], c, d, .here h.aligned, Seam.identifiers_of_not_ident hident,
        Seam.identifiers_of_not_ident fun name hname => hident name (h.aligned.kind_eq.symm.trans hname)⟩

/-- The parameters of a closure are the same on both sides where lines are not joined. -/
theorem Loose.closureParams_eq (h : gap.Loose past c d) :
    (closureParams d).1 = (closureParams c).1 ∧
      gap.Beyond (·.role = .plain) past c (closureParams c).2 (closureParams d).2 := by
  obtain ⟨hal, hnot⟩ := id h
  by_cases harrow : c.kind = .symbol .arrow
  · have hparams : ∀ c' : Cursor, c'.kind = .symbol .arrow → closureParams c' = ([], c'.advance) :=
      fun c' hc' => if_pos hc'
    rw [hparams c harrow, hparams d (hal.kind_eq.trans harrow)]
    exact ⟨rfl, (Beyond.here hal).advance hnot (by simp [harrow]) (by rw [harrow]; rfl)⟩
  have harrow' : d.kind ≠ .symbol .arrow := hal.kind_eq.symm ▸ harrow
  -- Both sides read the same names; whether they are parameters depends on the arrow behind them.
  obtain ⟨names, c', d', hbeyond, hc, hd⟩ := h.identifiers_eq
  obtain ⟨_, _, _, hal'⟩ := id hbeyond
  by_cases hc' : c'.kind = .symbol .arrow
  · rw [Seam.closureParams_of_arrow harrow hc hc', Seam.closureParams_of_arrow harrow' hd (hal'.kind_eq.trans hc')]
    split
    · exact ⟨rfl, .here hal⟩
    · exact ⟨rfl, hbeyond.advance hnot (by simp [hc']) (by rw [hc']; rfl)⟩
  · rw [Seam.closureParams_of_not_arrow harrow hc hc',
      Seam.closureParams_of_not_arrow harrow' hd fun hd' => hc' (hal'.kind_eq.symm.trans hd')]
    exact ⟨rfl, .here hal⟩

end Gap

end RowConsole.Script.Grammar
