import RowConsole.Proofs.Script.Composition
import RowConsole.Proofs.Script.Token.Offsets

/-!
# Dividing Texts

A text is divided between two of its tokens: the tokens of the first piece are those in front, and the tokens of the
second piece those behind, where they stand behind the first piece. Between any two tokens of a text it can be divided,
since a token ends in the same way where more text follows it and where nothing does.

Main statements: `exists_divides` and `tokenize_newline`.
-/

namespace RowConsole.Script

open Grammar (Endless moveToken)

/-! ## Section 1: Positions behind a Place -/

/-- A position of a text that starts at `q`. -/
def Pos.behind (q p : Pos) : Pos :=
  ⟨q.line + (p.line - 1), if p.line = 1 then q.col + (p.col - 1) else p.col⟩

/-- Lines and columns count from one. -/
def Pos.Counted (p : Pos) : Prop :=
  1 ≤ p.line ∧ 1 ≤ p.col

/-- Going on by a character counts lines and columns on. -/
theorem Pos.Counted.next {p : Pos} (h : p.Counted) (c : Char) : (p.next c).Counted := by
  unfold Pos.next
  split
  · exact ⟨Nat.le_add_left 1 _, Nat.le_refl 1⟩
  · exact ⟨h.1, Nat.le_add_left 1 _⟩

/-- Going on by a character commutes with standing behind a text. -/
private theorem Pos.next_behind (q : Pos) {p : Pos} (h : p.Counted) (c : Char) : (q.behind p).next c = q.behind
    (p.next c) := by
  obtain ⟨hline, hcol⟩ := h
  unfold Pos.next
  split
  · simp only [Pos.behind, Pos.mk.injEq]
    constructor
    · omega
    · rw [if_neg (by omega)]
  · simp only [Pos.behind, Pos.mk.injEq, true_and]
    split
    · omega
    · rfl

/-- Going on by a text commutes with standing behind another one. -/
private theorem Pos.after_behind (q : Pos) {p : Pos} (h : p.Counted) (cs : List Char) :
    (q.behind p).after cs = q.behind (p.after cs) := by
  induction cs generalizing p with
  | nil => rfl
  | cons c cs ih =>
    show ((q.behind p).next c).after cs = _
    rw [Pos.next_behind q h, ih (h.next c)]
    rfl

/-- A text behind another one has the same glyphs, at the places behind it. -/
private theorem locate_behind (q : Pos) {p : Pos} (h : p.Counted) (cs : List Char) :
    locate (q.behind p) cs = (locate p cs).map (Glyph.mapPos q.behind) := by
  induction cs generalizing p with
  | nil => rfl
  | cons c cs ih =>
    rw [locate, Pos.next_behind q h, ih (h.next c)]
    rfl

/-- A text behind another one is cut into the same tokens as alone. -/
theorem scanAll_behind (q : Pos) (cs : List Char) :
    scanAll (q.after cs) (locate q cs) = moveResult q.behind (List.map (moveToken q.behind)) (tokenizeChars cs) := by
  have hstart : Pos.start.Counted := ⟨Nat.le_refl 1, Nat.le_refl 1⟩
  have hfinish : q.after cs = q.behind (Pos.start.after cs) := Pos.after_behind q hstart cs
  have hglyphs : locate q cs = (locate Pos.start cs).map (Glyph.mapPos q.behind) := locate_behind q hstart cs
  rw [hfinish, hglyphs, scanAll_move, tokenizeChars_eq]

/-! ## Section 2: Nothing behind a Token -/

section Truncate

variable {g : Glyph} {piece more left : List Glyph}

/-- A text that is the end of itself with more in front has nothing in front. -/
private theorem left_eq_nil (h : left ++ more <:+ more) : left = [] := by
  have hlength := h.length_le
  rw [List.length_append] at hlength
  exact List.length_eq_zero_iff.mp (by omega)

/-- No text with one more glyph in front is the end of itself. -/
private theorem not_suffix_of_cons (h : left ++ g :: more <:+ more) : False := by
  have hlength := h.length_le
  rw [List.length_append, List.length_cons] at hlength
  omega

/-- Inside of a block comment something is skipped. -/
theorem length_of_blockComment {start : Pos} (h : skipTrivia (.blockComment start) piece = .ok left) :
    left.length < piece.length := by
  cases skipped_of_skipTrivia h with
  | closesBlock _ _ hrest => exact Nat.lt_succ_of_le (Nat.le_succ_of_le hrest.suffix.length_le)
  | inBlock _ hrest => exact Nat.lt_succ_of_le hrest.suffix.length_le

/-- Blanks and comments that end in a piece of text are skipped in the piece alone. -/
theorem skipTrivia_truncate {trivia : Trivia} (h : skipTrivia trivia (piece ++ more) = .ok (left ++ more)) :
    skipTrivia trivia piece = .ok left := by
  induction trivia, piece using trivia_induction with
  | nothing =>
    rw [left_eq_nil (skipTrivia_suffix h)]
    rfl
  | blank g rest hblank ih =>
    rw [List.cons_append, skipTrivia_cons_blank hblank] at h
    rw [skipTrivia_cons_blank hblank]
    exact ih h
  | opensLine g g' rest hblank hg hg' ih =>
    rw [List.cons_append, List.cons_append, skipTrivia_opensLine hblank hg hg'] at h
    rw [skipTrivia_opensLine hblank hg hg']
    exact ih h
  | opensBlock g g' rest hblank hg hg' ih =>
    rw [List.cons_append, List.cons_append, skipTrivia_opensBlock hblank hg hg'] at h
    rw [skipTrivia_opensBlock hblank hg hg']
    exact ih h
  | stops g rest hblank hcomment =>
    rw [skipTrivia_stops hblank hcomment]
    have hstops : (g.char = '/' → leading (rest ++ more) ≠ some '/' ∧ leading (rest ++ more) ≠ some '*') →
        Except.ok (g :: rest) = (Except.ok left : ScriptResult (List Glyph)) := by
      intro hcomment
      rw [List.cons_append, skipTrivia_stops hblank hcomment, ← List.cons_append] at h
      exact congrArg Except.ok (List.append_cancel_right (Except.ok.inj h))
    cases rest with
    | cons g' rest => exact hstops hcomment
    | nil =>
      cases more with
      | nil => exact hstops hcomment
      | cons g' more =>
        -- a comment that opens at the end of the piece reaches beyond it
        apply hstops
        intro hg
        constructor
        · intro hg'
          have hopens : g'.char = '/' := by simpa [leading] using hg'
          have hskip := (skipTrivia_opensLine hblank hg hopens).symm.trans h
          exact not_suffix_of_cons (skipTrivia_suffix hskip)
        · intro hg'
          have hopens : g'.char = '*' := by simpa [leading] using hg'
          have hskip := (skipTrivia_opensBlock hblank hg hopens).symm.trans h
          exact not_suffix_of_cons (skipTrivia_suffix hskip)
  | lineAtEnd =>
    rw [left_eq_nil (skipTrivia_suffix h)]
    rfl
  | endsLine g rest hg =>
    rw [List.cons_append, skipTrivia_endsLine hg] at h
    rw [skipTrivia_endsLine hg]
    exact congrArg Except.ok (List.append_cancel_right (Except.ok.inj h))
  | inLine g rest hg ih =>
    rw [List.cons_append, skipTrivia_line_cons hg] at h
    rw [skipTrivia_line_cons hg]
    exact ih h
  | blockAtEnd start =>
    have hlength := length_of_blockComment h
    simp only [List.nil_append, List.length_append] at hlength
    omega
  | closesBlock start g g' rest hg hg' ih =>
    rw [List.cons_append, List.cons_append, skipTrivia_closesBlock hg hg'] at h
    rw [skipTrivia_closesBlock hg hg']
    exact ih h
  | inBlock start g rest hclose ih =>
    rw [skipTrivia_block_cons hclose]
    have hstays : ¬(g.char = '*' ∧ leading (rest ++ more) = some '/') →
        skipTrivia (.blockComment start) rest = .ok left := by
      intro hclose
      rw [List.cons_append, skipTrivia_block_cons hclose] at h
      exact ih h
    cases rest with
    | cons g' rest => exact hstays hclose
    | nil =>
      cases more with
      | nil => exact hstays hclose
      | cons g' more =>
        apply hstays
        rintro ⟨hg, hg'⟩
        have hcloses : g'.char = '/' := by simpa [leading] using hg'
        have hskip := (skipTrivia_closesBlock hg hcloses).symm.trans h
        exact not_suffix_of_cons (skipTrivia_suffix hskip)

/-- The text of a string is left behind, and its quote. -/
theorem length_of_scanString {quote : Char} {cs : List Char} (h : scanString quote piece = some (cs, left)) :
    left.length < piece.length := by
  cases quoted_of_scanString h with
  | closes => exact Nat.lt_succ_self _
  | escapes _ _ hrest => exact Nat.lt_succ_of_le (Nat.le_succ_of_le hrest.suffix.length_le)
  | passes _ _ hrest => exact Nat.lt_succ_of_le hrest.suffix.length_le

/-- A string literal that ends within a piece is read from the piece alone. -/
private theorem scanString_truncate {quote : Char} {cs : List Char}
    (h : scanString quote (piece ++ more) = some (cs, left ++ more)) : scanString quote piece = some (cs, left) := by
  induction piece using scanString.induct quote generalizing cs with
  | case1 =>
    have hlength := length_of_scanString h
    simp only [List.nil_append, List.length_append] at hlength
    omega
  | case2 g rest hquote =>
    rw [List.cons_append, scanString_closes hquote] at h
    rw [scanString_closes hquote]
    obtain ⟨hcs, hrest⟩ := Prod.mk.inj (Option.some.inj h)
    rw [hcs, List.append_cancel_right hrest]
  | case3 g hquote hescape =>
    -- the escaped character would stand behind the piece
    cases more with
    | nil =>
      rw [List.append_nil, scanString.eq_def] at h
      cases ((if_neg hquote).trans (if_pos hescape)).symm.trans h
    | cons e more =>
      rw [List.singleton_append, scanString_escapes hquote hescape] at h
      obtain ⟨⟨cs', tail⟩, hread, heq⟩ := Option.map_eq_some_iff.mp h
      cases heq
      exact (not_suffix_of_cons (scanString_suffix hread)).elim
  | case4 g hquote hescape e rest ih =>
    rw [List.cons_append, List.cons_append, scanString_escapes hquote hescape] at h
    rw [scanString_escapes hquote hescape]
    obtain ⟨⟨cs', tail⟩, hread, heq⟩ := Option.map_eq_some_iff.mp h
    cases heq
    rw [ih hread]
    rfl
  | case5 g rest hquote hescape ih =>
    rw [List.cons_append, scanString_cons hquote hescape] at h
    rw [scanString_cons hquote hescape]
    obtain ⟨⟨cs', tail⟩, hread, heq⟩ := Option.map_eq_some_iff.mp h
    cases heq
    rw [ih hread]
    rfl

/-- A digit is read. -/
private theorem scanDigits_digit (hg : g.char.isDigit = true) :
    scanDigits (g :: piece) = (g.char :: (scanDigits piece).1, (scanDigits piece).2) := by
  rw [scanDigits, if_pos hg]

/-- An underscore among digits is passed over. -/
private theorem scanDigits_underscore (hg : g.char = '_') : scanDigits (g :: piece) = scanDigits piece := by
  rw [scanDigits, if_neg (by rw [hg]; decide), if_pos hg]

/-- Any other character ends the digits. -/
private theorem scanDigits_stops (hdigit : ¬g.char.isDigit = true) (hunderscore : g.char ≠ '_') :
    scanDigits (g :: piece) = ([], g :: piece) := by
  rw [scanDigits, if_neg hdigit, if_neg hunderscore]

/-- Digits that end within a piece are read from the piece alone. -/
private theorem scanDigits_truncate (h : (scanDigits (piece ++ more)).2 = left ++ more) :
    scanDigits piece = ((scanDigits (piece ++ more)).1, left) := by
  induction piece with
  | nil =>
    -- Digits read beyond the cut would leave less than `more`, so here nothing more is read.
    have hleft : left = [] := left_eq_nil (h ▸ scanDigits_suffix)
    subst hleft
    cases more with
    | nil => rfl
    | cons g more =>
      have hsuffix : (scanDigits more).2 <:+ more := scanDigits_suffix
      by_cases hdigit : g.char.isDigit = true
      · rw [List.nil_append, scanDigits_digit hdigit] at h
        have hlonger : [] ++ g :: more <:+ more := h ▸ hsuffix
        exact (not_suffix_of_cons hlonger).elim
      · by_cases hunderscore : g.char = '_'
        · rw [List.nil_append, scanDigits_underscore hunderscore] at h
          have hlonger : [] ++ g :: more <:+ more := h ▸ hsuffix
          exact (not_suffix_of_cons hlonger).elim
        · rw [List.nil_append, scanDigits_stops hdigit hunderscore]
          rfl
  | cons g rest ih =>
    rw [List.cons_append] at h ⊢
    by_cases hdigit : g.char.isDigit = true
    · rw [scanDigits_digit hdigit] at h
      rw [scanDigits_digit hdigit, scanDigits_digit hdigit, ih h]
    · by_cases hunderscore : g.char = '_'
      · rw [scanDigits_underscore hunderscore] at h
        rw [scanDigits_underscore hunderscore, scanDigits_underscore hunderscore, ih h]
      · rw [scanDigits_stops hdigit hunderscore, ← List.cons_append] at h
        rw [scanDigits_stops hdigit hunderscore, scanDigits_stops hdigit hunderscore, List.append_cancel_right h]

/-- A fraction takes its point and at least one digit. -/
theorem length_of_scanFraction? {cs : List Char} (h : scanFraction? piece = some (cs, left)) :
    left.length + 2 ≤ piece.length := by
  unfold scanFraction? at h
  split at h
  · next p d rest =>
    split at h
    · next hdigit =>
      -- The digit that has to stand behind the point is among those taken.
      have hrest : (scanDigits rest).2 = left := by
        rw [scanDigits_digit hdigit] at h
        exact congrArg Prod.snd (Option.some.inj h)
      have hsuffix : (scanDigits rest).2 <:+ rest := scanDigits_suffix
      have hlength := hsuffix.length_le
      rw [hrest] at hlength
      exact Nat.add_le_add_right hlength 2
    · contradiction
  · contradiction

/-- A fraction that ends within a piece is read from the piece alone. -/
private theorem scanFraction?_truncate {cs : List Char} (h : scanFraction? (piece ++ more) = some (cs, left ++ more)) :
    scanFraction? piece = some (cs, left) := by
  have hlength := length_of_scanFraction? h
  simp only [List.length_append] at hlength
  -- A fraction takes a point and a digit, so the piece before the cut has two glyphs at least.
  match piece with
  | [] => simp at hlength; omega
  | [_] => simp at hlength; omega
  | p :: d :: rest =>
    by_cases hpoint : p.char = '.'
    · rw [List.cons_append, List.cons_append, scanFraction?_cons hpoint] at h
      rw [scanFraction?_cons hpoint]
      by_cases hdigit : d.char.isDigit = true
      · rw [if_pos hdigit] at h
        have hdigits : scanDigits (d :: rest ++ more) = (cs, left ++ more) := Option.some.inj h
        rw [if_pos hdigit, scanDigits_truncate (congrArg Prod.snd hdigits), hdigits]
      · rw [if_neg hdigit] at h
        contradiction
    · rw [scanFraction?_eq_none (by simpa [leading] using hpoint)] at h
      contradiction

/-- Where there is no fraction, the piece alone has none either. -/
private theorem scanFraction?_truncate_none (h : scanFraction? (piece ++ more) = none) :
    scanFraction? piece = none := by
  match piece with
  | [] => rfl
  -- A point just before the cut has no digit behind it.
  | [p] =>
    unfold scanFraction?
    split
    · next hfraction => cases hfraction
    · rfl
  | p :: d :: rest =>
    by_cases hpoint : p.char = '.'
    · rw [List.cons_append, List.cons_append, scanFraction?_cons hpoint] at h
      rw [scanFraction?_cons hpoint]
      by_cases hdigit : d.char.isDigit = true
      · rw [if_pos hdigit] at h
        contradiction
      · exact if_neg hdigit
    · exact scanFraction?_eq_none (by simpa [leading] using hpoint)

/-- A number that ends within a piece is read from the piece alone. -/
private theorem scanNumber_truncate {start : Pos} {first : Char} {kind : TokenKind}
    (h : scanNumber start first (piece ++ more) = .ok (kind, left ++ more)) :
    scanNumber start first piece = .ok (kind, left) := by
  unfold scanNumber at h ⊢
  -- Stated for every tail: with a fraction the digits end before it, and without one at `left`.
  have hdigits : ∀ tail, (scanDigits (piece ++ more)).2 = tail ++ more →
      scanDigits piece = ((scanDigits (piece ++ more)).1, tail) := fun _ => scanDigits_truncate
  generalize scanDigits (piece ++ more) = digits at h hdigits
  obtain ⟨ds, tail⟩ := digits
  dsimp only at h hdigits
  split at h
  · next fraction tail' hfraction =>
    obtain ⟨before, hbefore⟩ := scanFraction?_suffix hfraction
    obtain ⟨hkind, htail⟩ := Prod.mk.inj (Except.ok.inj h)
    rw [htail, ← List.append_assoc] at hbefore
    rw [htail, ← hbefore] at hfraction
    rw [hdigits _ hbefore.symm]
    dsimp only
    rw [scanFraction?_truncate hfraction, ← hkind]
  · next hfraction =>
    split at h
    · next n hn =>
      obtain ⟨hkind, htail⟩ := Prod.mk.inj (Except.ok.inj h)
      rw [htail] at hfraction
      rw [hdigits _ htail]
      dsimp only
      rw [scanFraction?_truncate_none hfraction]
      dsimp only
      rw [hn, ← hkind]
    · contradiction

/-- What passes a test up to somewhere within a piece is the same in the piece alone. -/
private theorem takeWhile_truncate {test : Glyph → Bool} (h : (piece ++ more).dropWhile test = left ++ more) :
    (piece ++ more).takeWhile test = piece.takeWhile test ∧ piece.dropWhile test = left := by
  induction piece with
  | nil =>
    -- Nothing beyond the cut is dropped, so nothing beyond it is taken.
    have hleft : left = [] := left_eq_nil (h ▸ List.dropWhile_suffix test)
    subst hleft
    have hwhole := List.takeWhile_append_dropWhile (p := test) (l := more)
    rw [show more.dropWhile test = more from h] at hwhole
    exact ⟨List.append_left_eq_self.mp hwhole, rfl⟩
  | cons g rest ih =>
    cases hg : test g with
    | true =>
      rw [List.cons_append, List.dropWhile_cons_of_pos hg] at h
      obtain ⟨htake, hdrop⟩ := ih h
      simp [hg, htake, hdrop]
    | false =>
      rw [List.cons_append, List.dropWhile_cons_of_neg (by simp [hg]), ← List.cons_append] at h
      rw [← List.append_cancel_right h]
      simp [hg]

/-- A word that ends within a piece is read from the piece alone. -/
private theorem scanWord_truncate {first : Char} (h : (scanWord first (piece ++ more)).2 = left ++ more) :
    scanWord first piece = ((scanWord first (piece ++ more)).1, left) := by
  obtain ⟨htake, hdrop⟩ := takeWhile_truncate h
  simp only [scanWord, htake, hdrop]

/-- A symbol that ends within a piece is read from the piece alone. -/
private theorem scanSymbol?_truncate {first : Char} {s : Symbol}
    (h : scanSymbol? first (piece ++ more) = some (s, left ++ more)) : scanSymbol? first piece = some (s, left) := by
  cases piece with
  | cons g rest =>
    rw [List.cons_append, scanSymbol?] at h
    rw [scanSymbol?]
    split at h
    · obtain ⟨hs, hrest⟩ := Prod.mk.inj (Option.some.inj h)
      rw [hs, List.append_cancel_right hrest]
    · obtain ⟨s', hone, heq⟩ := Option.map_eq_some_iff.mp h
      obtain ⟨hs, hrest⟩ := Prod.mk.inj heq
      rw [← List.cons_append] at hrest
      rw [hone, hs, ← List.append_cancel_right hrest]
      rfl
  | nil =>
    have hleft : left = [] := left_eq_nil (scanSymbol?_suffix h)
    subst hleft
    cases more with
    | nil => exact h
    | cons g more =>
      rw [List.nil_append, scanSymbol?] at h
      -- A sign of two glyphs would reach beyond the cut.
      split at h
      · have hrest := (Prod.mk.inj (Option.some.inj h)).2
        exact absurd (congrArg List.length hrest) (by simp)
      · obtain ⟨s', hone, heq⟩ := Option.map_eq_some_iff.mp h
        rw [scanSymbol?, hone, ← (Prod.mk.inj heq).1]
        rfl

/-- A token that ends in a piece of text is read from the piece alone. -/
theorem scanToken_truncate {kind : TokenKind} (h : scanToken g (piece ++ more) = .ok (kind, left ++ more)) :
    scanToken g piece = .ok (kind, left) := by
  -- The tests see the first glyph only, so both scans go the same way and each reader has its own lemma.
  unfold scanToken at h ⊢
  split at h
  · next hline =>
    obtain ⟨hkind, hrest⟩ := Prod.mk.inj (Except.ok.inj h)
    rw [if_pos hline, hkind, List.append_cancel_right hrest]
  · next hline =>
    rw [if_neg hline]
    split at h
    · next hquote =>
      rw [if_pos hquote]
      split at h
      · next cs tail hscan =>
        obtain ⟨hkind, htail⟩ := Prod.mk.inj (Except.ok.inj h)
        rw [htail] at hscan
        rw [scanString_truncate hscan, ← hkind]
      · contradiction
    · next hquote =>
      rw [if_neg hquote]
      split at h
      · next hdigit =>
        rw [if_pos hdigit]
        exact scanNumber_truncate h
      · next hdigit =>
        rw [if_neg hdigit]
        split at h
        · next hword =>
          have hread := Except.ok.inj h
          rw [if_pos hword, scanWord_truncate (congrArg Prod.snd hread), hread]
        · next hword =>
          rw [if_neg hword]
          split at h
          · next s tail hscan =>
            obtain ⟨hkind, htail⟩ := Prod.mk.inj (Except.ok.inj h)
            rw [htail] at hscan
            rw [scanSymbol?_truncate hscan, ← hkind]
          · contradiction

end Truncate

/-! ## Section 3: Dividing a Source -/

/-- The first tokens of a text are the tokens of a piece of it, and the others those of the rest. -/
theorem exists_pieces_of_scanAll {finish : Pos} {glyphs : List Glyph} {front behind : List Token}
    (hbehind : behind ≠ [])
    (h : scanAll finish glyphs = .ok (front ++ behind)) :
    ∃ piece more, glyphs = piece ++ more ∧ scanAll finish more = .ok behind ∧
      ∀ finish', scanAll finish' piece = .ok (front ++ [⟨.eof, finish'⟩]) := by
  induction front generalizing glyphs with
  | nil => exact ⟨[], glyphs, rfl, h, fun finish' => scanAll_done rfl⟩
  | cons t front ih =>
    rw [List.cons_append] at h
    cases hskip : skipTrivia .between glyphs with
    | error e =>
      rw [scanAll_open hskip] at h
      contradiction
    | ok left =>
      cases left with
      | nil =>
        rw [scanAll_done hskip] at h
        obtain ⟨_, hnil⟩ := List.cons.inj (Except.ok.inj h)
        exact absurd (List.append_eq_nil_iff.mp hnil.symm).2 hbehind
      | cons g rest =>
        cases htoken : scanToken g rest with
        | error e =>
          rw [scanAll_stuck hskip htoken] at h
          contradiction
        | ok read =>
          obtain ⟨kind, tail⟩ := read
          rw [scanAll_token hskip htoken] at h
          cases hscan : scanAll finish tail with
          | error e =>
            rw [hscan] at h
            contradiction
          | ok us =>
            rw [hscan] at h
            obtain ⟨rfl, rfl⟩ := List.cons.inj (Except.ok.inj h)
            obtain ⟨piece, more, rfl, hmore, hpiece⟩ := ih hscan
            obtain ⟨blanks, rfl⟩ := skipTrivia_suffix hskip
            obtain ⟨word, rfl⟩ := scanToken_suffix htoken
            -- the blanks, the token and its piece are read in the same way where nothing follows them
            have hlong : skipTrivia .between (blanks ++ g :: (word ++ piece) ++ more) =
                .ok (g :: (word ++ piece) ++ more) := by simpa using hskip
            have hskip' := skipTrivia_truncate hlong
            have htoken' : scanToken g (word ++ piece) = .ok (kind, piece) :=
              scanToken_truncate (by rw [List.append_assoc]; exact htoken)
            refine ⟨blanks ++ g :: (word ++ piece), more, by simp, hmore, fun finish' => ?_⟩
            rw [scanAll_token hskip' htoken', hpiece]
            rfl

/-- A source is divided into two pieces between some of its tokens and the others. -/
structure Divides (source : String) (front behind : List Token) (a b : String) : Prop where
  source_eq : source = a ++ b
  front : tokenize a = .ok (front ++ [endOf a.toList])
  behind : ∃ us, tokenize b = .ok us ∧ behind = us.map (moveToken (Pos.start.after a.toList).behind)

/-- A source can be divided in front of each of its tokens. -/
theorem exists_divides {source : String} {front rest : List Token} {next : Token}
    (h : tokenize source = .ok (front ++ next :: rest)) : ∃ a b, Divides source front (next :: rest) a b := by
  rw [tokenize, tokenizeChars_eq] at h
  obtain ⟨piece, more, hglyphs, hmore, hpiece⟩ := exists_pieces_of_scanAll (by simp) h
  -- both pieces of the glyphs are the glyphs of pieces of the source
  obtain ⟨as, bs, hsource, hlength⟩ : ∃ as bs, source.toList = as ++ bs ∧ as.length = piece.length := by
    refine ⟨source.toList.take piece.length, source.toList.drop piece.length, (List.take_append_drop ..).symm, ?_⟩
    have hlength := congrArg List.length hglyphs
    rw [length_locate, List.length_append] at hlength
    rw [List.length_take]
    omega
  rw [hsource, locate_append] at hglyphs
  obtain ⟨rfl, rfl⟩ := List.append_inj hglyphs (by rw [length_locate, hlength])
  refine ⟨String.ofList as, String.ofList bs, ?_, ?_, ?_⟩
  · rw [← String.ofList_append, ← hsource, String.ofList_toList]
  · rw [tokenize, tokenizeChars_eq, String.toList_ofList]
    exact hpiece _
  · rw [hsource, Pos.after_append, scanAll_behind] at hmore
    cases hbs : tokenizeChars bs with
    | error e =>
      rw [hbs] at hmore
      contradiction
    | ok us =>
      rw [hbs] at hmore
      rw [String.toList_ofList]
      exact ⟨us, by rw [tokenize, String.toList_ofList, hbs], (Except.ok.inj hmore).symm⟩

/-! ## Section 4: A Line Feed between Two Tokens -/

instance (p q : Pos) : Decidable (p.Before q) :=
  inferInstanceAs (Decidable (_ ∨ _))

/-- Where a position comes to stand when a line feed is put at `q`. Positions in front stay, all others go to the next
line, and those behind in the line of the line feed are counted from there. -/
def Pos.broken (q p : Pos) : Pos :=
  if p.Before q then p else ⟨p.line + 1, if p.line = q.line then p.col - q.col + 1 else p.col⟩

/-- Places before the break stay where they are. -/
theorem Pos.broken_of_before {p q : Pos} (h : p.Before q) : q.broken p = p :=
  if_pos h

/-- A text behind a place stands where it would stand behind a line feed there. -/
theorem Pos.broken_behind (q : Pos) {p : Pos} (h : p.Counted) : q.broken (q.behind p) = p.down q.line := by
  obtain ⟨hline, hcol⟩ := h
  have hnot : ¬(q.behind p).Before q := by
    unfold Pos.behind Pos.Before
    dsimp only
    split <;> omega
  have hbehind : (q.behind p).line = q.line + (p.line - 1) := rfl
  rw [Pos.broken, if_neg hnot, Pos.down, Pos.mk.injEq]
  refine ⟨by omega, ?_⟩
  by_cases hfirst : p.line = 1
  · have hcol' : (q.behind p).col = q.col + (p.col - 1) := if_pos hfirst
    rw [if_pos (by omega), hcol']
    omega
  · rw [if_neg (by omega)]
    exact if_neg hfirst

/-- The places of tokens count lines and columns from one. -/
theorem Stand.counted {cs : List Char} {i : Nat} {ts : List Token} (h : Stand cs i ts) {t : Token} (ht : t ∈ ts) :
    t.pos.Counted := by
  obtain ⟨j, _, _, hpos⟩ := h.exists_offset ht
  rw [hpos]
  exact ⟨Nat.le_add_right 1 _, Nat.le_add_right 1 _⟩

namespace Divides

variable {source a b : String} {front behind : List Token}

/-- The tokens in front come before the place where the source is divided. -/
theorem before_of_mem (h : Divides source front behind a b) {t : Token} (ht : t ∈ front) :
    t.pos.Before (Pos.start.after a.toList) := by
  have hbefore := (stand_of_tokenize h.front).pairwise_before
  rw [List.map_append, List.pairwise_append] at hbefore
  exact hbefore.2.2 t.pos (List.mem_map_of_mem ht) _ (List.mem_singleton_self _)

/-- A line feed between two tokens is a token between them, and moves those behind it to the next line. -/
theorem tokenize_newline (h : Divides source front behind a b) :
    tokenize (a ++ "\n" ++ b) = .ok (front.map (moveToken (Pos.start.after a.toList).broken) ++
      ⟨.newline, Pos.start.after a.toList⟩ :: behind.map (moveToken (Pos.start.after a.toList).broken)) := by
  obtain ⟨us, hus, rfl⟩ := h.behind
  -- Places before the break stay where they are.
  have hfront : front.map (moveToken (Pos.start.after a.toList).broken) = front := by
    refine (List.map_congr_left fun t ht => ?_).trans (List.map_id front)
    rw [moveToken, Pos.broken_of_before (h.before_of_mem ht)]
    rfl
  -- Those behind it are counted from the break, and move down to the new line and left to its start.
  have hbehind : (us.map (moveToken (Pos.start.after a.toList).behind)).map
      (moveToken (Pos.start.after a.toList).broken) = us.map (moveToken (Pos.down (a.toList.count '\n' + 1))) := by
    have hline : (Pos.start.after a.toList).line = a.toList.count '\n' + 1 :=
      (Pos.line_after _ _).trans (Nat.add_comm 1 _)
    rw [List.map_map, ← hline]
    refine List.map_congr_left fun t ht => ?_
    show moveToken _ (moveToken _ t) = _
    unfold moveToken
    rw [Pos.broken_behind _ ((stand_of_tokenize hus).counted ht)]
  have hchars : (a ++ "\n" ++ b).toList = a.toList ++ '\n' :: b.toList := by simp
  rw [tokenize, hchars, tokenizeChars_line h.front, show tokenizeChars b.toList = .ok us from hus, hfront, hbehind]
  rfl

end Divides

end RowConsole.Script
