import RowConsole.Proofs.Script.Composition

/-!
# Tokens with Anything Skipped between Them

However the tokens of a list are written, with blanks and comments between them, the text is cut into these tokens
again: a string in either kind of quotes, an integer with underscores among its digits, and between two tokens a blank
with any blanks and closed comments behind it. An integer that is too large is reported where it starts.

Main statement: `tokenize_spaced`.
-/

namespace RowConsole.Script

/-! ## Section 1: What Is Skipped -/

/-- Blanks other than line feeds, and block comments that are closed. -/
inductive Padding : List Char → Prop where
  | nil : Padding []
  | blank {c : Char} {cs : List Char} (hc : c ≠ '\n' ∧ Text.isBlank c = true) (h : Padding cs) : Padding (c :: cs)
  | comment {body cs : List Char} (hbody : ¬['*', '/'] <:+: body) (h : Padding cs) :
    Padding ('/' :: '*' :: (body ++ '*' :: '/' :: cs))

/-- What may stand between two tokens whatever they are: padding that starts with a blank. -/
def Separator (cs : List Char) : Prop :=
  Padding cs ∧ ∃ c ∈ cs.head?, c ≠ '\n' ∧ Text.isBlank c = true

variable {p finish : Pos} {cs text behind : List Char} {kind : TokenKind} {kinds : List TokenKind}

/-- A comment is skipped up to the first place where it is closed. -/
theorem skipTrivia_comment {start : Pos} {body : List Char} (hbody : ¬['*', '/'] <:+: body) :
    skipTrivia (.blockComment start) (locate p (body ++ '*' :: '/' :: behind)) =
      skipTrivia .between (locate (p.after (body ++ ['*', '/'])) behind) := by
  induction body generalizing p with
  | nil => exact skipTrivia_closesBlock rfl rfl
  | cons c body ih =>
    have hopen : ¬(c = '*' ∧ leading (locate (p.next c) (body ++ '*' :: '/' :: behind)) = some '/') := by
      -- A closing sign that begins here would lie within the body.
      rintro ⟨rfl, hnext⟩
      cases body with
      | nil => simp [leading, locate] at hnext
      | cons d body =>
        obtain rfl : d = '/' := by simpa [leading, locate] using hnext
        exact hbody ⟨[], body, rfl⟩
    have hrest : ¬['*', '/'] <:+: body := fun hwithin => hbody (hwithin.trans (List.suffix_cons _ _).isInfix)
    exact (skipTrivia_block_cons hopen).trans (ih hrest)

/-- Padding is skipped. -/
theorem skipTrivia_padding (h : Padding cs) :
    skipTrivia .between (locate p (cs ++ behind)) = skipTrivia .between (locate (p.after cs) behind) := by
  induction h generalizing p with
  | nil => rfl
  | blank hc _ ih => exact (skipTrivia_cons_blank hc).trans ih
  | @comment body cs hbody _ ih =>
    have hpos : p.after ('/' :: '*' :: (body ++ '*' :: '/' :: cs)) =
        (((p.next '/').next '*').after (body ++ ['*', '/'])).after cs := by
      simp [Pos.after]
    have hopens : skipTrivia .between (locate p ('/' :: '*' :: (body ++ '*' :: '/' :: cs) ++ behind)) =
        skipTrivia (.blockComment p) (locate ((p.next '/').next '*') (body ++ '*' :: '/' :: (cs ++ behind))) := by
      simp only [List.cons_append, List.append_assoc]
      exact skipTrivia_opensBlock (by simp; decide) rfl rfl
    rw [hopens, skipTrivia_comment hbody, ih, hpos]

/-! ## Section 2: How Tokens Are Written -/

/-- The digits of an integer, underscores behind the first of them. -/
def IsNumeral (text : List Char) : Prop :=
  ∃ d more, text = d :: more ∧ d.isDigit = true ∧ ∀ c ∈ more, c.isDigit = true ∨ c = '_'

private theorem isNumeral_cons {d : Char} {more : List Char} (hd : d.isDigit = true)
    (hmore : more.all (fun c => c.isDigit || c == '_') = true) : IsNumeral (d :: more) :=
  ⟨d, more, rfl, hd, by simpa using hmore⟩

/-- The texts of a token. -/
inductive Writes : TokenKind → List Char → Prop where
  | int {n : Int64} {text : List Char} (htext : IsNumeral text)
    (hvalue : (Decimal.ofDigits (text.filter Char.isDigit) : Nat) = n.toInt) : Writes (.int n) text
  | float {literal : String} (hliteral : isDecimal literal = true) : Writes (.float literal) literal.toList
  | str {text : String} {quote : Char} (hquote : quote = '\x27' ∨ quote = '\x22') :
    Writes (.str text) (quote :: (escapeFor quote text.toList ++ [quote]))
  | ident {name : String} (hname : isName name = true) : Writes (.ident name) name.toList
  | keyword (k : Keyword) : Writes (.keyword k) k.word.toList
  | symbol (s : Symbol) : Writes (.symbol s) s.word.toList
  | newline : Writes .newline ['\n']

/-- Each token but the end of the input can be written. -/
theorem writes_text (h : kind.isPlain = true) : Writes kind kind.text := by
  cases kind with
  | int n =>
    have hdigits : ∀ c ∈ Nat.toDigits 10 n.toInt.toNat, c.isDigit = true := fun c hc =>
      Nat.isDigit_of_mem_toDigits (by decide) (by decide) hc
    have hint : ((n.toInt.toNat : Nat) : Int) = n.toInt :=
      Int.toNat_of_nonneg (Int64.le_iff_toInt_le.mp (of_decide_eq_true h))
    refine .int ?_ ?_
    · obtain ⟨d, more, hword⟩ := List.exists_cons_of_ne_nil (Nat.toDigits_ne_nil (b := 10) (n := n.toInt.toNat))
      rw [hword] at hdigits
      obtain ⟨hd, hmore⟩ := List.forall_mem_cons.mp hdigits
      exact ⟨d, more, hword, hd, fun c hc => Or.inl (hmore c hc)⟩
    · show ((Decimal.ofDigits ((Nat.toDigits 10 n.toInt.toNat).filter Char.isDigit) : Nat) : Int) = n.toInt
      rw [List.filter_eq_self.mpr hdigits, ofDigits_toDigits, hint]
  | float literal => exact .float h
  | str text => exact .str (Or.inl rfl)
  | ident name => exact .ident h
  | keyword k => exact .keyword k
  | symbol s => exact .symbol s
  | newline => exact .newline
  | eof => contradiction

/-- A text that starts with a blank, or nothing. -/
def Apart (behind : List Char) : Prop :=
  ∀ c ∈ behind.head?, Text.isBlank c = true

private theorem Apart.endsWord (h : Apart behind) : EndsWord behind := by
  intro c hc
  have hblank := h c hc
  refine ⟨isWordContinue_of_isBlank hblank, ?_, ?_⟩
  · refine Bool.eq_false_iff.mpr fun hdigit => ?_
    exact Bool.false_ne_true ((isDigit_lead hdigit).1.symm.trans hblank)
  · rintro rfl
    exact absurd hblank (by decide)

private theorem Separator.apart (h : Separator cs) (behind : List Char) : Apart (cs ++ behind) := by
  obtain ⟨_, c, hc, _, hblank⟩ := h
  intro d hd
  rw [List.head?_append, Option.mem_def.mp hc] at hd
  cases hd
  exact hblank

/-- A token is read from each of its texts, before a blank and at the end. -/
theorem starts_of_writes (h : Writes kind text) (hbehind : Apart behind) {glyphs : List Glyph}
    (hglyphs : glyphs.map Glyph.char = text ++ behind) : Starts kind glyphs behind := by
  cases h with
  | int htext hvalue =>
    obtain ⟨d, more, rfl, hd, hmore⟩ := htext
    refine starts_numeral hd hmore ?_ hbehind.endsWord hglyphs
    rw [List.filter_cons_of_pos hd] at hvalue
    rw [hvalue, toInt64?_toInt]
  | float hliteral => exact starts_float hliteral hbehind.endsWord.endsNumber hglyphs
  | str hquote => exact starts_quoted hquote (by simpa using hglyphs)
  | ident hname =>
    obtain ⟨c, cs, hword, hstart, hcontinue, hkeyword⟩ := toList_of_isName hname
    rw [← show wordKind _ = .ident _ by rw [wordKind, hkeyword]]
    exact starts_word hword hstart hcontinue hbehind.endsWord hglyphs
  | keyword k =>
    obtain ⟨hof, c, cs, hword, hstart, hcontinue⟩ := keyword_word k
    rw [← show wordKind k.word = .keyword k by rw [wordKind, hof]]
    exact starts_word hword hstart hcontinue hbehind.endsWord hglyphs
  | symbol s => exact starts_symbol_blank hbehind hglyphs
  | newline =>
    obtain ⟨g, rest, rfl, hg, hrest⟩ := List.map_eq_cons_iff.mp hglyphs
    exact ⟨g, rest, rest, rfl, skipTrivia_stops (by simp [hg]) (by simp [hg]), by simp [scanToken, hg], hrest⟩

/-! ## Section 3: Texts of Several Tokens -/

/-- Tokens in their texts, each with a separator behind it. -/
inductive Spaced : List TokenKind → List Char → Prop where
  | nil : Spaced [] []
  | cons {kind : TokenKind} {kinds : List TokenKind} {text gap cs : List Char} (hkind : Writes kind text)
    (hgap : Separator gap) (h : Spaced kinds cs) : Spaced (kind :: kinds) (text ++ (gap ++ cs))

/-- What is left of a text is the text behind what was read. -/
theorem eq_locate_of_suffix {tail : List Glyph} (h : tail <:+ locate p (text ++ behind))
    (htail : tail.map Glyph.char = behind) : tail = locate (p.after text) behind := by
  have hsuffix : locate (p.after text) behind <:+ locate p (text ++ behind) := by
    rw [locate_append]
    exact List.suffix_append _ _
  have hlength : tail.length = (locate (p.after text) behind).length := by
    rw [length_locate, ← htail, List.length_map]
  exact (List.suffix_of_suffix_length_le h hsuffix (Nat.le_of_eq hlength)).eq_of_length hlength

/-- The first token of a text is cut off. -/
theorem scanAll_writes (h : Writes kind text) (hbehind : Apart behind) :
    scanAll finish (locate p (text ++ behind)) =
      (scanAll finish (locate (p.after text) behind)).map (⟨kind, p⟩ :: ·) := by
  obtain ⟨g, rest, tail, hglyphs, hskip, htoken, htail⟩ := starts_of_writes h hbehind (map_char_locate p _)
  have hsuffix : tail <:+ locate p (text ++ behind) := by
    rw [hglyphs]
    exact (scanToken_suffix htoken).trans (List.suffix_cons _ _)
  -- The token is placed where its first glyph is, and that is where the text begins.
  have hpos : g.pos = p := by
    cases hchars : text ++ behind with
    | nil =>
      rw [hchars] at hglyphs
      cases hglyphs
    | cons c cs =>
      rw [hchars] at hglyphs
      cases hglyphs
      rfl
  rw [hglyphs] at hskip ⊢
  rw [scanAll_token hskip htoken, ← eq_locate_of_suffix hsuffix htail, hpos]

/-- Tokens with separators behind them are cut off one after the other. -/
theorem scanAll_spaced (h : Spaced kinds cs) :
    ∃ ts, ts.map Token.kind = kinds ∧
      scanAll finish (locate p (cs ++ behind)) = (scanAll finish (locate (p.after cs) behind)).map (ts ++ ·) := by
  induction h generalizing p with
  | nil =>
    refine ⟨[], rfl, ?_⟩
    show scanAll finish (locate p behind) = (scanAll finish (locate p behind)).map ([] ++ ·)
    cases scanAll finish (locate p behind) <;> rfl
  | @cons kind kinds text gap cs hkind hgap _ ih =>
    -- The rest is scanned from behind the gap, wherever that is: the induction is over all positions.
    obtain ⟨ts, rfl, hscan⟩ := ih (p := (p.after text).after gap)
    refine ⟨⟨kind, p⟩ :: ts, rfl, ?_⟩
    have hskip : scanAll finish (locate (p.after text) (gap ++ (cs ++ behind))) =
        scanAll finish (locate ((p.after text).after gap) (cs ++ behind)) := scanAll_congr (skipTrivia_padding hgap.1)
    have hpos : p.after (text ++ (gap ++ cs)) = ((p.after text).after gap).after cs := by simp [Pos.after]
    rw [hpos, List.append_assoc, List.append_assoc, scanAll_writes hkind (hgap.apart _), hskip, hscan]
    cases scanAll finish (locate (((p.after text).after gap).after cs) behind) <;> rfl

/-! ## Section 4: Integers That Are Too Large -/

private theorem toInt64?_eq_none {n : Nat} (h : Int64.maxValue.toInt < n) : Decimal.toInt64? (n : Int) = none := by
  have hfits : ¬Decimal.fits64 n = true := by
    simp only [Decimal.fits64, Bool.and_eq_true, decide_eq_true_eq]
    omega
  rw [Decimal.toInt64?, if_neg hfits]

/-- An integer above the largest one is reported where its digits start. -/
theorem scanAll_tooLarge (htext : IsNumeral text)
    (hlarge : Int64.maxValue.toInt < Decimal.ofDigits (text.filter Char.isDigit)) (hbehind : Apart behind) :
    scanAll finish (locate p (text ++ behind)) =
      .error { cause := .integerTooLarge (String.ofList (text.filter Char.isDigit)), pos := some p } := by
  obtain ⟨d, more, rfl, hd, hmore⟩ := htext
  obtain ⟨hblank, hslash, _⟩ := isDigit_lead hd
  rw [List.filter_cons_of_pos hd] at hlarge ⊢
  obtain ⟨tail, hscan, hfraction, _⟩ := scanDigits_whole hmore hbehind.endsWord (map_char_locate (p.next d) _)
  have htoken : scanToken ⟨d, p⟩ (locate (p.next d) (more ++ behind)) =
      .error { cause := .integerTooLarge (String.ofList (d :: more.filter Char.isDigit)), pos := some p } := by
    rw [scanToken_digit hd, scanNumber, hscan]
    dsimp only
    rw [hfraction, toInt64?_eq_none hlarge]
    rfl
  show scanAll finish (⟨d, p⟩ :: locate (p.next d) (more ++ behind)) = _
  exact scanAll_stuck (skipTrivia_eq hblank hslash) htoken

/-! ## Section 5: Whole Texts -/

/-- Tokens in their texts with separators between them are cut into just these tokens, with a separator behind the last
one or without. If an integer that is too large follows, it is reported as an error of the syntax where it starts. -/
theorem tokenize_spaced (h : Spaced kinds cs) :
    (tokenize (String.ofList cs)).map (List.map Token.kind) = .ok (kinds ++ [.eof]) ∧
      (∀ kind text, Writes kind text →
        (tokenize (String.ofList (cs ++ text))).map (List.map Token.kind) = .ok (kinds ++ [kind, .eof])) ∧
      ∀ text behind, IsNumeral text → Int64.maxValue.toInt < Decimal.ofDigits (text.filter Char.isDigit) →
        Apart behind → ∃ e, tokenize (String.ofList (cs ++ (text ++ behind))) = .error e ∧ e.kind = .malformed ∧
          e.cause = .integerTooLarge (String.ofList (text.filter Char.isDigit)) ∧
          e.pos = some (Pos.start.after cs) := by
  -- All three parts begin alike: the spaced tokens are cut off, and what follows is scanned on its own.
  have hcut : ∀ behind, ∃ ts, ts.map Token.kind = kinds ∧ tokenize (String.ofList (cs ++ behind)) =
      (scanAll (Pos.start.after (cs ++ behind)) (locate (Pos.start.after cs) behind)).map (ts ++ ·) := by
    intro behind
    rw [tokenize, String.toList_ofList, tokenizeChars_eq]
    exact scanAll_spaced h
  refine ⟨?_, fun kind text hkind => ?_, fun text behind htext hlarge hbehind => ?_⟩
  · obtain ⟨ts, rfl, htokens⟩ := hcut []
    rw [List.append_nil] at htokens
    rw [htokens, locate, scanAll_done rfl]
    simp [Except.map]
  · obtain ⟨ts, rfl, htokens⟩ := hcut text
    have hlast : scanAll (Pos.start.after (cs ++ text)) (locate (Pos.start.after cs) text) =
        .ok [⟨kind, Pos.start.after cs⟩, ⟨.eof, Pos.start.after (cs ++ text)⟩] := by
      rw [← List.append_nil (locate _ text), show ([] : List Glyph) = locate ((Pos.start.after cs).after text) [] from rfl,
        ← locate_append, scanAll_writes hkind (by simp [Apart]), locate, scanAll_done rfl]
      rfl
    rw [htokens, hlast]
    simp [Except.map]
  · obtain ⟨ts, _, htokens⟩ := hcut (text ++ behind)
    rw [scanAll_tooLarge htext hlarge hbehind] at htokens
    exact ⟨_, htokens, rfl, rfl, rfl⟩

/-- An underscore in an integer, a quote in a string and a comment that looks like an operator; then an arrow, and an
integer that is one too large. -/
theorem tokenize_spaced_comment :
    (tokenize "1_0 /*-*/ 'a\\'b'\t").map (List.map Token.kind) = .ok [.int 10, .str "a'b", .eof] ∧
      (tokenize "1_0 /*-*/ 'a\\'b'\t->").map (List.map Token.kind) = .ok [.int 10, .str "a'b", .symbol .arrow, .eof] ∧
      ∃ e, tokenize "1_0 /*-*/ 'a\\'b'\t9_223372036854775808" = .error e ∧ e.kind = .malformed ∧
        e.pos = some ⟨1, 18⟩ := by
  have hcomment : Separator " /*-*/ ".toList :=
    ⟨.blank (by decide) (.comment (by decide : ¬['*', '/'] <:+: ['-']) (.blank (by decide) .nil)), ' ', rfl, by decide⟩
  have htab : Separator ['\t'] := ⟨.blank (by decide) .nil, '\t', rfl, by decide⟩
  have hten : IsNumeral ['1', '_', '0'] := isNumeral_cons rfl rfl
  have hspaced : Spaced [.int 10, .str "a'b"] "1_0 /*-*/ 'a\\'b'\t".toList :=
    .cons (.int hten (by decide)) hcomment (.cons (.str (Or.inl rfl)) htab .nil)
  obtain ⟨htokens, hnext, hlarge⟩ := tokenize_spaced hspaced
  refine ⟨htokens, hnext _ _ (.symbol .arrow), ?_⟩
  have hnumeral : IsNumeral "9_223372036854775808".toList := isNumeral_cons rfl (by decide)
  obtain ⟨e, herror, hkind, _, hpos⟩ := hlarge _ [] hnumeral (by decide) (by simp [Apart])
  exact ⟨e, herror, hkind, hpos⟩

end RowConsole.Script
