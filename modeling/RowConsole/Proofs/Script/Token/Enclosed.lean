import RowConsole.Proofs.Script.Grammar.Brackets
import RowConsole.Proofs.Script.Composition

/-!
# Strings, Comments and Braces

A source is code but for its string literals and its comments. The braces among its tokens are those of its
characters that stand in code, and so a program has as many characters of either kind of brace if none stands in a
string literal or in a comment.

Main statements: `count_of_tokenize`, which braces become tokens, and `balanced_of_parse`.
-/

namespace RowConsole.Script

/-! ## Section 1: Text in Strings and Comments -/

/-- What the characters of a source can belong to, told by those before them. -/
inductive Region where
  | code
  /-- Code behind a slash. -/
  | slash
  | lineComment
  | blockComment
  /-- A block comment behind a star. -/
  | star
  | string (quote : Char)
  /-- A string literal behind a backslash. -/
  | escape (quote : Char)

namespace Region

/-- The region behind a character of code. -/
def behindCode (c : Char) : Region :=
  if c = '\x27' ∨ c = '\x22' then .string c else if c = '/' then .slash else .code

/-- The region behind a character. -/
def step : Region → Char → Region
  | .code, c => behindCode c
  | .slash, c => if c = '/' then .lineComment else if c = '*' then .blockComment else behindCode c
  | .lineComment, c => if c = '\n' then .code else .lineComment
  | .blockComment, c => if c = '*' then .star else .blockComment
  | .star, c => if c = '/' then .code else if c = '*' then .star else .blockComment
  | .string quote, c => if c = quote then .code else if c = '\\' then .escape quote else .string quote
  | .escape quote, _ => .string quote

/-- Whether a region is code. -/
def isCode : Region → Bool
  | .code | .slash => true
  | _ => false

end Region

/-- The characters of the string literals and comments of a text, behind the marks that open them. -/
def enclosed : Region → List Char → List Char
  | _, [] => []
  | region, c :: rest =>
    if region.isCode then enclosed (region.step c) rest else c :: enclosed (region.step c) rest

/-- How often a character stands in the code of a text. -/
def inCode (c : Char) : Region → List Char → Nat
  | _, [] => 0
  | region, d :: rest => inCode c (region.step d) rest + if region.isCode = true ∧ d = c then 1 else 0

/-- A character of a text stands in its code, or in a string literal or a comment. -/
theorem count_eq_inCode_add (c : Char) (region : Region) (cs : List Char) :
    cs.count c = inCode c region cs + (enclosed region cs).count c := by
  induction cs generalizing region with
  | nil => rfl
  | cons d cs ih =>
    rw [inCode, enclosed, List.count_cons, ih (region.step d)]
    -- the first character is counted on one side only, by its region
    cases region.isCode with
    | true => simp; omega
    | false => simp [List.count_cons]; omega

/-! ## Section 2: Characters That Are Passed -/

/-- The braces and the tokens that they become. -/
inductive IsBrace : Char → Symbol → Prop where
  | opening : IsBrace '\x7b' .braceOpen
  | closing : IsBrace '\x7d' .braceClose

/-- The braces and the characters with which string literals and comments open. -/
def marks : List Char := ['\x27', '\x22', '/', '\x7b', '\x7d']

/-- A character that is no brace and opens neither a string literal nor a comment. -/
def isQuiet (c : Char) : Bool := !(marks.contains c)

section Passing

variable {c d : Char} {s : Symbol} {cs : List Char}

private theorem isQuiet_of_test {test : Char → Bool} (htest : marks.any test = false) (hc : test c = true) :
    isQuiet c = true := by
  rw [isQuiet, Bool.not_eq_true', ← Bool.not_eq_true, List.contains_iff_mem]
  exact fun hmem => List.any_eq_false.mp htest c hmem hc

/-- The characters of words are quiet: no mark is one of them. -/
theorem isQuiet_of_isWordContinue (h : isWordContinue c = true) : isQuiet c = true := by
  have hmarks : (marks.all fun d => decide (d.toNat < 0x80) && !(d == '_' || d == '$' || d.isAlphanum)) = true := by
    decide
  refine isQuiet_of_test (List.any_eq_false.mpr fun d hd => ?_) h
  have hd := List.all_eq_true.mp hmarks d hd
  rw [Bool.and_eq_true, decide_eq_true_eq, Bool.not_eq_true'] at hd
  rw [isWordContinue_ascii hd.1, hd.2]
  exact Bool.false_ne_true

private theorem IsBrace.ne_of_isQuiet (hc : IsBrace c s) (hd : isQuiet d = true) : d ≠ c := by
  rintro rfl
  cases hc <;> contradiction

private theorem Region.behindCode_of_isQuiet (h : isQuiet c = true) : Region.behindCode c = .code := by
  simp only [isQuiet, marks, Bool.not_eq_true', ← Bool.not_eq_true, List.contains_iff_mem, List.mem_cons, not_or] at h
  obtain ⟨hsingle, hdouble, hslash, _⟩ := h
  rw [Region.behindCode, if_neg (by simp [hsingle, hdouble]), if_neg hslash]

private theorem inCode_quiet (piece : List Char) (hc : IsBrace c s) (h : ∀ d ∈ piece, isQuiet d = true) :
    inCode c .code (piece ++ cs) = inCode c .code cs := by
  induction piece with
  | nil => rfl
  | cons d piece ih =>
    obtain ⟨hd, hpiece⟩ := List.forall_mem_cons.mp h
    rw [List.cons_append, inCode, if_neg fun h => hc.ne_of_isQuiet hd h.2, Region.step,
      Region.behindCode_of_isQuiet hd, ih hpiece, Nat.add_zero]

private theorem inCode_cons_ne {region : Region} (h : d ≠ c) : inCode c region (d :: cs) = inCode c
    (region.step d) cs := by
  rw [inCode, if_neg fun hd => h hd.2, Nat.add_zero]

private theorem inCode_cons_enclosed {region : Region} (h : region.isCode = false) :
    inCode c region (d :: cs) = inCode c (region.step d) cs := by
  rw [inCode, if_neg fun hd => Bool.false_ne_true (h.symm.trans hd.1), Nat.add_zero]

/-- A slash that opens no comment is code like any other. -/
theorem inCode_slash (hline : cs.head? ≠ some '/') (hblock : cs.head? ≠ some '*') :
    inCode c .slash cs = inCode c .code cs := by
  cases cs with
  | nil => rfl
  | cons d cs =>
    have hstep : Region.step .slash d = Region.step .code d :=
      (if_neg fun h => hline (congrArg some h)).trans (if_neg fun h => hblock (congrArg some h))
    rw [inCode, inCode, hstep]
    rfl

/-- A star that does not close a block comment is part of it. -/
theorem inCode_star (h : cs.head? ≠ some '/') : inCode c .star cs = inCode c .blockComment cs := by
  cases cs with
  | nil => rfl
  | cons d cs =>
    have hstep : Region.step .star d = Region.step .blockComment d := if_neg fun hd => h (congrArg some hd)
    rw [inCode, inCode, hstep]
    rfl

end Passing

/-- The region in which blanks and comments are read. -/
def Trivia.region : Trivia → Region
  | .between => .code
  | .lineComment => .lineComment
  | .blockComment _ => .blockComment

/-! ## Section 3: Tokens and Code -/

section Tokens

variable {c : Char} {s : Symbol} {glyphs rest tail : List Glyph} {kind : TokenKind}

private theorem head?_map_char (glyphs : List Glyph) : (glyphs.map Glyph.char).head? = leading glyphs :=
  List.head?_map

/-- What is skipped holds no brace in code. -/
theorem Skipped.inCode_eq (hc : IsBrace c s) {trivia : Trivia} {left : List Glyph} (h : Skipped left trivia glyphs) :
    inCode c trivia.region (glyphs.map Glyph.char) = inCode c .code (left.map Glyph.char) := by
  -- the marks that are passed are no braces; whatever else is passed outside of comments is blank
  have hslash : '/' ≠ c := by cases hc <;> decide
  have hstar : '*' ≠ c := by cases hc <;> decide
  have hnewline : '\n' ≠ c := by cases hc <;> decide
  induction h with
  | stops => rfl
  | @blank g rest hg _ ih =>
    have hquiet : isQuiet g.char = true := isQuiet_of_test (by decide) hg
    rw [← ih]
    exact inCode_quiet [g.char] hc (by simpa using hquiet)
  | opensLine hg hg' _ ih =>
    rw [← ih, List.map_cons, List.map_cons, hg, hg', inCode_cons_ne hslash, inCode_cons_ne hslash]
    rfl
  | opensBlock hg hg' _ ih =>
    rw [← ih, List.map_cons, List.map_cons, hg, hg', inCode_cons_ne hslash, inCode_cons_ne hstar]
    rfl
  | endsLine hleft =>
    cases left with
    | nil => rfl
    | cons g left =>
      -- the line feed is left where it is, to become a token
      rw [List.map_cons, hleft g.char rfl, inCode_cons_ne hnewline, inCode_cons_ne hnewline]
      rfl
  | inLine hg _ ih => rw [← ih, List.map_cons, Trivia.region, inCode_cons_enclosed rfl, Region.step, if_neg hg]
  | closesBlock hg hg' _ ih =>
    rw [← ih, List.map_cons, List.map_cons, hg, hg', Trivia.region, inCode_cons_enclosed rfl, inCode_cons_enclosed rfl]
    rfl
  | inBlock hclose _ ih =>
    rw [← ih, List.map_cons, Trivia.region, inCode_cons_enclosed rfl, Region.step]
    split
    · next hg =>
      -- a star with no slash behind it: the region differs, what is passed does not
      apply inCode_star
      rw [head?_map_char]
      exact fun hslash => hclose ⟨hg, hslash⟩
    · rfl

/-- A string literal holds no code. -/
theorem Quoted.inCode_eq {quote : Char} (h : Quoted quote tail glyphs) :
    inCode c (.string quote) (glyphs.map Glyph.char) = inCode c .code (tail.map Glyph.char) := by
  -- the regions end at the first bare quote as the literal does
  induction h with
  | closes hquote => rw [List.map_cons, inCode_cons_enclosed rfl, Region.step, if_pos hquote]
  | escapes hquote hescape _ ih =>
    rw [← ih, List.map_cons, List.map_cons, inCode_cons_enclosed rfl, Region.step, if_neg hquote, if_pos hescape,
      inCode_cons_enclosed rfl, Region.step]
  | passes hquote hescape _ ih =>
    rw [← ih, List.map_cons, inCode_cons_enclosed rfl, Region.step, if_neg hquote, if_neg hescape]

/-- What is read between two lists of glyphs are quiet characters. -/
def ReadsQuiet (glyphs tail : List Glyph) : Prop :=
  ∃ piece, glyphs = piece ++ tail ∧ ∀ g ∈ piece, isQuiet g.char = true

theorem ReadsQuiet.refl (glyphs : List Glyph) : ReadsQuiet glyphs glyphs := ⟨[], rfl, by simp⟩

theorem ReadsQuiet.cons {g : Glyph} (hg : isQuiet g.char = true) (h : ReadsQuiet rest tail) :
    ReadsQuiet (g :: rest) tail := by
  obtain ⟨piece, rfl, hpiece⟩ := h
  exact ⟨g :: piece, rfl, List.forall_mem_cons.mpr ⟨hg, hpiece⟩⟩

theorem ReadsQuiet.trans {between : List Glyph} (h : ReadsQuiet glyphs between) (h' : ReadsQuiet between tail) :
    ReadsQuiet glyphs tail := by
  obtain ⟨piece, rfl, hpiece⟩ := h
  obtain ⟨piece', rfl, hpiece'⟩ := h'
  exact ⟨piece ++ piece', (List.append_assoc _ _ _).symm, List.forall_mem_append.mpr ⟨hpiece, hpiece'⟩⟩

private theorem ReadsQuiet.inCode_eq (hc : IsBrace c s) (h : ReadsQuiet glyphs tail) :
    inCode c .code (glyphs.map Glyph.char) = inCode c .code (tail.map Glyph.char) := by
  obtain ⟨piece, rfl, hpiece⟩ := h
  rw [List.map_append]
  exact inCode_quiet _ hc (List.forall_mem_map.mpr hpiece)

private theorem isQuiet_digit {d : Char} (h : d.isDigit = true) : isQuiet d = true :=
  isQuiet_of_test (by decide) h

private theorem readsQuiet_scanDigits (glyphs : List Glyph) : ReadsQuiet glyphs (scanDigits glyphs).2 := by
  induction glyphs with
  | nil => exact .refl _
  | cons g rest ih =>
    rw [scanDigits]
    split
    · next hdigit => exact ih.cons (isQuiet_digit hdigit)
    · split
      · next hunderscore => exact ih.cons (by rw [hunderscore]; decide)
      · exact .refl _

private theorem readsQuiet_scanFraction {cs : List Char} (h : scanFraction? glyphs = some (cs, tail)) :
    ReadsQuiet glyphs tail := by
  unfold scanFraction? at h
  split at h
  · next p d rest =>
    split at h
    · have htail : (scanDigits (d :: rest)).2 = tail := congrArg Prod.snd (Option.some.inj h)
      rw [← htail]
      exact (readsQuiet_scanDigits (d :: rest)).cons (show isQuiet '.' = true by decide)
    · contradiction
  · contradiction

private theorem readsQuiet_scanNumber {start : Pos} {first : Char}
    (h : scanNumber start first rest = .ok (kind, tail)) :
    ReadsQuiet rest tail ∧ ∀ s, kind ≠ .symbol s := by
  have hdigits := readsQuiet_scanDigits rest
  unfold scanNumber at h
  -- Only what is left behind the digits matters, so the digits themselves are forgotten.
  generalize scanDigits rest = digits at h hdigits
  obtain ⟨more, left⟩ := digits
  dsimp only at h
  split at h
  · next hfraction =>
    cases h
    exact ⟨hdigits.trans (readsQuiet_scanFraction hfraction), by simp⟩
  · split at h
    · cases h
      exact ⟨hdigits, by simp⟩
    · contradiction

private theorem readsQuiet_scanWord (first : Char) (rest : List Glyph) :
    ReadsQuiet rest (scanWord first rest).2 ∧ ∀ s, (scanWord first rest).1 ≠ .symbol s := by
  refine ⟨⟨_, List.takeWhile_append_dropWhile.symm, fun g hg => ?_⟩, fun s => ?_⟩
  · have htest := List.mem_takeWhile_imp hg
    exact isQuiet_of_isWordContinue htest
  · simp only [scanWord, wordKind]
    split <;> simp

/-- The symbols of two characters are read without passing a mark or a brace, and they are no braces. -/
theorem isQuiet_of_symbolOfTwo {d : Char} {t : Symbol} (h : symbolOfTwo? c d = some t) :
    isQuiet c = true ∧ isQuiet d = true ∧ t ≠ .braceOpen ∧ t ≠ .braceClose := by
  unfold symbolOfTwo? at h
  split at h
  all_goals first | contradiction | (cases h; decide)

/-- The symbols of one character: a brace, a slash, or another that is quiet. -/
theorem symbolOfOne_cases {t : Symbol} (h : symbolOfOne? c = some t) :
    IsBrace c t ∨ (c = '/' ∧ t = .slash) ∨ (isQuiet c = true ∧ t ≠ .braceOpen ∧ t ≠ .braceClose) := by
  unfold symbolOfOne? at h
  split at h
  case h_3 => cases h; exact .inl .opening
  case h_4 => cases h; exact .inl .closing
  case h_12 => cases h; exact .inr (.inl ⟨rfl, rfl⟩)
  all_goals first | contradiction | (cases h; exact .inr (.inr (by decide)))

/-- A symbol of one character is code, and it becomes the token of a brace if it is one. -/
theorem inCode_of_symbolOfOne (hc : IsBrace c s) {g : Glyph} {t : Symbol}
    (hslash : g.char = '/' → leading rest ≠ some '/' ∧ leading rest ≠ some '*') (h : symbolOfOne? g.char = some t) :
    inCode c .code ((g :: rest).map Glyph.char) =
      inCode c .code (rest.map Glyph.char) + if t = s then 1 else 0 := by
  rw [List.map_cons]
  -- Three kinds of sign: a brace, the slash, which may not open a comment here, and all others.
  rcases symbolOfOne_cases h with hbrace | ⟨hg, rfl⟩ | ⟨hquiet, hopen, hclose⟩
  · generalize g.char = d at hbrace
    cases hbrace <;> cases hc <;> rfl
  · obtain ⟨hline, hblock⟩ := hslash hg
    have hne : Symbol.slash ≠ s := by cases hc <;> decide
    have hchar : '/' ≠ c := by cases hc <;> decide
    rw [hg, inCode_cons_ne hchar, if_neg hne]
    exact inCode_slash (head?_map_char rest ▸ hline) (head?_map_char rest ▸ hblock)
  · have hne : t ≠ s := by cases hc <;> assumption
    rw [if_neg hne]
    exact inCode_quiet [g.char] hc (by simpa using hquiet)

private theorem inCode_of_scanSymbol (hc : IsBrace c s) {g : Glyph} {t : Symbol}
    (hslash : g.char = '/' → leading rest ≠ some '/' ∧ leading rest ≠ some '*')
    (h : scanSymbol? g.char rest = some (t, tail)) :
    inCode c .code ((g :: rest).map Glyph.char) =
      inCode c .code (tail.map Glyph.char) + if t = s then 1 else 0 := by
  -- The scanner falls back to one glyph in two places; both are the lemma on single signs.
  have hone : (symbolOfOne? g.char).map (·, rest) = some (t, tail) →
      inCode c .code ((g :: rest).map Glyph.char) =
        inCode c .code (tail.map Glyph.char) + if t = s then 1 else 0 := by
    intro hone
    obtain ⟨_, hsymbol, heq⟩ := Option.map_eq_some_iff.mp hone
    cases heq
    exact inCode_of_symbolOfOne hc hslash hsymbol
  cases rest with
  | nil => exact hone h
  | cons g' rest =>
    rw [scanSymbol?] at h
    split at h
    · next htwo =>
      cases h
      obtain ⟨hfirst, hsecond, hopen, hclose⟩ := isQuiet_of_symbolOfTwo htwo
      have hne : t ≠ s := by cases hc <;> assumption
      rw [if_neg hne]
      exact inCode_quiet [g.char, g'.char] hc (by simpa using ⟨hfirst, hsecond⟩)
    · exact hone h

/-- A token that is read passes the brace that it is, and no other one in code. -/
theorem inCode_of_scanToken (hc : IsBrace c s) {g : Glyph}
    (hslash : g.char = '/' → leading rest ≠ some '/' ∧ leading rest ≠ some '*')
    (h : scanToken g rest = .ok (kind, tail)) :
    inCode c .code ((g :: rest).map Glyph.char) =
      inCode c .code (tail.map Glyph.char) + if kind = .symbol s then 1 else 0 := by
  have hpassed : isQuiet g.char = true → ReadsQuiet rest tail → kind ≠ .symbol s →
      inCode c .code ((g :: rest).map Glyph.char) =
        inCode c .code (tail.map Glyph.char) + if kind = .symbol s then 1 else 0 := by
    intro hquiet hread hkind
    rw [if_neg hkind]
    exact (hread.cons hquiet).inCode_eq hc
  cases scanned_of_scanToken h with
  | newline hg => exact hpassed (by rw [hg]; decide) (.refl rest) (by simp)
  | string hg hscan =>
    -- from one quote to the next
    have hne : g.char ≠ c := by
      intro heq
      rw [heq] at hg
      cases hc <;> revert hg <;> decide
    rw [List.map_cons, inCode_cons_ne hne, Region.step, Region.behindCode, if_pos hg, (quoted_of_scanString hscan).inCode_eq]
    rfl
  | number hg hscan =>
    obtain ⟨hread, hkind⟩ := readsQuiet_scanNumber hscan
    exact hpassed (isQuiet_digit hg) hread (hkind s)
  | word hg =>
    obtain ⟨hread, hkind⟩ := readsQuiet_scanWord g.char rest
    exact hpassed (isQuiet_of_isWordContinue (isWordContinue_of_start hg)) hread (hkind s)
  | symbol hscan =>
    -- the only token that can be a brace
    simpa using inCode_of_scanSymbol hc hslash hscan

/-- Where skipping stops, no comment opens. -/
theorem Skipped.leading_ne {trivia : Trivia} {g : Glyph} (h : Skipped (g :: rest) trivia glyphs)
    (hslash : g.char = '/') : leading rest ≠ some '/' ∧ leading rest ≠ some '*' := by
  induction h with
  | stops hleft => exact hleft g rest rfl hslash
  | endsLine hleft => cases (hleft g.char rfl).symm.trans hslash
  | blank _ _ ih | inLine _ _ ih | inBlock _ _ ih => exact ih
  | opensLine _ _ _ ih | opensBlock _ _ _ ih | closesBlock _ _ _ ih => exact ih

/-- The braces of a kind among the tokens are those that stand in code. -/
theorem count_of_scanAll (hc : IsBrace c s) {finish : Pos} {ts : List Token} (h : scanAll finish glyphs = .ok ts) :
    (ts.map Token.kind).count (.symbol s) = inCode c .code (glyphs.map Glyph.char) := by
  -- on the scan: what is skipped before a token holds no brace in code, and the token passes the one that it is
  induction glyphs using scan_induction generalizing ts with
  | open_ glyphs e hskip =>
    rw [scanAll_open hskip] at h
    contradiction
  | done glyphs hskip =>
    rw [scanAll_done hskip] at h
    cases h
    exact ((skipped_of_skipTrivia hskip).inCode_eq hc).symm
  | stuck glyphs g rest e hskip htoken =>
    rw [scanAll_stuck hskip htoken] at h
    contradiction
  | token glyphs g rest kind tail hskip htoken ih =>
    rw [scanAll_token hskip htoken] at h
    cases hscan : scanAll finish tail with
    | error e =>
      rw [hscan] at h
      contradiction
    | ok us =>
      rw [hscan] at h
      obtain rfl : ⟨kind, g.pos⟩ :: us = ts := Except.ok.inj h
      have hskipped := skipped_of_skipTrivia hskip
      have hcode : inCode c .code (glyphs.map Glyph.char) = _ := hskipped.inCode_eq hc
      rw [hcode, inCode_of_scanToken hc hskipped.leading_ne htoken, ← ih hscan, List.map_cons, List.count_cons]
      simp

end Tokens

/-! ## Section 4: Sources -/

section Sources

variable {source : String}

/-- The braces of a source are those among its tokens and those in its string literals and comments. -/
theorem count_of_tokenize {c : Char} {s : Symbol} (hc : IsBrace c s) {ts : List Token} (h : tokenize source = .ok ts) :
    source.toList.count c =
      (ts.map Token.kind).count (.symbol s) + (enclosed .code source.toList).count c := by
  have hscan := (tokenizeChars_eq source.toList).symm.trans h
  rw [count_of_scanAll hc hscan, map_char_locate]
  exact count_eq_inCode_add c .code source.toList

/-- The tokens of a program are balanced. -/
theorem balanced_of_parse {program : List Stmt} (h : parse source = .ok program) :
    ∃ ts, tokenize source = .ok ts ∧ Balanced (ts.map Token.kind) := by
  obtain ⟨ts, hts, htokens, hread⟩ := tokens_of_parse h
  exact ⟨_, htokens, Grammar.balanced_of_parseTokens hts rfl hread⟩

end Sources

end RowConsole.Script
