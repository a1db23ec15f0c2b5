import RowConsole.Proofs.Script.Grammar.Pieces
import RowConsole.Proofs.Script.Token.Placing

/-!
# Cutting Texts

The tokens of a text follow from those of its pieces: those of a piece come first where a line feed or nothing
stands behind it, and text on other lines has the same tokens on other lines.

Main statements: `scanAll_place`, `scanAll_place_error` and `tokenizeChars_line`.
-/

namespace RowConsole.Script

open Grammar (Endless moveToken)

/-! ## Section 1: What Is Left Unread -/

section Unread

variable {glyphs rest tail : List Glyph}

/-- The blanks and comments of a text, up to what is left of it. -/
inductive Skipped (left : List Glyph) : Trivia → List Glyph → Prop where
  | stops (hleft : ∀ g rest, left = g :: rest → g.char = '/' → leading rest ≠ some '/' ∧ leading rest ≠ some '*') :
    Skipped left .between left
  | blank {g : Glyph} {rest : List Glyph} (hg : Text.isBlank g.char = true) (h : Skipped left .between rest) :
    Skipped left .between (g :: rest)
  | opensLine {g g' : Glyph} {rest : List Glyph} (hg : g.char = '/') (hg' : g'.char = '/')
    (h : Skipped left .lineComment rest) : Skipped left .between (g :: g' :: rest)
  | opensBlock {g g' : Glyph} {rest : List Glyph} (hg : g.char = '/') (hg' : g'.char = '*')
    (h : Skipped left (.blockComment g.pos) rest) : Skipped left .between (g :: g' :: rest)
  | endsLine (hleft : EndsLine left) : Skipped left .lineComment left
  | inLine {g : Glyph} {rest : List Glyph} (hg : g.char ≠ '\n') (h : Skipped left .lineComment rest) :
    Skipped left .lineComment (g :: rest)
  | closesBlock {start : Pos} {g g' : Glyph} {rest : List Glyph} (hg : g.char = '*') (hg' : g'.char = '/')
    (h : Skipped left .between rest) : Skipped left (.blockComment start) (g :: g' :: rest)
  | inBlock {start : Pos} {g : Glyph} {rest : List Glyph} (hclose : ¬(g.char = '*' ∧ leading rest = some '/'))
    (h : Skipped left (.blockComment start) rest) : Skipped left (.blockComment start) (g :: rest)

/-- What skipping leaves comes behind blanks and comments. -/
theorem skipped_of_skipTrivia {trivia : Trivia} {left : List Glyph} (h : skipTrivia trivia glyphs = .ok left) :
    Skipped left trivia glyphs := by
  induction trivia, glyphs using trivia_induction with
  | nothing =>
    cases h
    exact .stops fun _ _ hnone => nomatch hnone
  | blank g rest hblank ih => exact .blank hblank.2 (ih ((skipTrivia_cons_blank hblank).symm.trans h))
  | opensLine g g' rest hblank hg hg' ih =>
    exact .opensLine hg hg' (ih ((skipTrivia_opensLine hblank hg hg').symm.trans h))
  | opensBlock g g' rest hblank hg hg' ih =>
    exact .opensBlock hg hg' (ih ((skipTrivia_opensBlock hblank hg hg').symm.trans h))
  | stops g rest hblank hcomment =>
    cases (skipTrivia_stops hblank hcomment).symm.trans h
    refine .stops fun g' rest' heq => ?_
    cases heq
    exact hcomment
  | lineAtEnd =>
    cases h
    exact .endsLine fun _ hnone => nomatch hnone
  | endsLine g rest hg =>
    cases (skipTrivia_endsLine hg).symm.trans h
    exact .endsLine fun c hc => (Option.some.inj hc).symm.trans hg
  | inLine g rest hg ih => exact .inLine hg (ih ((skipTrivia_line_cons hg).symm.trans h))
  -- A comment that is still open at the end is an error.
  | blockAtEnd start => contradiction
  | closesBlock start g g' rest hg hg' ih =>
    exact .closesBlock hg hg' (ih ((skipTrivia_closesBlock hg hg').symm.trans h))
  | inBlock start g rest hclose ih => exact .inBlock hclose (ih ((skipTrivia_block_cons hclose).symm.trans h))

/-- What is left behind blanks and comments is the end of the text. -/
theorem Skipped.suffix {trivia : Trivia} {left : List Glyph} (h : Skipped left trivia glyphs) : left <:+ glyphs := by
  -- By what is skipped: comments open and close with two characters, and all else is taken one by one.
  induction h with
  | stops | endsLine => exact List.suffix_refl _
  | blank _ _ ih | inLine _ _ ih | inBlock _ _ ih => exact ih.trans (List.suffix_cons _ _)
  | opensLine _ _ _ ih | opensBlock _ _ _ ih | closesBlock _ _ _ ih =>
    exact ih.trans ((List.suffix_cons _ _).trans (List.suffix_cons _ _))

/-- Skipping leaves the end of the text. -/
theorem skipTrivia_suffix {trivia : Trivia} {left : List Glyph} (h : skipTrivia trivia glyphs = .ok left) :
    left <:+ glyphs :=
  (skipped_of_skipTrivia h).suffix

/-- The glyphs of a string literal behind its first quote, up to what is left behind its last one. -/
inductive Quoted (quote : Char) (tail : List Glyph) : List Glyph → Prop where
  | closes {g : Glyph} (hquote : g.char = quote) : Quoted quote tail (g :: tail)
  | escapes {g e : Glyph} {rest : List Glyph} (hquote : g.char ≠ quote) (hescape : g.char = '\\')
    (h : Quoted quote tail rest) : Quoted quote tail (g :: e :: rest)
  | passes {g : Glyph} {rest : List Glyph} (hquote : g.char ≠ quote) (hescape : g.char ≠ '\\')
    (h : Quoted quote tail rest) : Quoted quote tail (g :: rest)

/-- A literal that is read to its end has its last quote somewhere. -/
theorem quoted_of_scanString {quote : Char} {cs : List Char} (h : scanString quote glyphs = some (cs, tail)) :
    Quoted quote tail glyphs := by
  induction glyphs using scanString.induct quote generalizing cs with
  | case1 => contradiction
  | case2 g rest hquote =>
    cases (scanString_closes hquote).symm.trans h
    exact .closes hquote
  | case3 g hquote hescape =>
    -- nothing stands behind the backslash
    rw [scanString.eq_def] at h
    cases ((if_neg hquote).trans (if_pos hescape)).symm.trans h
  | case4 g hquote hescape e rest ih =>
    rw [scanString_escapes hquote hescape] at h
    obtain ⟨read, hread, heq⟩ := Option.map_eq_some_iff.mp h
    cases heq
    exact .escapes hquote hescape (ih hread)
  | case5 g rest hquote hescape ih =>
    rw [scanString_cons hquote hescape] at h
    obtain ⟨read, hread, heq⟩ := Option.map_eq_some_iff.mp h
    cases heq
    exact .passes hquote hescape (ih hread)

/-- What is left behind a string literal is the end of the text. -/
theorem Quoted.suffix {quote : Char} (h : Quoted quote tail glyphs) : tail <:+ glyphs := by
  induction h with
  | closes => exact List.suffix_cons _ _
  | escapes _ _ _ ih => exact ih.trans ((List.suffix_cons _ _).trans (List.suffix_cons _ _))
  | passes _ _ _ ih => exact ih.trans (List.suffix_cons _ _)

/-- Reading a string leaves the end of the text. -/
theorem scanString_suffix {quote : Char} {cs : List Char} (h : scanString quote glyphs = some (cs, tail)) :
    tail <:+ glyphs :=
  (quoted_of_scanString h).suffix

/-- Reading digits leaves the end of the text. -/
theorem scanDigits_suffix : (scanDigits glyphs).2 <:+ glyphs := by
  induction glyphs with
  | nil => exact List.suffix_refl _
  | cons g rest ih =>
    rw [scanDigits]
    split
    · exact ih.trans (List.suffix_cons _ _)
    · split
      · exact ih.trans (List.suffix_cons _ _)
      · exact List.suffix_refl _

/-- Reading a fraction leaves the end of the text. -/
theorem scanFraction?_suffix {cs : List Char} (h : scanFraction? glyphs = some (cs, tail)) : tail <:+ glyphs := by
  unfold scanFraction? at h
  split at h
  · next p d rest =>
    split at h
    · have htail : (scanDigits (d :: rest)).2 = tail := congrArg Prod.snd (Option.some.inj h)
      rw [← htail]
      exact scanDigits_suffix.trans (List.suffix_cons _ _)
    · contradiction
  · contradiction

/-- Reading a number leaves the end of the text. -/
private theorem scanNumber_suffix {start : Pos} {first : Char} {kind : TokenKind}
    (h : scanNumber start first rest = .ok (kind, tail)) : tail <:+ rest := by
  have hdigits : (scanDigits rest).2 <:+ rest := scanDigits_suffix
  unfold scanNumber at h
  generalize scanDigits rest = digits at h hdigits
  obtain ⟨more, left⟩ := digits
  dsimp only at h
  split at h
  · next hfraction =>
    cases h
    exact (scanFraction?_suffix hfraction).trans hdigits
  · split at h
    · cases h
      exact hdigits
    · contradiction

/-- Reading a symbol of one or of two characters leaves the end of the text. -/
theorem scanSymbol?_suffix {first : Char} {s : Symbol} (h : scanSymbol? first rest = some (s, tail)) :
    tail <:+ rest := by
  cases rest with
  | nil =>
    obtain ⟨_, _, heq⟩ := Option.map_eq_some_iff.mp (show (symbolOfOne? first).map (·, []) = _ from h)
    cases heq
    exact List.suffix_refl _
  | cons g rest =>
    rw [scanSymbol?] at h
    split at h
    · cases h
      exact List.suffix_cons _ _
    · obtain ⟨_, _, heq⟩ := Option.map_eq_some_iff.mp h
      cases heq
      exact List.suffix_refl _

/-- What is read as a token that starts with a glyph, and what is left behind it. -/
inductive Scanned (g : Glyph) (rest : List Glyph) : TokenKind → List Glyph → Prop where
  | newline (hg : g.char = '\n') : Scanned g rest .newline rest
  | string {cs : List Char} {tail : List Glyph} (hg : g.char = '\x27' ∨ g.char = '\x22')
    (hscan : scanString g.char rest = some (cs, tail)) : Scanned g rest (.str (String.ofList cs)) tail
  | number {kind : TokenKind} {tail : List Glyph} (hg : g.char.isDigit = true)
    (hscan : scanNumber g.pos g.char rest = .ok (kind, tail)) : Scanned g rest kind tail
  | word (hg : isWordStart g.char = true) : Scanned g rest (scanWord g.char rest).1 (scanWord g.char rest).2
  | symbol {s : Symbol} {tail : List Glyph} (hscan : scanSymbol? g.char rest = some (s, tail)) :
    Scanned g rest (.symbol s) tail

/-- A token that is read is of one of these kinds. -/
theorem scanned_of_scanToken {g : Glyph} {kind : TokenKind} (h : scanToken g rest = .ok (kind, tail)) :
    Scanned g rest kind tail := by
  unfold scanToken at h
  split at h
  · next hg =>
    cases h
    exact .newline hg
  · split at h
    · next hg =>
      split at h
      · next hscan =>
        cases h
        exact .string hg hscan
      · contradiction
    · split at h
      · next hg => exact .number hg h
      · split at h
        · next hg =>
          obtain ⟨hkind, htail⟩ := Prod.ext_iff.mp (Except.ok.inj h)
          cases hkind
          cases htail
          exact .word hg
        · split at h
          · next hscan =>
            cases h
            exact .symbol hscan
          · contradiction

/-- Reading a token leaves the end of the text. -/
theorem scanToken_suffix {g : Glyph} {kind : TokenKind} (h : scanToken g rest = .ok (kind, tail)) :
    tail <:+ rest := by
  cases scanned_of_scanToken h with
  | newline => exact List.suffix_refl _
  | string _ hscan => exact scanString_suffix hscan
  | number _ hscan => exact scanNumber_suffix hscan
  | word => exact List.dropWhile_suffix _
  | symbol hscan => exact scanSymbol?_suffix hscan

/-- A token takes something of the text. -/
theorem length_lt_of_token {g : Glyph} {kind : TokenKind} (hskip : skipTrivia .between glyphs = .ok (g :: rest))
    (htoken : scanToken g rest = .ok (kind, tail)) : tail.length < glyphs.length :=
  Nat.lt_of_le_of_lt (scanToken_suffix htoken).length_le (skipTrivia_suffix hskip).length_le

end Unread

/-! ## Section 2: Whole Texts -/

/-- The tokens of a whole text. -/
def scanAll (finish : Pos) (glyphs : List Glyph) : ScriptResult (List Token) :=
  scanFrom finish glyphs.length glyphs

section Whole

variable {finish finish' : Pos} {glyphs more : List Glyph} {f : Pos → Pos}

/-- What is skipped and cut off first, and what the rest is cut into. -/
theorem scanFrom_eq_scanAll {fuel : Nat} (hfuel : glyphs.length ≤ fuel) :
    scanFrom finish fuel glyphs = scanAll finish glyphs := by
  suffices h : ∀ n fuel (glyphs : List Glyph), glyphs.length ≤ n → glyphs.length ≤ fuel →
      scanFrom finish fuel glyphs = scanFrom finish n glyphs from
    h _ _ _ (Nat.le_refl _) hfuel
  intro n
  -- on the first bound; each token leaves a shorter text, for which the smaller bounds are enough
  induction n with
  | zero =>
    intro fuel glyphs hn _
    obtain rfl := List.eq_nil_of_length_eq_zero (Nat.le_zero.mp hn)
    cases fuel <;> rfl
  | succ n ih =>
    intro fuel glyphs hn hfuel
    cases fuel with
    | zero =>
      obtain rfl := List.eq_nil_of_length_eq_zero (Nat.le_zero.mp hfuel)
      rfl
    | succ fuel =>
      rw [scanFrom, scanFrom]
      cases hskip : skipTrivia .between glyphs with
      | error e => rfl
      | ok left =>
        cases left with
        | nil => rfl
        | cons g rest =>
          dsimp only
          cases htoken : scanToken g rest with
          | error e => rfl
          | ok read =>
            obtain ⟨kind, tail⟩ := read
            have hshorter := length_lt_of_token hskip htoken
            dsimp only
            rw [ih fuel tail (by omega) (by omega)]

/-- The tokens of a text by its first one. -/
theorem scanAll_eq (finish : Pos) (glyphs : List Glyph) :
    scanAll finish glyphs =
      (skipTrivia .between glyphs).bind fun
        | [] => .ok [⟨.eof, finish⟩]
        | g :: rest => (scanToken g rest).bind fun (kind, tail) =>
            (scanAll finish tail).map (⟨kind, g.pos⟩ :: ·) := by
  rw [← scanFrom_eq_scanAll (Nat.le_succ glyphs.length), scanFrom]
  cases hskip : skipTrivia .between glyphs with
  | error e => rfl
  | ok left =>
    cases left with
    | nil => rfl
    | cons g rest =>
      simp only [Except.bind]
      cases htoken : scanToken g rest with
      | error e => rfl
      | ok read =>
        obtain ⟨kind, tail⟩ := read
        -- the bound that is left is enough for the shorter text
        simp only [scanFrom_eq_scanAll (length_lt_of_token hskip htoken).le]
        cases scanAll finish tail <;> rfl

/-- What is skipped first does not matter. -/
theorem scanAll_congr {glyphs' : List Glyph}
    (h : skipTrivia .between glyphs = skipTrivia .between glyphs') :
    scanAll finish glyphs = scanAll finish glyphs' := by
  rw [scanAll_eq, scanAll_eq finish glyphs', h]

/-- Where only blanks and comments are left, the tokens are at their end. -/
theorem scanAll_done (h : skipTrivia .between glyphs = .ok []) : scanAll finish glyphs = .ok [⟨.eof, finish⟩] := by
  rw [scanAll_eq, h]
  rfl

/-- A token that is read comes before those of the text behind it. -/
theorem scanAll_token {g : Glyph} {rest tail : List Glyph} {kind : TokenKind}
    (hskip : skipTrivia .between glyphs = .ok (g :: rest)) (htoken : scanToken g rest = .ok (kind, tail)) :
    scanAll finish glyphs = (scanAll finish tail).map (⟨kind, g.pos⟩ :: ·) := by
  rw [scanAll_eq, hskip]
  simp only [Except.bind, htoken]

/-- A comment that is open at the end is the error of the whole text. -/
theorem scanAll_open {e : ScriptError} (h : skipTrivia .between glyphs = .error e) :
    scanAll finish glyphs = .error e := by
  rw [scanAll_eq, h]
  rfl

/-- A token that cannot be read is the error of the whole text. -/
theorem scanAll_stuck {g : Glyph} {rest : List Glyph} {e : ScriptError}
    (hskip : skipTrivia .between glyphs = .ok (g :: rest)) (htoken : scanToken g rest = .error e) :
    scanAll finish glyphs = .error e := by
  rw [scanAll_eq, hskip]
  simp only [Except.bind, htoken]

/-- Induction along the tokens of a text. -/
theorem scan_induction {motive : List Glyph → Prop}
    (open_ : ∀ glyphs e, skipTrivia .between glyphs = .error e → motive glyphs)
    (done : ∀ glyphs, skipTrivia .between glyphs = .ok [] → motive glyphs)
    (stuck : ∀ glyphs g rest e, skipTrivia .between glyphs = .ok (g :: rest) → scanToken g rest = .error e →
      motive glyphs)
    (token : ∀ glyphs g rest kind tail, skipTrivia .between glyphs = .ok (g :: rest) →
      scanToken g rest = .ok (kind, tail) → motive tail → motive glyphs)
    (glyphs : List Glyph) : motive glyphs := by
  -- The scan is not structural: every token takes a glyph at least, so the length goes down.
  induction hlength : glyphs.length using Nat.strongRecOn generalizing glyphs with
  | ind n ih =>
    subst hlength
    cases hskip : skipTrivia .between glyphs with
    | error e => exact open_ glyphs e hskip
    | ok left =>
      cases left with
      | nil => exact done glyphs hskip
      | cons g rest =>
        cases htoken : scanToken g rest with
        | error e => exact stuck glyphs g rest e hskip htoken
        | ok read =>
          obtain ⟨kind, tail⟩ := read
          exact token glyphs g rest kind tail hskip htoken (ih _ (length_lt_of_token hskip htoken) tail rfl)

/-- No token that is read is the end of the input. -/
private theorem scanToken_ne_eof {g : Glyph} {rest tail : List Glyph} {kind : TokenKind}
    (h : scanToken g rest = .ok (kind, tail)) : kind ≠ .eof := by
  cases scanned_of_scanToken h with
  | newline | string | symbol => simp
  | number _ hscan =>
    -- Numbers are integers or floats, and words are names or keywords.
    unfold scanNumber at hscan
    dsimp only at hscan
    split at hscan
    · cases hscan
      simp
    · split at hscan
      · cases hscan
        simp
      · contradiction
  | word =>
    show wordKind _ ≠ .eof
    unfold wordKind
    split <;> simp

/-- A text is cut into tokens and the end of the input, or it is not cut at all. -/
theorem scanAll_cases (finish : Pos) (glyphs : List Glyph) :
    (∃ ts, Endless ts ∧ scanAll finish glyphs = .ok (ts ++ [⟨.eof, finish⟩])) ∨
      ∃ e, scanAll finish glyphs = .error e := by
  induction glyphs using scan_induction with
  | open_ glyphs e hskip =>
    right
    exact ⟨e, scanAll_open hskip⟩
  | done glyphs hskip =>
    left
    exact ⟨[], by simp [Endless], scanAll_done hskip⟩
  | stuck glyphs g rest e hskip htoken =>
    right
    exact ⟨e, scanAll_stuck hskip htoken⟩
  | token glyphs g rest kind tail hskip htoken ih =>
    rw [scanAll_token hskip htoken]
    rcases ih with ⟨ts, hts, hscan⟩ | ⟨e, hscan⟩
    · left
      rw [hscan]
      exact ⟨_ :: ts, hts.cons (scanToken_ne_eof htoken), rfl⟩
    · right
      rw [hscan]
      exact ⟨e, rfl⟩

/-- Blanks and comments are skipped in the same way at other places, with more lines behind them. -/
private theorem skipTrivia_place_ok {left : List Glyph} (hmore : EndsLine more)
    (h : skipTrivia .between glyphs = .ok left) :
    skipTrivia .between (place f more glyphs) = .ok (place f more left) := by
  have hleaves : Leaves more (skipTrivia .between glyphs) := Or.inl ⟨left, h⟩
  have hplace := skipTrivia_place (f := f) hmore hleaves
  rw [h] at hplace
  exact hplace

/-- Tokens are read in the same way at other places, with more lines behind them. -/
private theorem scanToken_place_ok {g : Glyph} {rest tail : List Glyph} {kind : TokenKind} (hmore : EndsLine more)
    (h : scanToken g rest = .ok (kind, tail)) :
    scanToken (g.mapPos f) (place f more rest) = .ok (kind, place f more tail) := by
  rw [scanToken_place hmore (Or.inl ⟨_, h⟩), h]
  rfl

/-- The tokens of a piece of text come first where a line feed or nothing stands behind it. -/
theorem scanAll_place (hmore : EndsLine more) {ts : List Token}
    (h : scanAll finish glyphs = .ok (ts ++ [⟨.eof, finish⟩])) :
    scanAll finish' (place f more glyphs) = (scanAll finish' more).map (ts.map (moveToken f) ++ ·) := by
  -- On the tokens of the piece: each of them is read in the same way with more text behind the piece.
  induction glyphs using scan_induction generalizing ts with
  | open_ glyphs e hskip =>
    rw [scanAll_open hskip] at h
    contradiction
  | done glyphs hskip =>
    rw [scanAll_done hskip] at h
    obtain rfl : ts = [] := by simpa using (Except.ok.inj h).symm
    have hplace := skipTrivia_place_ok (f := f) hmore hskip
    rw [scanAll_congr (hplace.trans (skipTrivia_endsLine_between hmore).symm)]
    cases scanAll finish' more <;> rfl
  | stuck glyphs g rest e hskip htoken =>
    rw [scanAll_stuck hskip htoken] at h
    contradiction
  | token glyphs g rest kind tail hskip htoken ih =>
    rw [scanAll_token hskip htoken] at h
    rw [scanAll_token (skipTrivia_place_ok hmore hskip) (scanToken_place_ok hmore htoken)]
    cases hscan : scanAll finish tail with
    | error e =>
      rw [hscan] at h
      contradiction
    | ok us =>
      rw [hscan] at h
      have heq : ⟨kind, g.pos⟩ :: us = ts ++ [⟨.eof, finish⟩] := Except.ok.inj h
      cases ts with
      | nil =>
        -- no token is the end of the input
        have hkind : kind = .eof := congrArg Token.kind (List.cons.inj heq).1
        exact absurd hkind (scanToken_ne_eof htoken)
      | cons t ts =>
        obtain ⟨rfl, rfl⟩ := List.cons.inj heq
        rw [ih hscan]
        cases scanAll finish' more <;> rfl

/-- What cannot be cut cannot be cut either where text stands behind it that closes nothing. -/
theorem scanAll_place_error (hmore : EndsLine more) (hinert : Inert more) {e : ScriptError}
    (h : scanAll finish glyphs = .error e) :
    scanAll finish' (place f more glyphs) = .error (e.mapPos f) := by
  induction glyphs using scan_induction with
  | open_ glyphs e' hskip =>
    have hleaves : Leaves more (skipTrivia .between glyphs) := Or.inr hinert
    have hplace := skipTrivia_place (f := f) hmore hleaves
    rw [scanAll_open hskip] at h
    cases h
    rw [hskip] at hplace
    rw [scanAll_eq, show skipTrivia .between (place f more glyphs) = _ from hplace]
    rfl
  | done glyphs hskip =>
    rw [scanAll_done hskip] at h
    contradiction
  -- The blanks before the token are passed over as before, and the token fails as before.
  | stuck glyphs g rest e' hskip htoken =>
    rw [scanAll_stuck hskip htoken] at h
    cases h
    have hleaves : Leaves more (scanToken g rest) := Or.inr hinert
    have hplace := scanToken_place (f := f) hmore hleaves
    rw [htoken] at hplace
    rw [scanAll_eq, skipTrivia_place_ok hmore hskip]
    show (scanToken (g.mapPos f) (place f more rest)).bind _ = _
    rw [hplace]
    rfl
  | token glyphs g rest kind tail hskip htoken ih =>
    rw [scanAll_token hskip htoken] at h
    rw [scanAll_token (skipTrivia_place_ok hmore hskip) (scanToken_place_ok hmore htoken)]
    cases hscan : scanAll finish tail with
    | error e' =>
      rw [hscan] at h
      cases h
      rw [ih hscan]
      rfl
    | ok us =>
      rw [hscan] at h
      contradiction

/-- A text at other positions has the same tokens at other positions. -/
theorem scanAll_move (f : Pos → Pos) (finish : Pos) (glyphs : List Glyph) :
    scanAll (f finish) (glyphs.map (Glyph.mapPos f)) =
      moveResult f (List.map (moveToken f)) (scanAll finish glyphs) := by
  have hnone : EndsLine [] := fun c hc => nomatch hc
  have hplace : glyphs.map (Glyph.mapPos f) = place f [] glyphs := (List.append_nil _).symm
  rw [hplace]
  rcases scanAll_cases finish glyphs with ⟨ts, _, hscan⟩ | ⟨e, hscan⟩
  · rw [scanAll_place hnone hscan, hscan]
    have hdone : scanAll (f finish) [] = .ok [⟨.eof, f finish⟩] := scanAll_done rfl
    simp [hdone, Except.map, moveToken]
  · rw [scanAll_place_error hnone (fun g hg => nomatch hg) hscan, hscan]
    rfl

end Whole

/-! ## Section 3: Lines -/

/-- A position some lines further down. -/
def Pos.down (n : Nat) (p : Pos) : Pos := ⟨p.line + n, p.col⟩

/-- Going on by a character commutes with going down some lines. -/
private theorem Pos.next_down (n : Nat) (p : Pos) (c : Char) : (p.down n).next c = (p.next c).down n := by
  unfold Pos.next
  split
  · simp [Pos.down, Nat.add_right_comm]
  · rfl

/-- Going on by a text commutes with going down some lines. -/
theorem Pos.after_down (n : Nat) (p : Pos) (cs : List Char) : (p.down n).after cs = (p.after cs).down n := by
  induction cs generalizing p with
  | nil => rfl
  | cons c cs ih =>
    show ((p.down n).next c).after cs = _
    rw [Pos.next_down, ih]
    rfl

/-- A text further down has the same glyphs, further down. -/
theorem locate_down (n : Nat) (p : Pos) (cs : List Char) :
    locate (p.down n) cs = (locate p cs).map (Glyph.mapPos (Pos.down n)) := by
  induction cs generalizing p with
  | nil => rfl
  | cons c cs ih =>
    rw [locate, Pos.next_down, ih]
    rfl

/-- A text goes on by as many lines as it has line feeds. -/
theorem Pos.line_after (p : Pos) (cs : List Char) : (p.after cs).line = p.line + cs.count '\n' := by
  induction cs generalizing p with
  | nil => rfl
  | cons c cs ih =>
    show ((p.next c).after cs).line = _
    rw [ih, List.count_cons]
    by_cases hc : c = '\n'
    · simp [Pos.next, hc]
      omega
    · simp [Pos.next, hc]

/-- Behind a text and a line feed, a new line starts. -/
theorem Pos.after_line (cs : List Char) :
    (Pos.start.after cs).next '\n' = Pos.start.down (cs.count '\n' + 1) := by
  have hline := Pos.line_after Pos.start cs
  show (⟨(Pos.start.after cs).line + 1, 1⟩ : Pos) = _
  rw [hline, Nat.add_assoc]
  rfl

/-- The bound of the tokenizer, the length of the text, is large enough. -/
theorem tokenizeChars_eq (cs : List Char) :
    tokenizeChars cs = scanAll (Pos.start.after cs) (locate Pos.start cs) := by
  rw [tokenizeChars, scanFrom_eq_scanAll (Nat.le_of_eq (length_locate _ _))]

/-- A line feed is a token by itself. -/
private theorem scanAll_newline (finish p : Pos) (glyphs : List Glyph) :
    scanAll finish (⟨'\n', p⟩ :: glyphs) = (scanAll finish glyphs).map (⟨.newline, p⟩ :: ·) := by
  have hskip : skipTrivia .between (⟨'\n', p⟩ :: glyphs) = .ok (⟨'\n', p⟩ :: glyphs) :=
    skipTrivia_stops (by simp) (by simp)
  exact scanAll_token hskip rfl

/-- A text has tokens with the end of the input behind them, or it has an error. -/
theorem tokenizeChars_cases (cs : List Char) :
    (∃ ts, Endless ts ∧ tokenizeChars cs = .ok (ts ++ [⟨.eof, Pos.start.after cs⟩])) ∨
      ∃ e, tokenizeChars cs = .error e := by
  rw [tokenizeChars_eq]
  exact scanAll_cases _ _

/-- Tokens that are not moved stay the same. -/
theorem map_moveToken_id (ts : List Token) : ts.map (moveToken id) = ts := by
  have hid : moveToken id = id := rfl
  rw [hid, List.map_id]

/-- The tokens of two texts with a line feed between them. -/
theorem tokenizeChars_line {cs ds : List Char} {ts : List Token}
    (h : tokenizeChars cs = .ok (ts ++ [⟨.eof, Pos.start.after cs⟩])) :
    tokenizeChars (cs ++ '\n' :: ds) =
      (moveResult (Pos.down (cs.count '\n' + 1)) (List.map (moveToken (Pos.down (cs.count '\n' + 1))))
        (tokenizeChars ds)).map fun us => ts ++ ⟨.newline, Pos.start.after cs⟩ :: us := by
  rw [tokenizeChars_eq] at h
  have hfinish : Pos.start.after (cs ++ '\n' :: ds) = (Pos.start.after ds).down (cs.count '\n' + 1) := by
    show (cs ++ '\n' :: ds).foldl Pos.next Pos.start = _
    rw [List.foldl_append]
    show ((Pos.start.after cs).next '\n').after ds = _
    rw [Pos.after_line, Pos.after_down]
  -- The text is cut behind the break, and the glyphs there are those of a text of its own, moved down.
  have hglyphs : locate Pos.start (cs ++ '\n' :: ds) =
      place id (⟨'\n', Pos.start.after cs⟩ :: (locate Pos.start ds).map (Glyph.mapPos (Pos.down (cs.count '\n' + 1))))
        (locate Pos.start cs) := by
    rw [locate_append, place_id, locate, Pos.after_line, locate_down]
  rw [tokenizeChars_eq, hfinish, hglyphs, scanAll_place endsLine_newline h, scanAll_newline, scanAll_move,
    ← tokenizeChars_eq, map_moveToken_id]
  cases tokenizeChars ds <;> rfl

/-! ## Section 4: The Front of a Text -/

section Front

variable {finish p : Pos} {c : Char} {cs : List Char}

/-- A blank before a text is no part of its tokens. -/
theorem scanAll_blank (hc : c ≠ '\n' ∧ Text.isBlank c = true) :
    scanAll finish (locate p (c :: cs)) = scanAll finish (locate (p.next c) cs) :=
  scanAll_congr (skipTrivia_cons_blank (g := ⟨c, p⟩) hc)

/-- Blanks before a text are no part of its tokens. -/
theorem scanAll_blanks {blanks : List Char} (h : ∀ c ∈ blanks, c ≠ '\n' ∧ Text.isBlank c = true) :
    scanAll finish (locate p (blanks ++ cs)) = scanAll finish (locate (p.after blanks) cs) := by
  induction blanks generalizing p with
  | nil => rfl
  | cons c blanks ih =>
    obtain ⟨hc, hblanks⟩ := List.forall_mem_cons.mp h
    exact (scanAll_blank hc).trans (ih hblanks)

/-- Taking a word by its characters divides the glyphs in the same way as the text. -/
private theorem takeWhile_locate (test : Char → Bool) {word : List Char} (hword : word.all test = true)
    (hcs : ∀ c ∈ cs.head?, test c = false) :
    (locate p (word ++ cs)).takeWhile (fun g => test g.char) = locate p word ∧
      (locate p (word ++ cs)).dropWhile (fun g => test g.char) = locate (p.after word) cs := by
  induction word generalizing p with
  | nil =>
    cases cs with
    | nil => exact ⟨rfl, rfl⟩
    | cons c cs =>
      have hc : test c = false := hcs c rfl
      simp [locate, hc, Pos.after]
  | cons c word ih =>
    obtain ⟨hc, hword⟩ := (Bool.and_eq_true _ _).mp (List.all_cons ▸ hword)
    obtain ⟨htake, hdrop⟩ := ih (p := p.next c) hword
    simp [locate, hc, htake, hdrop, Pos.after]

/-- A word before a character that continues no word is cut off. -/
theorem scanAll_word {word : String} (hword : word.toList = c :: cs) (hstart : isWordStart c = true)
    (hcontinue : cs.all isWordContinue = true) {ds : List Char}
    (hds : ∀ d ∈ ds.head?, isWordContinue d = false) :
    scanAll finish (locate p (word.toList ++ ds)) =
      (scanAll finish (locate (p.after word.toList) ds)).map (⟨wordKind word, p⟩ :: ·) := by
  obtain ⟨hblank, hslash, hline, hquote, hdouble, hdigit⟩ := isWordStart_lead hstart
  obtain ⟨htake, hdrop⟩ := takeWhile_locate (p := p.next c) isWordContinue hcontinue hds
  rw [hword]
  have hskip : skipTrivia .between (⟨c, p⟩ :: locate (p.next c) (cs ++ ds)) = .ok _ := skipTrivia_eq hblank hslash
  apply scanAll_token hskip
  · have hscan : scanWord c (locate (p.next c) (cs ++ ds)) = (wordKind word, locate (p.after (c :: cs)) ds) := by
      simp only [scanWord, htake, hdrop, map_char_locate]
      rw [← hword, String.ofList_toList, hword]
      rfl
    simp [scanToken, hline, hquote, hdouble, hdigit, hstart, hscan]

/-- A symbol of one character is cut off where the next character makes no longer one of it. -/
theorem scanAll_symbol {s : Symbol} (hword : s.word.toList = [c]) (hone : symbolOfOne? c = some s)
    (hslash : c ≠ '/') (hcs : ∀ d ∈ cs.head?, symbolOfTwo? c d = none) :
    scanAll finish (locate p (c :: cs)) =
      (scanAll finish (locate (p.next c) cs)).map (⟨.symbol s, p⟩ :: ·) := by
  have hstart := startsSymbol_of_word hword
  have hskip : skipTrivia .between (⟨c, p⟩ :: locate (p.next c) cs) = .ok _ :=
    skipTrivia_eq (isBlank_of_startsSymbol hstart) hslash
  apply scanAll_token hskip
  · apply scanToken_symbol (g := ⟨c, p⟩) hstart
    cases cs with
    | nil => simp [locate, scanSymbol?, hone]
    | cons d cs =>
      have htwo : symbolOfTwo? c d = none := hcs d rfl
      simp [locate, scanSymbol?, hone, htwo]

/-- A line feed before a text is its first token. -/
theorem scanAll_line : scanAll finish (locate p ('\n' :: cs)) =
    (scanAll finish (locate (p.next '\n') cs)).map (⟨.newline, p⟩ :: ·) :=
  scanAll_newline finish p _

end Front

end RowConsole.Script
