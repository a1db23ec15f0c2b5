import RowConsole.Proofs.Script.Positions
import RowConsole.Proofs.Script.Token.Spelling

/-!
# Tokens Wherever They Stand

What a token, a blank or a comment is does not depend on where it stands, and none that has come to its end
within a piece of text reaches beyond a line feed behind it. What has not come to its end there does not end
in text behind it that holds no quote and no slash.

Main statements: `skipTrivia_place` and `scanToken_place`.
-/

namespace RowConsole.Script

/-! ## Section 1: Blanks and Comments by Their Characters -/

/-- The character that stands first. -/
def leading (glyphs : List Glyph) : Option Char :=
  glyphs.head?.map Glyph.char

section Trivia

variable {g g' : Glyph} {rest : List Glyph} {start : Pos}

/-- A blank is skipped. -/
theorem skipTrivia_cons_blank (hblank : g.char ≠ '\n' ∧ Text.isBlank g.char = true) :
    skipTrivia .between (g :: rest) = skipTrivia .between rest := by
  rw [skipTrivia.eq_def]
  exact if_pos hblank

/-- Two slashes open a comment up to the end of the line. -/
theorem skipTrivia_opensLine (hblank : ¬(g.char ≠ '\n' ∧ Text.isBlank g.char = true)) (hg : g.char = '/')
    (hg' : g'.char = '/') : skipTrivia .between (g :: g' :: rest) = skipTrivia .lineComment rest := by
  obtain ⟨_, _⟩ := g'
  subst hg'
  rw [skipTrivia.eq_def]
  simp only [if_neg hblank, if_pos hg]

/-- A slash and a star open a comment up to a star and a slash. -/
theorem skipTrivia_opensBlock (hblank : ¬(g.char ≠ '\n' ∧ Text.isBlank g.char = true)) (hg : g.char = '/')
    (hg' : g'.char = '*') :
    skipTrivia .between (g :: g' :: rest) = skipTrivia (.blockComment g.pos) rest := by
  obtain ⟨_, _⟩ := g'
  subst hg'
  rw [skipTrivia.eq_def]
  simp only [if_neg hblank, if_pos hg]

/-- A glyph that is no blank and opens no comment is not skipped. -/
theorem skipTrivia_stops (hblank : ¬(g.char ≠ '\n' ∧ Text.isBlank g.char = true))
    (hcomment : g.char = '/' → leading rest ≠ some '/' ∧ leading rest ≠ some '*') :
    skipTrivia .between (g :: rest) = .ok (g :: rest) := by
  rw [skipTrivia.eq_def]
  simp only [if_neg hblank]
  split
  · next hslash =>
    obtain ⟨hline, hblock⟩ := hcomment hslash
    split
    · exact absurd rfl hline
    · exact absurd rfl hblock
    · rfl
  · rfl

/-- The line feed behind a comment is left for the scanner. -/
theorem skipTrivia_endsLine (hg : g.char = '\n') :
    skipTrivia .lineComment (g :: rest) = .ok (g :: rest) := by
  rw [skipTrivia.eq_def]
  exact if_pos hg

/-- Everything else in such a comment is skipped. -/
theorem skipTrivia_line_cons (hg : g.char ≠ '\n') :
    skipTrivia .lineComment (g :: rest) = skipTrivia .lineComment rest := by
  rw [skipTrivia.eq_def]
  exact if_neg hg

/-- Behind the end of a comment there may be more to skip. -/
theorem skipTrivia_closesBlock (hg : g.char = '*') (hg' : g'.char = '/') :
    skipTrivia (.blockComment start) (g :: g' :: rest) = skipTrivia .between rest := by
  obtain ⟨_, _⟩ := g
  obtain ⟨_, _⟩ := g'
  subst hg hg'
  rfl

/-- Everything but the two closing signs in a row is skipped. -/
theorem skipTrivia_block_cons (hclose : ¬(g.char = '*' ∧ leading rest = some '/')) :
    skipTrivia (.blockComment start) (g :: rest) = skipTrivia (.blockComment start) rest := by
  rw [skipTrivia.eq_def]
  split
  all_goals simp_all [leading]

end Trivia

/-- What is skipped, case by case: the induction along the reader of blanks and comments, with its cases told
apart by characters. -/
theorem trivia_induction {motive : Trivia → List Glyph → Prop}
    (nothing : motive .between [])
    (blank : ∀ g rest, g.char ≠ '\n' ∧ Text.isBlank g.char = true → motive .between rest →
      motive .between (g :: rest))
    (opensLine : ∀ g g' rest, ¬(g.char ≠ '\n' ∧ Text.isBlank g.char = true) → g.char = '/' → g'.char = '/' →
      motive .lineComment rest → motive .between (g :: g' :: rest))
    (opensBlock : ∀ g g' rest, ¬(g.char ≠ '\n' ∧ Text.isBlank g.char = true) → g.char = '/' → g'.char = '*' →
      motive (.blockComment g.pos) rest → motive .between (g :: g' :: rest))
    (stops : ∀ g rest, ¬(g.char ≠ '\n' ∧ Text.isBlank g.char = true) →
      (g.char = '/' → leading rest ≠ some '/' ∧ leading rest ≠ some '*') → motive .between (g :: rest))
    (lineAtEnd : motive .lineComment [])
    (endsLine : ∀ g rest, g.char = '\n' → motive .lineComment (g :: rest))
    (inLine : ∀ g rest, g.char ≠ '\n' → motive .lineComment rest → motive .lineComment (g :: rest))
    (blockAtEnd : ∀ start, motive (.blockComment start) [])
    (closesBlock : ∀ start g g' rest, g.char = '*' → g'.char = '/' → motive .between rest →
      motive (.blockComment start) (g :: g' :: rest))
    (inBlock : ∀ start g rest, ¬(g.char = '*' ∧ leading rest = some '/') → motive (.blockComment start) rest →
      motive (.blockComment start) (g :: rest))
    (trivia : Trivia) (glyphs : List Glyph) : motive trivia glyphs := by
  induction trivia, glyphs using skipTrivia.induct with
  | case1 => exact nothing
  | case2 g rest hblank ih => exact blank g rest hblank ih
  -- the patterns on the second character, as equations of it
  | case3 g hblank hslash pos rest ih => exact opensLine g _ rest hblank hslash rfl ih
  | case4 g hblank hslash pos rest ih => exact opensBlock g _ rest hblank hslash rfl ih
  | case5 g rest hblank hslash hline hblock =>
    apply stops g rest hblank
    intro _
    cases rest with
    | nil => simp [leading]
    | cons g' rest =>
      obtain ⟨c, p⟩ := g'
      simp only [leading, List.head?_cons, Option.map_some, ne_eq, Option.some.injEq]
      exact ⟨fun h => hline p rest (h ▸ rfl), fun h => hblock p rest (h ▸ rfl)⟩
  | case6 g rest hblank hslash => exact stops g rest hblank fun h => absurd h hslash
  | case7 => exact lineAtEnd
  | case8 g rest hline => exact endsLine g rest hline
  | case9 g rest hline ih => exact inLine g rest hline ih
  | case10 start => exact blockAtEnd start
  | case11 start pos pos' rest ih => exact closesBlock start _ _ rest rfl rfl ih
  -- The last branch of the scan is taken where the pattern of the one before does not match.
  | case12 start g rest hclose ih =>
    apply inBlock start g rest _ ih
    rintro ⟨hg, hrest⟩
    obtain ⟨c, p⟩ := g
    cases rest with
    | nil => contradiction
    | cons g' rest =>
      obtain ⟨c', p'⟩ := g'
      obtain rfl : c' = '/' := by simpa [leading] using hrest
      exact hclose p p' rest (hg ▸ rfl) rfl

/-! ## Section 2: Pieces at Other Places -/

/-- A glyph at another position. -/
def Glyph.mapPos (f : Pos → Pos) (g : Glyph) : Glyph := ⟨g.char, f g.pos⟩

/-- Blanks or a comment at another position. -/
def Trivia.mapPos (f : Pos → Pos) : Trivia → Trivia
  | .blockComment start => .blockComment (f start)
  | trivia => trivia

/-- A piece of text at other positions, with more text behind it. -/
def place (f : Pos → Pos) (more glyphs : List Glyph) : List Glyph :=
  glyphs.map (Glyph.mapPos f) ++ more

/-- Text that starts with a line feed, or none. -/
def EndsLine (more : List Glyph) : Prop :=
  ∀ c, leading more = some c → c = '\n'

/-- Text that closes neither a string nor a comment. -/
def Inert (more : List Glyph) : Prop :=
  ∀ g ∈ more, g.char ≠ '/' ∧ g.char ≠ '\x27' ∧ g.char ≠ '\x22'

/-- More text leaves a result as it is: the piece in front has been read, or nothing that it opened is
closed. -/
def Leaves {α : Type} (more : List Glyph) (r : ScriptResult α) : Prop :=
  (∃ a, r = .ok a) ∨ Inert more

section Place

variable {f : Pos → Pos} {more glyphs rest : List Glyph} {g : Glyph}

/-- Nothing is moved by the identity. -/
theorem place_id (more glyphs : List Glyph) : place id more glyphs = glyphs ++ more := by
  have hid : Glyph.mapPos id = id := rfl
  rw [place, hid, List.map_id]

theorem endsLine_newline {p : Pos} : EndsLine (⟨'\n', p⟩ :: more) := by
  intro c hc
  exact (Option.some.inj hc).symm

private theorem place_cons (g : Glyph) (glyphs : List Glyph) :
    place f more (g :: glyphs) = g.mapPos f :: place f more glyphs := rfl

/-- What stands first in a piece stands first in it elsewhere; an empty piece has the line feed behind it. -/
private theorem leading_place (hmore : EndsLine more) :
    leading (place f more glyphs) = leading glyphs ∨ leading (place f more glyphs) = some '\n' := by
  cases glyphs with
  | cons g glyphs => exact Or.inl rfl
  | nil =>
    cases more with
    | nil => exact Or.inl rfl
    | cons g more => exact Or.inr (congrArg some (hmore g.char rfl))

/-- A character other than the line feed stands first only if it stands first in the piece. -/
theorem leading_place_ne (hmore : EndsLine more) {c : Char} (hc : c ≠ '\n') (h : leading glyphs ≠ some c) :
    leading (place f more glyphs) ≠ some c := by
  have hleading : leading (place f more glyphs) = leading glyphs ∨ leading (place f more glyphs) = some '\n' :=
    leading_place hmore
  -- the piece has a first character, or it is empty and the line feed stands first
  rcases hleading with heq | heq
  · rw [heq]
    exact h
  · rw [heq]
    exact fun hnewline => hc (Option.some.inj hnewline).symm

/-- Nothing is skipped in front of a line feed or at the end of the text. -/
theorem skipTrivia_endsLine_between (hmore : EndsLine more) : skipTrivia .between more = .ok more := by
  cases more with
  | nil => rfl
  | cons g more =>
    have hg : g.char = '\n' := hmore g.char rfl
    apply skipTrivia_stops
    · rintro ⟨hne, _⟩
      exact hne hg
    · intro hslash
      rw [hg] at hslash
      contradiction

/-- A block comment does not end in text that closes none. -/
theorem skipTrivia_inert (hinert : Inert more) (start : Pos) :
    skipTrivia (.blockComment start) more = refusalAt .unterminatedComment start := by
  induction more with
  | nil => rfl
  | cons g more ih =>
    obtain ⟨_, hmore⟩ := List.forall_mem_cons.mp hinert
    rw [skipTrivia_block_cons, ih hmore]
    rintro ⟨_, hslash⟩
    cases more with
    | nil => contradiction
    | cons g' more => exact (hmore g' List.mem_cons_self).1 (Option.some.inj hslash)

/-- What is skipped in a piece of text is skipped wherever it stands. -/
theorem skipTrivia_place (hmore : EndsLine more) {trivia : Trivia}
    (h : Leaves more (skipTrivia trivia glyphs)) :
    skipTrivia (trivia.mapPos f) (place f more glyphs) =
      moveResult f (place f more) (skipTrivia trivia glyphs) := by
  induction trivia, glyphs using trivia_induction with
  | nothing => exact skipTrivia_endsLine_between hmore
  | blank g rest hblank ih =>
    rw [skipTrivia_cons_blank hblank] at h ⊢
    rw [← ih h]
    exact skipTrivia_cons_blank hblank
  | opensLine g g' rest hblank hg hg' ih =>
    rw [skipTrivia_opensLine hblank hg hg'] at h ⊢
    rw [← ih h]
    exact skipTrivia_opensLine hblank hg hg'
  | opensBlock g g' rest hblank hg hg' ih =>
    rw [skipTrivia_opensBlock hblank hg hg'] at h ⊢
    rw [← ih h]
    exact skipTrivia_opensBlock hblank hg hg'
  | stops g rest hblank hcomment =>
    rw [skipTrivia_stops hblank hcomment]
    apply skipTrivia_stops (g := g.mapPos f) hblank
    intro hslash
    obtain ⟨hline, hblock⟩ := hcomment hslash
    exact ⟨leading_place_ne hmore (by decide) hline, leading_place_ne hmore (by decide) hblock⟩
  | lineAtEnd =>
    show skipTrivia .lineComment more = .ok more
    cases more with
    | nil => rfl
    | cons g more => exact skipTrivia_endsLine (hmore g.char rfl)
  | endsLine g rest hg =>
    rw [skipTrivia_endsLine hg]
    exact skipTrivia_endsLine hg
  | inLine g rest hg ih =>
    rw [skipTrivia_line_cons hg] at h ⊢
    rw [← ih h]
    exact skipTrivia_line_cons hg
  -- An open comment swallows what is put behind it, so that may hold no end of a comment.
  | blockAtEnd start =>
    rcases h with ⟨a, ha⟩ | hinert
    · contradiction
    · exact skipTrivia_inert hinert (f start)
  | closesBlock start g g' rest hg hg' ih =>
    rw [skipTrivia_closesBlock hg hg'] at h ⊢
    rw [← ih h]
    exact skipTrivia_closesBlock hg hg'
  | inBlock start g rest hclose ih =>
    rw [skipTrivia_block_cons hclose] at h ⊢
    rw [← ih h]
    apply skipTrivia_block_cons
    rintro ⟨hg, hslash⟩
    exact leading_place_ne hmore (by decide) (fun hslash => hclose ⟨hg, hslash⟩) hslash

/-! ## Section 3: Literals, Words and Symbols at Other Places -/

/-- A quote ends the string. -/
theorem scanString_closes {quote : Char} (hg : g.char = quote) :
    scanString quote (g :: rest) = some ([], rest) := by
  rw [scanString.eq_def]
  exact if_pos hg

/-- A backslash in a string takes the next character with it. -/
theorem scanString_escapes {quote : Char} (hg : g.char ≠ quote) (hescape : g.char = '\\') (e : Glyph) :
    scanString quote (g :: e :: rest) =
      (scanString quote rest).map fun (cs, tail) => (unescape e.char :: cs, tail) := by
  rw [scanString.eq_def]
  exact (if_neg hg).trans (if_pos hescape)

/-- Any other character is part of the string. -/
theorem scanString_cons {quote : Char} (hg : g.char ≠ quote) (hescape : g.char ≠ '\\') :
    scanString quote (g :: rest) = (scanString quote rest).map fun (cs, tail) => (g.char :: cs, tail) := by
  rw [scanString.eq_def]
  exact (if_neg hg).trans (if_neg hescape)

/-- Text without the quote closes no string. -/
theorem scanString_eq_none {quote : Char} (h : ∀ g ∈ glyphs, g.char ≠ quote) :
    scanString quote glyphs = none := by
  induction glyphs using scanString.induct quote with
  | case1 => rfl
  | case2 g rest hquote => exact absurd hquote (h g List.mem_cons_self)
  | case3 g hquote hescape =>
    rw [scanString.eq_def]
    exact (if_neg hquote).trans (if_pos hescape)
  | case4 g hquote hescape e rest ih =>
    rw [scanString_escapes hquote hescape, ih fun g hg => h g (by simp [hg])]
    rfl
  | case5 g rest hquote hescape ih =>
    rw [scanString_cons hquote hescape, ih fun g hg => h g (by simp [hg])]
    rfl

/-- A string is the same wherever it stands, and stays open before text without the quote. -/
theorem scanString_place {quote : Char}
    (h : (scanString quote glyphs).isSome = true ∨ ∀ g ∈ more, g.char ≠ quote) :
    scanString quote (place f more glyphs) = (scanString quote glyphs).map (Prod.map id (place f more)) := by
  induction glyphs using scanString.induct quote with
  | case1 =>
    rcases h with h | h
    · contradiction
    · exact scanString_eq_none h
  | case2 g rest hquote =>
    rw [scanString_closes hquote]
    exact scanString_closes hquote
  | case3 g hquote hescape =>
    have hnone : scanString quote [g] = none := by
      rw [scanString.eq_def]
      exact (if_neg hquote).trans (if_pos hescape)
    rw [hnone] at h ⊢
    rcases h with h | h
    · contradiction
    · -- The escape swallows the first character of the text behind it.
      cases more with
      | nil =>
        rw [scanString.eq_def]
        exact (if_neg hquote).trans (if_pos hescape)
      | cons e more =>
        show scanString quote (g.mapPos f :: e :: more) = none
        rw [scanString_escapes (g := g.mapPos f) hquote hescape,
          scanString_eq_none fun g hg => h g (by simp [hg])]
        rfl
  | case4 g hquote hescape e rest ih =>
    rw [scanString_escapes hquote hescape] at h ⊢
    show scanString quote (g.mapPos f :: e.mapPos f :: place f more rest) = _
    rw [scanString_escapes (g := g.mapPos f) hquote hescape, ih (by simpa using h), Option.map_map, Option.map_map]
    rfl
  | case5 g rest hquote hescape ih =>
    rw [scanString_cons hquote hescape] at h ⊢
    show scanString quote (g.mapPos f :: place f more rest) = _
    rw [scanString_cons (g := g.mapPos f) hquote hescape, ih (by simpa using h), Option.map_map, Option.map_map]
    rfl

/-- Digits end in front of a line feed. -/
private theorem scanDigits_endsLine (hmore : EndsLine more) : scanDigits more = ([], more) := by
  cases more with
  | nil => rfl
  | cons g more =>
    have hg : g.char = '\n' := hmore g.char rfl
    simp [scanDigits, hg]

/-- The digits of a piece are the same wherever it stands. -/
private theorem scanDigits_place (hmore : EndsLine more) :
    scanDigits (place f more glyphs) = Prod.map id (place f more) (scanDigits glyphs) := by
  induction glyphs with
  | nil => exact scanDigits_endsLine hmore
  | cons g rest ih =>
    rw [place_cons, scanDigits, scanDigits, ih]
    by_cases hdigit : g.char.isDigit = true
    · rw [if_pos hdigit]
      exact if_pos hdigit
    · rw [if_neg hdigit]
      apply (if_neg hdigit).trans
      by_cases hunderscore : g.char = '_'
      · rw [if_pos hunderscore]
        exact if_pos hunderscore
      · rw [if_neg hunderscore]
        exact if_neg hunderscore

/-- A fraction needs a digit behind the point. -/
theorem scanFraction?_cons {p d : Glyph} (hp : p.char = '.') :
    scanFraction? (p :: d :: rest) = if d.char.isDigit then some (scanDigits (d :: rest)) else none := by
  obtain ⟨_, _⟩ := p
  subst hp
  rfl

/-- A fraction needs a point. -/
theorem scanFraction?_eq_none (h : leading glyphs ≠ some '.') : scanFraction? glyphs = none := by
  unfold scanFraction?
  split
  · exact absurd rfl h
  · rfl

/-- A point that ends the piece has a line feed behind it, which is no digit. -/
private theorem scanFraction?_place (hmore : EndsLine more) :
    scanFraction? (place f more glyphs) = (scanFraction? glyphs).map (Prod.map id (place f more)) := by
  by_cases hpoint : leading glyphs = some '.'
  · cases glyphs with
    | nil => contradiction
    | cons p glyphs =>
      have hp : p.char = '.' := Option.some.inj hpoint
      cases glyphs with
      | cons d glyphs =>
        show scanFraction? (p.mapPos f :: d.mapPos f :: place f more glyphs) = _
        rw [scanFraction?_cons hp, scanFraction?_cons (p := p.mapPos f) hp]
        have hdigits : scanDigits (place f more (d :: glyphs)) = _ := scanDigits_place hmore
        rw [place_cons] at hdigits
        rw [hdigits]
        by_cases hdigit : d.char.isDigit = true
        · rw [if_pos hdigit]
          exact if_pos hdigit
        · rw [if_neg hdigit]
          exact if_neg hdigit
      | nil =>
        -- a point at the end of the piece has no digit behind it
        have hnone : ∀ p : Glyph, scanFraction? [p] = none := by
          intro p
          unfold scanFraction?
          split
          · next heq => cases heq
          · rfl
        rw [hnone]
        cases more with
        | nil => exact hnone (p.mapPos f)
        | cons d more =>
          have hd : d.char = '\n' := hmore d.char rfl
          show scanFraction? (p.mapPos f :: d :: more) = none
          rw [scanFraction?_cons (p := p.mapPos f) hp, hd]
          rfl
  · rw [scanFraction?_eq_none hpoint]
    exact scanFraction?_eq_none (leading_place_ne hmore (by decide) hpoint)

/-- A number is its digits and its fraction, or refused as too large. -/
private theorem scanNumber_place (hmore : EndsLine more) (start : Pos) (first : Char) :
    scanNumber (f start) first (place f more rest) =
      moveResult f (Prod.map id (place f more)) (scanNumber start first rest) := by
  unfold scanNumber
  rw [scanDigits_place hmore]
  obtain ⟨ds, tail⟩ := scanDigits rest
  dsimp only [Prod.map, id]
  rw [scanFraction?_place hmore]
  cases scanFraction? tail with
  | some fraction => rfl
  | none =>
    dsimp only [Option.map]
    cases Decimal.toInt64? (Decimal.ofDigits (first :: ds) : Nat) <;> rfl

/-- No word goes over the end of a line. -/
theorem isWordContinue_newline : isWordContinue '\n' = false :=
  isWordContinue_ascii (by decide)

/-- A word is the same wherever it stands. -/
private theorem scanWord_place (hmore : EndsLine more) (first : Char) :
    scanWord first (place f more rest) = Prod.map id (place f more) (scanWord first rest) := by
  -- A line break ends a word, so taking and dropping stop at the seam at the latest.
  have hsplit : ∀ glyphs : List Glyph,
      ((place f more glyphs).takeWhile fun g => isWordContinue g.char).map Glyph.char =
          (glyphs.takeWhile fun g => isWordContinue g.char).map Glyph.char ∧
        ((place f more glyphs).dropWhile fun g => isWordContinue g.char) =
          place f more (glyphs.dropWhile fun g => isWordContinue g.char) := by
    intro glyphs
    induction glyphs with
    | nil =>
      cases more with
      | nil => exact ⟨rfl, rfl⟩
      | cons g more =>
        have hg : isWordContinue g.char = false := by rw [hmore g.char rfl, isWordContinue_newline]
        simp [place, hg]
    | cons g glyphs ih =>
      rw [place_cons]
      by_cases hg : isWordContinue g.char = true
      · simp [hg, Glyph.mapPos, ih]
      · simp [hg, Glyph.mapPos, place]
  obtain ⟨htake, hdrop⟩ := hsplit rest
  simp only [scanWord, htake, hdrop, Prod.map, id]

/-- No symbol has a line feed in it. -/
private theorem symbolOfTwo?_newline (c : Char) : symbolOfTwo? c '\n' = none := by
  unfold symbolOfTwo?
  split
  all_goals simp_all

/-- Whether a symbol has one character or two is decided by the next one, and a line feed makes no second. -/
private theorem scanSymbol?_place (hmore : EndsLine more) (first : Char) :
    scanSymbol? first (place f more rest) =
      (scanSymbol? first rest).map (Prod.map id (place f more)) := by
  cases rest with
  | cons g rest =>
    simp only [place_cons, scanSymbol?, Glyph.mapPos]
    cases symbolOfTwo? first g.char with
    | some s => rfl
    | none => cases symbolOfOne? first <;> rfl
  | nil =>
    cases more with
    | nil => cases h : symbolOfOne? first <;> simp [place, scanSymbol?, h]
    | cons g more =>
      have hg : symbolOfTwo? first g.char = none := by rw [hmore g.char rfl, symbolOfTwo?_newline]
      cases h : symbolOfOne? first <;> simp [place, scanSymbol?, hg, h]

/-- A token is the same wherever it stands. -/
theorem scanToken_place (hmore : EndsLine more) (h : Leaves more (scanToken g rest)) :
    scanToken (g.mapPos f) (place f more rest) =
      moveResult f (Prod.map id (place f more)) (scanToken g rest) := by
  by_cases hline : g.char = '\n'
  · simp [scanToken, Glyph.mapPos, hline]
  by_cases hquote : g.char = '\x27' ∨ g.char = '\x22'
  · simp only [scanToken, Glyph.mapPos, hline, hquote, if_true, if_false] at h ⊢
    -- A string that is open at the seam stays open only where no quote follows.
    have hstring : (scanString g.char rest).isSome = true ∨ ∀ g' ∈ more, g'.char ≠ g.char := by
      cases hscan : scanString g.char rest with
      | some read => exact Or.inl rfl
      | none =>
        rw [hscan] at h
        rcases h with ⟨a, ha⟩ | hinert
        · contradiction
        · right
          intro g' hg' heq
          obtain ⟨_, hsingle, hdouble⟩ := hinert g' hg'
          rw [heq] at hsingle hdouble
          exact hquote.elim hsingle hdouble
    rw [scanString_place hstring]
    cases scanString g.char rest <;> rfl
  by_cases hdigit : g.char.isDigit = true
  · simp only [scanToken, Glyph.mapPos, hline, hquote, hdigit, if_true, if_false]
    exact scanNumber_place hmore g.pos g.char
  by_cases hword : isWordStart g.char = true
  · simp only [scanToken, Glyph.mapPos, hline, hquote, hdigit, hword, if_true, if_false]
    rw [scanWord_place hmore]
    rfl
  -- no kind of token but a symbol is left
  · simp only [scanToken, Glyph.mapPos, hline, hquote, hdigit, hword, if_false]
    rw [scanSymbol?_place hmore]
    cases scanSymbol? g.char rest <;> rfl

end Place

end RowConsole.Script
