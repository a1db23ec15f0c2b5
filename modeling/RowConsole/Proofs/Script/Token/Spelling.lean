import Mathlib.Data.List.TakeDrop
import Mathlib.Data.List.TakeWhile
import RowConsole.Proofs.Script.Printing

/-!
# Scanning Printed Tokens

The text of a token, with a blank behind it, is scanned as that token. Main statements: `scanToken_text`, and
`tokenize_spellText`, that the text of tokens is cut into just these tokens.
-/

namespace RowConsole.Script

/-! ## Section 1: Characters -/

/-- Whether no range of one table meets one of another. -/
def separate (table table' : Text.Ranges) : Bool :=
  table.all fun r => table'.all fun s => r.2 < s.1 || s.2 < r.1

private theorem contains_eq_false_of_separate {table table' : Text.Ranges} (h : separate table table' = true) {c : Char}
    (hc : table.contains c = true) : table'.contains c = false := by
  obtain ⟨r, hr, hcr⟩ := List.any_eq_true.mp hc
  refine List.any_eq_false.mpr fun s hs hcs => ?_
  have hrs := List.all_eq_true.mp (List.all_eq_true.mp h r hr) s hs
  simp only [Bool.and_eq_true, Bool.or_eq_true, decide_eq_true_eq] at hcr hcs hrs
  omega

/-- Words take the dollar sign for a letter. -/
theorem isWordContinue_ascii {c : Char} (hc : c.toNat < 0x80) :
    isWordContinue c = (c == '_' || c == '$' || c.isAlphanum) := by
  rw [isWordContinue, Text.isIdentifierContinue_ascii hc]
  cases c == '_' <;> simp

theorem isWordStart_ascii {c : Char} (hc : c.toNat < 0x80) : isWordStart c = (c == '_' || c == '$' || c.isAlpha) := by
  rw [isWordStart, Text.isIdentifierStart_ascii hc]

/-- What may start a word may continue one. -/
theorem isWordContinue_of_start {c : Char} (h : isWordStart c = true) : isWordContinue c = true := by
  simp only [isWordStart, Bool.or_eq_true] at h
  rcases h with (h | h) | h
  · simp [isWordContinue, h]
  · simp [isWordContinue, h]
  · simp [isWordContinue, Text.isIdentifierContinue_of_start h]

/-- No blank continues a word. -/
theorem isWordContinue_of_isBlank {c : Char} (h : Text.isBlank c = true) : isWordContinue c = false := by
  have hseparate : ∀ table ∈ [Text.establishedStartTable, Text.laterStartTable, Text.establishedExtraTable,
      Text.laterExtraTable], separate Text.blankTable table = true := by
    decide +kernel
  have htable : ∀ table ∈ [Text.establishedStartTable, Text.laterStartTable, Text.establishedExtraTable,
      Text.laterExtraTable], table.contains c = false := fun table hmem =>
    contains_eq_false_of_separate (hseparate table hmem) h
  have hne : ∀ d, Text.isBlank d = false → c ≠ d := by
    rintro d hd rfl
    exact Bool.false_ne_true (hd.symm.trans h)
  have hidentifier : Text.isIdentifierContinue c = false := by
    simp [Text.isIdentifierContinue, Text.isIdentifierStart, Text.isEstablishedStart, htable]
  simp [isWordContinue, hidentifier, hne '_' (by decide), hne '$' (by decide)]

/-- Characters that start identifiers are no blanks and come behind the digits. -/
theorem isIdentifierStart_separate {c : Char} (h : Text.isIdentifierStart c = true) :
    Text.isBlank c = false ∧ 0x40 < c.toNat := by
  constructor
  · cases hblank : Text.isBlank c with
    | false => rfl
    | true =>
      have hcontinue := isWordContinue_of_isBlank hblank
      simp [isWordContinue, Text.isIdentifierContinue, h] at hcontinue
  · by_contra hlow
    have hletters : ∀ n < 0x41, (Char.ofNat n).isAlpha = false := by decide
    rw [Text.isIdentifierStart_ascii (by omega)] at h
    have hnot := hletters c.toNat (by omega)
    rw [Char.ofNat_toNat] at hnot
    exact Bool.false_ne_true (hnot.symm.trans h)

/-- What the reader of tokens asks of a character before it takes it for the start of a word. -/
theorem isWordStart_lead {c : Char} (h : isWordStart c = true) :
    Text.isBlank c = false ∧ c ≠ '/' ∧ c ≠ '\n' ∧ c ≠ '\x27' ∧ c ≠ '\x22' ∧ c.isDigit = false := by
  simp only [isWordStart, Bool.or_eq_true, beq_iff_eq] at h
  rcases h with (rfl | rfl) | h
  · decide
  · decide
  · obtain ⟨hblank, hletter⟩ := isIdentifierStart_separate h
    -- All the signs below come before the letters in the order of code points.
    have hne : ∀ d : Char, d.toNat ≤ 0x40 → c ≠ d := by
      rintro d hd rfl
      omega
    refine ⟨hblank, hne _ (by decide), hne _ (by decide), hne _ (by decide), hne _ (by decide), ?_⟩
    cases hdigit : c.isDigit with
    | false => rfl
    | true =>
      simp only [Char.isDigit, Bool.and_eq_true, decide_eq_true_eq] at hdigit
      have : c.val.toNat ≤ 57 := hdigit.2
      simp only [Char.toNat] at hletter
      omega

theorem isWordContinue_blank : isWordContinue ' ' = false :=
  isWordContinue_of_isBlank (by decide)

/-- Digits are no blanks and nothing else that a token starts with. -/
theorem isDigit_lead {c : Char} (h : c.isDigit = true) :
    Text.isBlank c = false ∧ c ≠ '/' ∧ c ≠ '\n' ∧ c ≠ '\x27' ∧ c ≠ '\x22' := by
  have hdigits : Text.Ranges.contains [(48, 57)] c = true := by
    simp only [Char.isDigit, Bool.and_eq_true, decide_eq_true_eq] at h
    have hlow : 48 ≤ c.toNat := h.1
    have hhigh : c.toNat ≤ 57 := h.2
    simp [Text.Ranges.contains, hlow, hhigh]
  have hne : ∀ d : Char, d.isDigit = false → c ≠ d := by
    rintro d hd rfl
    rw [h] at hd
    contradiction
  refine ⟨contains_eq_false_of_separate (by decide) hdigits, ?_⟩
  exact ⟨hne _ (by decide), hne _ (by decide), hne _ (by decide), hne _ (by decide)⟩

/-! ## Section 2: Scanning a Token -/

/-- The glyphs read as a token, and a blank and more text behind them. -/
def Scans (kind : TokenKind) (glyphs : List Glyph) (more : List Char) : Prop :=
  ∃ g rest tail, glyphs = g :: rest ∧ skipTrivia .between glyphs = .ok glyphs ∧
    scanToken g rest = .ok (kind, tail) ∧ tail.map Glyph.char = ' ' :: more

/-- The glyphs start with a token, and a text stands behind it. -/
def Starts (kind : TokenKind) (glyphs : List Glyph) (behind : List Char) : Prop :=
  ∃ g rest tail, glyphs = g :: rest ∧ skipTrivia .between glyphs = .ok glyphs ∧
    scanToken g rest = .ok (kind, tail) ∧ tail.map Glyph.char = behind

/-- A text that continues no word and no number. -/
def EndsWord (behind : List Char) : Prop :=
  ∀ c ∈ behind.head?, isWordContinue c = false ∧ c.isDigit = false ∧ c ≠ '.'

/-- A text that goes on with neither a digit nor an underscore. -/
def EndsNumber (behind : List Char) : Prop :=
  ∀ c ∈ behind.head?, c.isDigit = false ∧ c ≠ '_'

theorem EndsNumber.cons {c : Char} (hdigit : c.isDigit = false) (hunderscore : c ≠ '_') (more : List Char) :
    EndsNumber (c :: more) := by
  rintro _ ⟨⟩
  exact ⟨hdigit, hunderscore⟩

theorem EndsWord.endsNumber {behind : List Char} (h : EndsWord behind) : EndsNumber behind := by
  intro c hc
  obtain ⟨hcontinue, hdigit, _⟩ := h c hc
  refine ⟨hdigit, ?_⟩
  rintro rfl
  contradiction

private theorem endsWord_blank (more : List Char) : EndsWord (' ' :: more) := by
  rintro _ ⟨⟩
  exact ⟨isWordContinue_blank, rfl, by decide⟩

variable {glyphs rest : List Glyph} {cs more behind : List Char} {c : Char}

/-- Nothing is skipped before the start of a token. -/
theorem skipTrivia_eq {g : Glyph} (hblank : Text.isBlank g.char = false) (hslash : g.char ≠ '/') :
    skipTrivia .between (g :: rest) = .ok (g :: rest) := by
  unfold skipTrivia
  rw [if_neg (by simp [hblank]), if_neg hslash]

/-- A word is read up to a character that does not continue it. -/
theorem scanWord_eq (first : Char) (hcontinue : cs.all isWordContinue = true) (hbehind : EndsWord behind)
    (h : rest.map Glyph.char = cs ++ behind) :
    ∃ tail, scanWord first rest = (wordKind (String.ofList (first :: cs)), tail) ∧ tail.map Glyph.char = behind := by
  obtain ⟨piece, tail, rfl, rfl, rfl⟩ := List.map_eq_append_iff.mp h
  have hpiece : ∀ g ∈ piece, isWordContinue g.char = true := by simpa using hcontinue
  have hend : tail.takeWhile (fun g => isWordContinue g.char) = [] ∧
      tail.dropWhile (fun g => isWordContinue g.char) = tail := by
    cases tail with
    | nil => exact ⟨rfl, rfl⟩
    | cons g tail =>
      obtain ⟨hg, _⟩ := hbehind g.char rfl
      simp [hg]
  refine ⟨tail, ?_, rfl⟩
  simp only [scanWord, List.takeWhile_append_of_pos hpiece, List.dropWhile_append_of_pos hpiece, hend.1, hend.2,
    List.append_nil]

theorem starts_word {word : String} (hword : word.toList = c :: cs) (hstart : isWordStart c = true)
    (hcontinue : cs.all isWordContinue = true) (hbehind : EndsWord behind)
    (h : glyphs.map Glyph.char = word.toList ++ behind) : Starts (wordKind word) glyphs behind := by
  rw [hword] at h
  obtain ⟨g, rest, rfl, rfl, hrest⟩ := List.map_eq_cons_iff.mp h
  obtain ⟨hskip, hslash, hline, hquote, hdouble, hdigit⟩ := isWordStart_lead hstart
  obtain ⟨tail, hscan, htail⟩ := scanWord_eq g.char hcontinue hbehind hrest
  rw [← hword, String.ofList_toList] at hscan
  refine ⟨g, rest, tail, rfl, skipTrivia_eq hskip hslash, ?_, htail⟩
  simp [scanToken, hline, hquote, hdouble, hdigit, hstart, hscan]

/-- A word is scanned up to the blank. -/
theorem scans_word {word : String} (hword : word.toList = c :: cs) (hstart : isWordStart c = true)
    (hcontinue : cs.all isWordContinue = true) (h : glyphs.map Glyph.char = word.toList ++ ' ' :: more) :
    Scans (wordKind word) glyphs more :=
  starts_word hword hstart hcontinue (endsWord_blank more) h

/-- Digits are read up to a character that continues no number, and underscores among them are dropped. -/
theorem scanDigits_eq_filter (hcs : ∀ c ∈ cs, c.isDigit = true ∨ c = '_') (hbehind : EndsNumber behind)
    (h : rest.map Glyph.char = cs ++ behind) :
    ∃ tail, scanDigits rest = (cs.filter Char.isDigit, tail) ∧ tail.map Glyph.char = behind := by
  induction cs generalizing rest with
  | nil =>
    refine ⟨rest, ?_, h⟩
    cases rest with
    | nil => rfl
    | cons g rest =>
      have hhead : behind.head? = some g.char := by rw [← show _ = behind from h]; rfl
      -- What is behind the digits starts with neither a digit nor an underscore.
      obtain ⟨hdigit, hunderscore⟩ := hbehind g.char hhead
      simp [scanDigits, hdigit, hunderscore]
  | cons c cs ih =>
    obtain ⟨g, tail, rfl, rfl, htail⟩ := List.map_eq_cons_iff.mp h
    obtain ⟨hg, hcs⟩ := List.forall_mem_cons.mp hcs
    obtain ⟨tail', heq, htail'⟩ := ih hcs htail
    refine ⟨tail', ?_, htail'⟩
    cases hdigit : g.char.isDigit with
    | true => simp [scanDigits, hdigit, heq]
    | false =>
      have hunderscore : g.char = '_' := hg.resolve_left (Bool.eq_false_iff.mp hdigit)
      simp [scanDigits, hunderscore, heq]

/-- Digits are read up to a character that continues no number. -/
private theorem scanDigits_eq (hcs : ∀ c ∈ cs, c.isDigit = true) (hbehind : EndsNumber behind)
    (h : rest.map Glyph.char = cs ++ behind) :
    ∃ tail, scanDigits rest = (cs, tail) ∧ tail.map Glyph.char = behind := by
  have hread := scanDigits_eq_filter (fun c hc => Or.inl (hcs c hc)) hbehind h
  rwa [List.filter_eq_self.mpr hcs] at hread

/-- Behind the digits of an integer no fraction follows. -/
theorem scanDigits_whole (hcs : ∀ c ∈ cs, c.isDigit = true ∨ c = '_') (hbehind : EndsWord behind)
    (h : rest.map Glyph.char = cs ++ behind) :
    ∃ tail, scanDigits rest = (cs.filter Char.isDigit, tail) ∧ scanFraction? tail = none ∧
      tail.map Glyph.char = behind := by
  obtain ⟨tail, hscan, htail⟩ := scanDigits_eq_filter hcs hbehind.endsNumber h
  refine ⟨tail, hscan, ?_, htail⟩
  unfold scanFraction?
  split
  · exact absurd rfl (hbehind '.' (by rw [← htail]; rfl)).2.2
  · rfl

/-- The digits of a number are read as this number. -/
theorem ofDigits_toDigits (n : Nat) : Decimal.ofDigits (Nat.toDigits 10 n) = n := by
  have hfold : Decimal.ofDigits (Nat.toDigits 10 n) = Nat.ofDigitChars 10 (Nat.toDigits 10 n) 0 := by
    simp only [Decimal.ofDigits, Decimal.appendDigits, Decimal.digitValue, Nat.ofDigitChars, Nat.mul_comm]
  rw [hfold, Nat.ofDigitChars_ten_toDigits]

/-- An integer of 64 bits fits into them. -/
theorem toInt64?_toInt (n : Int64) : Decimal.toInt64? n.toInt = some n := by
  have hfits : Decimal.fits64 n.toInt = true := by
    simp only [Decimal.fits64, Bool.and_eq_true, decide_eq_true_eq]
    exact ⟨n.minValue_le_toInt, n.toInt_le⟩
  rw [Decimal.toInt64?, if_pos hfits, Int64.ofInt_toInt]

/-- A digit starts a number. -/
theorem scanToken_digit {g : Glyph} (hd : g.char.isDigit = true) :
    scanToken g rest = scanNumber g.pos g.char rest := by
  obtain ⟨_, _, hline, hquote, hdouble⟩ := isDigit_lead hd
  simp [scanToken, hline, hquote, hdouble, hd]

/-- Digits without a fraction are an integer, if it fits. -/
private theorem scanNumber_whole {start : Pos} {first : Char} {tail : List Glyph} {n : Int64}
    (hscan : scanDigits rest = (cs, tail)) (hfraction : scanFraction? tail = none)
    (hvalue : Decimal.toInt64? (Decimal.ofDigits (first :: cs) : Nat) = some n) :
    scanNumber start first rest = .ok (.int n, tail) := by
  unfold scanNumber
  rw [hscan]
  dsimp only
  rw [hfraction, hvalue]

/-- Digits with a fraction are a decimal literal. -/
private theorem scanNumber_fraction {start : Pos} {first : Char} {ds : List Char} {tail tail' : List Glyph}
    (hscan : scanDigits rest = (cs, tail)) (hfraction : scanFraction? tail = some (ds, tail')) :
    scanNumber start first rest = .ok (.float (String.ofList (first :: cs ++ '.' :: ds)), tail') := by
  unfold scanNumber
  rw [hscan]
  dsimp only
  rw [hfraction]

/-- An integer is read up to a character that continues no number; underscores behind its first digit do not count. -/
theorem starts_numeral {n : Int64} (hdigit : c.isDigit = true) (hcs : ∀ c ∈ cs, c.isDigit = true ∨ c = '_')
    (hvalue : Decimal.toInt64? (Decimal.ofDigits (c :: cs.filter Char.isDigit) : Nat) = some n)
    (hbehind : EndsWord behind) (h : glyphs.map Glyph.char = c :: (cs ++ behind)) : Starts (.int n) glyphs behind := by
  obtain ⟨g, rest, rfl, rfl, hrest⟩ := List.map_eq_cons_iff.mp h
  obtain ⟨hblank, hslash, _⟩ := isDigit_lead hdigit
  obtain ⟨tail, hscan, hfraction, htail⟩ := scanDigits_whole hcs hbehind hrest
  refine ⟨g, rest, tail, rfl, skipTrivia_eq hblank hslash, ?_, htail⟩
  rw [scanToken_digit hdigit]
  exact scanNumber_whole hscan hfraction hvalue

/-- An integer that is not negative is read from its digits. -/
theorem starts_int {n : Int64} (hn : 0 ≤ n) (hbehind : EndsWord behind)
    (h : glyphs.map Glyph.char = Nat.toDigits 10 n.toInt.toNat ++ behind) : Starts (.int n) glyphs behind := by
  have hdigits : ∀ c ∈ Nat.toDigits 10 n.toInt.toNat, c.isDigit = true := fun c hc =>
    Nat.isDigit_of_mem_toDigits (by decide) (by decide) hc
  have hvalue := ofDigits_toDigits n.toInt.toNat
  have hne : Nat.toDigits 10 n.toInt.toNat ≠ [] := Nat.toDigits_ne_nil
  -- Only that these are digits of the number matters from here on.
  generalize Nat.toDigits 10 n.toInt.toNat = ds at h hdigits hvalue hne
  cases ds with
  | nil => exact absurd rfl hne
  | cons d ds =>
    obtain ⟨hd, hds⟩ := List.forall_mem_cons.mp hdigits
    have hint : ((n.toInt.toNat : Nat) : Int) = n.toInt := Int.toNat_of_nonneg (Int64.le_iff_toInt_le.mp hn)
    refine starts_numeral hd (fun c hc => Or.inl (hds c hc)) ?_ hbehind h
    rw [List.filter_eq_self.mpr hds, hvalue, hint, toInt64?_toInt]

/-- An integer that is not negative is scanned up to the blank. -/
theorem scans_int {n : Int64} (hn : 0 ≤ n)
    (h : glyphs.map Glyph.char = Nat.toDigits 10 n.toInt.toNat ++ ' ' :: more) : Scans (.int n) glyphs more :=
  starts_int hn (endsWord_blank more) h

/-- A decimal literal is digits, a point and digits. -/
theorem toList_of_isDecimal {literal : String} (h : isDecimal literal = true) :
    ∃ w ws d ds, literal.toList = w :: (ws ++ '.' :: d :: ds) ∧ (∀ c ∈ w :: ws, c.isDigit = true) ∧
      ∀ c ∈ d :: ds, c.isDigit = true := by
  unfold isDecimal at h
  split at h
  · next w ws d ds hspan =>
    rw [List.span_eq_takeWhile_dropWhile, Prod.mk.injEq] at hspan
    obtain ⟨htake, hdrop⟩ := hspan
    refine ⟨w, ws, d, ds, ?_, fun c hc => ?_, fun c hc => List.all_eq_true.mp h c hc⟩
    · have hsplit := List.takeWhile_append_dropWhile (p := Char.isDigit) (l := literal.toList)
      rw [htake, hdrop] at hsplit
      exact hsplit.symm
    · rw [← htake] at hc
      exact List.mem_takeWhile_imp hc
  · contradiction

/-- A decimal literal is read up to a character that continues no number. -/
theorem starts_float {literal : String} (hliteral : isDecimal literal = true) (hbehind : EndsNumber behind)
    (h : glyphs.map Glyph.char = literal.toList ++ behind) : Starts (.float literal) glyphs behind := by
  obtain ⟨w, ws, d, ds, heq, hwhole, hfraction⟩ := toList_of_isDecimal hliteral
  rw [heq, List.cons_append, List.append_assoc, List.cons_append] at h
  obtain ⟨g, rest, rfl, rfl, hrest⟩ := List.map_eq_cons_iff.mp h
  have hd := hwhole g.char List.mem_cons_self
  obtain ⟨hblank, hslash, _⟩ := isDigit_lead hd
  have hws : ∀ c ∈ ws, c.isDigit = true := fun c hc => hwhole c (List.mem_cons_of_mem _ hc)
  obtain ⟨tail, hscan, htail⟩ := scanDigits_eq hws (EndsNumber.cons (by decide) (by decide) _) hrest
  obtain ⟨point, tail, rfl, hpoint, htail⟩ := List.map_eq_cons_iff.mp htail
  obtain ⟨end₁, hscan₁, hend₁⟩ := scanDigits_eq hfraction hbehind htail
  refine ⟨g, rest, end₁, rfl, skipTrivia_eq hblank hslash, ?_, hend₁⟩
  -- The fraction needs a digit behind the point, and a literal has one.
  have hpoints : scanFraction? (point :: tail) = some (d :: ds, end₁) := by
    obtain ⟨first, tail, rfl, hfirst, _⟩ := List.map_eq_cons_iff.mp htail
    obtain ⟨c, p⟩ := point
    obtain rfl : c = '.' := hpoint
    have hdigit : first.char.isDigit = true := hfirst ▸ hfraction d List.mem_cons_self
    simp only [scanFraction?, hdigit, if_true, hscan₁]
  rw [scanToken_digit hd, scanNumber_fraction hscan hpoints, List.cons_append, ← heq, String.ofList_toList]

/-- The characters of a string literal in given quotes, these quotes and backslashes escaped. -/
def escapeFor (quote : Char) (cs : List Char) : List Char :=
  cs.flatMap fun c => if c = quote ∨ c = '\\' then ['\\', c] else [c]

/-- Strings are written in single quotes. -/
private theorem escapeFor_quote (cs : List Char) : escapeFor '\x27' cs = escape cs := rfl

/-- A string is scanned up to its closing quote. -/
theorem scanString_escapeFor {quote : Char} {after : List Char} (hquote : quote = '\x27' ∨ quote = '\x22')
    (h : rest.map Glyph.char = escapeFor quote cs ++ quote :: after) :
    ∃ tail, scanString quote rest = some (cs, tail) ∧ tail.map Glyph.char = after := by
  induction cs generalizing rest with
  | nil =>
    obtain ⟨g, tail, rfl, hg, htail⟩ := List.map_eq_cons_iff.mp h
    refine ⟨tail, ?_, htail⟩
    rw [scanString.eq_def]
    exact if_pos hg
  -- On the characters: those that are escaped are written as two, and read as one.
  | cons c cs ih =>
    have hbackslash : '\\' ≠ quote := by
      rcases hquote with rfl | rfl <;> decide
    by_cases hescaped : c = quote ∨ c = '\\'
    · have h : rest.map Glyph.char = '\\' :: c :: (escapeFor quote cs ++ quote :: after) := by
        simpa [escapeFor, hescaped] using h
      obtain ⟨g, rest, rfl, hg, hrest⟩ := List.map_eq_cons_iff.mp h
      obtain ⟨g', rest, rfl, rfl, hrest'⟩ := List.map_eq_cons_iff.mp hrest
      obtain ⟨tail, hscan, htail⟩ := ih hrest'
      -- Quotes and backslashes stand for themselves behind a backslash.
      have hunescape : unescape g'.char = g'.char := by
        rcases hescaped with h | h
        · rcases hquote with hquote | hquote <;> rw [h, hquote] <;> rfl
        · rw [h]
          rfl
      refine ⟨tail, ?_, htail⟩
      rw [scanString, if_neg (by rw [hg]; exact hbackslash), if_pos hg]
      simp [hscan, hunescape]
    · have h : rest.map Glyph.char = c :: (escapeFor quote cs ++ quote :: after) := by
        simpa [escapeFor, hescaped] using h
      obtain ⟨g, rest, rfl, rfl, hrest⟩ := List.map_eq_cons_iff.mp h
      obtain ⟨tail, hscan, htail⟩ := ih hrest
      obtain ⟨hclose, hslash⟩ := not_or.mp hescaped
      refine ⟨tail, ?_, htail⟩
      rw [scanString.eq_def]
      simp [hclose, hslash, hscan]

/-- A string in either kind of quotes is read up to the closing quote. -/
theorem starts_quoted {quote : Char} {text : String} (hquote : quote = '\x27' ∨ quote = '\x22')
    (h : glyphs.map Glyph.char = quote :: (escapeFor quote text.toList ++ quote :: behind)) :
    Starts (.str text) glyphs behind := by
  obtain ⟨g, rest, rfl, rfl, hrest⟩ := List.map_eq_cons_iff.mp h
  obtain ⟨tail, hscan, htail⟩ := scanString_escapeFor hquote hrest
  have hlead : Text.isBlank g.char = false ∧ g.char ≠ '/' ∧ g.char ≠ '\n' := by
    rcases hquote with h | h <;> rw [h] <;> decide
  refine ⟨g, rest, tail, rfl, skipTrivia_eq hlead.1 hlead.2.1, ?_, htail⟩
  unfold scanToken
  rw [if_neg hlead.2.2, if_pos hquote, hscan]
  simp

/-- A string is read as it is written. -/
theorem starts_str {text : String}
    (h : glyphs.map Glyph.char = '\x27' :: (escape text.toList ++ ['\x27']) ++ behind) :
    Starts (.str text) glyphs behind :=
  starts_quoted (Or.inl rfl) (by simpa [escapeFor_quote] using h)

/-- The characters of a symbol: one or two. -/
theorem symbol_word (s : Symbol) :
    (∃ c, s.word.toList = [c] ∧ symbolOfOne? c = some s) ∨ ∃ c d, s.word.toList = [c, d] ∧ symbolOfTwo? c d = some s := by
  cases s <;> first | exact Or.inl ⟨_, rfl, rfl⟩ | exact Or.inr ⟨_, _, rfl, rfl⟩

/-- No symbol has a blank as its second character. -/
theorem symbolOfTwo?_of_isBlank {d : Char} (hd : Text.isBlank d = true) (c : Char) : symbolOfTwo? c d = none := by
  unfold symbolOfTwo?
  split <;> first | rfl | (revert hd; decide)

/-- Whether a character is none of those that the reader of tokens asks for before symbols. -/
def startsSymbol (c : Char) : Bool :=
  !(Text.isBlank c || c == '\n' || c == '\x27' || c == '\x22' || c.isDigit || isWordStart c)

/-- Symbols start with characters that nothing else starts with. -/
theorem startsSymbol_of_word {s : Symbol} (h : s.word.toList = c :: cs) : startsSymbol c = true := by
  -- All symbols begin with characters of one byte, so a finite check is enough.
  have hhead : s.word.toList.head? = some c := by rw [h]; rfl
  have hall : s.word.toList.head?.all (fun c => decide (c.toNat < 0x80) && !(Text.isBlank c || c == '\n' ||
      c == '\x27' || c == '\x22' || c.isDigit || (c == '_' || c == '$' || c.isAlpha))) = true := by
    cases s <;> decide
  rw [hhead, Option.all_some, Bool.and_eq_true, decide_eq_true_eq] at hall
  rw [startsSymbol, isWordStart_ascii hall.1]
  exact hall.2

/-- Where nothing else can start, a symbol is read. -/
theorem scanToken_symbol {g : Glyph} {s : Symbol} {tail : List Glyph} (hstart : startsSymbol g.char = true)
    (hscan : scanSymbol? g.char rest = some (s, tail)) : scanToken g rest = .ok (.symbol s, tail) := by
  simp only [startsSymbol, Bool.not_eq_true', Bool.or_eq_false_iff, beq_eq_false_iff_ne] at hstart
  obtain ⟨⟨⟨⟨⟨_, hline⟩, hquote⟩, hdouble⟩, hdigit⟩, hword⟩ := hstart
  simp [scanToken, hline, hquote, hdouble, hdigit, hword, hscan]

/-- No symbol starts with a blank. -/
theorem isBlank_of_startsSymbol (hstart : startsSymbol c = true) : Text.isBlank c = false := by
  simp only [startsSymbol, Bool.not_eq_true', Bool.or_eq_false_iff] at hstart
  exact hstart.1.1.1.1.1

/-- A slash starts a comment only before another slash or a star. -/
theorem skipTrivia_slash {g g' : Glyph} (hblank : Text.isBlank g.char = false) (hslash : g'.char ≠ '/')
    (hstar : g'.char ≠ '*') : skipTrivia .between (g :: g' :: rest) = .ok (g :: g' :: rest) := by
  by_cases h : g.char = '/'
  · unfold skipTrivia
    rw [if_neg (by simp [hblank]), if_pos h]
    split
    · next heq =>
      obtain rfl := (List.cons.inj heq).1
      exact absurd rfl hslash
    · next heq =>
      obtain rfl := (List.cons.inj heq).1
      exact absurd rfl hstar
    · rfl
  · exact skipTrivia_eq hblank h

/-- A symbol of one character is read where no longer one starts with it. -/
theorem starts_symbol {s : Symbol} (hword : s.word.toList = [c]) (hone : symbolOfOne? c = some s)
    (hslash : c ≠ '/') (htwo : ∀ d ∈ behind.head?, symbolOfTwo? c d = none)
    (h : glyphs.map Glyph.char = c :: behind) : Starts (.symbol s) glyphs behind := by
  have hstart := startsSymbol_of_word hword
  obtain ⟨g, rest, rfl, rfl, hrest⟩ := List.map_eq_cons_iff.mp h
  refine ⟨g, rest, rest, rfl, skipTrivia_eq (isBlank_of_startsSymbol hstart) hslash, ?_, hrest⟩
  apply scanToken_symbol hstart
  cases rest with
  | nil => simp [scanSymbol?, hone]
  | cons d rest =>
    have htwo : symbolOfTwo? g.char d.char = none := htwo d.char (by rw [← hrest]; rfl)
    simp [scanSymbol?, hone, htwo]

/-- Before a blank or the end, nothing opens a comment. -/
theorem skipTrivia_before_blank {g : Glyph} (hg : Text.isBlank g.char = false)
    (hrest : ∀ g' ∈ rest.head?, Text.isBlank g'.char = true) : skipTrivia .between (g :: rest) = .ok (g :: rest) := by
  cases rest with
  | nil =>
    unfold skipTrivia
    rw [if_neg (by simp [hg])]
    split <;> rfl
  | cons g' rest =>
    have hblank : Text.isBlank g'.char = true := hrest g' rfl
    have hne : ∀ d, Text.isBlank d = false → g'.char ≠ d := by
      rintro d hd rfl
      exact Bool.false_ne_true (hd.symm.trans hblank)
    exact skipTrivia_slash hg (hne _ (by decide)) (hne _ (by decide))

/-- A symbol is scanned up to a blank or the end. -/
theorem starts_symbol_blank {s : Symbol} (hbehind : ∀ c ∈ behind.head?, Text.isBlank c = true)
    (h : glyphs.map Glyph.char = s.word.toList ++ behind) : Starts (.symbol s) glyphs behind := by
  -- A symbol of one character may be the start of a longer one, but no blank continues it.
  rcases symbol_word s with ⟨c, hword, hone⟩ | ⟨c, d, hword, htwo⟩
  · have hstart := startsSymbol_of_word hword
    rw [hword] at h
    obtain ⟨g, rest, rfl, rfl, hrest⟩ := List.map_eq_cons_iff.mp (show glyphs.map Glyph.char = c :: behind from h)
    have hnext : ∀ g' ∈ rest.head?, Text.isBlank g'.char = true := by
      intro g' hg'
      apply hbehind
      rw [← hrest, List.head?_map, Option.mem_def.mp hg']
      rfl
    refine ⟨g, rest, rest, rfl, skipTrivia_before_blank (isBlank_of_startsSymbol hstart) hnext, ?_, hrest⟩
    apply scanToken_symbol hstart
    cases rest with
    | nil => simp [scanSymbol?, hone]
    | cons g' rest => simp [scanSymbol?, hone, symbolOfTwo?_of_isBlank (hnext g' rfl)]
  · have hstart := startsSymbol_of_word hword
    rw [hword] at h
    obtain ⟨g, rest, rfl, rfl, hrest⟩ := List.map_eq_cons_iff.mp h
    obtain ⟨g', tail, rfl, rfl, htail⟩ := List.map_eq_cons_iff.mp hrest
    -- No sign of two characters begins with a slash, so no comment opens here.
    have hslash : g.char ≠ '/' := by
      intro hslash
      rw [hslash] at htwo
      contradiction
    have hskip : skipTrivia .between (g :: g' :: tail) = .ok (g :: g' :: tail) :=
      skipTrivia_eq (isBlank_of_startsSymbol hstart) hslash
    have hscan : scanSymbol? g.char (g' :: tail) = some (s, tail) := by
      simp [scanSymbol?, htwo]
    exact ⟨g, g' :: tail, tail, rfl, hskip, scanToken_symbol hstart hscan, htail⟩

/-- A keyword is spelled like a word, and is the keyword of that word. -/
theorem keyword_word (k : Keyword) :
    Keyword.ofWord? k.word = some k ∧
      ∃ c cs, k.word.toList = c :: cs ∧ isWordStart c = true ∧ cs.all isWordContinue = true := by
  refine ⟨by cases k <;> decide, ?_⟩
  cases k <;> exact ⟨_, _, rfl, by decide, by decide⟩

/-- A name has a first character and others, and is no keyword. -/
theorem toList_of_isName {name : String} (h : isName name = true) :
    ∃ c cs, name.toList = c :: cs ∧ isWordStart c = true ∧ cs.all isWordContinue = true ∧
      Keyword.ofWord? name = none := by
  unfold isName at h
  split at h
  · contradiction
  · next c cs hword =>
    simp only [Bool.and_eq_true, Bool.not_eq_true', isKeyword, Option.isSome_eq_false_iff,
      Option.isNone_iff_eq_none] at h
    exact ⟨c, cs, hword, h.1.1, h.1.2, h.2⟩

/-- The text of a token with a blank behind it is scanned as that token. -/
theorem scans_text {kind : TokenKind} (hplain : kind.isPlain = true) (hline : kind ≠ .newline)
    (h : glyphs.map Glyph.char = kind.text ++ ' ' :: more) : Scans kind glyphs more := by
  cases kind with
  | int n => exact scans_int (of_decide_eq_true hplain) h
  | float literal => exact starts_float hplain (endsWord_blank more).endsNumber h
  | str text => exact starts_str h
  | ident name =>
    obtain ⟨c, cs, hword, hstart, hcontinue, hkeyword⟩ := toList_of_isName hplain
    have hkind : wordKind name = .ident name := by rw [wordKind, hkeyword]
    exact hkind ▸ scans_word hword hstart hcontinue h
  | keyword k =>
    obtain ⟨hof, c, cs, hword, hstart, hcontinue⟩ := keyword_word k
    have hkind : wordKind k.word = .keyword k := by rw [wordKind, hof]
    exact hkind ▸ scans_word hword hstart hcontinue h
  | symbol s => exact starts_symbol_blank (by simp; decide) h
  | newline => exact absurd rfl hline
  | eof => contradiction

/-! ## Section 3: Scanning a Text -/

/-- A line feed is written without a blank behind it. -/
private theorem spellText_newline (kinds : List TokenKind) : spellText
    (.newline :: kinds) = '\n' :: spellText kinds := rfl

/-- Any other token is written with a blank behind it. -/
private theorem spellText_cons {kind : TokenKind} (hline : kind ≠ .newline) (kinds : List TokenKind) :
    spellText (kind :: kinds) = kind.text ++ ' ' :: spellText kinds := by
  simp [spellText, hline]

/-- Every token takes a character at least. -/
private theorem length_le_spellText (kinds : List TokenKind) : kinds.length ≤ (spellText kinds).length := by
  induction kinds with
  | nil => exact Nat.le_refl _
  | cons kind kinds ih =>
    by_cases hline : kind = .newline
    · subst hline
      simpa [spellText_newline] using ih
    · simp only [spellText_cons hline, List.length_append, List.length_cons]
      omega

/-- Glyphs have the characters of the text. -/
theorem map_char_locate (p : Pos) (cs : List Char) : (locate p cs).map Glyph.char = cs := by
  induction cs generalizing p with
  | nil => rfl
  | cons c cs ih => simp [locate, ih]

/-- A blank before tokens is skipped. -/
theorem skipTrivia_blank {kinds : List TokenKind}
    (h : glyphs.map Glyph.char = spellText kinds ∨ glyphs.map Glyph.char = ' ' :: spellText kinds) :
    ∃ glyphs', glyphs'.map Glyph.char = spellText kinds ∧
      skipTrivia .between glyphs = skipTrivia .between glyphs' := by
  rcases h with h | h
  · exact ⟨glyphs, h, rfl⟩
  · obtain ⟨g, glyphs', rfl, hg, hglyphs'⟩ := List.map_eq_cons_iff.mp h
    refine ⟨glyphs', hglyphs', ?_⟩
    rw [skipTrivia.eq_def]
    exact if_pos (by rw [hg]; decide)

/-- The first token of a text is scanned; behind it the other tokens stand, or a blank and then these. -/
theorem scans_spellText {kind : TokenKind} {kinds : List TokenKind} (hplain : kind.isPlain = true)
    (h : glyphs.map Glyph.char = spellText (kind :: kinds)) :
    ∃ g rest tail, skipTrivia .between glyphs = .ok (g :: rest) ∧ scanToken g rest = .ok (kind, tail) ∧
      (tail.map Glyph.char = spellText kinds ∨ tail.map Glyph.char = ' ' :: spellText kinds) := by
  by_cases hline : kind = .newline
  · subst hline
    obtain ⟨g, rest, rfl, hg, hrest⟩ := List.map_eq_cons_iff.mp h
    refine ⟨g, rest, rest, ?_, by simp [scanToken, hg], Or.inl hrest⟩
    unfold skipTrivia
    rw [if_neg (by simp [hg]), if_neg (by rw [hg]; decide)]
  · rw [spellText_cons hline] at h
    obtain ⟨g, rest, tail, rfl, hskip, hscan, htail⟩ := scans_text hplain hline h
    exact ⟨g, rest, tail, hskip, hscan, Or.inr htail⟩

/-- The text of tokens is cut into these tokens, and the end of the input. -/
theorem scanFrom_spellText {finish : Pos} {fuel : Nat} {kinds : List TokenKind}
    (hplain : ∀ kind ∈ kinds, kind.isPlain = true) (hfuel : kinds.length ≤ fuel)
    (h : glyphs.map Glyph.char = spellText kinds ∨ glyphs.map Glyph.char = ' ' :: spellText kinds) :
    ∃ tokens, scanFrom finish fuel glyphs = .ok tokens ∧ tokens.map Token.kind = kinds ++ [.eof] := by
  obtain ⟨glyphs', hglyphs', hskip⟩ := skipTrivia_blank h
  -- The fuel bounds the tokens to come, one for each kind.
  induction kinds generalizing fuel glyphs glyphs' with
  | nil =>
    refine ⟨[⟨.eof, finish⟩], ?_, rfl⟩
    obtain rfl : glyphs' = [] := List.map_eq_nil_iff.mp hglyphs'
    cases fuel with
    | zero => rfl
    | succ fuel => rw [scanFrom, hskip]; rfl
  | cons kind kinds ih =>
    obtain ⟨fuel, rfl⟩ : ∃ n, fuel = n + 1 := Nat.exists_eq_add_of_le' (Nat.le_trans (Nat.le_add_left 1 _) hfuel)
    obtain ⟨g, rest, tail, hskip', hscan, htail⟩ := scans_spellText (hplain kind List.mem_cons_self) hglyphs'
    obtain ⟨tail', htail', hskipTail⟩ := skipTrivia_blank htail
    have hkinds := fun k hk => hplain k (List.mem_cons_of_mem _ hk)
    obtain ⟨tokens, htokens, hmap⟩ := ih hkinds (Nat.le_of_succ_le_succ hfuel) htail tail' htail' hskipTail
    refine ⟨⟨kind, g.pos⟩ :: tokens, ?_, by simp [hmap]⟩
    simp only [scanFrom, hskip, hskip', hscan, htokens]

/-- The text of tokens is read as these tokens, and the end of the input. -/
theorem tokenize_spellText {kinds : List TokenKind} (hplain : ∀ kind ∈ kinds, kind.isPlain = true) :
    ∃ tokens, tokenize (String.ofList (spellText kinds)) = .ok tokens ∧
      tokens.map Token.kind = kinds ++ [.eof] := by
  rw [tokenize, String.toList_ofList]
  exact scanFrom_spellText hplain (length_le_spellText kinds) (Or.inl (map_char_locate _ _))

end RowConsole.Script
