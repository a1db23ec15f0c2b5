import Mathlib.Data.List.Induction
import RowConsole.Proofs.Script.Token.Cutting

/-!
# Where Tokens Stand

The position of a character follows from the text in front of it alone: the line feeds there and the characters
behind the last of them. The tokens of a text stand at offsets that increase, each where its first character stands,
and what cannot be read as a token or a comment is reported where it starts.

Main statements: `stand_of_scanAll`, `Stand.pairwise_before` and `within_of_scanAll`.
-/

namespace RowConsole.Script

/-! ## Section 1: Positions by Offset -/

/-- The position of the character with `i` characters in front of it: its line counts the line feeds among them, its
column those of them behind the last line feed. -/
def positionAt (cs : List Char) (i : Nat) : Pos :=
  ⟨1 + (cs.take i).count '\n', 1 + ((cs.take i).reverse.takeWhile (· ≠ '\n')).length⟩

/-- The first position comes earlier in a text than the second. -/
def Pos.Before (p q : Pos) : Prop :=
  p.line < q.line ∨ p.line = q.line ∧ p.col < q.col

theorem Pos.Before.trans {p q r : Pos} (h : p.Before q) (h' : q.Before r) : p.Before r := by
  unfold Pos.Before at *
  omega

private theorem Pos.before_next (p : Pos) (c : Char) : p.Before (p.next c) := by
  by_cases hc : c = '\n'
  · exact Or.inl (by simp [Pos.next, hc])
  · exact Or.inr (by simp [Pos.next, hc])

/-- A piece of text that is not empty moves the position on. -/
theorem Pos.before_after (p : Pos) {cs : List Char} (hcs : cs ≠ []) : p.Before (p.after cs) := by
  induction cs generalizing p with
  | nil => exact absurd rfl hcs
  | cons c cs ih =>
    show p.Before ((p.next c).after cs)
    cases cs with
    | nil => exact p.before_next c
    | cons d cs => exact (p.before_next c).trans (ih (p.next c) (by simp))

private theorem Pos.after_start (cs : List Char) :
    Pos.start.after cs = ⟨1 + cs.count '\n', 1 + (cs.reverse.takeWhile (· ≠ '\n')).length⟩ := by
  induction cs using List.reverseRecOn with
  | nil => rfl
  | append_singleton cs c ih =>
    show (Pos.start.after (cs ++ [c])) = _
    rw [Pos.after_append, ih]
    show Pos.next _ c = _
    by_cases hc : c = '\n'
    · simp [Pos.next, hc, Nat.add_assoc]
    · simp [Pos.next, hc, Nat.add_assoc, Nat.add_comm 1]

private theorem positionAt_eq (cs : List Char) (i : Nat) : positionAt cs i = Pos.start.after (cs.take i) :=
  (Pos.after_start _).symm

private theorem positionAt_length (cs : List Char) : positionAt cs cs.length = Pos.start.after cs := by
  rw [positionAt_eq, List.take_length]

/-- Positions come in the order of the offsets. -/
theorem positionAt_before {cs : List Char} {i j : Nat} (hij : i < j) (hj : j ≤ cs.length) :
    (positionAt cs i).Before (positionAt cs j) := by
  have hsplit : cs.take j = cs.take i ++ (cs.drop i).take (j - i) := by
    rw [← List.take_add, Nat.add_sub_cancel' (Nat.le_of_lt hij)]
  rw [positionAt_eq, positionAt_eq, hsplit, Pos.after_append]
  apply Pos.before_after
  intro hnil
  have hlength := congrArg List.length hnil
  simp only [List.length_take, List.length_drop, List.length_nil] at hlength
  omega

private theorem locate_drop (p : Pos) (cs : List Char) (i : Nat) :
    (locate p cs).drop i = locate (p.after (cs.take i)) (cs.drop i) := by
  induction i generalizing p cs with
  | zero => rfl
  | succ i ih =>
    cases cs with
    | nil => rfl
    | cons c cs => exact ih (p.next c) cs

/-- The glyphs of a text from an offset on. -/
def glyphsFrom (cs : List Char) (i : Nat) : List Glyph :=
  (locate Pos.start cs).drop i

section Glyphs

variable {cs : List Char} {i : Nat} {g : Glyph} {glyphs rest : List Glyph}

private theorem length_glyphsFrom (cs : List Char) (i : Nat) : (glyphsFrom cs i).length = cs.length - i := by
  rw [glyphsFrom, List.length_drop, length_locate]

/-- A text that ends the text from an offset on is that from a later offset on. -/
theorem exists_glyphsFrom_of_suffix (hi : i ≤ cs.length) (h : glyphs <:+ glyphsFrom cs i) :
    ∃ j, i ≤ j ∧ j ≤ cs.length ∧ glyphs = glyphsFrom cs j := by
  have hlength := h.length_le
  rw [length_glyphsFrom] at hlength
  refine ⟨cs.length - glyphs.length, by omega, Nat.sub_le _ _, ?_⟩
  have hdrop := List.suffix_iff_eq_drop.mp h
  have hoffset : i + (cs.length - i - glyphs.length) = cs.length - glyphs.length := by omega
  rwa [length_glyphsFrom, glyphsFrom, List.drop_drop, hoffset] at hdrop

private theorem glyphsFrom_eq_cons (h : glyphsFrom cs i = g :: rest) :
    i < cs.length ∧ g.pos = positionAt cs i ∧ rest = glyphsFrom cs (i + 1) := by
  have hlength := congrArg List.length h
  rw [length_glyphsFrom, List.length_cons] at hlength
  refine ⟨by omega, ?_, ?_⟩
  · rw [glyphsFrom, locate_drop, ← positionAt_eq] at h
    obtain ⟨c, ds, hds⟩ := List.exists_cons_of_length_pos (l := cs.drop i) (by rw [List.length_drop]; omega)
    rw [hds, locate] at h
    exact congrArg Glyph.pos (List.cons.inj h).1.symm
  · rw [glyphsFrom, ← List.drop_drop, ← glyphsFrom, h]
    rfl

private theorem pos_of_mem_glyphsFrom (hg : g ∈ glyphsFrom cs i) : ∃ j, j < cs.length ∧ g.pos = positionAt cs j := by
  obtain ⟨k, hk, hget⟩ := List.mem_iff_getElem.mp (List.mem_of_mem_drop hg)
  have hcons : glyphsFrom cs k = g :: (locate Pos.start cs).drop (k + 1) := by
    rw [← hget]
    exact List.drop_eq_getElem_cons hk
  obtain ⟨hlt, hpos, _⟩ := glyphsFrom_eq_cons hcons
  exact ⟨k, hlt, hpos⟩

end Glyphs

/-! ## Section 2: Tokens by Offset -/

/-- The tokens of a text from the offset `i` on. Blanks and comments are skipped up to the offset `j`, where the first
token starts; it is read up to the offset `k`, and there the others follow. The end of the input stands where the
text ends. -/
inductive Stand (cs : List Char) : Nat → List Token → Prop where
  | finish {i : Nat} (hi : i ≤ cs.length) (hskip : skipTrivia .between (glyphsFrom cs i) = .ok []) :
    Stand cs i [⟨.eof, positionAt cs cs.length⟩]
  | token {i j k : Nat} {g : Glyph} {rest : List Glyph} {kind : TokenKind} {ts : List Token} (hij : i ≤ j)
    (hjk : j < k) (hk : k ≤ cs.length) (hskip : skipTrivia .between (glyphsFrom cs i) = .ok (glyphsFrom cs j))
    (hstart : glyphsFrom cs j = g :: rest) (hread : scanToken g rest = .ok (kind, glyphsFrom cs k))
    (hbehind : Stand cs k ts) : Stand cs i (⟨kind, positionAt cs j⟩ :: ts)

namespace Stand

variable {cs : List Char} {i : Nat} {ts : List Token}

theorem exists_offset (h : Stand cs i ts) {t : Token} (ht : t ∈ ts) :
    ∃ j, i ≤ j ∧ j ≤ cs.length ∧ t.pos = positionAt cs j := by
  induction h with
  | finish hi =>
    obtain rfl := List.mem_singleton.mp ht
    exact ⟨cs.length, hi, Nat.le_refl _, rfl⟩
  | token hij hjk hk _ _ _ _ ih =>
    rcases List.mem_cons.mp ht with rfl | ht
    · exact ⟨_, hij, Nat.le_trans (Nat.le_of_lt hjk) hk, rfl⟩
    · obtain ⟨l, hkl, hl, hpos⟩ := ih ht
      exact ⟨l, by omega, hl, hpos⟩

/-- The tokens of a text come at later and later positions. -/
theorem pairwise_before (h : Stand cs i ts) : (ts.map Token.pos).Pairwise Pos.Before := by
  induction h with
  | finish => exact List.pairwise_singleton _ _
  | token hij hjk hk _ _ _ hbehind ih =>
    refine List.pairwise_cons.mpr ⟨fun p hp => ?_, ih⟩
    obtain ⟨t, ht, rfl⟩ := List.mem_map.mp hp
    obtain ⟨l, hkl, hl, hpos⟩ := hbehind.exists_offset ht
    rw [hpos]
    exact positionAt_before (by omega) hl

end Stand

/-- Tokens that are cut off one by one stand where they are cut off. -/
theorem stand_of_scanAll {cs : List Char} {i : Nat} {ts : List Token} (hi : i ≤ cs.length)
    (h : scanAll (positionAt cs cs.length) (glyphsFrom cs i) = .ok ts) : Stand cs i ts := by
  generalize hglyphs : glyphsFrom cs i = glyphs at h
  induction glyphs using scan_induction generalizing i ts with
  | open_ glyphs e hskip =>
    rw [scanAll_open hskip] at h
    contradiction
  | done glyphs hskip =>
    rw [scanAll_done hskip] at h
    cases h
    exact .finish hi (hglyphs ▸ hskip)
  | stuck glyphs g rest e hskip htoken =>
    rw [scanAll_stuck hskip htoken] at h
    contradiction
  | token glyphs g rest kind tail hskip htoken ih =>
    rw [scanAll_token hskip htoken] at h
    cases hscan : scanAll (positionAt cs cs.length) tail with
    | error e =>
      rw [hscan] at h
      contradiction
    | ok us =>
      rw [hscan] at h
      obtain rfl : ⟨kind, g.pos⟩ :: us = ts := Except.ok.inj h
      -- What is left behind blanks and behind the token are suffixes, that is, offsets into the text.
      obtain ⟨j, hij, hj, hstart⟩ := exists_glyphsFrom_of_suffix hi (hglyphs ▸ skipTrivia_suffix hskip)
      obtain ⟨hlt, hpos, hrest⟩ := glyphsFrom_eq_cons hstart.symm
      obtain ⟨k, hjk, hk, htail⟩ := exists_glyphsFrom_of_suffix hlt (hrest ▸ scanToken_suffix htoken)
      rw [hpos]
      refine .token hij hjk hk ?_ hstart.symm (htail ▸ htoken) (ih hk htail.symm hscan)
      rw [hglyphs, hskip, hstart]

/-- The tokens of a source stand where it is cut. -/
theorem stand_of_tokenize {source : String} {ts : List Token} (h : tokenize source = .ok ts) :
    Stand source.toList 0 ts := by
  rw [tokenize, tokenizeChars_eq, ← positionAt_length] at h
  exact stand_of_scanAll (Nat.zero_le _) h

/-! ## Section 3: What Cannot Be Read -/

/-- An error of the syntax, at a position in a text or at its end. -/
def ScriptError.Within (e : ScriptError) (cs : List Char) : Prop :=
  e.kind = .malformed ∧ ∃ i, i ≤ cs.length ∧ e.pos = some (positionAt cs i)

section Errors

variable {g : Glyph} {glyphs rest : List Glyph} {e : ScriptError}

/-- A comment that is not closed is reported where it starts. -/
theorem error_of_skipTrivia {trivia : Trivia} (h : skipTrivia trivia glyphs = .error e) :
    ∃ p, e = { cause := .unterminatedComment, pos := some p } ∧
      (trivia = .blockComment p ∨ ∃ g ∈ glyphs, g.pos = p) := by
  induction trivia, glyphs using trivia_induction with
  | nothing => contradiction
  | blank g rest hblank ih =>
    rw [skipTrivia_cons_blank hblank] at h
    obtain ⟨p, he, hp⟩ := ih h
    exact ⟨p, he, Or.inr (by simpa using Or.inr hp)⟩
  | opensLine g g' rest hblank hg hg' ih =>
    rw [skipTrivia_opensLine hblank hg hg'] at h
    obtain ⟨p, he, hp⟩ := ih h
    exact ⟨p, he, Or.inr (by simpa using Or.inr (Or.inr hp))⟩
  | opensBlock g g' rest hblank hg hg' ih =>
    rw [skipTrivia_opensBlock hblank hg hg'] at h
    obtain ⟨p, he, hp⟩ := ih h
    refine ⟨p, he, Or.inr ?_⟩
    -- The comment that is left open is the one that opens here, or a later one.
    rcases hp with hp | ⟨g'', hg'', hp⟩
    · cases hp
      exact ⟨g, List.mem_cons_self, rfl⟩
    · exact ⟨g'', by simp [hg''], hp⟩
  | stops g rest hblank hcomment =>
    rw [skipTrivia_stops hblank hcomment] at h
    contradiction
  | lineAtEnd => contradiction
  | endsLine g rest hg =>
    rw [skipTrivia_endsLine hg] at h
    contradiction
  | inLine g rest hg ih =>
    rw [skipTrivia_line_cons hg] at h
    obtain ⟨p, he, hp⟩ := ih h
    exact ⟨p, he, Or.inr (by simpa using Or.inr hp)⟩
  | blockAtEnd start =>
    cases h
    exact ⟨start, rfl, Or.inl rfl⟩
  | closesBlock start g g' rest hg hg' ih =>
    rw [skipTrivia_closesBlock hg hg'] at h
    obtain ⟨p, he, hp⟩ := ih h
    exact ⟨p, he, Or.inr (by simpa using Or.inr (Or.inr hp))⟩
  | inBlock start g rest hclose ih =>
    rw [skipTrivia_block_cons hclose] at h
    obtain ⟨p, he, hp | hp⟩ := ih h
    · exact ⟨p, he, Or.inl hp⟩
    · exact ⟨p, he, Or.inr (by simpa using Or.inr hp)⟩

/-- What is no token is reported where it starts. -/
theorem error_of_scanToken (h : scanToken g rest = .error e) : e.kind = .malformed ∧ e.pos = some g.pos := by
  -- Strings, numbers and symbols can fail, each at the glyph where the token starts.
  unfold scanToken at h
  split at h
  · contradiction
  · split at h
    · split at h
      · contradiction
      · cases h
        exact ⟨rfl, rfl⟩
    · split at h
      · unfold scanNumber at h
        dsimp only at h
        split at h
        · contradiction
        · split at h
          · contradiction
          · cases h
            exact ⟨rfl, rfl⟩
      · split at h
        · contradiction
        · split at h
          · contradiction
          · cases h
            exact ⟨rfl, rfl⟩

/-- A text that cannot be cut into tokens has an error at one of its positions. -/
theorem within_of_scanAll {cs : List Char} {i : Nat} {finish : Pos} (h : scanAll finish (glyphsFrom cs i) = .error e) :
    e.Within cs := by
  -- on the scan: every list of glyphs on the way ends the glyphs of the text
  obtain ⟨glyphs, hglyphs, hsuffix⟩ : ∃ glyphs, glyphsFrom cs i = glyphs ∧ glyphs <:+ glyphsFrom cs i :=
    ⟨_, rfl, List.suffix_refl _⟩
  rw [hglyphs] at h
  clear hglyphs
  induction glyphs using scan_induction with
  | open_ glyphs e' hskip =>
    rw [scanAll_open hskip] at h
    cases h
    obtain ⟨p, rfl, hp | ⟨g, hg, rfl⟩⟩ := error_of_skipTrivia hskip
    · contradiction
    · obtain ⟨j, hj, hpos⟩ := pos_of_mem_glyphsFrom (hsuffix.mem hg)
      exact ⟨rfl, j, Nat.le_of_lt hj, congrArg some hpos⟩
  | done glyphs hskip =>
    rw [scanAll_done hskip] at h
    contradiction
  | stuck glyphs g rest e' hskip htoken =>
    rw [scanAll_stuck hskip htoken] at h
    cases h
    obtain ⟨hkind, hpos⟩ := error_of_scanToken htoken
    have hg : g ∈ glyphsFrom cs i := hsuffix.mem ((skipTrivia_suffix hskip).mem List.mem_cons_self)
    obtain ⟨j, hj, hgpos⟩ := pos_of_mem_glyphsFrom hg
    exact ⟨hkind, j, Nat.le_of_lt hj, by rw [hpos, hgpos]⟩
  | token glyphs g rest kind tail hskip htoken ih =>
    rw [scanAll_token hskip htoken] at h
    cases hscan : scanAll finish tail with
    | error e' =>
      rw [hscan] at h
      cases h
      have htail : tail <:+ g :: rest := (scanToken_suffix htoken).trans (List.suffix_cons _ _)
      exact ih hscan ((htail.trans (skipTrivia_suffix hskip)).trans hsuffix)
    | ok us =>
      rw [hscan] at h
      contradiction

end Errors

end RowConsole.Script
