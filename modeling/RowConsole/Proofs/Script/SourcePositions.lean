import RowConsole.Proofs.Script.Composition
import RowConsole.Proofs.Script.Grammar.Blame
import RowConsole.Proofs.Script.Token.Offsets

/-!
# Positions of Tokens and Errors

A position in a source counts the line feeds and the characters in front of it. Tokens carry the positions at which
they start, one after the other, and the end of the input that at which the source ends. Whatever cannot be cut into
tokens or does not spell a program is an error of the syntax at such a position.

Main statement: `positions_of_source`.
-/

namespace RowConsole.Script

variable {source : String} {e : ScriptError}

/-! ## Section 1: Tokens and Errors of a Source -/

private theorem within_of_tokenize (h : tokenize source = .error e) : e.Within source.toList := by
  rw [tokenize, tokenizeChars_eq] at h
  exact within_of_scanAll (i := 0) h

/-- An error of the parser is at the position of a token. -/
theorem within_of_parse (h : parse source = .error e) : e.Within source.toList := by
  unfold parse at h
  rcases tokenize_cases source with ⟨ts, hts, htokens⟩ | ⟨e', htokens⟩
  · simp only [htokens, bind, Except.bind] at h
    rcases Grammar.parseTokens_cases hts (rfl : (endOf source.toList).kind = .eof) with ⟨p, hparse, _⟩ | ⟨e', hparse, _⟩
    · rw [hparse] at h
      contradiction
    · rw [hparse] at h
      cases h
      obtain ⟨hkind, t, ht, hpos⟩ := Grammar.blames_of_parseTokens hparse
      obtain ⟨j, _, hj, htoken⟩ := (stand_of_tokenize htokens).exists_offset ht
      exact ⟨hkind, j, hj, by rw [hpos, htoken]⟩
  · simp only [htokens, bind, Except.bind] at h
    cases h
    exact within_of_tokenize htokens

/-! ## Section 2: Exact Positions -/

/-- The tokens of a source stand where they start, in this order, the end of the input where the source ends; a source
that cannot be cut into tokens or spells no program is refused with an error of the syntax at one of its positions. -/
theorem positions_of_source (source : String) :
    (∀ ts, tokenize source = .ok ts → Stand source.toList 0 ts ∧ (ts.map Token.pos).Pairwise Pos.Before) ∧
      (∀ e, tokenize source = .error e → e.Within source.toList) ∧
      (∀ e, parse source = .error e → e.Within source.toList) :=
  ⟨fun _ h => ⟨stand_of_tokenize h, (stand_of_tokenize h).pairwise_before⟩, fun _ => within_of_tokenize,
    fun _ => within_of_parse⟩

theorem exists_of_pos_parse {p : Pos} (h : (match parse source with | .ok _ => none | .error e => e.pos) = some p) :
    ∃ e, parse source = .error e ∧ e.pos = some p := by
  cases hparse : parse source with
  | ok q =>
    rw [hparse] at h
    contradiction
  | error e =>
    rw [hparse] at h
    exact ⟨e, rfl, h⟩

/-- A string over two lines moves what follows it to the second one, where the input ends too early; a comment that is
left open is reported where it starts. -/
theorem positions_over_lines :
    (∃ ts e, tokenize "a = 'b\nc' + (" = .ok ts ∧
      ts.map Token.pos = [⟨1, 1⟩, ⟨1, 3⟩, ⟨1, 5⟩, ⟨2, 4⟩, ⟨2, 6⟩, ⟨2, 7⟩] ∧
      Stand "a = 'b\nc' + (".toList 0 ts ∧ (ts.map Token.pos).Pairwise Pos.Before ∧
      parse "a = 'b\nc' + (" = .error e ∧ e.pos = some ⟨2, 7⟩ ∧ e.Within "a = 'b\nc' + (".toList) ∧
      ∃ e, tokenize "a\n /* b" = .error e ∧ e.pos = some ⟨2, 2⟩ ∧ e.Within "a\n /* b".toList := by
  obtain ⟨hopen, _, hparse⟩ := positions_of_source "a = 'b\nc' + ("
  obtain ⟨_, hcomment, _⟩ := positions_of_source "a\n /* b"
  refine ⟨?_, ?_⟩
  · have htokens : tokenize "a = 'b\nc' + (" = .ok [⟨.ident "a", ⟨1, 1⟩⟩, ⟨.symbol .assign, ⟨1, 3⟩⟩,
        ⟨.str "b\nc", ⟨1, 5⟩⟩, ⟨.symbol .plus, ⟨2, 4⟩⟩, ⟨.symbol .parenOpen, ⟨2, 6⟩⟩, ⟨.eof, ⟨2, 7⟩⟩] := by
      decide +kernel
    obtain ⟨e, herror, hpos⟩ : ∃ e, parse "a = 'b\nc' + (" = .error e ∧ e.pos = some ⟨2, 7⟩ :=
      exists_of_pos_parse (by decide +kernel)
    exact ⟨_, e, htokens, rfl, (hopen _ htokens).1, (hopen _ htokens).2, herror, hpos, hparse e herror⟩
  · have herror : tokenize "a\n /* b" = .error { cause := .unterminatedComment, pos := some ⟨2, 2⟩ } := by
      decide +kernel
    exact ⟨_, herror, rfl, hcomment _ herror⟩

end RowConsole.Script
