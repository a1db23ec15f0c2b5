import RowConsole.Proofs.Script.Token.Enclosed
import RowConsole.Proofs.Session.Blocks

/-!
# Programs Are Complete Inputs

Whether more lines are needed is decided by the braces of a text, whatever they belong to. A program closes all the
braces that it opens, so it is never held back unless a brace stands in one of its string literals or comments.

Main statement: `complete_of_parse`.
-/

namespace RowConsole.Session

open Script (Balanced Stmt Token enclosed parse tokenize)

/-- The brackets of a program are balanced. If there are no braces in its string literals and comments then its
characters hold as many of either brace, and it is complete and not classified as a text that needs more lines. -/
theorem complete_of_parse {source : String} {program : List Stmt} (h : parse source = .ok program)
    (hopening : '\x7b' ∉ enclosed .code source.toList) (hclosing : '\x7d' ∉ enclosed .code source.toList) :
    source.toList.count '\x7b' = source.toList.count '\x7d' ∧
      (∃ tokens, tokenize source = .ok tokens ∧ Balanced (tokens.map Token.kind)) ∧
      isComplete source.toList = true ∧ classify source ≠ .incomplete := by
  obtain ⟨tokens, htokens, hbalanced⟩ := Script.balanced_of_parse h
  have hopen : source.toList.count '\x7b' = (tokens.map Token.kind).count (.symbol .braceOpen) := by
    rw [Script.count_of_tokenize .opening htokens, List.count_eq_zero.mpr hopening, Nat.add_zero]
  have hclose : source.toList.count '\x7d' = (tokens.map Token.kind).count (.symbol .braceClose) := by
    rw [Script.count_of_tokenize .closing htokens, List.count_eq_zero.mpr hclosing, Nat.add_zero]
  have hcount : source.toList.count '\x7b' = source.toList.count '\x7d' :=
    hopen.trans ((hbalanced.count_eq .brace).trans hclose.symm)
  have hcomplete : isComplete source.toList = true := decide_eq_true (Nat.le_of_eq hcount)
  refine ⟨hcount, ⟨tokens, htokens, hbalanced⟩, hcomplete, fun hincomplete => ?_⟩
  cases hcomplete.symm.trans (isComplete_of_incomplete hincomplete)

theorem complete_of_parse_blocks :
    ∃ program, parse "if (ok) \x7b xs.each \x7b x -> print('[') \x7d // (\n\x7d" = .ok program ∧ program.length = 1 ∧
      classify "if (ok) \x7b xs.each \x7b x -> print('[') \x7d // (\n\x7d" ≠ .incomplete := by
  obtain ⟨program, hparse, hlength⟩ := Script.exists_of_length_parse
    (show (parse "if (ok) \x7b xs.each \x7b x -> print('[') \x7d // (\n\x7d").toOption.map List.length = some 1 by
      decide +kernel)
  obtain ⟨_, _, _, hclassify⟩ := complete_of_parse hparse (by decide +kernel) (by decide +kernel)
  exact ⟨program, hparse, hlength, hclassify⟩

end RowConsole.Session
