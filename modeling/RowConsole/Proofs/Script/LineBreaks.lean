import RowConsole.Proofs.Script.Grammar.Breaks.Programs
import RowConsole.Proofs.Script.SourcePositions
import RowConsole.Proofs.Script.Token.Dividing

/-!
# Line Breaks inside Brackets

Inside of the parentheses of an expression or of arguments, and of the brackets of an index or a collection, a line feed
does not end a statement. Where it may stand there, it leaves the program unchanged, and everywhere else there it is an
error of the syntax.

Main statement: `parse_line_break`.
-/

namespace RowConsole.Script

open Grammar (Endless Enclosed Gap breakable moveToken parseTokens)

/-! ## Section 1: Line Feeds between Two Tokens -/

/-- What is in front of a place, as kinds of tokens. -/
def pastOf (front : List Token) : Grammar.Past :=
  (front.map Token.kind).reverse

/-- The last token of a list that is not empty. -/
theorem exists_last {ts front rest : List Token} {last next : Token} (h : ts ++ [last] = front ++ next :: rest) :
    ∃ us, next :: rest = us ++ [last] ∧ ts = front ++ us := by
  obtain ⟨us, t, hus⟩ := (List.eq_nil_or_concat (next :: rest)).resolve_left (by simp)
  rw [List.concat_eq_append] at hus
  rw [hus, ← List.append_assoc] at h
  obtain ⟨hts, hlast⟩ := List.append_inj' h rfl
  rw [List.cons.inj hlast |>.1]
  exact ⟨us, hus, hts⟩

namespace Divides

variable {source a b : String} {front behind : List Token}

/-- The tokens behind go to the next line. -/
theorem line_of_mem (h : Divides source front behind a b) {t : Token} (ht : t ∈ behind) :
    ((Pos.start.after a.toList).broken t.pos).line = t.pos.line + 1 := by
  obtain ⟨us, hus, rfl⟩ := h.behind
  obtain ⟨t', ht', rfl⟩ := List.mem_map.mp ht
  have hcounted := (stand_of_tokenize hus).counted ht'
  have hline := hcounted.1
  show (Pos.broken _ (Pos.behind _ t'.pos)).line = (Pos.behind _ t'.pos).line + 1
  rw [Pos.broken_behind _ hcounted]
  simp only [Pos.down, Pos.behind]
  omega

end Divides

/-- A line feed between two tokens of a program, where lines are joined and it may stand. -/
def Divides.gap {source a b : String} {front rest : List Token} {next : Token}
    (h : Divides source front (next :: rest) a b) (hclosed : Grammar.Cursor.Closed ⟨next, rest⟩)
    (henclosed : Enclosed (pastOf front)) (hbreakable : breakable (pastOf front) next.kind = true) : Gap where
  shift := (Pos.start.after a.toList).broken
  front := front
  next := next
  rest := rest
  feed := ⟨.newline, Pos.start.after a.toList⟩
  isFeed := rfl
  closed := hclosed
  enclosed := henclosed
  isBreakable := hbreakable
  linesFront t ht t' ht' := by
    rw [Pos.broken_of_before (h.before_of_mem ht), Pos.broken_of_before (h.before_of_mem ht')]
  linesBehind t ht t' ht' := by
    rw [h.line_of_mem ht, h.line_of_mem ht', Nat.add_right_cancel_iff]

/-! ## Section 2: Line Feeds in a Program -/

section Programs

variable {source a b : String} {p : List Stmt} {front rest : List Token} {next : Token}

private theorem parse_of_breakable (hparse : parse source = .ok p)
    (htokens : tokenize source = .ok (front ++ next :: rest))
    (henclosed : Enclosed (pastOf front)) (h : Divides source front (next :: rest) a b)
    (hbreakable : breakable (pastOf front) next.kind = true) :
    parse (a ++ "\n" ++ b) = .ok (mapPosStmts (Pos.start.after a.toList).broken p) := by
  obtain ⟨ts, hts, htokenize, hp⟩ := tokens_of_parse hparse
  have hsame := Except.ok.inj (htokenize.symm.trans htokens)
  -- The last token is the end of the text, so the break comes before it.
  obtain ⟨us, hus, rfl⟩ := exists_last hsame
  -- The cursor behind the front is the one at the token that the break comes before.
  have hcursor : Grammar.Cursor.before us ⟨endOf source.toList, []⟩ = ⟨next, rest⟩ :=
    Grammar.Cursor.ext_tokens ((Grammar.Cursor.tokens_before us _).trans hus.symm)
  have hclosed : Grammar.Cursor.Closed ⟨next, rest⟩ := by
    rw [← hcursor]
    exact Grammar.Cursor.closed_before us rfl
  rw [hsame] at hp
  refine parse_of_tokenize h.tokenize_newline ?_
  exact Grammar.parseTokens_break (h.gap hclosed henclosed hbreakable) hus
    (fun t ht => hts t (List.mem_append_left us ht)) (fun t ht => hts t (List.mem_append_right front ht)) rfl hp

private theorem breakable_of_parse {p' : List Stmt} (henclosed : Enclosed (pastOf front))
    (h : Divides source front (next :: rest) a b) (hparse : parse (a ++ "\n" ++ b) = .ok p') :
    breakable (pastOf front) next.kind = true := by
  obtain ⟨ts, hts, htokenize, hp⟩ := tokens_of_parse hparse
  have hsame := Except.ok.inj (htokenize.symm.trans h.tokenize_newline)
  rw [hsame] at hp
  have hkinds : (front.map (moveToken (Pos.start.after a.toList).broken)).map Token.kind = front.map Token.kind := by
    rw [List.map_map]
    rfl
  have hbreakable := Grammar.breakable_of_parseTokens hsame.symm hts rfl rfl (by rwa [hkinds]) hp
  rwa [hkinds] at hbreakable

end Programs

/-- A program can be divided between any two tokens where lines are joined. A line feed put there leaves the program
unchanged, up to positions, if it may stand there, and is an error of the syntax if it may not. -/
theorem parse_line_break {source : String} {p : List Stmt} {front rest : List Token} {next : Token}
    (hparse : parse source = .ok p) (htokens : tokenize source = .ok (front ++ next :: rest))
    (henclosed : Enclosed (pastOf front)) :
    (∃ a b, Divides source front (next :: rest) a b) ∧
      ∀ a b, Divides source front (next :: rest) a b →
        (breakable (pastOf front) next.kind = true →
          parse (a ++ "\n" ++ b) = .ok (mapPosStmts (Pos.start.after a.toList).broken p)) ∧
        (breakable (pastOf front) next.kind = false →
          ∃ e, parse (a ++ "\n" ++ b) = .error e ∧ e.kind = .malformed) := by
  refine ⟨exists_divides htokens, fun a b h => ⟨parse_of_breakable hparse htokens henclosed h, fun hnot => ?_⟩⟩
  cases hresult : parse (a ++ "\n" ++ b) with
  | ok p' =>
    rw [breakable_of_parse henclosed h hresult] at hnot
    contradiction
  | error e => exact ⟨e, rfl, (within_of_parse hresult).1⟩

/-- In arguments a line feed may stand before a point, and behind it it may not. -/
theorem parse_line_break_point :
    ∃ p, parse "f(a.b)" = .ok p ∧ parse "f(a\n.b)" = .ok (mapPosStmts (Pos.broken ⟨1, 4⟩) p) ∧
      ∃ e, parse "f(a.\nb)" = .error e ∧ e.kind = .malformed := by
  obtain ⟨p, hp, _⟩ : ∃ p, parse "f(a.b)" = .ok p ∧ p.length = 1 := exists_of_length_parse (by decide +kernel)
  have hbefore : Divides "f(a.b)" [⟨.ident "f", ⟨1, 1⟩⟩, ⟨.symbol .parenOpen, ⟨1, 2⟩⟩, ⟨.ident "a", ⟨1, 3⟩⟩]
      [⟨.symbol .dot, ⟨1, 4⟩⟩, ⟨.ident "b", ⟨1, 5⟩⟩, ⟨.symbol .parenClose, ⟨1, 6⟩⟩, ⟨.eof, ⟨1, 7⟩⟩] "f(a" ".b)" :=
    ⟨rfl, by decide +kernel,
      [⟨.symbol .dot, ⟨1, 1⟩⟩, ⟨.ident "b", ⟨1, 2⟩⟩, ⟨.symbol .parenClose, ⟨1, 3⟩⟩, ⟨.eof, ⟨1, 4⟩⟩],
      by decide +kernel, by decide⟩
  have hbehind : Divides "f(a.b)"
      [⟨.ident "f", ⟨1, 1⟩⟩, ⟨.symbol .parenOpen, ⟨1, 2⟩⟩, ⟨.ident "a", ⟨1, 3⟩⟩, ⟨.symbol .dot, ⟨1, 4⟩⟩]
      [⟨.ident "b", ⟨1, 5⟩⟩, ⟨.symbol .parenClose, ⟨1, 6⟩⟩, ⟨.eof, ⟨1, 7⟩⟩] "f(a." "b)" :=
    ⟨rfl, by decide +kernel, [⟨.ident "b", ⟨1, 1⟩⟩, ⟨.symbol .parenClose, ⟨1, 2⟩⟩, ⟨.eof, ⟨1, 3⟩⟩],
      by decide +kernel, by decide⟩
  have hstays := ((parse_line_break hp (by decide +kernel) (by decide)).2 _ _ hbefore).1 (by decide)
  have hfails := ((parse_line_break hp (by decide +kernel) (by decide)).2 _ _ hbehind).2 (by decide)
  exact ⟨p, hp, hstays, hfails⟩

/-- Before an operator in parentheses a line feed may not stand, although lines are joined there. -/
theorem parse_line_break_operator :
    Divides "(a+ b)" [⟨.symbol .parenOpen, ⟨1, 1⟩⟩, ⟨.ident "a", ⟨1, 2⟩⟩]
        [⟨.symbol .plus, ⟨1, 3⟩⟩, ⟨.ident "b", ⟨1, 5⟩⟩, ⟨.symbol .parenClose, ⟨1, 6⟩⟩, ⟨.eof, ⟨1, 7⟩⟩] "(a" "+ b)" ∧
      Enclosed (pastOf [⟨.symbol .parenOpen, ⟨1, 1⟩⟩, ⟨.ident "a", ⟨1, 2⟩⟩]) ∧
      (∃ p, parse "(a+ b)" = .ok p) ∧ ∃ e, parse ("(a" ++ "\n" ++ "+ b)") = .error e ∧ e.pos = some ⟨2, 1⟩ := by
  refine ⟨⟨rfl, by decide +kernel, ?_⟩, by decide, ?_, exists_of_pos_parse (by decide +kernel)⟩
  · exact ⟨[⟨.symbol .plus, ⟨1, 1⟩⟩, ⟨.ident "b", ⟨1, 3⟩⟩, ⟨.symbol .parenClose, ⟨1, 4⟩⟩, ⟨.eof, ⟨1, 5⟩⟩],
      by decide +kernel, by decide +kernel⟩
  · obtain ⟨p, hp, _⟩ : ∃ p, parse "(a+ b)" = .ok p ∧ p.length = 1 := exists_of_length_parse (by decide +kernel)
    exact ⟨p, hp⟩

end RowConsole.Script
