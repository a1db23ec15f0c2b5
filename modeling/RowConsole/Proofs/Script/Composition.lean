import RowConsole.Proofs.Script.Token.Cutting

/-!
# Programs in Sequence

Two sources with a line feed between them are the two programs in sequence. The second one stands on lower
lines then, and nothing else about either is changed.

Main statement: `parse_lines`.
-/

namespace RowConsole.Script

open Grammar (Endless KeepsLines moveToken parseTokens)

/-! ## Section 1: Sources and Tokens -/

/-- The end of the input behind a text. -/
def endOf (cs : List Char) : Token := ⟨.eof, Pos.start.after cs⟩

variable {source : String} {p : List Stmt}

/-- The program of a source is that of its tokens. -/
theorem parse_of_tokenize {tokens : List Token} (h : tokenize source = .ok tokens)
    (hp : parseTokens tokens = .ok p) : parse source = .ok p := by
  unfold parse
  simp only [h, hp, bind, Except.bind]

theorem tokenize_cases (source : String) :
    (∃ ts, Endless ts ∧ tokenize source = .ok (ts ++ [endOf source.toList])) ∨ ∃ e, tokenize source = .error e :=
  tokenizeChars_cases source.toList

/-- A source that spells a program is cut into tokens, and these spell the program. -/
theorem tokens_of_parse (h : parse source = .ok p) :
    ∃ ts, Endless ts ∧ tokenize source = .ok (ts ++ [endOf source.toList]) ∧
      parseTokens (ts ++ [endOf source.toList]) = .ok p := by
  -- The text is read in two stages; the second one is reached only with the tokens of the first.
  unfold parse at h
  rcases tokenize_cases source with ⟨ts, hts, htokenize⟩ | ⟨e, htokenize⟩
  · simp only [htokenize, bind, Except.bind] at h
    refine ⟨ts, hts, htokenize, ?_⟩
    cases hparse : parseTokens (ts ++ [endOf source.toList]) with
    | ok p' =>
      rw [hparse] at h
      exact congrArg Except.ok (Except.ok.inj h)
    | error stop =>
      rw [hparse] at h
      cases stop <;> contradiction
  · simp only [htokenize, bind, Except.bind] at h
    contradiction

/-! ## Section 2: Two Sources -/

theorem keepsLines_down (n : Nat) : KeepsLines (Pos.down n) :=
  fun _ _ => Nat.add_right_cancel_iff

/-- Two sources with a line feed between them spell the two programs in sequence; the second one stands on
lower lines, one for the line feed and one for each line feed in the first source, and in the same columns. -/
theorem parse_lines {a b : String} {p q : List Stmt} (ha : parse a = .ok p) (hb : parse b = .ok q) :
    parse (a ++ "\n" ++ b) = .ok (p ++ mapPosStmts (Pos.down (a.toList.count '\n' + 1)) q) := by
  obtain ⟨ts, hts, hta, hpa⟩ := tokens_of_parse ha
  obtain ⟨us, hus, htb, hpb⟩ := tokens_of_parse hb
  generalize hf : Pos.down (a.toList.count '\n' + 1) = f
  have hlines : KeepsLines f := hf ▸ keepsLines_down _
  -- the tokens of the first source stay, and those of the second one are moved
  have htokens : tokenize (a ++ "\n" ++ b) =
      .ok (ts ++ ⟨.newline, Pos.start.after a.toList⟩ :: us.map (moveToken f) ++ [moveToken f (endOf b.toList)]) := by
    have hchars : (a ++ "\n" ++ b).toList = a.toList ++ '\n' :: b.toList := by simp
    rw [tokenize, hchars, tokenizeChars_line hta, hf, show tokenizeChars b.toList = _ from htb]
    simp [Except.map]
  have hmoved : parseTokens (us.map (moveToken f) ++ [moveToken f (endOf b.toList)]) = .ok (mapPosStmts f q) := by
    have hmove := Grammar.parseTokens_move hlines hus rfl hpb
    rwa [List.map_append] at hmove
  have hboth := Grammar.parseTokens_lines Grammar.keepsLines_id hts (hus.map f) rfl rfl hpa hmoved
  rw [map_moveToken_id, mapPosStmts_id] at hboth
  exact parse_of_tokenize htokens hboth

theorem exists_of_length_parse {source : String} {n : Nat} (h : (parse source).toOption.map List.length = some n) :
    ∃ p, parse source = .ok p ∧ p.length = n := by
  cases hp : parse source with
  | error e =>
    rw [hp] at h
    contradiction
  | ok p =>
    rw [hp] at h
    exact ⟨p, rfl, Option.some.inj h⟩

/-- A bare return at the end of the first source does not take the second one for its value. -/
theorem parse_lines_return :
    ∃ p q, parse "def x\nreturn" = .ok p ∧ parse "y = 1" = .ok q ∧ p.length = 2 ∧ q.length = 1 ∧
      parse ("def x\nreturn" ++ "\n" ++ "y = 1") = .ok (p ++ mapPosStmts (Pos.down 2) q) := by
  obtain ⟨p, hp, hlength⟩ := exists_of_length_parse
    (show (parse "def x\nreturn").toOption.map List.length = some 2 by decide +kernel)
  obtain ⟨q, hq, hlength'⟩ := exists_of_length_parse
    (show (parse "y = 1").toOption.map List.length = some 1 by decide +kernel)
  have hlines : "def x\nreturn".toList.count '\n' + 1 = 2 := by decide
  exact ⟨p, q, hp, hq, hlength, hlength', hlines ▸ parse_lines hp hq⟩

end RowConsole.Script
