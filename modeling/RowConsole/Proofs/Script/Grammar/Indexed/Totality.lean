import RowConsole.Proofs.Script.Composition
import RowConsole.Proofs.Script.Grammar.Indexed.Procedures

/-!
# Totality of Reading

Every source is cut into tokens or refused, and every token list that ends where the input does is read as a
program or refused with a failure of syntax. On the way no index leaves the list, what looks like a step back is
none behind the start of the procedure, and the counter of open constructs never falls below the value that it
had when the procedure was called.

The statements are about the procedures over an index and a counter. They follow from the agreement with the
procedures that read from a cursor: these are never cut off by the bound on their recursion, and it is known of
them what they take.

Main statement: `totality`.
-/

namespace RowConsole.Script.Grammar.Indexed

variable {α : Type} {tokens ts : List Token} {last : Token} {s s' : Place}

/-! ## Section 1: Bounds That Are Kept -/

/-- What holds of a reading from a place, however it ends. -/
structure Kept (tokens : List Token) (s : Place) (r : Except Halt α × Place) : Prop where
  /-- No token was looked for outside of the list. -/
  inside : r.1 ≠ .error .outside
  /-- No construct was closed when none was open. -/
  opened : r.1 ≠ .error .unopened
  index_le : r.2.index ≤ tokens.length
  /-- The counter was given no value below the first one. -/
  depths : ∃ values, r.2.depths = values ++ s.depths ∧ ∀ n ∈ values, s.depth ≤ n
  le_depth : s.depth ≤ r.2.depth
  /-- When something was read, the counter has its first value again and the index did not go back. -/
  read : ∀ a, r.1 = .ok a → r.2.depth = s.depth ∧ s.index ≤ r.2.index

private theorem Place.Leads.depths_le {beyond : Prop} (h : s.Leads s' beyond) :
    ∃ values, s'.depths = values ++ s.depths ∧ ∀ n ∈ values, s.depth ≤ n := by
  obtain ⟨values, hdepths, _, hbounds, _⟩ := h
  exact ⟨values, hdepths, fun n hn => (hbounds n hn).1⟩

theorem Outcome.kept {o : Except Stop (α × Cursor)} {r : Except Halt α × Place} (h : Outcome tokens s o r) :
    Kept tokens s r := by
  cases h with
  | read hstands hbound hindex hdepth hleads =>
    exact ⟨by simp, by simp, hbound, hleads.depths_le, hleads.depth_le, fun _ _ => ⟨hdepth, hindex⟩⟩
  | failed hbound hkind hleads =>
    exact ⟨by simp, by simp, hbound, hleads.depths_le, hleads.depth_le, by simp⟩
  | exhausted hbound hleads =>
    exact ⟨by simp, by simp, hbound, hleads.depths_le, hleads.depth_le, by simp⟩

/-- Every procedure keeps the bounds, from every place and with every bound on its recursion. -/
theorem kept_run (hlast : last.kind = .eof) (fuel : Nat) (q : Procedure α)
    (hs : s.index ≤ (ts ++ [last]).length) : Kept (ts ++ [last]) s (run fuel q (ts ++ [last]) s) := by
  obtain ⟨c, hstands⟩ := exists_stands ts hlast s.index
  exact ((mirrors_run fuel s.depth q).mirrors rfl hs hstands).kept

/-- A procedure that takes a token moves the index. -/
theorem index_lt_of_takes (hlast : last.kind = .eof) {fuel : Nat} {q : Procedure α}
    [htakes : Takes (q.read fuel s.depth)] {a : α} (hs : s.index ≤ (ts ++ [last]).length)
    (h : run fuel q (ts ++ [last]) s = (.ok a, s')) : s.index + 1 ≤ s'.index := by
  obtain ⟨c, hstands⟩ := exists_stands ts hlast s.index
  have houtcome := (mirrors_run fuel s.depth q).mirrors rfl hs hstands
  rw [h] at houtcome
  generalize hread : q.read fuel s.depth c = o at houtcome
  cases houtcome with
  | read hstands' _ hindex _ _ =>
    have hlighter := htakes.takes hstands.closed hread
    rcases Nat.eq_or_lt_of_le hindex with heq | hlt
    · -- at the same index there would be the same tokens ahead
      rw [← heq] at hstands'
      rw [hstands.unique hstands'] at hlighter
      exact absurd hlighter (Nat.lt_irrefl _)
    · exact hlt

/-! ## Section 2: Programs -/

/-- With a bound on the recursion that is large enough for the tokens, a reading through an index ends like one
from a cursor, and the bound is not what ends it. -/
theorem program_outcome (hts : Endless ts) (hlast : last.kind = .eof) {fuel : Nat}
    (hfuel : fuelFor (ts ++ [last]).length ≤ fuel) :
    ∃ o, Outcome (ts ++ [last]) .start o (program fuel (ts ++ [last]) .start) ∧
      parseTokens (ts ++ [last]) = o.map Prod.fst ∧ o ≠ .error .exhausted := by
  have hcases := parseTokens_cases hts hlast
  have hclosed : (Cursor.before ts ⟨last, []⟩).Closed := Cursor.closed_before ts hlast
  have htokens : _ = ts ++ [last] := Cursor.tokens_before ts ⟨last, []⟩
  generalize Cursor.before ts ⟨last, []⟩ = c at hclosed htokens
  rw [← htokens] at hcases hfuel ⊢
  have hstands : Stands (c.token :: c.rest) Place.start.index c := ⟨rfl, hclosed⟩
  have hparse := parseTokens_eq hclosed hfuel
  refine ⟨_, (mirrors_program fuel).mirrors (s := .start) rfl (Nat.zero_le _) hstands, hparse, ?_⟩
  intro hexhausted
  rw [hexhausted] at hparse
  rcases hcases with ⟨p, hp, _⟩ | ⟨e, he, _⟩
  · rw [hp] at hparse
    contradiction
  · rw [he] at hparse
    cases hparse

/-- The whole list is read or there is a failure of syntax, the same through an index as from a cursor. -/
theorem program_total (hts : Endless ts) (hlast : last.kind = .eof) {fuel : Nat}
    (hfuel : fuelFor (ts ++ [last]).length ≤ fuel) :
    (∃ p, parseTokens (ts ++ [last]) = .ok p ∧ (program fuel (ts ++ [last]) .start).1 = .ok p) ∨
      ∃ e, parseTokens (ts ++ [last]) = .error (.failed e) ∧ e.kind = .malformed ∧
        (program fuel (ts ++ [last]) .start).1 = .error (.failed e) := by
  obtain ⟨o, houtcome, hparse, hends⟩ := program_outcome hts hlast hfuel
  generalize program fuel (ts ++ [last]) .start = r at houtcome ⊢
  cases houtcome with
  | read => exact Or.inl ⟨_, hparse, rfl⟩
  | failed _ hkind _ => exact Or.inr ⟨_, hparse, hkind, rfl⟩
  | exhausted => exact absurd rfl hends

/-- Every source is cut into tokens, the end of the input once and as the last one, or refused, and no larger
bound on the tokens changes that. A token list of that form is read as a program or refused with a failure of
syntax, and no larger bound on the recursion changes that. From every place in it no procedure leaves the list
or makes the counter fall below its first value, and statements and expressions move the index. -/
theorem totality :
    (∀ source : String, ((∃ ts, Endless ts ∧ tokenize source = .ok (ts ++ [endOf source.toList])) ∨
        ∃ e, tokenize source = .error e) ∧
      ∀ fuel, source.toList.length ≤ fuel →
        scanFrom (Pos.start.after source.toList) fuel (locate Pos.start source.toList) = tokenize source) ∧
    ∀ ts last, Endless ts → last.kind = .eof →
      (∀ fuel, fuelFor (ts ++ [last]).length ≤ fuel →
        (∃ p, parseTokens (ts ++ [last]) = .ok p ∧ (program fuel (ts ++ [last]) .start).1 = .ok p) ∨
          ∃ e, parseTokens (ts ++ [last]) = .error (.failed e) ∧ e.kind = .malformed ∧
            (program fuel (ts ++ [last]) .start).1 = .error (.failed e)) ∧
      ∀ fuel (s : Place), s.index ≤ (ts ++ [last]).length →
        (∀ {α : Type} (q : Procedure α), Kept (ts ++ [last]) s (run fuel q (ts ++ [last]) s)) ∧
        (∀ stmt s', run fuel .statement (ts ++ [last]) s = (.ok stmt, s') → s.index + 1 ≤ s'.index) ∧
        ∀ e s', run fuel .expr (ts ++ [last]) s = (.ok e, s') → s.index + 1 ≤ s'.index := by
  refine ⟨fun source => ⟨tokenize_cases source, fun fuel hfuel => ?_⟩, fun ts last hts hlast =>
    ⟨fun fuel hfuel => program_total hts hlast hfuel, fun fuel s hs =>
      ⟨fun q => kept_run hlast fuel q hs, fun stmt s' h => ?_, fun e s' h => ?_⟩⟩⟩
  · -- More fuel than glyphs changes nothing, and the tokenizer has as much of its own.
    have hlength := length_locate Pos.start source.toList
    rw [tokenize, tokenizeChars, scanFrom_eq_scanAll (by omega), scanFrom_eq_scanAll (by omega)]
  · exact index_lt_of_takes hlast (q := .statement) hs h
  · exact index_lt_of_takes hlast (q := .expr) hs h

/-- The tokens of a condition on one line and a closure on the next one. -/
def branchAndClosure : List Token :=
  [⟨.keyword .ifs, ⟨1, 1⟩⟩, ⟨.symbol .parenOpen, ⟨1, 4⟩⟩, ⟨.ident "a", ⟨1, 5⟩⟩, ⟨.symbol .parenClose, ⟨1, 6⟩⟩,
    ⟨.ident "b", ⟨1, 8⟩⟩, ⟨.newline, ⟨1, 9⟩⟩, ⟨.symbol .braceOpen, ⟨2, 1⟩⟩, ⟨.ident "c", ⟨2, 3⟩⟩,
    ⟨.symbol .braceClose, ⟨2, 5⟩⟩]

/-- Behind the body of the condition an alternative is looked for, and behind the brace parameters; both times
the index goes back, and the statements still move it. -/
theorem totality_branchAndClosure : Endless branchAndClosure ∧ (endOf []).kind = .eof ∧
    (∃ p, parseTokens (branchAndClosure ++ [endOf []]) = .ok p ∧ p.length = 2) ∧
    Kept (branchAndClosure ++ [endOf []]) ⟨6, 0, []⟩
      (run 60 .closure (branchAndClosure ++ [endOf []]) ⟨6, 0, []⟩) ∧
    ∃ stmt s', run 60 .statement (branchAndClosure ++ [endOf []]) .start = (.ok stmt, s') ∧ s'.index = 5 ∧
      Place.start.index + 1 ≤ s'.index := by
  have hts : Endless branchAndClosure := by simp [Endless, branchAndClosure]
  obtain ⟨hprogram, hplaces⟩ := totality.2 branchAndClosure (endOf []) hts rfl
  refine ⟨hts, rfl, ?_, (hplaces 60 ⟨6, 0, []⟩ (by decide)).1 .closure, ?_⟩
  · rcases hprogram _ (Nat.le_refl _) with ⟨p, hp, _⟩ | ⟨e, he, _⟩
    · have hlength : (parseTokens (branchAndClosure ++ [endOf []])).toOption.map List.length = some 2 := by rfl
      rw [hp] at hlength
      exact ⟨p, hp, Option.some.inj hlength⟩
    · have hread : (parseTokens (branchAndClosure ++ [endOf []])).isOk = true := by rfl
      rw [he] at hread
      contradiction
  · have hrun : run 60 .statement (branchAndClosure ++ [endOf []]) .start = (.ok _, _) := rfl
    exact ⟨_, _, hrun, rfl, (hplaces 60 .start (by decide)).2.1 _ _ hrun⟩

end RowConsole.Script.Grammar.Indexed
