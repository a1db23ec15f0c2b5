import RowConsole.Proofs.Script.Grammar.Breaks.Procedures
import RowConsole.Proofs.Script.Grammar.Pieces

/-!
# Programs with Line Breaks

Where lines are joined, a line feed in a program stands where it may, and where it may stand it makes no difference.

Main statements: `parseTokens_break` and `breakable_of_parseTokens`.
-/

namespace RowConsole.Script.Grammar

namespace Gap

variable {gap : Gap}

/-- Lines are joined only inside of a bracket, and so there are tokens in front. -/
theorem aligned_first (ts : List Token) {last : Token} (hts : gap.front ++ gap.next :: gap.rest = ts ++ [last]) :
    ∃ d : Cursor, gap.Aligned [] (Cursor.before ts ⟨last, []⟩) d ∧
      d.token :: d.rest = gap.front.map gap.move ++ gap.feed :: (gap.next :: gap.rest).map gap.move := by
  cases hfront : gap.front with
  | nil =>
    have henclosed := gap.enclosed
    rw [hfront] at henclosed
    contradiction
  | cons t front =>
    have hc : Cursor.before ts ⟨last, []⟩ = ⟨t, front ++ gap.next :: gap.rest⟩ := by
      apply Cursor.ext_tokens
      rw [Cursor.tokens_before, ← hts, hfront]
      rfl
    rw [hc]
    have hal : gap.Aligned [] _ _ := .front (hfront.trans (List.nil_append _).symm)
    exact ⟨_, hal, rfl⟩

end Gap

section Programs

variable {ts us : List Token} {last : Token} {p : List Stmt}

/-- A program with a line feed where it may stand is the same program, with its positions moved. -/
theorem parseTokens_break (gap : Gap) (hus : gap.next :: gap.rest = us ++ [last]) (hfront : Endless gap.front)
    (hendless : Endless us) (hlast : last.kind = .eof)
    (h : parseTokens (gap.front ++ gap.next :: gap.rest) = .ok p) :
    parseTokens (gap.front.map gap.move ++ gap.feed :: (gap.next :: gap.rest).map gap.move) =
      .ok (mapPosStmts gap.shift p) := by
  have htokens : gap.front ++ gap.next :: gap.rest = (gap.front ++ us) ++ [last] := by
    rw [hus, List.append_assoc]
  have hlonger : gap.front.map gap.move ++ gap.feed :: (gap.next :: gap.rest).map gap.move =
      (gap.front.map gap.move ++ gap.feed :: us.map gap.move) ++ [gap.move last] := by
    rw [hus, List.map_append, List.append_assoc, List.cons_append]
    rfl
  have hendless' : Endless (gap.front.map gap.move ++ gap.feed :: us.map gap.move) :=
    (hfront.map gap.shift).append ((hendless.map gap.shift).cons (by simp [gap.isFeed]))
  have hlast' : (gap.move last).kind = .eof := hlast
  rw [htokens] at h
  obtain ⟨bound, hreads⟩ := readsTo_of_parseTokens (hfront.append hendless) hlast h
  obtain ⟨d, hal, hd⟩ := gap.aligned_first (gap.front ++ us) htokens
  rw [hlonger] at hd ⊢
  apply parseTokens_of_readsTo (c := ⟨gap.move last, []⟩) hendless' hlast'
  refine ⟨bound, fun fuel hfuel => ?_⟩
  have hd : Cursor.before (gap.front.map gap.move ++ gap.feed :: us.map gap.move) ⟨gap.move last, []⟩ = d := by
    apply Cursor.ext_tokens
    rw [Cursor.tokens_before, hd]
  rw [hd]
  obtain ⟨past, d', hstmts, hcd, _, hopened⟩ := (gap.allTrack fuel).statements 0 .eof ⟨hal, by decide⟩ p _
    (hreads fuel hfuel)
  -- the statements end at the end of the input, and no bracket is open there
  have hal' := (hcd.loose hopened (by decide)).aligned
  obtain ⟨t, rest⟩ := d'
  have hrest : rest = [] := hal'.rest_eq_nil_iff.mpr rfl
  have ht : t = gap.move last := hal'.token_eq
  rw [hrest, ht] at hstmts
  exact hstmts

/-- A line feed of a program stands where it may if lines are joined there. -/
theorem breakable_of_parseTokens {front rest : List Token} {feed next : Token}
    (htokens : front ++ feed :: next :: rest = ts ++ [last]) (hts : Endless ts) (hlast : last.kind = .eof)
    (hfeed : feed.kind = .newline) (henclosed : Enclosed (front.map Token.kind).reverse)
    (h : parseTokens (front ++ feed :: next :: rest) = .ok p) :
    breakable (front.map Token.kind).reverse next.kind = true := by
  rw [htokens] at h
  obtain ⟨bound, hreads⟩ := readsTo_of_parseTokens hts hlast h
  -- which line feeds are passed is known from any gap, as from one in front of the whole program
  let c := Cursor.before ts ⟨last, []⟩
  let gap : Gap := {
    shift := id
    front := [⟨.symbol .parenOpen, Pos.start⟩]
    next := c.token
    rest := c.rest
    feed := ⟨.newline, Pos.start⟩
    isFeed := rfl
    closed := Cursor.closed_before ts hlast
    enclosed := rfl
    isBreakable := breakable_of_breaksBehind rfl (by simp)
    linesFront := fun _ _ _ _ => Iff.rfl
    linesBehind := fun _ _ _ _ => Iff.rfl }
  have hal : gap.Aligned [] c ⟨gap.move c.token, c.rest.map gap.move⟩ := .behind (List.suffix_refl _)
  obtain ⟨past, _, _, _, hpassage, _⟩ := (gap.allTrack bound).statements 0 .eof ⟨hal, by decide⟩ p _
    (hreads bound (Nat.le_refl _))
  have hkinds : c.kinds = front.map Token.kind ++ .newline :: next.kind :: rest.map Token.kind := by
    have htokens' := (congrArg (List.map Token.kind) (Cursor.tokens_before ts ⟨last, []⟩)).trans
      (congrArg (List.map Token.kind) htokens.symm)
    rw [List.map_append, List.map_cons, List.map_cons, hfeed] at htokens'
    exact htokens'
  have hbreakable := hpassage.breakable_of_mem hkinds (by simp [Cursor.kinds]) (by rwa [List.append_nil])
  rwa [List.append_nil] at hbreakable

end Programs

end RowConsole.Script.Grammar
