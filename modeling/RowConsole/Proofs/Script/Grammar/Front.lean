import RowConsole.Proofs.Script.Grammar.Heads
import RowConsole.Proofs.Script.Grammar.Locality

/-!
# Statements in Front of a Seam

Statements that can be read alone come first when they are read with more behind a seam, in a program as well
as between braces. Where they cannot be read alone, no brace behind the seam closes them.

Main statements: `statements_front` and `statements_front_failed`.
-/

namespace RowConsole.Script.Grammar

/-! ## Section 1: Tokens That Start No Statement -/

/-- Tokens that end or continue a construct and start none. -/
def startsNothing : TokenKind → Bool
  | .symbol .braceClose | .symbol .dot | .keyword .elses => true
  | _ => false

/-- There are three such tokens. -/
private theorem startsNothing_cases {kind : TokenKind} (h : startsNothing kind = true) :
    kind = .symbol .braceClose ∨ kind = .symbol .dot ∨ kind = .keyword .elses := by
  unfold startsNothing at h
  split at h
  · exact Or.inl rfl
  · exact Or.inr (Or.inl rfl)
  · exact Or.inr (Or.inr rfl)
  · contradiction

/-- Tokens that start an operand, or an operator in front of one. -/
def startsOperand : TokenKind → Bool
  | .int _ | .float _ | .str _ | .ident _ => true
  | .keyword .trues | .keyword .falses | .keyword .nulls => true
  | .symbol .parenOpen | .symbol .bracketOpen | .symbol .braceOpen | .symbol .minus | .symbol .not => true
  | _ => false

/-- A token that starts nothing starts no operand. -/
private theorem startsOperand_of_startsNothing {kind : TokenKind} (h : startsNothing kind = true) :
    startsOperand kind = false := by
  rcases startsNothing_cases h with rfl | rfl | rfl <;> rfl

section Refuses

variable {α β : Type} {fuel : Nat} {c : Cursor}

/-- A reader does not succeed at a cursor. -/
def Refuses (p : Parser α) (c : Cursor) : Prop :=
  ∀ a c', p c ≠ .ok (a, c')

/-- A reader that fails does not succeed. -/
theorem Refuses.error {p : Parser α} {stop : Stop} (h : p c = .error stop) : Refuses p c := by
  intro a c' hok
  rw [h] at hok
  contradiction

/-- Nothing that is put behind a reader that refuses makes it succeed. -/
theorem Refuses.bind {p : Parser α} (h : Refuses p c) (k : α → Parser β) : Refuses (p >>= k) c := by
  intro b c' hok
  obtain ⟨a, c₁, hp, _⟩ := bind_eq_ok hok
  exact h a c₁ hp

theorem peek_apply (k : TokenKind → Parser α) (c : Cursor) : (peek >>= k) c = k c.kind c :=
  rfl

section Operands

variable (hc : startsOperand c.kind = false)

include hc

/-- A primary expression starts with a token for operands. -/
private theorem primary_refuses (fuel depth : Nat) : Refuses (primary fuel depth) c := by
  cases fuel with
  | zero => exact Refuses.error rfl
  | succ fuel =>
    have hprimary : primary (fuel + 1) depth c = unexpected "expression" c := by
      rw [primary_eq, peek_apply]
      cases hkind : c.kind with
      | keyword k | symbol k =>
        rw [hkind] at hc
        cases k <;> first | rfl | contradiction
      | newline | eof => rfl
      | _ =>
        rw [hkind] at hc
        contradiction
    intro a c' hok
    rw [hprimary] at hok
    contradiction

/-- An operator in front of an operand is a token that can start one. -/
private theorem unaryOp?_eq_none : unaryOp? c.kind = none := by
  unfold unaryOp?
  split
  · next hkind =>
    rw [hkind] at hc
    contradiction
  · next hkind =>
    rw [hkind] at hc
    contradiction
  · rfl

/-- A unary expression needs its operand. -/
theorem unary_refuses (fuel depth : Nat) : Refuses (unary fuel depth) c :=
  -- there is no head, so that it does not matter what could continue one
  gives_unary (fun _ _ hnothing => hnothing.elim) (unaryOp?_eq_none hc) (primary_refuses hc) fuel depth

/-- An expression needs its first operand. -/
theorem expr_refuses (fuel depth : Nat) : Refuses (expr fuel depth) c :=
  gives_expr (fun _ _ hnothing => hnothing.elim) (unaryOp?_eq_none hc) (primary_refuses hc) fuel depth

end Operands

section Statements

variable (hc : startsNothing c.kind = true)

include hc

/-- No statement starts with a token that starts nothing. -/
theorem statement_refuses (fuel depth : Nat) : Refuses (statement fuel depth) c := by
  cases fuel with
  | zero => exact Refuses.error rfl
  | succ fuel =>
    -- A token that starts nothing is no keyword of a statement and no command.
    have hstatement : statement (fuel + 1) depth c = simple fuel depth c := by
      have hcommand : isCommandCall c = false := by
        unfold isCommandCall
        rcases startsNothing_cases hc with hc | hc | hc <;> rw [hc]
      have hsimple : (if isCommandCall c = true then commandCall fuel depth else simple fuel depth) c =
          simple fuel depth c := by
        rw [hcommand]
        rfl
      unfold statement
      rw [peek_apply]
      rcases startsNothing_cases hc with hc | hc | hc <;> rw [hc] <;> exact hsimple
    intro a c' hok
    rw [hstatement] at hok
    cases fuel with
    | zero => contradiction
    | succ fuel =>
      unfold simple at hok
      obtain ⟨start, c₁, hposition, hok⟩ := bind_eq_ok hok
      cases hposition
      exact (expr_refuses (startsOperand_of_startsNothing hc) fuel depth).bind _ a c' hok

end Statements

end Refuses

/-! ## Section 2: Statements in Front of a Seam -/

namespace Seam

variable {s : Seam} {c d : Cursor} {fuel depth : Nat} {stop : TokenKind}

/-- The part behind the seam is at most what is left. -/
theorem Facing.weight_le (hcd : s.Facing c d) : s.beyond.weight ≤ d.weight := by
  cases hcd with
  | atEnd => exact Nat.le_refl _
  | inside t ts _ => exact Cursor.From.weight_le ⟨s.move t :: ts.map s.move, rfl⟩

/-- In front of the seam there is a token more, unless it is a line feed. -/
private theorem Inside.weight_lt (hin : s.Inside c d) (hnewline : c.kind ≠ .newline) : s.beyond.weight < d.weight :=
  Nat.lt_of_le_of_lt hin.advance.weight_le (Cursor.weight_advance_lt hin.facing.closed
    (hin.kind_eq ▸ hin.kind_ne) (hin.kind_eq ▸ hnewline))

/-- One more statement, behind which the next may start. -/
theorem statementsHere_cons {stmt : Stmt} {c₁ : Cursor} (hstop : c.kind ≠ stop) (heof : c.kind ≠ .eof)
    (hstmt : statement fuel depth c = .ok (stmt, c₁))
    (hend : (isSeparator c₁.kind || c₁.kind = .eof || c₁.kind = stop) = true) :
    statementsHere fuel depth stop c =
      (statements fuel depth stop c₁).bind fun (stmts, c') => .ok (stmt :: stmts, c') := by
  unfold statementsHere
  rw [peek_apply, if_neg (by simp [hstop, heof]), bind_apply, hstmt]
  show (peek >>= _ : Parser (List Stmt)) c₁ = _
  rw [peek_apply, if_pos hend]
  rfl

/-- A statement that fails makes the statements fail. -/
private theorem statementsHere_error {stop' : Stop} (hstop : c.kind ≠ stop) (heof : c.kind ≠ .eof)
    (hstmt : statement fuel depth c = .error stop') :
    statementsHere fuel depth stop c = .error stop' := by
  unfold statementsHere
  rw [peek_apply, if_neg (by simp [hstop, heof]), bind_apply, hstmt]
  rfl

/-- Statements end at the closing token. -/
theorem statementsHere_stop (hstop : c.kind = stop) : statementsHere fuel depth stop c = .ok ([], c) := by
  unfold statementsHere
  rw [peek_apply, if_pos (by simp [hstop])]
  rfl

/-- Statements from a token on that does not end them are one statement and the statements behind it. -/
theorem statementsHere_ok {stmts : List Stmt} {c' : Cursor} (hstop : c.kind ≠ stop) (heof : c.kind ≠ .eof)
    (h : statementsHere fuel depth stop c = .ok (stmts, c')) :
    ∃ stmt c₁ rest, statement fuel depth c = .ok (stmt, c₁) ∧
      (isSeparator c₁.kind || c₁.kind = .eof || c₁.kind = stop) = true ∧
      statements fuel depth stop c₁ = .ok (rest, c') ∧ stmts = stmt :: rest := by
  unfold statementsHere at h
  rw [peek_apply, if_neg (by simp [hstop, heof])] at h
  obtain ⟨stmt, c₁, hstmt, h⟩ := bind_eq_ok h
  rw [peek_apply] at h
  split at h
  · next hend =>
    obtain ⟨rest, c₂, hrest, h⟩ := bind_eq_ok h
    cases h
    exact ⟨stmt, c₁, rest, hstmt, hend, hrest, rfl⟩
  · contradiction

/-- The statements of a piece that can be read alone come first in the longer list, in which the statements
behind the seam follow, up to the end of the input or to a closing brace. -/
theorem statements_front (hstop : stop = .eof ∨ stop = .symbol .braceClose) (hcd : s.Facing c d)
    {stmts : List Stmt} {c' : Cursor} (h : statements fuel depth .eof c = .ok (stmts, c')) :
    c' = ⟨s.last, []⟩ ∧ statements fuel depth stop d =
      (statements (fuel - stmts.length) depth stop s.beyond).bind fun (rest, d') =>
        .ok (mapPosStmts s.shift stmts ++ rest, d') := by
  induction fuel generalizing c d stmts with
  | zero => contradiction
  | succ fuel ih =>
    rw [statements_apply] at h
    rw [statements_apply]
    rcases hcd.skip isSeparator with hin | ⟨hc, hd⟩
    · generalize skipFrom isSeparator c.token c.rest = c₁ at h hin
      generalize skipFrom isSeparator d.token d.rest = d₁ at hin ⊢
      obtain ⟨stmt, c₂, rest, hstmt, hend, hrest, rfl⟩ := statementsHere_ok hin.kind_ne hin.kind_ne h
      -- the longer list has the same statement here, and another one may follow it there too
      obtain ⟨d₂, hstmt', hcd₂⟩ := ((s.allAgree fuel).statement depth hin.facing).ok_eq hstmt
      have hend' : (isSeparator d₂.kind || d₂.kind = .eof || d₂.kind = stop) = true := by
        have hask := hcd₂.ask (fun kind => isSeparator kind || kind = .eof) (by simp [isSeparator])
        simp_all
      have hkind : d₁.kind ≠ stop := by
        rw [hin.kind_eq]
        rcases hstop with rfl | rfl
        · exact hin.kind_ne
        · exact fun hbrace => statement_refuses (by rw [hbrace]; rfl) fuel depth _ _ hstmt
      obtain ⟨hc', hrest'⟩ := ih hcd₂ hrest
      refine ⟨hc', ?_⟩
      rw [statementsHere_cons hkind (hin.kind_eq ▸ hin.kind_ne) hstmt' hend', hrest']
      simp only [List.length_cons, Nat.add_sub_add_right]
      cases statements (fuel - rest.length) depth stop s.beyond <;> rfl
    · -- the piece has no further statement
      rw [hc, statementsHere_last] at h
      cases h
      refine ⟨rfl, ?_⟩
      rw [hd]
      show _ = (statementsHere fuel depth stop (skipFrom isSeparator s.next s.rest)).bind _
      cases statementsHere fuel depth stop (skipFrom isSeparator s.next s.rest) <;> rfl

/-- Statements up to a closing brace end where one stands. -/
theorem eq_of_statements_brace {stmts : List Stmt} {d' : Cursor} (hbrace : d.kind = .symbol .braceClose)
    (h : statements fuel depth (.symbol .braceClose) d = .ok (stmts, d')) : d = d' := by
  cases fuel with
  | zero => contradiction
  | succ fuel =>
    rw [statements_apply, skipFrom_of_not (by rw [hbrace]; rfl), statementsHere_stop hbrace] at h
    cases h
    rfl

/-- Where a piece cannot be read alone, statements up to a closing brace end before the seam or behind it but
not at it. -/
theorem statements_front_failed (hcd : s.Facing c d) {e : ScriptError}
    (h : statements fuel depth .eof c = .error (.failed e)) {stmts : List Stmt} {d' : Cursor}
    (hd : statements fuel depth (.symbol .braceClose) d = .ok (stmts, d')) :
    d'.weight ≠ s.beyond.weight := by
  induction fuel generalizing c d stmts with
  | zero => contradiction
  | succ fuel ih =>
    rw [statements_apply] at h hd
    rcases hcd.skip isSeparator with hin | ⟨hc, _⟩
    · generalize skipFrom isSeparator c.token c.rest = c₁ at h hin
      generalize skipFrom isSeparator d.token d.rest = d₁ at hin hd
      by_cases hbrace : d₁.kind = .symbol .braceClose
      · -- a brace of the piece itself closes the statements
        rw [statementsHere_stop hbrace] at hd
        cases hd
        exact Nat.ne_of_gt (hin.weight_lt (by simp [← hin.kind_eq, hbrace]))
      have heof : d₁.kind ≠ .eof := hin.kind_eq ▸ hin.kind_ne
      obtain ⟨stmt', d₂, rest, hstmt', hend', hrest', rfl⟩ := statementsHere_ok hbrace heof hd
      cases hstmt : statement fuel depth c₁ with
      | error stop =>
        rw [statementsHere_error hin.kind_ne hin.kind_ne hstmt] at h
        cases h
        -- the first statement reaches over the seam, and what follows does not come back
        obtain ⟨_, hlt⟩ := ((s.allAgree fuel).statement depth hin.facing).failed e hstmt stmt' d₂ hstmt'
        exact Nat.ne_of_lt (Nat.lt_of_le_of_lt (Shrinks.shrinks hrest').weight_le hlt)
      | ok read =>
        obtain ⟨stmt, c₂⟩ := read
        obtain ⟨d₂', hread, hcd₂⟩ := ((s.allAgree fuel).statement depth hin.facing).ok_eq hstmt
        cases hstmt'.symm.trans hread
        cases hend : (isSeparator c₂.kind || c₂.kind = .eof || c₂.kind = .eof : Bool) with
        | true =>
          rw [statementsHere_cons hin.kind_ne hin.kind_ne hstmt hend] at h
          cases hrest : statements fuel depth .eof c₂ with
          | ok read =>
            rw [hrest] at h
            contradiction
          | error stop =>
            rw [hrest] at h
            cases h
            exact ih hcd₂ hrest hrest'
        | false =>
          -- the statement ends at a brace of the piece, where the statements end in the longer list
          have hask := hcd₂.ask (fun kind => isSeparator kind || kind = .eof) (by simp [isSeparator])
          have hbrace₂ : d₂.kind = .symbol .braceClose := by simp_all
          have hin₂ := hcd₂.isInside (by simp [(hcd₂.kind_eq_iff (by simp) (by simp)).mp hbrace₂])
          obtain rfl := eq_of_statements_brace hbrace₂ hrest'
          exact Nat.ne_of_gt (hin₂.weight_lt (by simp [← hin₂.kind_eq, hbrace₂]))
    · rw [hc, statementsHere_last] at h
      contradiction

end Seam

end RowConsole.Script.Grammar
