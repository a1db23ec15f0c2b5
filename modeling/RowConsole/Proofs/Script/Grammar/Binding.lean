import RowConsole.Proofs.Script.Grammar.Front
import RowConsole.Proofs.Script.Grammar.Statements

/-!
# Tokens of Bindings

A name with an equals sign behind it starts an assignment to that name, and with the keyword of declarations in front a
declaration of it. No token that follows changes that: it can only make the reading fail.

Main statement: `parseTokens_binding`.
-/

namespace RowConsole.Script

/-- The name that a statement binds: a variable that is declared, or a name that is assigned. -/
def Stmt.boundName? : Stmt → Option String
  | .declare name _ _ => some name
  | .assign (.var name _) _ _ _ => some name
  | _ => none

namespace Grammar

/-- Tokens that start with a binding of a name. -/
inductive StartsBinding (name : String) : List TokenKind → Prop where
  | assignment (rest : List TokenKind) : StartsBinding name (.ident name :: .symbol .assign :: rest)
  | declaration (rest : List TokenKind) :
    StartsBinding name (.keyword .defines :: .ident name :: .symbol .assign :: rest)

theorem StartsBinding.first {name : String} {kind : TokenKind} {rest : List TokenKind}
    (h : StartsBinding name (kind :: rest)) : isSeparator kind = false ∧ kind ≠ .eof := by
  cases h <;> simp [isSeparator]

section Statements

variable {α β : Type} {c : Cursor} {name : String} {rest : List TokenKind}

/-- What a reader in front of others reads does not matter where it does not matter to them. -/
theorem Gives.behind {p : Parser α} {k : α → Parser β} {good : β → Cursor → Prop}
    (hk : ∀ a c', Gives (k a) c' good) : Gives (p >>= k) c good := by
  have hany : Gives p c fun _ _ => True := fun _ _ _ => trivial
  exact hany.bind fun a c' _ => hk a c'

/-- A statement that is read binds a name. -/
def GivesBinding (p : Parser Stmt) (c : Cursor) (name : String) : Prop :=
  Gives p c fun s _ => s.boundName? = some name

private theorem primary_ident (hc : c.kind = .ident name) (fuel depth : Nat) :
    Gives (primary fuel depth) c fun e c' => e = .var name c.token.pos ∧ c' = c.advance := by
  cases fuel with
  | zero => exact Gives.error rfl
  | succ fuel =>
    rw [primary_eq]
    apply Gives.peek
    rw [hc]
    refine Gives.step (rfl : position c = .ok (c.token.pos, c)) ?_
    exact Gives.step (rfl : advance c = .ok (c.token, c.advance)) (Gives.pure ⟨rfl, rfl⟩)

/-- Nothing but the name is read in front of the equals sign. -/
theorem expr_ident (hc : c.kinds = .ident name :: .symbol .assign :: rest) (fuel depth : Nat) :
    Gives (expr fuel depth) c fun e c' => e = .var name c.token.pos ∧ c' = c.advance := by
  have hkind := Cursor.kind_eq hc
  have hbehind : c.advance.kinds = .symbol .assign :: rest := Cursor.kinds_advance hc (by simp)
  apply gives_expr
  case hends =>
    rintro e c' ⟨_, rfl⟩
    rw [Cursor.kind_eq hbehind]
    exact endsBefore_assign .set _
  case hplain =>
    rw [hkind]
    rfl
  case hhead => exact primary_ident hkind

private theorem simple_assignment (hc : c.kinds = .ident name :: .symbol .assign :: rest) (fuel depth : Nat) :
    GivesBinding (simple fuel depth) c name := by
  cases fuel with
  | zero => exact Gives.error rfl
  | succ fuel =>
    have hbehind : c.advance.kind = .symbol .assign := Cursor.kind_eq (Cursor.kinds_advance hc (by simp))
    unfold simple
    refine Gives.step (rfl : position c = .ok (c.token.pos, c)) ?_
    refine (expr_ident hc fuel depth).bind fun target c' htarget => ?_
    obtain ⟨rfl, rfl⟩ := htarget
    apply Gives.peek
    rw [hbehind]
    -- behind the equals sign only the value is left to read
    exact Gives.behind fun _ _ => Gives.behind fun _ _ => Gives.behind fun value _ => Gives.pure rfl

private theorem statement_assignment (hc : c.kinds = .ident name :: .symbol .assign :: rest) (fuel depth : Nat) :
    GivesBinding (statement fuel depth) c name := by
  cases fuel with
  | zero => exact Gives.error rfl
  | succ fuel =>
    -- a name could also start a call without parentheses, but an equals sign starts no argument
    have hcommand : isCommandCall c = false := isCommandCall_eq_false (Opens.single rfl) hc rfl
    unfold statement
    apply Gives.peek
    rw [Cursor.kind_eq hc]
    refine Gives.step (rfl : (get : Parser Cursor) c = .ok (c, c)) ?_
    rw [hcommand]
    exact simple_assignment hc fuel depth

private theorem declaration_binding (hc : c.kinds = .keyword .defines :: .ident name :: .symbol .assign :: rest)
    (fuel depth : Nat) : GivesBinding (declaration fuel depth) c name := by
  cases fuel with
  | zero => exact Gives.error rfl
  | succ fuel =>
    have hname := Cursor.kinds_advance hc (by simp)
    have hassign := Cursor.kind_eq (Cursor.kinds_advance hname (by simp))
    have hident : expectIdent c.advance = .ok (name, c.advance.advance) := by
      rw [expectIdent, peek_apply, Cursor.kind_eq hname]
      rfl
    have htake : eat (.symbol .assign) c.advance.advance = .ok (true, c.advance.advance.advance) := by
      show (if c.advance.advance.kind = .symbol .assign then _ else _ : Parser Bool) c.advance.advance = _
      rw [if_pos hassign]
      rfl
    unfold declaration
    -- Three tokens are known, so the parser is followed through them; what comes behind does not matter.
    refine Gives.step (rfl : advance c = .ok (c.token, c.advance)) (Gives.step hident (Gives.peek ?_))
    rw [hassign]
    refine Gives.step htake ?_
    exact Gives.behind fun _ _ => Gives.behind fun value _ => Gives.pure rfl

private theorem statement_declaration (hc : c.kinds = .keyword .defines :: .ident name :: .symbol .assign :: rest)
    (fuel depth : Nat) : GivesBinding (statement fuel depth) c name := by
  cases fuel with
  | zero => exact Gives.error rfl
  | succ fuel =>
    unfold statement
    apply Gives.peek
    rw [Cursor.kind_eq hc]
    exact declaration_binding hc fuel depth

/-- A statement that starts like a binding of a name binds it, if it can be read. -/
theorem statement_binding (hc : StartsBinding name c.kinds) (fuel depth : Nat) :
    GivesBinding (statement fuel depth) c name := by
  generalize hkinds : c.kinds = kinds at hc
  cases hc with
  | assignment rest => exact statement_assignment hkinds fuel depth
  | declaration rest => exact statement_declaration hkinds fuel depth

end Statements

/-- Statements that are read from a token on that does not end or separate them have a first one, which stands there. -/
theorem statements_first {fuel depth : Nat} {stop : TokenKind} {c c' : Cursor} {stmts : List Stmt}
    (hseparator : isSeparator c.kind = false) (hstop : c.kind ≠ stop) (heof : c.kind ≠ .eof)
    (h : statements fuel depth stop c = .ok (stmts, c')) :
    ∃ bound s c₁ rest, statement bound depth c = .ok (s, c₁) ∧ stmts = s :: rest := by
  cases fuel with
  | zero => contradiction
  | succ fuel =>
    rw [statements_apply, skipFrom_of_not hseparator] at h
    obtain ⟨s, c₁, rest, hstatement, _, _, rfl⟩ := Seam.statementsHere_ok hstop heof h
    exact ⟨fuel, s, c₁, rest, hstatement, rfl⟩

/-- A program whose tokens start with a binding of a name binds it in its first statement. -/
theorem parseTokens_binding {name : String} {ts : List Token} {program : List Stmt}
    (hts : StartsBinding name (ts.map Token.kind)) (h : parseTokens ts = .ok program) :
    ∃ s rest, program = s :: rest ∧ s.boundName? = some name := by
  cases ts with
  | nil => contradiction
  | cons t ts =>
    have hc : StartsBinding name (Cursor.kinds ⟨t, ts⟩) := hts
    simp only [parseTokens] at h
    split at h
    · next stmts c' hprogram =>
      cases h
      -- The program is its statements; the name is bound by the first of them.
      obtain ⟨stmts', c₁, hstatements, hend⟩ := bind_eq_ok hprogram
      obtain ⟨_, _, _, hend⟩ := bind_eq_ok hend
      cases hend
      obtain ⟨hseparator, heof⟩ := hc.first
      obtain ⟨bound, s, c₂, rest, hstatement, rfl⟩ := statements_first hseparator heof heof hstatements
      exact ⟨s, rest, rfl, statement_binding hc bound 0 s c₂ hstatement⟩
    · contradiction

end Grammar

end RowConsole.Script
