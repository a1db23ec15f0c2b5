import RowConsole.Proofs.Script.Grammar.Precedence
import RowConsole.Proofs.Script.Grammar.Taking

/-!
# Expressions That Are Nothing but Their Heads

Where the procedures for expressions find no operator in front, each of them starts by reading a primary expression.
Where nothing behind that continues it, all of them end there: what is known of the primary expression, if there is
one, is known of the whole expression then.

Main statement: `gives_expr`.
-/

namespace RowConsole.Script.Grammar

variable {α β : Type}

/-! ## Section 1: What Is Read at a Cursor -/

/-- If a reader succeeds at a cursor, then what it reads there and where it ends are good. -/
def Gives (p : Parser α) (c : Cursor) (good : α → Cursor → Prop) : Prop :=
  ∀ a c', p c = .ok (a, c') → good a c'

namespace Gives

variable {p : Parser α} {k : α → Parser β} {c c' : Cursor} {a : α} {good : α → Cursor → Prop}
  {good' : β → Cursor → Prop}

/-- A reader that fails is good for everything. -/
theorem error {stop : Stop} (h : p c = .error stop) : Gives p c good := by
  intro a c' hok
  rw [h] at hok
  contradiction

/-- A reader that takes nothing ends where it started. -/
protected theorem pure (h : good a c) : Gives (pure a) c good := by
  intro b d hok
  cases hok
  exact h

/-- A reader whose outcome is known, in front of others. -/
theorem step (hp : p c = .ok (a, c')) (hk : Gives (k a) c' good') : Gives (p >>= k) c good' := by
  intro b d hok
  rw [bind_apply, hp] at hok
  exact hk b d hok

/-- What the first reader gives is what the second one may use. -/
protected theorem bind (h : Gives p c good) (hk : ∀ a c', good a c' → Gives (k a) c' good') :
    Gives (p >>= k) c good' := by
  intro b d hok
  obtain ⟨a, c₁, hp, hok⟩ := bind_eq_ok hok
  exact hk a c₁ (h a c₁ hp) b d hok

/-- The kind of the current token may be used, and nothing is taken. -/
theorem peek {k : TokenKind → Parser β} (hk : Gives (k c.kind) c good') : Gives (Grammar.peek >>= k) c good' :=
  step rfl hk

end Gives

/-- Entering a level of nesting takes no token. -/
private theorem gives_enter (depth : Nat) (c : Cursor) : Gives (enter depth) c fun _ c' => c' = c := by
  intro depth' c' hok
  unfold enter at hok
  split at hok
  · contradiction
  · cases hok
    rfl

/-! ## Section 2: Heads -/

section Heads

variable {c : Cursor} {good : Expr → Cursor → Prop}

/-- Wherever a good head ends, nothing continues it. -/
def EndsThere (good : Expr → Cursor → Prop) : Prop :=
  ∀ e c', good e c' → EndsBefore 0 c'.kind (c'.rest.map Token.kind)

variable (hends : EndsThere good)

include hends

/-- Nothing continues the head, so that no member, index or call is read behind it. -/
private theorem gives_chainFrom (fuel depth : Nat) {e : Expr} (he : good e c) : Gives
    (chainFrom fuel depth e) c good := by
  cases fuel with
  | zero => exact Gives.error rfl
  | succ fuel =>
    have hhere := hends e c he
    have hskip : skipToChain c = .ok ((), c) := by
      unfold skipToChain
      show (if continuesChain c = true then skipNewlines else pure () : Parser Unit) c = _
      rw [continuesChain_eq_false rfl hhere.line]
      rfl
    have hlinks := hhere.links
    unfold chainFrom
    refine Gives.step hskip (Gives.peek ?_)
    -- no member, index or call starts here
    split
    iterate 3
      next hkind =>
        rw [hkind] at hlinks
        contradiction
    exact Gives.pure he

/-- Nothing continues the head, so that no operator of any level is read behind it. -/
private theorem gives_binaryFrom (fuel depth : Nat) (level : Level) {e : Expr} (he : good e c) :
    Gives (binaryFrom fuel depth level e) c good := by
  cases fuel with
  | zero => exact Gives.error rfl
  | succ fuel =>
    unfold binaryFrom
    refine Gives.peek (Gives.step (rfl : position c = .ok (c.token.pos, c)) ?_)
    rw [(hends e c he).join level (Nat.zero_le _)]
    exact Gives.pure he

variable (hplain : unaryOp? c.kind = none) (hhead : ∀ fuel depth, Gives (primary fuel depth) c good)

include hplain hhead

/-- Without an operator in front a chain is read, which is its head. -/
theorem gives_unary (fuel depth : Nat) : Gives (unary fuel depth) c good := by
  have hchain : ∀ fuel depth, Gives (chain fuel depth) c good := by
    intro fuel depth
    cases fuel with
    | zero => exact Gives.error rfl
    | succ fuel =>
      unfold chain
      exact (hhead fuel depth).bind fun e c' he => gives_chainFrom hends fuel depth he
  cases fuel with
  | zero => exact Gives.error rfl
  | succ fuel =>
    unfold unary
    apply Gives.peek
    rw [hplain]
    exact hchain fuel depth

/-- Every level of operators gives what the one below it gives. -/
private theorem gives_operand (fuel depth : Nat) (level : Level) :
    Gives (operand fuel depth level) c good ∧ Gives (binary fuel depth level) c good := by
  -- the two call each other with a smaller bound, once at the next level and once at the same one
  induction fuel generalizing level with
  | zero => exact ⟨Gives.error rfl, Gives.error rfl⟩
  | succ fuel ih =>
    constructor
    · unfold operand
      split
      · exact (ih _).2
      · exact gives_unary hends hplain hhead fuel depth
    · unfold binary
      exact (ih level).1.bind fun e c' he => gives_binaryFrom hends fuel depth level he

/-- An expression is its head where nothing stands in front of that and nothing continues it. -/
theorem gives_expr (fuel depth : Nat) : Gives (expr fuel depth) c good := by
  cases fuel with
  | zero => exact Gives.error rfl
  | succ fuel =>
    unfold expr
    refine (gives_enter depth c).bind fun depth' c' hc' => ?_
    rw [hc']
    exact (gives_operand hends hplain hhead fuel depth' .or).2

end Heads

end RowConsole.Script.Grammar
