import RowConsole.Proofs.Script.Grammar.Indexed.Totality
import RowConsole.Proofs.Script.RoundTrip

/-!
# Constructs Around One Another

How many constructs stand around the innermost part of a program, and what the limit on nesting says about it.
The limit is kept by expressions, blocks and closures: a program that is read has at most as many of them
around one another as the limit allows, and the counter that is kept while reading goes beyond the limit only to
fail. The bodies of named functions and the conditions that stand as the alternative of another one are read
without being counted, so that any number of them may stand around one another.
-/

namespace RowConsole.Script

open Grammar (Level maxNesting)

/-! ## Section 1: Enclosing Constructs -/

def Expr.isClosure : Expr → Bool
  | .closure _ _ _ => true
  | _ => false

/-- Whether the alternative of a condition is another condition and nothing else. -/
def isElseIf : List Stmt → Bool
  | [.branch _ _ _] => true
  | _ => false

mutual

/-- How many constructs stand around the innermost part of an expression: parentheses where they are needed,
brackets, unary operators, closures and the bodies in them. With `all` the bodies of named functions and
conditions as alternatives are constructs as well. -/
@[simp] def Expr.enclosing (all : Bool) : Expr → Nat
  | .list items => enclosingItems all items
  | .map entries => enclosingEntries all entries
  | .unary _ operand _ => deepen (operand.rank < unaryRank) (operand.enclosing all) + 1
  | .binary op left right _ =>
    max (deepen (left.rank < op.level.rank) (left.enclosing all))
      (deepen (right.rank < op.level.rank + 1) (right.enclosing all))
  | .and left right =>
    max (deepen (left.rank < Level.and.rank) (left.enclosing all))
      (deepen (right.rank < Level.and.rank + 1) (right.enclosing all))
  | .or left right =>
    max (deepen (left.rank < Level.or.rank) (left.enclosing all))
      (deepen (right.rank < Level.or.rank + 1) (right.enclosing all))
  | .member object _ _ => deepen (object.rank < chainRank) (object.enclosing all)
  | .index object place _ =>
    max (deepen (object.rank < chainRank) (object.enclosing all)) (place.enclosing all + 1)
  | .call callee args _ =>
    max (deepen (callee.rank < chainRank) (callee.enclosing all)) (enclosingArgs all args)
  | .method receiver _ args _ =>
    max (deepen (receiver.rank < chainRank) (receiver.enclosing all)) (enclosingArgs all args)
  | .closure _ body _ => enclosingStmts all body + 1
  | _ => 0

/-- The items of a list stand in brackets. -/
@[simp] def enclosingItems (all : Bool) : List Expr → Nat
  | [] => 0
  | e :: rest => max (e.enclosing all + 1) (enclosingItems all rest)

/-- Arguments stand in parentheses, unless the last one is a closure, which may stand behind them. -/
@[simp] def enclosingArgs (all : Bool) : List Expr → Nat
  | [] => 0
  | e :: rest => max (deepen (!(e.isClosure && rest.isEmpty)) (e.enclosing all)) (enclosingArgs all rest)

@[simp] def enclosingEntries (all : Bool) : List (String × Expr) → Nat
  | [] => 0
  | (_, e) :: rest => max (e.enclosing all + 1) (enclosingEntries all rest)

/-- How many constructs stand around the innermost part of a statement: besides those of its expressions the
parentheses of conditions and loops, blocks, and what `all` adds. -/
@[simp] def Stmt.enclosing (all : Bool) : Stmt → Nat
  | .expr e => e.enclosing all
  | .declare _ (some e) _ => e.enclosing all
  | .assign target _ e _ => max (target.enclosing all) (e.enclosing all)
  | .function _ _ body _ => deepen all (enclosingStmts all body)
  | .branch cond thenBody none => max (cond.enclosing all + 1) (enclosingStmts all thenBody + 1)
  | .branch cond thenBody (some elseBody) =>
    max (cond.enclosing all + 1) (max (enclosingStmts all thenBody + 1)
      (deepen (all || !isElseIf elseBody) (enclosingStmts all elseBody)))
  | .whileLoop cond body => max (cond.enclosing all + 1) (enclosingStmts all body + 1)
  | .forLoop _ items body _ => max (items.enclosing all + 1) (enclosingStmts all body + 1)
  | .returns (some e) => e.enclosing all
  | _ => 0

@[simp] def enclosingStmts (all : Bool) : List Stmt → Nat
  | [] => 0
  | s :: rest => max (s.enclosing all) (enclosingStmts all rest)

end

/-- Parentheses count as one construct at most. -/
private theorem deepen_le (enclosed : Bool) (n : Nat) : deepen enclosed n ≤ n + 1 := by
  cases enclosed
  · exact Nat.le_succ n
  · exact Nat.le_refl _

/-- Parentheses never count less than nothing. -/
private theorem le_deepen (enclosed : Bool) (n : Nat) : n ≤ deepen enclosed n := by
  cases enclosed
  · exact Nat.le_refl n
  · exact Nat.le_succ n

namespace Grammar

variable {α β : Type}

/-! ## Section 2: What Is Read Within the Limit -/

/-- An expression fits at a depth where the operators around it hold together as tightly as `rank`. -/
def Fits (depth rank : Nat) (e : Expr) : Prop :=
  depth + deepen (e.rank < rank) (e.enclosing false) ≤ maxNesting

namespace Fits

variable {depth rank rank' : Nat} {e : Expr}

/-- What fits at a depth fits without counting its parentheses. -/
theorem le (h : Fits depth rank e) : depth + e.enclosing false ≤ maxNesting :=
  Nat.le_trans (Nat.add_le_add_left (le_deepen _ _) _) h

/-- Nothing needs parentheses where it holds together tightly enough. -/
theorem of_rank (hrank : rank ≤ e.rank) (h : depth + e.enclosing false ≤ maxNesting) : Fits depth rank e := by
  -- no parentheses are needed, so nothing is added
  have hneedless : decide (e.rank < rank) = false := decide_eq_false (Nat.not_lt.mpr hrank)
  rw [Fits, hneedless]
  exact h

/-- Fewer parentheses are needed where operators hold together less tightly. -/
theorem mono (h : Fits depth rank e) (hle : rank' ≤ rank) : Fits depth rank' e := by
  by_cases hrank : e.rank < rank'
  · have hrank' : e.rank < rank := Nat.lt_of_lt_of_le hrank hle
    rw [Fits, decide_eq_true hrank'] at h
    rw [Fits, decide_eq_true hrank]
    exact h
  · exact of_rank (Nat.not_lt.mp hrank) h.le

/-- In parentheses everything fits that fits one deeper. -/
theorem parens (h : Fits (depth + 1) 0 e) : Fits depth rank e := by
  have hle := h.le
  have hdeepen := deepen_le (e.rank < rank) (e.enclosing false)
  unfold Fits
  omega

/-- Two operands of a level fit together as one of that level. -/
theorem join {level : Level} {kind : TokenKind} {p : Pos} {join : Expr → Expr → Expr} {left right : Expr}
    (hjoin : level.join? kind p = some join) (hleft : Fits depth level.rank left)
    (hright : Fits depth (level.rank + 1) right) : Fits depth level.rank (join left right) := by
  unfold Fits at hleft hright
  unfold Level.join? at hjoin
  split at hjoin
  · cases hjoin
    refine of_rank (Nat.le_refl _) ?_
    rw [Expr.enclosing]
    omega
  · cases hjoin
    refine of_rank (Nat.le_refl _) ?_
    rw [Expr.enclosing]
    omega
  · obtain ⟨op, hop, rfl⟩ := Option.map_eq_some_iff.mp hjoin
    -- An operator is read at its own level only, so the joined expression has the rank of that level.
    have hlevel : op.level = level := by
      unfold Level.operator? at hop
      split at hop <;> cases hop <;> rfl
    refine of_rank (Nat.le_of_eq (congrArg Level.rank hlevel.symm)) ?_
    rw [Expr.enclosing, hlevel]
    omega
  · contradiction

end Fits

open Indexed (Procedure)

/-- What a procedure reads at a depth fits there. -/
def Within (depth : Nat) : {α : Type} → Procedure α → α → Prop
  | _, .statements _, ss => depth + enclosingStmts false ss ≤ maxNesting
  | _, .braced, ss => depth + enclosingStmts false ss ≤ maxNesting
  | _, .block, ss => depth + 1 + enclosingStmts false ss ≤ maxNesting
  | _, .statement, s => depth + s.enclosing false ≤ maxNesting
  | _, .declaration, s => depth + s.enclosing false ≤ maxNesting
  | _, .condition, e => Fits (depth + 1) 0 e
  | _, .conditional, s => depth + s.enclosing false ≤ maxNesting ∧ isElseIf [s] = true
  | _, .forLoop, s => depth + s.enclosing false ≤ maxNesting
  | _, .commandCall, s => depth + s.enclosing false ≤ maxNesting
  | _, .commandArgs, args => ∀ e ∈ args, Fits (depth + 1) 0 e
  | _, .simple, s => depth + s.enclosing false ≤ maxNesting
  | _, .expr, e => Fits (depth + 1) 0 e
  | _, .binary level, e => Fits depth level.rank e
  | _, .binaryFrom level left, e => Fits depth level.rank left → Fits depth level.rank e
  | _, .operand level, e => Fits depth (level.rank + 1) e
  | _, .unary, e => Fits depth unaryRank e
  | _, .chain, e => Fits depth chainRank e
  | _, .chainFrom object, e => Fits depth chainRank object → Fits depth chainRank e
  | _, .callArgs, args => depth + enclosingArgs false args ≤ maxNesting
  | _, .argsFrom, args => ∀ e ∈ args, Fits (depth + 1) 0 e
  | _, .primary, e => Fits depth 8 e
  | _, .collection, e => Fits depth 8 e
  | _, .items, items => ∀ e ∈ items, Fits (depth + 1) 0 e
  | _, .entries, entries => ∀ entry ∈ entries, Fits (depth + 1) 0 entry.2
  | _, .closure, e => depth + e.enclosing false ≤ maxNesting ∧ e.isClosure = true

section Lists

variable {depth : Nat}

/-- A list fits if each of its items fits one deeper. -/
private theorem enclosingItems_le {items : List Expr} (hdepth : depth ≤ maxNesting)
    (h : ∀ e ∈ items, Fits (depth + 1) 0 e) : depth + enclosingItems false items ≤ maxNesting := by
  induction items with
  | nil => exact hdepth
  | cons e rest ih =>
    obtain ⟨he, hrest⟩ := List.forall_mem_cons.mp h
    have hle := he.le
    have hle' := ih hrest
    rw [enclosingItems]
    omega

/-- A map fits if each of its values fits one deeper. -/
private theorem enclosingEntries_le {entries : List (String × Expr)} (hdepth : depth ≤ maxNesting)
    (h : ∀ entry ∈ entries, Fits (depth + 1) 0 entry.2) : depth + enclosingEntries false entries ≤ maxNesting := by
  induction entries with
  | nil => exact hdepth
  | cons entry rest ih =>
    obtain ⟨key, e⟩ := entry
    obtain ⟨he, hrest⟩ := List.forall_mem_cons.mp h
    have hle := Fits.le (e := e) he
    have hle' := ih hrest
    rw [enclosingEntries]
    omega

/-- Arguments in parentheses fit if each of them fits one deeper. -/
private theorem enclosingArgs_le {args : List Expr} (hdepth : depth ≤ maxNesting)
    (h : ∀ e ∈ args, Fits (depth + 1) 0 e) : depth + enclosingArgs false args ≤ maxNesting := by
  induction args with
  | nil => exact hdepth
  | cons e rest ih =>
    obtain ⟨he, hrest⟩ := List.forall_mem_cons.mp h
    have hle := he.le
    have hle' := ih hrest
    have hdeepen := deepen_le (!(e.isClosure && rest.isEmpty)) (e.enclosing false)
    rw [enclosingArgs]
    omega

/-- A closure behind the parentheses fits where it fits by itself. -/
theorem enclosingArgs_append_le {args : List Expr} {closure : Expr} (hclosure : closure.isClosure = true)
    (hle : depth + closure.enclosing false ≤ maxNesting) (h : ∀ e ∈ args, Fits (depth + 1) 0 e) :
    depth + enclosingArgs false (args ++ [closure]) ≤ maxNesting := by
  induction args with
  | nil =>
    -- the closure alone is the last argument, around which no parentheses count
    have hfree : (!(closure.isClosure && ([] : List Expr).isEmpty)) = false := by rw [hclosure]; rfl
    rw [List.nil_append, enclosingArgs, hfree, enclosingArgs]
    have hsame : deepen false (closure.enclosing false) = closure.enclosing false := rfl
    omega
  | cons e rest ih =>
    obtain ⟨he, hrest⟩ := List.forall_mem_cons.mp h
    have hfits := he.le
    have hle' := ih hrest
    have hdeepen := deepen_le (!(e.isClosure && (rest ++ [closure]).isEmpty)) (e.enclosing false)
    rw [List.cons_append, enclosingArgs]
    omega

end Lists

/-- What a procedure reads is good whenever it succeeds. -/
def Yields (p : Parser α) (good : α → Prop) : Prop :=
  ∀ c a c', p c = .ok (a, c') → good a

namespace Yields

variable {p q : Parser α} {k : α → Parser β} {good : β → Prop} {made : α → Prop}

protected theorem pure {b : β} (h : good b) : Yields (pure b) good := by
  intro c a c' hread
  cases hread
  exact h

theorem exhausted : Yields (throw .exhausted) good := by
  intro c a c' hread
  contradiction

/-- A failure reads nothing that could be too deep. -/
theorem failWith (cause : Cause) (pos : Pos) : Yields (Grammar.failWith cause pos) good := by
  intro c a c' hread
  contradiction

theorem unexpected (expected : String) : Yields (Grammar.unexpected expected) good := by
  intro c a c' hread
  contradiction

/-- What is read last is what counts; what is read first may be used for it. -/
protected theorem bind (hp : Yields p made) (hk : ∀ a, made a → Yields (k a) good) : Yields (p >>= k) good := by
  intro c b c' hread
  obtain ⟨a, c₁, hfirst, hsecond⟩ := bind_eq_ok hread
  exact hk a (hp _ _ _ hfirst) _ _ _ hsecond

/-- Fewer parentheses are needed where operators hold together less tightly. -/
theorem mono {p : Parser β} {good' : β → Prop} (hp : Yields p good') (hgood : ∀ b, good' b → good b) :
    Yields p good :=
  fun c b c' hread => hgood b (hp c b c' hread)

/-- What is read first may be of no account. -/
theorem behind (hk : ∀ a, Yields (k a) good) : Yields (p >>= k) good := by
  have hany : Yields p fun _ => True := fun _ _ _ _ => trivial
  exact Yields.bind hany fun a _ => hk a

protected theorem ite {P : Prop} [Decidable P] {p q : Parser β} (hp : Yields p good) (hq : Yields q good) :
    Yields (if P then p else q) good := by
  split
  · exact hp
  · exact hq

/-- One construct more is entered within the limit only. -/
theorem enter {depth : Nat} {k : Nat → Parser β} (hk : depth + 1 ≤ maxNesting → Yields (k (depth + 1)) good) :
    Yields (Grammar.enter depth >>= k) good := by
  have hmade : Yields (Grammar.enter depth) fun depth' => depth' = depth + 1 ∧ depth + 1 ≤ maxNesting := by
    unfold Grammar.enter
    split
    · exact behind fun p => failWith _ p
    · next hwithin => exact Yields.pure ⟨rfl, Nat.not_lt.mp hwithin⟩
  refine Yields.bind hmade fun depth' hdepth' => ?_
  obtain ⟨rfl, hwithin⟩ := hdepth'
  exact hk hwithin

end Yields

section Steps

variable {fuel depth : Nat}
  (h : ∀ (depth : Nat) {α : Type} (q : Procedure α), depth ≤ maxNesting → Yields (q.read fuel depth) (Within depth q))

include h

/-- A block is entered as one construct. -/
private theorem within_block_step : Yields (block (fuel + 1) depth) (Within depth .block) := by
  unfold block
  refine Yields.enter fun hwithin => Yields.behind fun _ => Yields.behind fun taken =>
    Yields.ite (h (depth + 1) .braced hwithin) ?_
  refine Yields.bind (h (depth + 1) .statement hwithin)
    fun s (hs : depth + 1 + s.enclosing false ≤ maxNesting) => Yields.pure ?_
  show depth + 1 + enclosingStmts false [s] ≤ maxNesting
  rw [enclosingStmts, enclosingStmts]
  omega

/-- An expression is entered as one construct, which pays for the parentheses it may need. -/
private theorem within_expr_step : Yields (expr (fuel + 1) depth) (Within depth .expr) := by
  unfold expr
  exact Yields.enter fun hwithin => h (depth + 1) (.binary .or) hwithin

/-- A closure is entered as one construct. -/
private theorem within_closure_step : Yields (closure (fuel + 1) depth) (Within depth .closure) := by
  unfold closure
  refine Yields.behind fun start => Yields.enter fun hwithin => Yields.behind fun _ => Yields.behind fun c =>
    Yields.behind fun _ => ?_
  refine Yields.bind (h (depth + 1) .braced hwithin)
    fun body (hbody : depth + 1 + enclosingStmts false body ≤ maxNesting) => Yields.pure ⟨?_, rfl⟩
  rw [Expr.enclosing]
  omega

variable (hdepth : depth ≤ maxNesting)

include hdepth

/-- Statements fit if each of them fits. -/
private theorem within_statements_step (stop : TokenKind) :
    Yields (statements (fuel + 1) depth stop) (Within depth (.statements stop)) := by
  unfold statements
  refine Yields.behind fun _ => Yields.behind fun kind => Yields.ite (Yields.pure hdepth) ?_
  refine Yields.bind (h depth .statement hdepth) fun s (hs : depth + s.enclosing false ≤ maxNesting) => ?_
  refine Yields.behind fun kind => Yields.ite ?_ (Yields.unexpected _)
  refine Yields.bind (h depth (.statements stop) hdepth)
    fun rest (hrest : depth + enclosingStmts false rest ≤ maxNesting) => Yields.pure ?_
  show depth + enclosingStmts false (s :: rest) ≤ maxNesting
  rw [enclosingStmts]
  omega

/-- A body is read at the depth at which its brace was opened. -/
private theorem within_braced_step : Yields (braced (fuel + 1) depth) (Within depth .braced) := by
  unfold braced
  exact Yields.bind (h depth (.statements (.symbol .braceClose)) hdepth)
    fun body hbody => Yields.behind fun _ => Yields.pure hbody

/-- Loops read their conditions and their bodies one deeper; the other forms have their own procedures. -/
private theorem within_statement_step : Yields (statement (fuel + 1) depth) (Within depth .statement) := by
  unfold statement
  refine Yields.behind fun kind => ?_
  split
  · exact h depth .declaration hdepth
  · exact h depth .declaration hdepth
  · exact Yields.mono (h depth .conditional hdepth) fun s hs => hs.1
  · refine Yields.behind fun _ => Yields.bind (h depth .condition hdepth)
      fun cond (hcond : Fits (depth + 1) 0 cond) => ?_
    refine Yields.bind (h depth .block hdepth)
      fun body (hbody : depth + 1 + enclosingStmts false body ≤ maxNesting) => Yields.pure ?_
    -- The condition is read one level deeper than the loop, as the body is.
    have hle := hcond.le
    show depth + (Stmt.whileLoop cond body).enclosing false ≤ maxNesting
    rw [Stmt.enclosing]
    omega
  · exact h depth .forLoop hdepth
  · refine Yields.behind fun _ => Yields.behind fun kind => Yields.ite (Yields.pure hdepth) ?_
    refine Yields.bind (h depth .expr hdepth) fun e (he : Fits (depth + 1) 0 e) => Yields.pure ?_
    have hle := he.le
    show depth + (Stmt.returns (some e)).enclosing false ≤ maxNesting
    rw [Stmt.enclosing]
    omega
  · exact Yields.behind fun _ => Yields.pure hdepth
  · exact Yields.behind fun _ => Yields.pure hdepth
  · exact Yields.behind fun c => Yields.ite (h depth .commandCall hdepth) (h depth .simple hdepth)

/-- A named function is read without being counted. Its body is at the depth of the function. -/
private theorem within_declaration_step : Yields (declaration (fuel + 1) depth) (Within depth .declaration) := by
  unfold declaration
  refine Yields.behind fun start => Yields.behind fun name => Yields.behind fun kind => Yields.ite ?_ ?_
  · refine Yields.behind fun ps => Yields.behind fun _ => Yields.behind fun _ => ?_
    -- the body of a function is read at the depth of the function itself
    exact Yields.bind (h depth .braced hdepth) fun body hbody => Yields.pure hbody
  · refine Yields.behind fun taken => Yields.ite ?_ (Yields.pure hdepth)
    refine Yields.behind fun _ => Yields.bind (h depth .expr hdepth)
      fun e (he : Fits (depth + 1) 0 e) => Yields.pure ?_
    have hle := he.le
    show depth + (Stmt.declare name (some e) start.pos).enclosing false ≤ maxNesting
    rw [Stmt.enclosing]
    omega

/-- A condition stands in parentheses, which its expression pays for. -/
private theorem within_condition_step : Yields (condition (fuel + 1) depth) (Within depth .condition) := by
  unfold condition
  refine Yields.behind fun _ => Yields.behind fun _ => ?_
  exact Yields.bind (h depth .expr hdepth) fun cond hcond => Yields.behind fun _ => Yields.behind fun _ =>
    Yields.pure hcond

/-- A condition as the alternative is not counted, and any other alternative is a block. -/
private theorem within_conditional_step : Yields (conditional (fuel + 1) depth) (Within depth .conditional) := by
  unfold conditional
  refine Yields.behind fun _ => Yields.bind (h depth .condition hdepth)
    fun cond (hcond : Fits (depth + 1) 0 cond) => ?_
  refine Yields.bind (h depth .block hdepth)
    fun thenBody (hthen : depth + 1 + enclosingStmts false thenBody ≤ maxNesting) => ?_
  have hle := hcond.le
  -- with any alternative that fits the condition fits
  have helse : ∀ elseBody, depth + deepen (!isElseIf elseBody) (enclosingStmts false elseBody) ≤ maxNesting →
      Within depth .conditional (.branch cond thenBody (some elseBody)) := by
    intro elseBody hbody
    refine ⟨?_, rfl⟩
    rw [Stmt.enclosing, Bool.false_or]
    omega
  refine Yields.behind fun save => Yields.behind fun _ => Yields.behind fun taken => Yields.ite ?_ ?_
  · refine Yields.behind fun kind => Yields.ite ?_ ?_
    · -- a condition as the alternative is read at the depth of the condition itself
      refine Yields.bind (h depth .conditional hdepth) fun s hs => Yields.pure (helse [s] ?_)
      obtain ⟨hs, hbranch⟩ := hs
      rw [hbranch, enclosingStmts, enclosingStmts, Nat.max_zero]
      exact hs
    · refine Yields.bind (h depth .block hdepth)
        fun elseBody (hbody : depth + 1 + enclosingStmts false elseBody ≤ maxNesting) =>
          Yields.pure (helse elseBody ?_)
      have hdeepen := deepen_le (!isElseIf elseBody) (enclosingStmts false elseBody)
      omega
  · refine Yields.behind fun _ => Yields.pure ⟨?_, rfl⟩
    rw [Stmt.enclosing]
    omega

/-- The list of a loop and its body are one deeper. -/
private theorem within_forLoop_step : Yields (forLoop (fuel + 1) depth) (Within depth .forLoop) := by
  unfold forLoop
  refine Yields.behind fun start => Yields.behind fun _ => Yields.behind fun _ => Yields.behind fun var =>
    Yields.behind fun _ => ?_
  refine Yields.bind (h depth .expr hdepth) fun items (hitems : Fits (depth + 1) 0 items) => Yields.behind fun _ => ?_
  refine Yields.bind (h depth .block hdepth)
    fun body (hbody : depth + 1 + enclosingStmts false body ≤ maxNesting) => Yields.pure ?_
  have hle := hitems.le
  show depth + (Stmt.forLoop var items body start.pos).enclosing false ≤ maxNesting
  rw [Stmt.enclosing]
  omega

private theorem within_commandCall_step : Yields (commandCall (fuel + 1) depth) (Within depth .commandCall) := by
  unfold commandCall
  refine Yields.behind fun start => Yields.behind fun name => ?_
  refine Yields.bind (h depth .commandArgs hdepth)
    fun args (hargs : ∀ e ∈ args, Fits (depth + 1) 0 e) => Yields.pure ?_
  have hle := enclosingArgs_le hdepth hargs
  show depth + (Stmt.expr (.call (.var name start) args start)).enclosing false ≤ maxNesting
  have hname : deepen ((Expr.var name start).rank < chainRank) ((Expr.var name start).enclosing false) = 0 := rfl
  rw [Stmt.enclosing, Expr.enclosing, hname]
  omega

private theorem within_commandArgs_step : Yields (commandArgs (fuel + 1) depth) (Within depth .commandArgs) := by
  unfold commandArgs
  refine Yields.bind (h depth .expr hdepth) fun arg harg => Yields.behind fun taken => Yields.ite ?_ ?_
  · exact Yields.behind fun _ => Yields.bind (h depth .commandArgs hdepth)
      fun rest hrest => Yields.pure (List.forall_mem_cons.mpr ⟨harg, hrest⟩)
  · exact Yields.pure (List.forall_mem_singleton.mpr harg)

/-- Both sides of an assignment are expressions of their own. -/
private theorem within_simple_step : Yields (simple (fuel + 1) depth) (Within depth .simple) := by
  unfold simple
  refine Yields.behind fun start => ?_
  refine Yields.bind (h depth .expr hdepth) fun target (htarget : Fits (depth + 1) 0 target) => ?_
  have hle := htarget.le
  refine Yields.behind fun kind => ?_
  split
  · refine Yields.pure ?_
    show depth + (Stmt.expr target).enclosing false ≤ maxNesting
    rw [Stmt.enclosing]
    omega
  · next op _ =>
    -- With a sign behind it the expression is the target of an assignment, which not every expression can be.
    refine Yields.ite ?_ (Yields.failWith _ _)
    refine Yields.behind fun _ => Yields.behind fun _ => Yields.bind (h depth .expr hdepth)
      fun e (he : Fits (depth + 1) 0 e) => Yields.pure ?_
    have hle' := he.le
    show depth + (Stmt.assign target op e start).enclosing false ≤ maxNesting
    rw [Stmt.enclosing]
    omega

/-- A level reads an operand of the next one first. -/
private theorem within_binary_step (level : Level) :
    Yields (binary (fuel + 1) depth level) (Within depth (.binary level)) := by
  unfold binary
  refine Yields.bind (h depth (.operand level) hdepth) fun left (hleft : Fits depth (level.rank + 1) left) => ?_
  exact Yields.mono (h depth (.binaryFrom level left) hdepth) fun e he => he (hleft.mono (Nat.le_succ _))

/-- What is joined at a level fits at that level, so that it may be joined again. -/
private theorem within_binaryFrom_step (level : Level) (left : Expr) :
    Yields (binaryFrom (fuel + 1) depth level left) (Within depth (.binaryFrom level left)) := by
  unfold binaryFrom
  refine Yields.behind fun kind => Yields.behind fun p => ?_
  split
  · exact Yields.pure id
  · next join hjoin =>
    refine Yields.behind fun _ => Yields.behind fun _ => Yields.bind (h depth (.operand level) hdepth)
      fun right hright => ?_
    exact Yields.mono (h depth (.binaryFrom level (join left right)) hdepth)
      fun e he hleft => he (Fits.join hjoin hleft hright)

/-- An operand of a level has the rank of the next one. -/
private theorem within_operand_step (level : Level) :
    Yields (operand (fuel + 1) depth level) (Within depth (.operand level)) := by
  unfold operand
  cases htighter : level.tighter? with
  | some tighter =>
    -- the next level is the one of the next rank
    refine Yields.mono (h depth (.binary tighter) hdepth) fun e (he : Fits depth tighter.rank e) => ?_
    have hrank : tighter.rank = level.rank + 1 := by
      cases level <;> cases htighter <;> rfl
    rw [hrank] at he
    exact he
  | none =>
    refine Yields.mono (h depth .unary hdepth) fun e (he : Fits depth unaryRank e) => he.mono ?_
    have hrank := level.rank_le
    simp only [unaryRank]
    omega

/-- An operator in front is entered as one construct. -/
private theorem within_unary_step : Yields (unary (fuel + 1) depth) (Within depth .unary) := by
  unfold unary
  refine Yields.behind fun kind => ?_
  split
  · exact Yields.mono (h depth .chain hdepth) fun e (he : Fits depth chainRank e) => he.mono (by decide)
  · next op _ =>
    refine Yields.behind fun start => Yields.enter fun hwithin => Yields.bind (h (depth + 1) .unary hwithin)
      fun operand (hoperand : Fits (depth + 1) unaryRank operand) => Yields.pure ?_
    -- the operator is one construct, and the parentheses that its operand may need are within it
    unfold Fits at hoperand
    refine Fits.of_rank (Nat.le_refl _) ?_
    rw [Expr.enclosing]
    omega

/-- The head of a chain has the highest rank. -/
private theorem within_chain_step : Yields (chain (fuel + 1) depth) (Within depth .chain) := by
  unfold chain
  refine Yields.bind (h depth .primary hdepth) fun head (hhead : Fits depth 8 head) => ?_
  exact Yields.mono (h depth (.chainFrom head) hdepth) fun e he => he (hhead.mono (by decide))

/-- A link adds what stands in its own brackets only. -/
private theorem within_chainFrom_step (object : Expr) :
    Yields (chainFrom (fuel + 1) depth object) (Within depth (.chainFrom object)) := by
  unfold chainFrom
  -- one link more keeps what fits, so that each form of a link has only to say what it adds
  have hlink : ∀ link : Expr, (Fits depth chainRank object → Fits depth chainRank link) →
      Yields (chainFrom fuel depth link) (Within depth (.chainFrom object)) := fun link hfits =>
    Yields.mono (h depth (.chainFrom link) hdepth) fun e he hobject => he (hfits hobject)
  refine Yields.behind fun _ => Yields.behind fun kind => ?_
  split
  · refine Yields.behind fun start => Yields.behind fun name => Yields.behind fun kind => Yields.ite ?_
      (Yields.ite ?_ ?_)
    · refine Yields.bind (h depth .callArgs hdepth)
        fun args (hargs : depth + enclosingArgs false args ≤ maxNesting) => hlink _ fun hobject => ?_
      unfold Fits at hobject
      refine Fits.of_rank (Nat.le_refl _) ?_
      rw [Expr.enclosing]
      omega
    · refine Yields.bind (h depth .closure hdepth) fun body hbody => hlink _ fun hobject => ?_
      -- the closure is the only argument, behind no parentheses
      have hargs := enclosingArgs_append_le hbody.2 hbody.1 (List.forall_mem_nil _)
      rw [List.nil_append] at hargs
      unfold Fits at hobject
      refine Fits.of_rank (Nat.le_refl _) ?_
      rw [Expr.enclosing]
      omega
    · refine hlink _ fun hobject => Fits.of_rank (Nat.le_refl _) ?_
      rw [Expr.enclosing]
      exact hobject
  · refine Yields.behind fun start => Yields.behind fun _ => ?_
    refine Yields.bind (h depth .expr hdepth) fun place (hplace : Fits (depth + 1) 0 place) => ?_
    refine Yields.behind fun _ => Yields.behind fun _ => hlink _ fun hobject => ?_
    have hle := hplace.le
    unfold Fits at hobject
    refine Fits.of_rank (Nat.le_refl _) ?_
    rw [Expr.enclosing]
    omega
  · refine Yields.behind fun start => Yields.bind (h depth .callArgs hdepth)
      fun args (hargs : depth + enclosingArgs false args ≤ maxNesting) => hlink _ fun hobject => ?_
    unfold Fits at hobject
    refine Fits.of_rank (Nat.le_refl _) ?_
    rw [Expr.enclosing]
    omega
  · exact Yields.pure id

/-- Arguments in parentheses, with the closure that may stand behind them. -/
private theorem within_callArgs_step : Yields (callArgs (fuel + 1) depth) (Within depth .callArgs) := by
  unfold callArgs
  have hrest : ∀ args : List Expr, (∀ e ∈ args, Fits (depth + 1) 0 e) →
      Yields (do
        if (← peek) = .symbol .braceOpen then return args ++ [← closure fuel depth]
        else return args) (Within depth .callArgs) := by
    intro args hargs
    refine Yields.behind fun kind => Yields.ite ?_ (Yields.pure (enclosingArgs_le hdepth hargs))
    exact Yields.bind (h depth .closure hdepth)
      fun body hbody => Yields.pure (enclosingArgs_append_le hbody.2 hbody.1 hargs)
  refine Yields.behind fun _ => Yields.behind fun _ => Yields.behind fun taken => Yields.ite ?_ ?_
  · exact hrest [] (by simp)
  · exact Yields.bind (h depth .argsFrom hdepth) hrest

private theorem within_argsFrom_step : Yields (argsFrom (fuel + 1) depth) (Within depth .argsFrom) := by
  unfold argsFrom
  refine Yields.bind (h depth .expr hdepth) fun arg harg => Yields.behind fun _ => Yields.behind fun taken =>
    Yields.ite ?_ ?_
  · exact Yields.behind fun _ => Yields.bind (h depth .argsFrom hdepth)
      fun rest hrest => Yields.pure (List.forall_mem_cons.mpr ⟨harg, hrest⟩)
  · exact Yields.behind fun _ => Yields.pure (List.forall_mem_singleton.mpr harg)

/-- Leaves enclose nothing, and what stands in parentheses is one deeper. -/
private theorem within_primary_step : Yields (primary (fuel + 1) depth) (Within depth .primary) := by
  rw [primary_eq]
  have hleaf : ∀ e : Expr, e.rank = 8 → e.enclosing false = 0 →
      Yields (do
        let _ ← advance
        return e) (Within depth .primary) := fun e hrank he =>
    Yields.behind fun _ => Yields.pure (Fits.of_rank (Nat.le_of_eq hrank.symm) (by rw [he]; exact hdepth))
  refine Yields.behind fun kind => ?_
  cases kind with
  | int n => exact hleaf _ rfl rfl
  | float literal => exact hleaf _ rfl rfl
  | str text => exact hleaf _ rfl rfl
  | ident name => exact Yields.behind fun p => hleaf _ rfl rfl
  | keyword k =>
    cases k with
    | trues => exact hleaf _ rfl rfl
    | falses => exact hleaf _ rfl rfl
    | nulls => exact hleaf _ rfl rfl
    | _ => exact Yields.unexpected _
  | symbol symbol =>
    cases symbol with
    | parenOpen =>
      refine Yields.behind fun _ => Yields.behind fun _ => Yields.bind (h depth .expr hdepth)
        fun inner (hinner : Fits (depth + 1) 0 inner) => ?_
      exact Yields.behind fun _ => Yields.behind fun _ => Yields.pure hinner.parens
    | bracketOpen => exact h depth .collection hdepth
    | braceOpen =>
      -- What is read between braces is a closure, and closures are of the highest rank.
      refine Yields.mono (h depth .closure hdepth) fun e he => Fits.of_rank ?_ he.1
      obtain ⟨_, hclosure⟩ := he
      unfold Expr.isClosure at hclosure
      split at hclosure
      · exact Nat.le_refl _
      · contradiction
    | _ => exact Yields.unexpected _
  | newline => exact Yields.unexpected _
  | eof => exact Yields.unexpected _

/-- Items and entries stand in brackets, one deeper. -/
private theorem within_collection_step : Yields (collection (fuel + 1) depth) (Within depth .collection) := by
  unfold collection
  refine Yields.behind fun _ => Yields.behind fun _ => Yields.behind fun taken => Yields.ite ?_ ?_
  · exact Yields.behind fun _ => Yields.pure (Fits.of_rank (by decide) hdepth)
  · refine Yields.behind fun c => Yields.ite ?_ ?_
    · refine Yields.bind (h depth .entries hdepth) fun entries hentries => Yields.pure ?_
      have hle := enclosingEntries_le hdepth hentries
      refine Fits.of_rank (Nat.le_refl _) ?_
      rw [Expr.enclosing]
      exact hle
    · refine Yields.bind (h depth .items hdepth) fun items hitems => Yields.pure ?_
      have hle := enclosingItems_le hdepth hitems
      refine Fits.of_rank (Nat.le_refl _) ?_
      rw [Expr.enclosing]
      exact hle

private theorem within_items_step : Yields (items (fuel + 1) depth) (Within depth .items) := by
  unfold items
  refine Yields.behind fun _ => Yields.behind fun taken => Yields.ite (Yields.pure (by simp [Within])) ?_
  refine Yields.bind (h depth .expr hdepth) fun item hitem => Yields.behind fun _ => Yields.behind fun taken =>
    Yields.ite ?_ ?_
  · exact Yields.bind (h depth .items hdepth)
      fun rest hrest => Yields.pure (List.forall_mem_cons.mpr ⟨hitem, hrest⟩)
  · exact Yields.behind fun _ => Yields.pure (List.forall_mem_singleton.mpr hitem)

private theorem within_entries_step : Yields (entries (fuel + 1) depth) (Within depth .entries) := by
  unfold entries
  refine Yields.behind fun _ => Yields.behind fun taken => Yields.ite (Yields.pure (by simp [Within])) ?_
  refine Yields.behind fun key => Yields.behind fun _ => Yields.behind fun _ => ?_
  refine Yields.bind (h depth .expr hdepth) fun value hvalue => Yields.behind fun _ => Yields.behind fun taken =>
    Yields.ite ?_ ?_
  · exact Yields.bind (h depth .entries hdepth)
      fun rest hrest => Yields.pure (List.forall_mem_cons.mpr ⟨hvalue, hrest⟩)
  · exact Yields.behind fun _ => Yields.pure (List.forall_mem_singleton.mpr hvalue)

end Steps

/-- What every procedure reads at a depth fits there. -/
theorem within_read (fuel depth : Nat) {α : Type} (q : Procedure α) (hdepth : depth ≤ maxNesting) :
    Yields (q.read fuel depth) (Within depth q) := by
  -- The fuel goes down with every call, so each procedure may rely on all the others.
  induction fuel generalizing depth α with
  | zero =>
    cases q <;> exact Yields.exhausted
  | succ fuel ih =>
    cases q with
    | statements stop => exact within_statements_step ih hdepth stop
    | braced => exact within_braced_step ih hdepth
    | block => exact within_block_step ih
    | statement => exact within_statement_step ih hdepth
    | declaration => exact within_declaration_step ih hdepth
    | condition => exact within_condition_step ih hdepth
    | conditional => exact within_conditional_step ih hdepth
    | forLoop => exact within_forLoop_step ih hdepth
    | commandCall => exact within_commandCall_step ih hdepth
    | commandArgs => exact within_commandArgs_step ih hdepth
    | simple => exact within_simple_step ih hdepth
    | expr => exact within_expr_step ih
    | binary level => exact within_binary_step ih hdepth level
    | binaryFrom level left => exact within_binaryFrom_step ih hdepth level left
    | operand level => exact within_operand_step ih hdepth level
    | unary => exact within_unary_step ih hdepth
    | chain => exact within_chain_step ih hdepth
    | chainFrom object => exact within_chainFrom_step ih hdepth object
    | callArgs => exact within_callArgs_step ih hdepth
    | argsFrom => exact within_argsFrom_step ih hdepth
    | primary => exact within_primary_step ih hdepth
    | collection => exact within_collection_step ih hdepth
    | items => exact within_items_step ih hdepth
    | entries => exact within_entries_step ih hdepth
    | closure => exact within_closure_step ih

/-- A program that is read keeps the limit. -/
theorem enclosing_of_parseTokens {tokens : List Token} {p : List Stmt} (h : parseTokens tokens = .ok p) :
    enclosingStmts false p ≤ maxNesting := by
  -- A program is read at depth zero, so what is left of the limit there is all of it.
  have hprogram : ∀ fuel, Yields (program fuel) fun p => enclosingStmts false p ≤ maxNesting := by
    intro fuel
    unfold program
    refine Yields.bind (within_read fuel 0 (.statements .eof) (Nat.zero_le _))
      fun stmts (hstmts : 0 + enclosingStmts false stmts ≤ maxNesting) => ?_
    rw [Nat.zero_add] at hstmts
    exact Yields.behind fun _ => Yields.pure hstmts
  cases tokens with
  | nil =>
    cases h
    exact Nat.zero_le _
  | cons t rest =>
    dsimp only [parseTokens] at h
    cases hread : program (fuelFor (t :: rest).length) ⟨t, rest⟩ with
    | error stop =>
      rw [hread] at h
      contradiction
    | ok read =>
      rw [hread] at h
      obtain rfl := Except.ok.inj h
      exact hprogram _ _ _ _ hread

end Grammar

/-! ## Section 3: Programs Within the Limit -/

open Grammar (fuelFor parseTokens)

/-- In a program that is read, blocks, closures, unary operators, brackets and needed parentheses stand around
one another at most as often as the limit allows. While it is read, the counter of open constructs is at most
one above the limit, and it is above the limit exactly when the source is refused as nested too deeply. -/
theorem parse_enclosing (source : String) :
    (∀ p, parse source = .ok p → enclosingStmts false p ≤ maxNesting) ∧
    ∀ tokens fuel, tokenize source = .ok tokens → fuelFor tokens.length ≤ fuel →
      (∀ n ∈ (Grammar.Indexed.program fuel tokens .start).2.depths, n ≤ maxNesting + 1) ∧
      ((∃ n ∈ (Grammar.Indexed.program fuel tokens .start).2.depths, maxNesting < n) ↔
        ∃ e, parse source = .error e ∧ e.cause = .nestedTooDeeply ∧
          e.cause.message = "Input nested too deeply") := by
  refine ⟨fun p hparse => ?_, fun tokens fuel htokens hfuel => ?_⟩
  · obtain ⟨ts, _, _, hp⟩ := tokens_of_parse hparse
    exact Grammar.enclosing_of_parseTokens hp
  · rcases tokenize_cases source with ⟨ts, hts, hsource⟩ | ⟨e, hsource⟩
    · rw [hsource] at htokens
      obtain rfl := Except.ok.inj htokens
      -- The instrumented parser ends as the plain one, which the first part is about.
      obtain ⟨o, houtcome, hresult, hends⟩ := Grammar.Indexed.program_outcome hts rfl hfuel
      have hparse := parse_eq hsource
      rw [hresult] at hparse
      generalize Grammar.Indexed.program fuel (ts ++ [endOf source.toList]) .start = r at houtcome ⊢
      cases houtcome with
      | read _ _ _ _ hleads =>
        obtain ⟨hbound, hbeyond⟩ := hleads.of_start
        refine ⟨hbound, hbeyond.trans ⟨False.elim, ?_⟩⟩
        rintro ⟨e, herror, _⟩
        rw [hparse] at herror
        contradiction
      | @failed e _ _ _ hleads =>
        obtain ⟨hbound, hbeyond⟩ := hleads.of_start
        refine ⟨hbound, hbeyond.trans ⟨fun hcause => ⟨e, hparse, hcause, congrArg Cause.message hcause⟩, ?_⟩⟩
        rintro ⟨e', herror, hcause, _⟩
        rw [hparse] at herror
        obtain rfl := Except.error.inj herror
        exact hcause
      -- The fuel is enough for any parser on these tokens.
      | exhausted => exact absurd rfl hends
    · rw [hsource] at htokens
      contradiction

/-- A closure with a negated argument. -/
theorem parse_enclosing_closure :
    ∃ p, parse "rows.each { keep(-it) }" = .ok p ∧ enclosingStmts false p = 3 ∧
      enclosingStmts false p ≤ maxNesting := by
  have hread : (parse "rows.each { keep(-it) }").toOption.map (enclosingStmts false) = some 3 := by decide +kernel
  cases hparse : parse "rows.each { keep(-it) }" with
  | error e =>
    rw [hparse] at hread
    contradiction
  | ok p =>
    rw [hparse] at hread
    exact ⟨p, rfl, Option.some.inj hread, (parse_enclosing _).1 p hparse⟩

/-! ## Section 4: Functions in Functions -/

/-- A function in a function, and so on. -/
def nestedFunctions : Nat → List Stmt
  | 0 => []
  | n + 1 => [.function "f" [] (nestedFunctions n) .start]

/-- Functions in functions are programs that can be written. -/
private theorem isPrintable_nestedFunctions (n : Nat) : isPrintable (nestedFunctions n) = true := by
  induction n with
  | zero => rfl
  | succ n ih =>
    have hplain : (Stmt.function "f" [] (nestedFunctions n) .start).isPlain = true := by
      show (isName "f" && [].all isName && decide ([] : List String).Nodup) = true
      decide
    have hevery : (Stmt.function "f" [] (nestedFunctions n) .start).every Expr.isPlain Stmt.isPlain = true :=
      Stmt.every_iff.mpr ⟨hplain, by simp [Stmt.parts], everyStmt_iff.mp ih⟩
    exact everyStmt_iff.mpr (List.forall_mem_singleton.mpr hevery)

/-- The counter does not see the bodies of named functions. -/
theorem nesting_nestedFunctions (n : Nat) : nestingStmts true (nestedFunctions n) = 0 := by
  induction n with
  | zero => rfl
  | succ n ih => rw [nestedFunctions, nestingStmts, Stmt.nesting, ih, nestingStmts, Nat.max_zero]

/-- Only a function differs from a function at most in positions. -/
theorem eq_function_of_like {name : String} {params : List String} {body : List Stmt} {p : Pos} {s : Stmt}
    (h : (Stmt.function name params body p).Like s) :
    ∃ body' p', s = .function name params body' p' ∧ Alike body body' := by
  cases s with
  | function name' params' body' p' =>
    obtain ⟨rfl, rfl, hbody, _⟩ := Stmt.function.inj h
    exact ⟨body', p', rfl, hbody⟩
  | declare name init p => cases init <;> contradiction
  | branch cond thenBody elseBody => cases elseBody <;> contradiction
  | returns value => cases value <;> contradiction
  | _ => contradiction

/-- What differs from functions in functions at most in positions has as many of them around one another. -/
private theorem enclosing_of_alike {n : Nat} {ss : List Stmt} (h : Alike (nestedFunctions n) ss) :
    enclosingStmts true ss = n := by
  induction n generalizing ss with
  | zero =>
    cases ss with
    | nil => rfl
    | cons s rest => contradiction
  | succ n ih =>
    cases ss with
    | nil => contradiction
    | cons s rest =>
      obtain ⟨hstmt, hrest⟩ := List.cons.inj h
      -- There is one function on every level.
      obtain rfl : rest = [] := by
        cases rest with
        | nil => rfl
        | cons s' rest => contradiction
      obtain ⟨body, p, rfl, hbody⟩ := eq_function_of_like hstmt
      rw [enclosingStmts, Stmt.enclosing, ih hbody, enclosingStmts, Nat.max_zero]
      rfl

/-- Functions are read however many of them stand around one another. -/
theorem exists_enclosing_eq (n : Nat) : ∃ source p, parse source = .ok p ∧ enclosingStmts true p = n := by
  have hprintable := isPrintable_nestedFunctions n
  obtain ⟨tokens, htokenize, htokens⟩ := tokenize_spellText (allPlain_of_isPrintable hprintable)
  have hfits : nestingStmts true (nestedFunctions n) ≤ maxNesting := by
    rw [nesting_nestedFunctions]
    exact Nat.zero_le _
  rcases parseTokens_spellProgram hprintable htokens with ⟨_, p, hp, halike⟩ | ⟨hdeep, _⟩
  · exact ⟨_, p, parse_of_tokenize htokenize hp, enclosing_of_alike halike⟩
  · exact absurd hfits hdeep

/-- With the bodies of functions counted, programs are read beyond the limit. -/
theorem parse_enclosing_functions :
    ¬ ∀ source p, parse source = .ok p → enclosingStmts true p ≤ maxNesting := by
  intro h
  obtain ⟨source, p, hparse, henclosing⟩ := exists_enclosing_eq (maxNesting + 1)
  have hle := h source p hparse
  omega

end RowConsole.Script
