import Mathlib.Logic.Basic
import RowConsole.Script.Tree

/-!
# The Parts of Syntax Trees

What stands directly inside an expression or a statement, induction over both at once, and tests that hold at
every node. Main statements: `Syntax.induction`, and that a test holds everywhere in a tree exactly when it
holds at the root and everywhere in the parts.
-/

namespace RowConsole.Script

/-! ## Section 1: Parts -/

/-- The expressions directly inside an expression. -/
def Expr.parts : Expr → List Expr
  | .list items => items
  | .map entries => entries.map Prod.snd
  | .unary _ operand _ => [operand]
  | .binary _ left right _ | .and left right | .or left right => [left, right]
  | .member object _ _ => [object]
  | .index object place _ => [object, place]
  | .call callee args _ => callee :: args
  | .method receiver _ args _ => receiver :: args
  | _ => []

/-- The statements directly inside an expression: the body of a closure. -/
def Expr.body : Expr → List Stmt
  | .closure _ body _ => body
  | _ => []

/-- The expressions directly inside a statement. -/
def Stmt.parts : Stmt → List Expr
  | .expr e => [e]
  | .declare _ init _ => init.toList
  | .assign target _ e _ => [target, e]
  | .branch cond _ _ => [cond]
  | .whileLoop cond _ => [cond]
  | .forLoop _ items _ _ => [items]
  | .returns value => value.toList
  | _ => []

/-- The statements directly inside a statement: its bodies. -/
def Stmt.body : Stmt → List Stmt
  | .function _ _ body _ => body
  | .branch _ thenBody elseBody => thenBody ++ elseBody.getD []
  | .whileLoop _ body => body
  | .forLoop _ _ body _ => body
  | _ => []

/-- Whether a statement is a loop on a condition. -/
def Stmt.isWhile : Stmt → Bool
  | .whileLoop _ _ => true
  | _ => false

/-! ## Section 2: Induction -/

/-- The expressions in an expression are smaller. -/
private theorem Expr.sizeOf_parts {e e' : Expr} (h : e' ∈ e.parts) : sizeOf e' < sizeOf e := by
  -- leaves have no parts, and `simp` has closed their cases
  cases e <;> simp only [Expr.parts, List.mem_cons, List.not_mem_nil, or_false] at h
  case list items =>
    have := List.sizeOf_lt_of_mem h
    simp only [Expr.list.sizeOf_spec]
    omega
  case map entries =>
    obtain ⟨⟨key, e⟩, hmem, rfl⟩ := List.mem_map.mp h
    have := List.sizeOf_lt_of_mem hmem
    simp only [Expr.map.sizeOf_spec, Prod.mk.sizeOf_spec] at this ⊢
    omega
  case unary => subst h; simp only [Expr.unary.sizeOf_spec]; omega
  case binary => rcases h with rfl | rfl <;> simp only [Expr.binary.sizeOf_spec] <;> omega
  case and => rcases h with rfl | rfl <;> simp only [Expr.and.sizeOf_spec] <;> omega
  case or => rcases h with rfl | rfl <;> simp only [Expr.or.sizeOf_spec] <;> omega
  case member => subst h; simp only [Expr.member.sizeOf_spec]; omega
  case index => rcases h with rfl | rfl <;> simp only [Expr.index.sizeOf_spec] <;> omega
  case call callee args p =>
    rcases h with rfl | h
    · simp only [Expr.call.sizeOf_spec]
      omega
    · have := List.sizeOf_lt_of_mem h
      simp only [Expr.call.sizeOf_spec]
      omega
  case method receiver name args p =>
    rcases h with rfl | h
    · simp only [Expr.method.sizeOf_spec]
      omega
    · have := List.sizeOf_lt_of_mem h
      simp only [Expr.method.sizeOf_spec]
      omega

/-- The statements of a closure are smaller. -/
private theorem Expr.sizeOf_body {e : Expr} {s : Stmt} (h : s ∈ e.body) : sizeOf s < sizeOf e := by
  cases e <;> simp only [Expr.body, List.not_mem_nil] at h
  case closure params body p =>
    have := List.sizeOf_lt_of_mem h
    simp only [Expr.closure.sizeOf_spec]
    omega

/-- The expressions in a statement are smaller. -/
private theorem Stmt.sizeOf_parts {s : Stmt} {e : Expr} (h : e ∈ s.parts) : sizeOf e < sizeOf s := by
  cases s <;> simp only [Stmt.parts, Option.mem_toList, List.mem_cons, List.not_mem_nil, or_false] at h
  case expr => subst h; simp only [Stmt.expr.sizeOf_spec]; omega
  case declare => subst h; simp only [Stmt.declare.sizeOf_spec, Option.some.sizeOf_spec]; omega
  case assign => rcases h with rfl | rfl <;> simp only [Stmt.assign.sizeOf_spec] <;> omega
  case branch => subst h; simp only [Stmt.branch.sizeOf_spec]; omega
  case whileLoop => subst h; simp only [Stmt.whileLoop.sizeOf_spec]; omega
  case forLoop => subst h; simp only [Stmt.forLoop.sizeOf_spec]; omega
  case returns => subst h; simp only [Stmt.returns.sizeOf_spec, Option.some.sizeOf_spec]; omega

/-- The statements in the bodies of a statement are smaller. -/
private theorem Stmt.sizeOf_body {s s' : Stmt} (h : s' ∈ s.body) : sizeOf s' < sizeOf s := by
  cases s <;> simp only [Stmt.body, List.not_mem_nil] at h
  case function =>
    have := List.sizeOf_lt_of_mem h
    simp only [Stmt.function.sizeOf_spec]
    omega
  case branch cond thenBody elseBody =>
    rcases List.mem_append.mp h with h | h
    · have := List.sizeOf_lt_of_mem h
      simp only [Stmt.branch.sizeOf_spec]
      omega
    -- the statements behind `else`, if there are any
    · cases elseBody with
      | none => simp at h
      | some body =>
        have := List.sizeOf_lt_of_mem (Option.getD_some ▸ h)
        simp only [Stmt.branch.sizeOf_spec, Option.some.sizeOf_spec]
        omega
  case whileLoop =>
    have := List.sizeOf_lt_of_mem h
    simp only [Stmt.whileLoop.sizeOf_spec]
    omega
  case forLoop =>
    have := List.sizeOf_lt_of_mem h
    simp only [Stmt.forLoop.sizeOf_spec]
    omega

/-- Induction over expressions and statements at once: what holds of a tree whenever it holds of all that
stands directly inside holds of every tree. -/
theorem Syntax.induction {P : Expr → Prop} {Q : Stmt → Prop}
    (hexpr : ∀ e, (∀ e' ∈ e.parts, P e') → (∀ s ∈ e.body, Q s) → P e)
    (hstmt : ∀ s, (∀ e ∈ s.parts, P e) → (∀ s' ∈ s.body, Q s') → Q s) :
    (∀ e, P e) ∧ ∀ s, Q s := by
  -- both kinds of trees contain each other, so the induction is on a bound on the size of either
  have hsize : ∀ n, (∀ e, sizeOf e < n → P e) ∧ ∀ s, sizeOf s < n → Q s := by
    intro n
    induction n with
    | zero => exact ⟨fun _ h => absurd h (Nat.not_lt_zero _), fun _ h => absurd h (Nat.not_lt_zero _)⟩
    | succ n ih =>
      obtain ⟨ihe, ihs⟩ := ih
      constructor
      · intro e he
        refine hexpr e (fun e' h => ihe e' ?_) (fun s h => ihs s ?_)
        · have := Expr.sizeOf_parts h
          omega
        · have := Expr.sizeOf_body h
          omega
      · intro s hs
        refine hstmt s (fun e h => ihe e ?_) (fun s' h => ihs s' ?_)
        · have := Stmt.sizeOf_parts h
          omega
        · have := Stmt.sizeOf_body h
          omega
  exact ⟨fun e => (hsize (sizeOf e + 1)).1 e (Nat.lt_succ_self _),
    fun s => (hsize (sizeOf s + 1)).2 s (Nat.lt_succ_self _)⟩

/-! ## Section 3: Tests at Every Node -/

mutual

/-- Whether every expression in an expression passes one test and every statement in it another one. -/
def Expr.every (p : Expr → Bool) (q : Stmt → Bool) (e : Expr) : Bool :=
  p e &&
    match e with
    | .list items => everyExpr p q items
    | .map entries => everyEntry p q entries
    | .unary _ operand _ => operand.every p q
    | .binary _ left right _ | .and left right | .or left right => left.every p q && right.every p q
    | .member object _ _ => object.every p q
    | .index object place _ => object.every p q && place.every p q
    | .call callee args _ => callee.every p q && everyExpr p q args
    | .method receiver _ args _ => receiver.every p q && everyExpr p q args
    | .closure _ body _ => everyStmt p q body
    | _ => true

/-- The tests in every expression of a list. -/
def everyExpr (p : Expr → Bool) (q : Stmt → Bool) : List Expr → Bool
  | [] => true
  | e :: rest => e.every p q && everyExpr p q rest

/-- The tests in every expression of the entries of a map. -/
def everyEntry (p : Expr → Bool) (q : Stmt → Bool) : List (String × Expr) → Bool
  | [] => true
  | (_, e) :: rest => e.every p q && everyEntry p q rest

/-- Whether every expression in a statement passes one test and every statement in it another one. -/
def Stmt.every (p : Expr → Bool) (q : Stmt → Bool) (s : Stmt) : Bool :=
  q s &&
    match s with
    | .expr e => e.every p q
    | .declare _ (some e) _ => e.every p q
    | .assign target _ e _ => target.every p q && e.every p q
    | .function _ _ body _ => everyStmt p q body
    | .branch cond thenBody none => cond.every p q && everyStmt p q thenBody
    | .branch cond thenBody (some elseBody) =>
      cond.every p q && (everyStmt p q thenBody && everyStmt p q elseBody)
    | .whileLoop cond body => cond.every p q && everyStmt p q body
    | .forLoop _ items body _ => items.every p q && everyStmt p q body
    | .returns (some e) => e.every p q
    | _ => true

/-- The tests in every statement of a list. -/
def everyStmt (p : Expr → Bool) (q : Stmt → Bool) : List Stmt → Bool
  | [] => true
  | s :: rest => s.every p q && everyStmt p q rest

end

variable {p : Expr → Bool} {q : Stmt → Bool}

/-- The recursion along a list of expressions asks each of them. -/
private theorem everyExpr_iff {es : List Expr} : everyExpr p q es = true ↔ ∀ e ∈ es, e.every p q = true := by
  induction es with
  | nil => simp [everyExpr]
  | cons e rest ih => simp [everyExpr, ih]

/-- The recursion along the entries of a map asks each of their values. -/
private theorem everyEntry_iff {entries : List (String × Expr)} :
    everyEntry p q entries = true ↔ ∀ e ∈ entries.map Prod.snd, e.every p q = true := by
  induction entries with
  | nil => simp [everyEntry]
  | cons entry rest ih => simp [everyEntry, ih]

/-- The recursion along a body asks each of its statements. -/
theorem everyStmt_iff {ss : List Stmt} : everyStmt p q ss = true ↔ ∀ s ∈ ss, s.every p q = true := by
  induction ss with
  | nil => simp [everyStmt]
  | cons s rest ih => simp [everyStmt, ih]

/-- Tests hold everywhere in an expression exactly when they hold at its root and everywhere in its parts. -/
theorem Expr.every_iff {e : Expr} :
    e.every p q = true ↔
      p e = true ∧ (∀ e' ∈ e.parts, e'.every p q = true) ∧ ∀ s ∈ e.body, s.every p q = true := by
  -- each form is its own test and the tests of the lists of its parts
  cases e <;>
    simp [Expr.every, Expr.parts, Expr.body, everyExpr_iff, everyEntry_iff, everyStmt_iff]

/-- Tests hold everywhere in a statement exactly when they hold at its root and everywhere in its parts. -/
theorem Stmt.every_iff {s : Stmt} :
    s.every p q = true ↔
      q s = true ∧ (∀ e ∈ s.parts, e.every p q = true) ∧ ∀ s' ∈ s.body, s'.every p q = true := by
  cases s with
  | declare name init pos =>
    cases init <;> simp [Stmt.every, Stmt.parts, Stmt.body]
  | branch cond thenBody elseBody =>
    cases elseBody <;> simp [Stmt.every, Stmt.parts, Stmt.body, everyStmt_iff, or_imp, forall_and]
  | returns value =>
    cases value <;> simp [Stmt.every, Stmt.parts, Stmt.body]
  | _ => simp [Stmt.every, Stmt.parts, Stmt.body, everyStmt_iff]

/-! ## Section 4: Positions -/

mutual

/-- An expression with all its positions changed. -/
def Expr.mapPos (f : Pos → Pos) : Expr → Expr
  | .list items => .list (mapPosExprs f items)
  | .map entries => .map (mapPosEntries f entries)
  | .var name pos => .var name (f pos)
  | .unary op operand pos => .unary op (operand.mapPos f) (f pos)
  | .binary op left right pos => .binary op (left.mapPos f) (right.mapPos f) (f pos)
  | .and left right => .and (left.mapPos f) (right.mapPos f)
  | .or left right => .or (left.mapPos f) (right.mapPos f)
  | .member object name pos => .member (object.mapPos f) name (f pos)
  | .index object place pos => .index (object.mapPos f) (place.mapPos f) (f pos)
  | .call callee args pos => .call (callee.mapPos f) (mapPosExprs f args) (f pos)
  | .method receiver name args pos => .method (receiver.mapPos f) name (mapPosExprs f args) (f pos)
  | .closure params body pos => .closure params (mapPosStmts f body) (f pos)
  | e => e

/-- The expressions of a list with all their positions changed. -/
def mapPosExprs (f : Pos → Pos) : List Expr → List Expr
  | [] => []
  | e :: rest => e.mapPos f :: mapPosExprs f rest

/-- The entries of a map with all their positions changed. -/
def mapPosEntries (f : Pos → Pos) : List (String × Expr) → List (String × Expr)
  | [] => []
  | (key, e) :: rest => (key, e.mapPos f) :: mapPosEntries f rest

/-- A statement with all its positions changed. -/
def Stmt.mapPos (f : Pos → Pos) : Stmt → Stmt
  | .expr e => .expr (e.mapPos f)
  | .declare name none pos => .declare name none (f pos)
  | .declare name (some e) pos => .declare name (some (e.mapPos f)) (f pos)
  | .assign target op e pos => .assign (target.mapPos f) op (e.mapPos f) (f pos)
  | .function name params body pos => .function name params (mapPosStmts f body) (f pos)
  | .branch cond thenBody none => .branch (cond.mapPos f) (mapPosStmts f thenBody) none
  | .branch cond thenBody (some elseBody) =>
    .branch (cond.mapPos f) (mapPosStmts f thenBody) (some (mapPosStmts f elseBody))
  | .whileLoop cond body => .whileLoop (cond.mapPos f) (mapPosStmts f body)
  | .forLoop var items body pos => .forLoop var (items.mapPos f) (mapPosStmts f body) (f pos)
  | .returns (some e) => .returns (some (e.mapPos f))
  | s => s

/-- The statements of a list with all their positions changed. -/
def mapPosStmts (f : Pos → Pos) : List Stmt → List Stmt
  | [] => []
  | s :: rest => s.mapPos f :: mapPosStmts f rest

end

/-- No position is told from another. -/
def Pos.forget (_ : Pos) : Pos := Pos.start

/-- Expressions that differ at most in positions. -/
def Expr.Like (e e' : Expr) : Prop := e.mapPos Pos.forget = e'.mapPos Pos.forget

/-- Statements that differ at most in positions. -/
def Stmt.Like (s s' : Stmt) : Prop := s.mapPos Pos.forget = s'.mapPos Pos.forget

/-- Expressions that differ at most in positions, one by one. -/
def LikeAll (es es' : List Expr) : Prop :=
  mapPosExprs Pos.forget es = mapPosExprs Pos.forget es'

/-- Lists of expressions are compared from the front. -/
theorem LikeAll.cons {e e' : Expr} {es es' : List Expr} (h : e.Like e') (hrest : LikeAll es es') :
    LikeAll (e :: es) (e' :: es') :=
  congrArg₂ List.cons h hrest

/-- Entries that differ at most in positions, one by one. -/
def LikeEntries (entries entries' : List (String × Expr)) : Prop :=
  mapPosEntries Pos.forget entries = mapPosEntries Pos.forget entries'

/-- Entries are compared from the front, and their keys are the same. -/
theorem LikeEntries.cons {key : String} {e e' : Expr} {entries entries' : List (String × Expr)}
    (h : e.Like e') (hrest : LikeEntries entries entries') :
    LikeEntries ((key, e) :: entries) ((key, e') :: entries') :=
  congrArg₂ (fun e entries => (key, e) :: entries) h hrest

/-- Programs that differ at most in positions. -/
def Alike (ss ss' : List Stmt) : Prop := mapPosStmts Pos.forget ss = mapPosStmts Pos.forget ss'

/-- Programs are compared from the front. -/
theorem Alike.cons {s s' : Stmt} {ss ss' : List Stmt} (h : s.Like s') (hrest : Alike ss ss') :
    Alike (s :: ss) (s' :: ss') :=
  congrArg₂ List.cons h hrest

namespace Expr.Like

variable {e e' left left' right right' : Expr} {args args' : List Expr} {p p' : Pos}

/-- One rule for each form: expressions are alike if their parts are, wherever they stand. -/
theorem unary {op : UnaryOp} (h : e.Like e') : (Expr.unary op e p).Like (.unary op e' p') :=
  congrArg (Expr.unary op · Pos.start) h

theorem binary {op : BinaryOp} (hleft : left.Like left') (hright : right.Like right') :
    (Expr.binary op left right p).Like (.binary op left' right' p') :=
  congrArg₂ (Expr.binary op · · Pos.start) hleft hright

theorem and (hleft : left.Like left') (hright : right.Like right') :
    (Expr.and left right).Like (.and left' right') :=
  congrArg₂ Expr.and hleft hright

theorem or (hleft : left.Like left') (hright : right.Like right') :
    (Expr.or left right).Like (.or left' right') :=
  congrArg₂ Expr.or hleft hright

theorem list (h : LikeAll args args') : (Expr.list args).Like (.list args') :=
  congrArg Expr.list h

theorem map {entries entries' : List (String × Expr)} (h : LikeEntries entries entries') :
    (Expr.map entries).Like (.map entries') :=
  congrArg Expr.map h

theorem member {name : String} (h : e.Like e') : (Expr.member e name p).Like (.member e' name p') :=
  congrArg (Expr.member · name Pos.start) h

theorem index (h : left.Like left') (hplace : right.Like right') :
    (Expr.index left right p).Like (.index left' right' p') :=
  congrArg₂ (Expr.index · · Pos.start) h hplace

theorem call (h : e.Like e') (hargs : LikeAll args args') : (Expr.call e args p).Like (.call e' args' p') :=
  congrArg₂ (Expr.call · · Pos.start) h hargs

theorem method {name : String} (h : e.Like e') (hargs : LikeAll args args') :
    (Expr.method e name args p).Like (.method e' name args' p') :=
  congrArg₂ (Expr.method · name · Pos.start) h hargs

/-- A closure is as its body is, with the same parameters. -/
theorem closure {params : List String} {body body' : List Stmt} (h : Alike body body') :
    (Expr.closure params body p).Like (.closure params body' p') :=
  congrArg (Expr.closure params · Pos.start) h

/-- What can be assigned to does not depend on positions. -/
theorem isTarget_eq (h : e.Like e') : e.isTarget = e'.isTarget := by
  -- the test reads the outermost form, which forgetting positions keeps
  have hmapPos : ∀ e : Expr, (e.mapPos Pos.forget).isTarget = e.isTarget := by
    intro e
    cases e <;> rfl
  calc e.isTarget = (e.mapPos Pos.forget).isTarget := (hmapPos e).symm
    _ = (e'.mapPos Pos.forget).isTarget := congrArg Expr.isTarget h
    _ = e'.isTarget := hmapPos e'

end Expr.Like

namespace Stmt.Like

variable {e e' value value' : Expr} {body body' : List Stmt} {p p' : Pos}

/-- One rule for each form: statements are alike if their parts are, wherever they stand. -/
theorem expr (h : e.Like e') : (Stmt.expr e).Like (.expr e') :=
  congrArg Stmt.expr h

/-- Neither the target nor the value of an assignment may differ in more than positions. -/
theorem assign {op : AssignOp} (htarget : e.Like e') (hvalue : value.Like value') :
    (Stmt.assign e op value p).Like (.assign e' op value' p') :=
  congrArg₂ (Stmt.assign · op · Pos.start) htarget hvalue

theorem declare {name : String} (h : e.Like e') :
    (Stmt.declare name (some e) p).Like (.declare name (some e') p') :=
  congrArg (fun e => Stmt.declare name (some e) Pos.start) h

theorem function {name : String} {params : List String} (h : Alike body body') :
    (Stmt.function name params body p).Like (.function name params body' p') :=
  congrArg (Stmt.function name params · Pos.start) h

theorem branch (h : e.Like e') (hbody : Alike body body') :
    (Stmt.branch e body none).Like (.branch e' body' none) :=
  congrArg₂ (Stmt.branch · · none) h hbody

/-- A condition with both branches. The one without `else` is a form of its own. -/
theorem branchElse {elseBody elseBody' : List Stmt} (h : e.Like e') (hbody : Alike body body')
    (helse : Alike elseBody elseBody') :
    (Stmt.branch e body (some elseBody)).Like (.branch e' body' (some elseBody')) := by
  -- three parts, and `congrArg₂` takes two: the branch behind `else` is added last
  have hbodies : Stmt.branch (e.mapPos Pos.forget) (mapPosStmts Pos.forget body) =
      Stmt.branch (e'.mapPos Pos.forget) (mapPosStmts Pos.forget body') := congrArg₂ Stmt.branch h hbody
  have hall := congr hbodies (congrArg some helse)
  exact hall

theorem whileLoop (h : e.Like e') (hbody : Alike body body') :
    (Stmt.whileLoop e body).Like (.whileLoop e' body') :=
  congrArg₂ Stmt.whileLoop h hbody

theorem forLoop {var : String} (h : e.Like e') (hbody : Alike body body') :
    (Stmt.forLoop var e body p).Like (.forLoop var e' body' p') :=
  congrArg₂ (Stmt.forLoop var · · Pos.start) h hbody

theorem returns (h : e.Like e') : (Stmt.returns (some e)).Like (.returns (some e')) :=
  congrArg (fun e => Stmt.returns (some e)) h

end Stmt.Like

end RowConsole.Script
