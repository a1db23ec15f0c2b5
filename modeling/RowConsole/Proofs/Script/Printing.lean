import RowConsole.Proofs.Script.Syntax
import RowConsole.Script.Grammar

/-!
# Printing Programs

How a syntax tree is written as a source: one statement in a line, bodies in braces, and parentheses only
where the precedence of operators and grouping from the left ask for them. A member that is called is a case
of its own: `m.f(x)` calls a method, so a call of what `m.f` holds has to be written `(m.f)(x)`. Whether the
printer knows that is a parameter, `guarded`.

Main definitions: `spellProgram`, the tokens of a program, `printProgram`, its text, and `isPrintable`, the
trees that a source can spell.
-/

namespace RowConsole.Script

open Grammar (Level)

/-! ## Section 1: Precedence -/

def BinaryOp.level : BinaryOp → Level
  | .eq | .ne => .equality
  | .lt | .le | .gt | .ge => .comparison
  | .add | .sub => .additive
  | .mul | .div | .rem => .multiplicative

def BinaryOp.symbol : BinaryOp → Symbol
  | .add => .plus
  | .sub => .minus
  | .mul => .star
  | .div => .slash
  | .rem => .percent
  | .eq => .equal
  | .ne => .notEqual
  | .lt => .less
  | .le => .lessEqual
  | .gt => .greater
  | .ge => .greaterEqual

def UnaryOp.symbol : UnaryOp → Symbol
  | .neg => .minus
  | .not => .not

def AssignOp.symbol : AssignOp → Symbol
  | .set => .assign
  | .add => .plusAssign
  | .sub => .minusAssign

/-- The precedence of operators on one value. -/
def unaryRank : Nat := 6

/-- The precedence of members, indices and calls. -/
def chainRank : Nat := 7

/-- How tightly an expression holds together: the rank of its level for an operator on two values, and more
for all else. -/
def Expr.rank : Expr → Nat
  | .or _ _ => Level.or.rank
  | .and _ _ => Level.and.rank
  | .binary op _ _ _ => op.level.rank
  | .unary _ _ _ => unaryRank
  | .member _ _ _ | .index _ _ _ | .call _ _ _ | .method _ _ _ _ => chainRank
  | _ => 8

def Expr.isMember : Expr → Bool
  | .member _ _ _ => true
  | _ => false

/-! ## Section 2: Tokens -/

/-- Tokens in parentheses where they are needed. -/
def enclose (needed : Bool) (spelled : List TokenKind) : List TokenKind :=
  if needed then .symbol .parenOpen :: (spelled ++ [.symbol .parenClose]) else spelled

/-- Pieces with commas between them. -/
def commas : List (List TokenKind) → List TokenKind
  | [] => []
  | [piece] => piece
  | piece :: rest => piece ++ .symbol .comma :: commas rest

/-- Statements in braces, each in a line of its own. -/
def braces (lines : List (List TokenKind)) : List TokenKind :=
  .symbol .braceOpen :: .newline :: (lines.flatMap (· ++ [.newline]) ++ [.symbol .braceClose])

/-- The parameters of a closure up to the arrow; without parameters there is no arrow. -/
def spellParams (params : List String) : List TokenKind :=
  if params.isEmpty then [] else commas (params.map fun p => [.ident p]) ++ [.symbol .arrow]

mutual

/-- The tokens of an expression. -/
def Expr.spell (guarded : Bool) : Expr → List TokenKind
  | .null => [.keyword .nulls]
  | .bool b => [.keyword (if b then .trues else .falses)]
  | .int n => [.int n]
  | .float literal => [.float literal]
  | .str text => [.str text]
  | .list items =>
    .symbol .bracketOpen :: (commas (spellExprs guarded items) ++ [.symbol .bracketClose])
  | .map [] => [.symbol .bracketOpen, .symbol .colon, .symbol .bracketClose]
  | .map entries =>
    .symbol .bracketOpen :: (commas (spellEntries guarded entries) ++ [.symbol .bracketClose])
  | .var name _ => [.ident name]
  | .unary op operand _ =>
    .symbol op.symbol :: enclose (operand.rank < unaryRank) (operand.spell guarded)
  | .binary op left right _ =>
    enclose (left.rank < op.level.rank) (left.spell guarded) ++
      .symbol op.symbol :: enclose (right.rank ≤ op.level.rank) (right.spell guarded)
  | .and left right =>
    enclose (left.rank < Level.and.rank) (left.spell guarded) ++
      .symbol .and :: enclose (right.rank ≤ Level.and.rank) (right.spell guarded)
  | .or left right =>
    enclose (left.rank < Level.or.rank) (left.spell guarded) ++
      .symbol .or :: enclose (right.rank ≤ Level.or.rank) (right.spell guarded)
  | .member object name _ =>
    enclose (object.rank < chainRank) (object.spell guarded) ++ [.symbol .dot, .ident name]
  | .index object place _ =>
    enclose (object.rank < chainRank) (object.spell guarded) ++
      .symbol .bracketOpen :: (place.spell guarded ++ [.symbol .bracketClose])
  | .call callee args _ =>
    enclose (callee.rank < chainRank || guarded && callee.isMember) (callee.spell guarded) ++
      .symbol .parenOpen :: (commas (spellExprs guarded args) ++ [.symbol .parenClose])
  | .method receiver name args _ =>
    enclose (receiver.rank < chainRank) (receiver.spell guarded) ++
      .symbol .dot :: .ident name ::
        .symbol .parenOpen :: (commas (spellExprs guarded args) ++ [.symbol .parenClose])
  | .closure params body _ =>
    .symbol .braceOpen :: (spellParams params ++
      .newline :: ((spellStmts guarded body).flatMap (· ++ [.newline]) ++ [.symbol .braceClose]))

/-- The tokens of each expression of a list. -/
def spellExprs (guarded : Bool) : List Expr → List (List TokenKind)
  | [] => []
  | e :: rest => e.spell guarded :: spellExprs guarded rest

/-- The tokens of each entry of a map, the keys as strings. -/
def spellEntries (guarded : Bool) : List (String × Expr) → List (List TokenKind)
  | [] => []
  | (key, e) :: rest => (.str key :: .symbol .colon :: e.spell guarded) :: spellEntries guarded rest

/-- The tokens of a statement. -/
def Stmt.spell (guarded : Bool) : Stmt → List TokenKind
  | .expr e => e.spell guarded
  | .declare name none _ => [.keyword .defines, .ident name]
  | .declare name (some e) _ => .keyword .defines :: .ident name :: .symbol .assign :: e.spell guarded
  | .assign target op e _ => target.spell guarded ++ .symbol op.symbol :: e.spell guarded
  | .function name params body _ =>
    .keyword .defines :: .ident name :: .symbol .parenOpen ::
      (commas (params.map fun p => [.ident p]) ++ .symbol .parenClose :: braces (spellStmts guarded body))
  | .branch cond thenBody none =>
    .keyword .ifs :: .symbol .parenOpen ::
      (cond.spell guarded ++ .symbol .parenClose :: braces (spellStmts guarded thenBody))
  | .branch cond thenBody (some elseBody) =>
    .keyword .ifs :: .symbol .parenOpen ::
      (cond.spell guarded ++ .symbol .parenClose :: (braces (spellStmts guarded thenBody) ++
        .keyword .elses :: braces (spellStmts guarded elseBody)))
  | .whileLoop cond body =>
    .keyword .whiles :: .symbol .parenOpen ::
      (cond.spell guarded ++ .symbol .parenClose :: braces (spellStmts guarded body))
  | .forLoop var items body _ =>
    .keyword .fors :: .symbol .parenOpen :: .ident var :: .keyword .ins ::
      (items.spell guarded ++ .symbol .parenClose :: braces (spellStmts guarded body))
  | .returns none => [.keyword .returns]
  | .returns (some e) => .keyword .returns :: e.spell guarded
  | .breaks => [.keyword .breaks]
  | .continues => [.keyword .continues]

/-- The tokens of each statement of a list. -/
def spellStmts (guarded : Bool) : List Stmt → List (List TokenKind)
  | [] => []
  | s :: rest => s.spell guarded :: spellStmts guarded rest

end

/-- The tokens of a program, each statement in a line of its own. -/
def spellProgram (guarded : Bool) (program : List Stmt) : List TokenKind :=
  (spellStmts guarded program).flatMap (· ++ [.newline])

/-! ## Section 3: Text -/

/-- The characters of a string literal, its quotes and backslashes escaped. -/
def escape (cs : List Char) : List Char :=
  cs.flatMap fun c => if c = '\x27' ∨ c = '\\' then ['\\', c] else [c]

/-- The text of a token. -/
def TokenKind.text : TokenKind → List Char
  | .int n => Nat.toDigits 10 n.toInt.toNat
  | .float literal => literal.toList
  | .str text => '\x27' :: (escape text.toList ++ ['\x27'])
  | .ident name => name.toList
  | .keyword k => k.word.toList
  | .symbol s => s.word.toList
  | .newline => ['\n']
  | .eof => []

/-- The text of tokens, with a blank behind every token in a line. -/
def spellText (kinds : List TokenKind) : List Char :=
  kinds.flatMap fun kind => if kind = .newline then kind.text else kind.text ++ [' ']

/-- Whether a word is read as an identifier. -/
def isName (word : String) : Bool :=
  match word.toList with
  | [] => false
  | c :: rest => isWordStart c && rest.all isWordContinue && !isKeyword word

/-- Whether a decimal literal consists of digits, a point and digits. -/
def isDecimal (literal : String) : Bool :=
  match literal.toList.span Char.isDigit with
  | (_ :: _, '.' :: d :: fraction) => (d :: fraction).all Char.isDigit
  | _ => false

/-- Whether the text of a token is read as that token. -/
def TokenKind.isPlain : TokenKind → Bool
  | .int n => 0 ≤ n
  | .float literal => isDecimal literal
  | .ident name => isName name
  | .eof => false
  | _ => true

/-- Whether the data of an expression can be spelled. -/
def Expr.isPlain : Expr → Bool
  | .int n => 0 ≤ n
  | .float literal => isDecimal literal
  | .var name _ | .member _ name _ | .method _ name _ _ => isName name
  | .closure params _ _ => params.all isName
  | _ => true

/-- Whether the data of a statement can be spelled. -/
def Stmt.isPlain : Stmt → Bool
  | .declare name _ _ => isName name
  | .assign target _ _ _ => target.isTarget
  | .function name params _ _ => isName name && params.all isName && decide params.Nodup
  | .forLoop var _ _ _ => isName var
  | _ => true

/-- Whether a source can spell a program. -/
def isPrintable (program : List Stmt) : Bool :=
  everyStmt Expr.isPlain Stmt.isPlain program

/-! ## Section 5: Nesting -/

/-- Parentheses are one more construct. -/
def deepen (enclosed : Bool) (nesting : Nat) : Nat :=
  if enclosed then nesting + 1 else nesting

mutual

/-- How many constructs are inside one another where an expression is read. -/
def Expr.nesting (guarded : Bool) : Expr → Nat
  | .list items => nestingExprs guarded items
  | .map entries => nestingEntries guarded entries
  | .unary _ operand _ => deepen (operand.rank < unaryRank) (operand.nesting guarded) + 1
  | .binary op left right _ =>
    max (deepen (left.rank < op.level.rank) (left.nesting guarded))
      (deepen (right.rank ≤ op.level.rank) (right.nesting guarded))
  | .and left right =>
    max (deepen (left.rank < Level.and.rank) (left.nesting guarded))
      (deepen (right.rank ≤ Level.and.rank) (right.nesting guarded))
  | .or left right =>
    max (deepen (left.rank < Level.or.rank) (left.nesting guarded))
      (deepen (right.rank ≤ Level.or.rank) (right.nesting guarded))
  | .member object _ _ => deepen (object.rank < chainRank) (object.nesting guarded)
  | .index object place _ =>
    max (deepen (object.rank < chainRank) (object.nesting guarded)) (place.nesting guarded + 1)
  | .call callee args _ =>
    max (deepen (callee.rank < chainRank || guarded && callee.isMember) (callee.nesting guarded))
      (nestingExprs guarded args)
  | .method receiver _ args _ =>
    max (deepen (receiver.rank < chainRank) (receiver.nesting guarded)) (nestingExprs guarded args)
  | .closure _ body _ => nestingStmts guarded body + 1
  | _ => 0

def nestingExprs (guarded : Bool) : List Expr → Nat
  | [] => 0
  | e :: rest => max (e.nesting guarded + 1) (nestingExprs guarded rest)

def nestingEntries (guarded : Bool) : List (String × Expr) → Nat
  | [] => 0
  | (_, e) :: rest => max (e.nesting guarded + 1) (nestingEntries guarded rest)

/-- How many constructs are inside one another where a statement is read. -/
def Stmt.nesting (guarded : Bool) : Stmt → Nat
  | .expr e => e.nesting guarded + 1
  | .declare _ (some e) _ => e.nesting guarded + 1
  | .assign target _ e _ => max (target.nesting guarded + 1) (e.nesting guarded + 1)
  | .function _ _ body _ => nestingStmts guarded body
  | .branch cond thenBody none => max (cond.nesting guarded + 1) (nestingStmts guarded thenBody + 1)
  | .branch cond thenBody (some elseBody) =>
    max (cond.nesting guarded + 1) (max (nestingStmts guarded thenBody + 1) (nestingStmts guarded elseBody + 1))
  | .whileLoop cond body => max (cond.nesting guarded + 1) (nestingStmts guarded body + 1)
  | .forLoop _ items body _ => max (items.nesting guarded + 1) (nestingStmts guarded body + 1)
  | .returns (some e) => e.nesting guarded + 1
  | _ => 0

def nestingStmts (guarded : Bool) : List Stmt → Nat
  | [] => 0
  | s :: rest => max (s.nesting guarded) (nestingStmts guarded rest)

end

/-- A loop is spelled with its condition in parentheses and its body in braces. -/
theorem Stmt.spell_whileLoop (guarded : Bool) (cond : Expr) (body : List Stmt) :
    (Stmt.whileLoop cond body).spell guarded = .keyword .whiles :: .symbol .parenOpen ::
      (cond.spell guarded ++ .symbol .parenClose :: braces (spellStmts guarded body)) := by
  rw [Stmt.spell]

/-- The condition and the body of a loop are each one construct deeper. -/
theorem Stmt.nesting_whileLoop (guarded : Bool) (cond : Expr) (body : List Stmt) :
    (Stmt.whileLoop cond body).nesting guarded =
      max (cond.nesting guarded + 1) (nestingStmts guarded body + 1) := by
  rw [Stmt.nesting]

end RowConsole.Script
