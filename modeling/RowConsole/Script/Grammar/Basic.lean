import RowConsole.Script.Token.Scan
import RowConsole.Script.Tree

/-!
# Reading Tokens

What the procedures of the grammar share: the cursor over the token list, the elementary readers, the levels
of operators by precedence, and the questions about the tokens ahead that decide between constructs.
-/

namespace RowConsole.Script.Grammar

/-! ## Section 1: Reading Tokens -/

/-- The tokens still unread. There is always a current one: behind the last token the last token stays. -/
structure Cursor where
  token : Token
  rest : List Token

/-- The cursor behind the current token. -/
def Cursor.advance (c : Cursor) : Cursor :=
  match c.rest with
  | [] => c
  | t :: rest => ⟨t, rest⟩

/-- The kind of the current token. -/
def Cursor.kind (c : Cursor) : TokenKind := c.token.kind

/-- The kind of the token behind the current one. -/
def Cursor.nextKind (c : Cursor) : TokenKind := c.advance.kind

/-- Why a procedure stops early. -/
inductive Stop where
  | failed (e : ScriptError)
  | exhausted

/-- A procedure of the grammar. -/
abbrev Parser (α : Type) := StateT Cursor (Except Stop) α

/-- The kind of the current token. -/
def peek : Parser TokenKind := do return (← get).kind

/-- The position of the current token. -/
def position : Parser Pos := do return (← get).token.pos

/-- Takes the current token. -/
def advance : Parser Token := do
  let c ← get
  set c.advance
  return c.token

/-- Fails at a position. -/
def failWith {α : Type} (cause : Cause) (p : Pos) : Parser α :=
  throw (.failed { cause := cause, pos := some p })

/-- Fails because something else than the current token was expected. -/
def unexpected {α : Type} (expected : String) : Parser α := do
  failWith (.unexpectedToken expected (← peek)) (← position)

/-- Takes the current token if it is of the given kind. -/
def eat (kind : TokenKind) : Parser Bool := do
  if (← peek) = kind then
    let _ ← advance
    return true
  else return false

/-- Takes the current token, which has to be of the given kind. -/
def expect (kind : TokenKind) (expected : String) : Parser Pos := do
  if (← peek) = kind then return (← advance).pos
  else unexpected expected

/-- Takes an identifier. -/
def expectIdent : Parser String := do
  match ← peek with
  | .ident name =>
    let _ ← advance
    return name
  | _ => unexpected "identifier"

/-- Skips tokens of the given kinds from a cursor onwards. -/
def skipFrom (skips : TokenKind → Bool) (token : Token) : List Token → Cursor
  | [] => ⟨token, []⟩
  | next :: rest => if skips token.kind then skipFrom skips next rest else ⟨token, next :: rest⟩

/-- Skips line feeds. -/
def skipNewlines : Parser Unit :=
  modify fun c => skipFrom (· = .newline) c.token c.rest

/-- Whether a token separates statements. -/
def isSeparator (kind : TokenKind) : Bool :=
  kind = .newline || kind = .symbol .semicolon

/-- Skips line feeds and semicolons. -/
def skipSeparators : Parser Unit :=
  modify fun c => skipFrom isSeparator c.token c.rest

/-- Skips a keyword of declarations, which may stand before a name. -/
def skipDeclarator : Parser Unit := do
  if !(← eat (.keyword .defines)) then
    let _ ← eat (.keyword .varies)

/-- The number of constructs that may enclose one another. -/
def maxNesting : Nat := 128

/-- The depth inside one more construct, which fails beyond the limit. -/
def enter (depth : Nat) : Parser Nat := do
  if maxNesting < depth + 1 then failWith .nestedTooDeeply (← position)
  else return depth + 1

/-! ## Section 2: Operators by Precedence -/

/-- The levels of operators with two operands, from the loosest to the tightest. -/
inductive Level where
  | or | and | equality | comparison | additive | multiplicative
  deriving DecidableEq, Repr

/-- The place of a level in the order of precedence. -/
def Level.rank : Level → Nat
  | .or => 0
  | .and => 1
  | .equality => 2
  | .comparison => 3
  | .additive => 4
  | .multiplicative => 5

theorem Level.rank_le (level : Level) : level.rank ≤ 5 := by
  cases level <;> decide

/-- The next tighter level. -/
def Level.tighter? : Level → Option Level
  | .or => some .and
  | .and => some .equality
  | .equality => some .comparison
  | .comparison => some .additive
  | .additive => some .multiplicative
  | .multiplicative => none

/-- The operators of a level that are applied to two values. -/
def Level.operator? : Level → Symbol → Option BinaryOp
  | .equality, .equal => some .eq
  | .equality, .notEqual => some .ne
  | .comparison, .less => some .lt
  | .comparison, .lessEqual => some .le
  | .comparison, .greater => some .gt
  | .comparison, .greaterEqual => some .ge
  | .additive, .plus => some .add
  | .additive, .minus => some .sub
  | .multiplicative, .star => some .mul
  | .multiplicative, .slash => some .div
  | .multiplicative, .percent => some .rem
  | _, _ => none

/-- How a token joins two operands at a level, if it is an operator of that level. -/
def Level.join? (level : Level) (kind : TokenKind) (p : Pos) : Option (Expr → Expr → Expr) :=
  match level, kind with
  | .or, .symbol .or => some .or
  | .and, .symbol .and => some .and
  | level, .symbol s => (level.operator? s).map fun op left right => .binary op left right p
  | _, _ => none

/-- The operator on one value that a token spells. -/
def unaryOp? : TokenKind → Option UnaryOp
  | .symbol .minus => some .neg
  | .symbol .not => some .not
  | _ => none

/-- The assignment that a token spells. -/
def assignOp? : TokenKind → Option AssignOp
  | .symbol .assign => some .set
  | .symbol .plusAssign => some .add
  | .symbol .minusAssign => some .sub
  | _ => none

/-! ## Section 3: Looking Ahead -/

/-- Whether line feeds follow and behind them a point, which continues a chain of members. -/
def continuesChain (c : Cursor) : Bool :=
  c.kind = .newline && (skipFrom (· = .newline) c.token c.rest).kind = .symbol .dot

/-- Skips the line feeds before a point that continues a chain. -/
def skipToChain : Parser Unit := do
  if continuesChain (← get) then skipNewlines

/-- Whether a token can start the argument of a call without parentheses. -/
def startsArgument : TokenKind → Bool
  | .str _ | .int _ | .float _ | .ident _ => true
  | .keyword .trues | .keyword .falses | .keyword .nulls => true
  | _ => false

/-- Whether a call without parentheses starts here: an identifier with an argument in the same line. -/
def isCommandCall (c : Cursor) : Bool :=
  match c.kind, c.rest with
  | .ident _, next :: _ => next.pos.line = c.token.pos.line && startsArgument next.kind
  | _, _ => false

/-- Whether an entry of a map starts here: a name or a string with a colon behind it. -/
def isMapKey (c : Cursor) : Bool :=
  match c.kind with
  | .ident _ | .str _ => c.nextKind = .symbol .colon
  | _ => false

/-- Takes the key of an entry of a map. -/
def expectKey : Parser String := do
  match (← advance).kind with
  | .ident name => return name
  | .str text => return text
  | _ => unexpected "map key"

/-- The identifiers, separated by commas, that a token list starts with, and the tokens behind them and
behind a comma after the last one. -/
def identifiers : List Token → List String × List Token
  | ⟨.ident name, _⟩ :: ⟨.symbol .comma, _⟩ :: rest =>
    let (names, tail) := identifiers rest
    (name :: names, tail)
  | ⟨.ident name, _⟩ :: rest => ([name], rest)
  | tokens => ([], tokens)

/-- The parameters of a closure and the cursor behind its arrow. Without an arrow there are no parameters and
nothing is taken. -/
def closureParams (c : Cursor) : List String × Cursor :=
  if c.kind = .symbol .arrow then ([], c.advance)
  else
    match identifiers (c.token :: c.rest) with
    | (names, ⟨.symbol .arrow, p⟩ :: rest) =>
      if names.isEmpty then ([], c) else (names, Cursor.advance ⟨⟨.symbol .arrow, p⟩, rest⟩)
    | _ => ([], c)

end RowConsole.Script.Grammar
