import RowConsole.Script.Grammar

/-!
# The Grammar over an Index and a Counter

The procedures of the grammar read from a cursor and are told how many constructs stand around them. Here they
read a fixed token list through an index and keep one counter of the constructs that are open. The index only
moves by a step or back to a place that was noted; the counter goes up where a construct is entered and down
where it is left, which after a failure happens for some constructs and not for others.

Nothing is assumed about the index or the counter. A look at a place that does not exist, and a counter that
would fall below zero, are ways to stop (`Halt.outside` and `Halt.unopened`), and every value that the counter
was given is written down.
-/

namespace RowConsole.Script.Grammar.Indexed

/-! ## Section 1: Places -/

/-- Where a reading of a token list stands. -/
structure Place where
  /-- The index of the current token. -/
  index : Nat
  /-- The number of constructs that are open. -/
  depth : Nat
  /-- All that the number of open constructs was set to, the latest first. -/
  depths : List Nat
  deriving DecidableEq, Repr

/-- The place in front of the first token. -/
def Place.start : Place := ⟨0, 0, []⟩

/-- The place behind the current token. The index goes no further than a list of the given length. -/
def Place.behind (s : Place) (length : Nat) : Place :=
  { s with index := if s.index < length then s.index + 1 else s.index }

/-- Sets the number of open constructs. -/
def Place.setDepth (s : Place) (depth : Nat) : Place :=
  { s with depth := depth, depths := depth :: s.depths }

/-- Why a reading stops early. -/
inductive Halt where
  | failed (e : ScriptError)
  /-- The bound on the recursion is used up. -/
  | exhausted
  /-- There is no token at an index that was asked for. -/
  | outside
  /-- A construct was left and none was open. -/
  | unopened

/-- A reading of a token list. The place is kept when it stops. -/
abbrev Reading (α : Type) := ReaderT (List Token) (ExceptT Halt (StateM Place)) α

/-! ## Section 2: Elementary Readings -/

/-- The token at an index, or the last one when the index is behind it. -/
def tokenAt (index : Nat) : Reading Token := do
  let tokens ← read
  match tokens[min index (tokens.length - 1)]? with
  | some t => return t
  | none => throw .outside

/-- The current token. -/
def token : Reading Token := do tokenAt (← get).index

/-- The kind of the current token. -/
def peek : Reading TokenKind := do return (← token).kind

/-- The kind of a token ahead. -/
def peekAt (offset : Nat) : Reading TokenKind := do
  return (← tokenAt ((← get).index + offset)).kind

/-- The position of the current token. -/
def position : Reading Pos := do return (← token).pos

/-- Takes the current token. -/
def advance : Reading Token := do
  let t ← token
  let tokens ← read
  modify fun s => s.behind tokens.length
  return t

/-- Goes back to an index that was noted. -/
def goBack (index : Nat) : Reading Unit :=
  modify fun s => { s with index := index }

/-- Fails at a position. -/
def failWith {α : Type} (cause : Cause) (p : Pos) : Reading α :=
  throw (.failed { cause := cause, pos := some p })

/-- Fails because something else than the current token was expected. -/
def unexpected {α : Type} (expected : String) : Reading α := do
  failWith (.unexpectedToken expected (← peek)) (← position)

/-- Takes the current token if it is of the given kind. -/
def eat (kind : TokenKind) : Reading Bool := do
  if (← peek) = kind then
    let _ ← advance
    return true
  else return false

/-- Takes the current token, which has to be of the given kind. -/
def expect (kind : TokenKind) (expected : String) : Reading Pos := do
  if (← peek) = kind then return (← advance).pos
  else unexpected expected

/-- Takes an identifier. -/
def expectIdent : Reading String := do
  match ← peek with
  | .ident name =>
    let _ ← advance
    return name
  | _ => unexpected "identifier"

/-- Takes the key of an entry of a map. -/
def expectKey : Reading String := do
  match (← advance).kind with
  | .ident name => return name
  | .str text => return text
  | _ => unexpected "map key"

/-- Skips a keyword of declarations, which may stand before a name. -/
def skipDeclarator : Reading Unit := do
  if !(← eat (.keyword .defines)) then
    let _ ← eat (.keyword .varies)

/-! ## Section 3: Loops over Tokens -/

/-- Takes tokens of the given kinds, at most as many as a bound. -/
def skipWhile (skips : TokenKind → Bool) (bound : Nat) : Reading Unit := do
  match bound with
  | 0 => throw .exhausted
  | bound + 1 =>
    if skips (← peek) then
      let _ ← advance
      skipWhile skips bound

/-- Takes tokens of the given kinds. The list is long enough as a bound: the loop ends before it does. -/
def skip (skips : TokenKind → Bool) : Reading Unit := do
  skipWhile skips ((← read).length + 1)

/-- Skips line feeds. -/
def skipNewlines : Reading Unit := skip (· = .newline)

/-- Skips line feeds and semicolons. -/
def skipSeparators : Reading Unit := skip isSeparator

/-- The offset of the first token ahead that is no line feed, counted from an offset. -/
def offsetBehindNewlines (bound offset : Nat) : Reading Nat := do
  match bound with
  | 0 => throw .exhausted
  | bound + 1 =>
    if (← peekAt offset) = .newline then offsetBehindNewlines bound (offset + 1)
    else return offset

/-- Whether line feeds follow and behind them a point, which continues a chain of members. -/
def continuesChain : Reading Bool := do
  let offset ← offsetBehindNewlines ((← read).length + 1) 0
  let kind ← peekAt offset
  return 0 < offset && kind = .symbol .dot

/-- Skips the line feeds before a point that continues a chain. -/
def skipToChain : Reading Unit := do
  if ← continuesChain then skipNewlines

/-- Whether a call without parentheses starts here: an identifier with an argument in the same line. -/
def isCommandCall : Reading Bool := do
  let kind ← peek
  let p ← position
  match kind, (← read)[(← get).index + 1]? with
  | .ident _, some next => return next.pos.line = p.line && startsArgument next.kind
  | _, _ => return false

/-- Whether an entry of a map starts here: a name or a string with a colon behind it. -/
def isMapKey : Reading Bool := do
  match ← peek with
  | .ident _ | .str _ => return (← peekAt 1) = .symbol .colon
  | _ => return false

/-- Takes identifiers separated by commas, and a comma behind the last one. -/
def closureNames (bound : Nat) (names : List String) : Reading (List String) := do
  match bound with
  | 0 => throw .exhausted
  | bound + 1 =>
    match ← peek with
    | .ident name =>
      let _ ← advance
      if ← eat (.symbol .comma) then closureNames bound (names ++ [name])
      else return names ++ [name]
    | _ => return names

/-- Takes the arrow behind the names of parameters. Without names or without an arrow it goes back to an index
that was noted: there are no parameters then. -/
def arrowBehind (save : Nat) (names : List String) : Reading (List String) := do
  if names.isEmpty then
    goBack save
    return []
  else if ← eat (.symbol .arrow) then return names
  else
    goBack save
    return []

/-- Takes the parameters of a closure and its arrow, or nothing. -/
def closureParams : Reading (List String) := do
  let save := (← get).index
  if ← eat (.symbol .arrow) then return []
  else
    let names ← closureNames ((← read).length + 1) []
    arrowBehind save names

/-- Looks behind the separators for a token, and goes back if it is not there. -/
def lookBehind {α : Type} (kind : TokenKind) (found missing : Reading α) : Reading α := do
  let save := (← get).index
  skipSeparators
  if ← eat kind then found
  else
    goBack save
    missing

/-! ## Section 4: Constructs -/

/-- Opens a construct, and fails beyond the limit. The construct counts as open then as well. -/
def enter : Reading Unit := do
  modify fun s => s.setDepth (s.depth + 1)
  if maxNesting < (← get).depth then failWith .nestedTooDeeply (← position)

/-- Closes a construct. -/
def leave : Reading Unit := do
  match (← get).depth with
  | 0 => throw .unopened
  | depth + 1 => modify fun s => s.setDepth depth

/-- What stands inside of one more construct. It is closed when that was read. -/
def enclosed {α : Type} (inner : Reading α) : Reading α := do
  enter
  let a ← inner
  leave
  return a

/-- What stands inside of one more construct. It is closed when that was read and when reading it failed. -/
def enclosedAlways {α : Type} (inner : Reading α) : Reading α := do
  enter
  let a ← tryCatch inner fun halt => do
    leave
    throw halt
  leave
  return a

/-! ## Section 5: The Procedures -/

/-- The parameters of a named function behind the first ones, up to the closing parenthesis. -/
def paramsFrom (fuel : Nat) (params : List String) : Reading (List String) := do
  match fuel with
  | 0 => throw .exhausted
  | fuel + 1 =>
    let _ ← eat (.keyword .defines)
    let name ← expectIdent
    if params.contains name then failWith (.duplicateParameter name) (← position)
    let params := params ++ [name]
    skipNewlines
    if ← eat (.symbol .comma) then
      skipNewlines
      paramsFrom fuel params
    else
      let _ ← expect (.symbol .parenClose) "',' or ')'"
      return params

/-- The parameters of a named function in their parentheses. -/
def params (fuel : Nat) : Reading (List String) := do
  let _ ← expect (.symbol .parenOpen) "'('"
  skipNewlines
  if ← eat (.symbol .parenClose) then return []
  else paramsFrom fuel []

/-- The procedures that call each other, by what they read. -/
inductive Procedure : Type → Type where
  | statements (stop : TokenKind) : Procedure (List Stmt)
  | braced : Procedure (List Stmt)
  | block : Procedure (List Stmt)
  | statement : Procedure Stmt
  | declaration : Procedure Stmt
  | condition : Procedure Expr
  | conditional : Procedure Stmt
  | forLoop : Procedure Stmt
  | commandCall : Procedure Stmt
  | commandArgs : Procedure (List Expr)
  | simple : Procedure Stmt
  | expr : Procedure Expr
  | binary (level : Level) : Procedure Expr
  | binaryFrom (level : Level) (left : Expr) : Procedure Expr
  | operand (level : Level) : Procedure Expr
  | unary : Procedure Expr
  | chain : Procedure Expr
  | chainFrom (object : Expr) : Procedure Expr
  | callArgs : Procedure (List Expr)
  | argsFrom : Procedure (List Expr)
  | primary : Procedure Expr
  | collection : Procedure Expr
  | items : Procedure (List Expr)
  | entries : Procedure (List (String × Expr))
  | closure : Procedure Expr

section Step

variable (fuel : Nat) (call : {α : Type} → Procedure α → Reading α)

/-- What a procedure does, given what the procedures do that it calls. -/
def step : {α : Type} → Procedure α → Reading α
  | _, .statements stop => do
    skipSeparators
    let kind ← peek
    if kind = stop || kind = .eof then return []
    else
      let s ← call .statement
      let kind ← peek
      if isSeparator kind || kind = .eof || kind = stop then
        return s :: (← call (.statements stop))
      else unexpected "end of statement"
  | _, .braced => do
    let body ← call (.statements (.symbol .braceClose))
    let _ ← expect (.symbol .braceClose) "'\x7d'"
    return body
  | _, .block => enclosed do
    skipNewlines
    if ← eat (.symbol .braceOpen) then call .braced
    else return [← call .statement]
  | _, .statement => do
    match ← peek with
    | .keyword .defines | .keyword .varies => call .declaration
    | .keyword .ifs => call .conditional
    | .keyword .whiles =>
      let _ ← advance
      let cond ← call .condition
      return .whileLoop cond (← call .block)
    | .keyword .fors => call .forLoop
    | .keyword .returns =>
      let _ ← advance
      let kind ← peek
      if isSeparator kind || kind = .symbol .braceClose || kind = .eof then return .returns none
      else return .returns (some (← call .expr))
    | .keyword .breaks =>
      let _ ← advance
      return .breaks
    | .keyword .continues =>
      let _ ← advance
      return .continues
    | _ => if ← isCommandCall then call .commandCall else call .simple
  | _, .declaration => do
    let start := (← advance).pos
    let name ← expectIdent
    if (← peek) = .symbol .parenOpen then
      let ps ← params fuel
      skipNewlines
      let _ ← expect (.symbol .braceOpen) "'\x7b' to start function body"
      -- the body is read without opening a construct
      return .function name ps (← call .braced) start
    else if ← eat (.symbol .assign) then
      skipNewlines
      return .declare name (some (← call .expr)) start
    else return .declare name none start
  | _, .condition => do
    let _ ← expect (.symbol .parenOpen) "'('"
    skipNewlines
    let cond ← call .expr
    skipNewlines
    let _ ← expect (.symbol .parenClose) "')'"
    return cond
  | _, .conditional => do
    let _ ← advance
    let cond ← call .condition
    let thenBody ← call .block
    lookBehind (.keyword .elses)
      (do
        -- nor does a condition as the alternative open one, while any other alternative is a block
        if (← peek) = .keyword .ifs then
          return .branch cond thenBody (some [← call .conditional])
        else return .branch cond thenBody (some (← call .block)))
      (return .branch cond thenBody none)
  | _, .forLoop => do
    let start := (← advance).pos
    let _ ← expect (.symbol .parenOpen) "'('"
    skipDeclarator
    let var ← expectIdent
    let _ ← expect (.keyword .ins) "'in'"
    let items ← call .expr
    let _ ← expect (.symbol .parenClose) "')'"
    return .forLoop var items (← call .block) start
  | _, .commandCall => do
    let start ← position
    let name ← expectIdent
    let args ← call .commandArgs
    return .expr (.call (.var name start) args start)
  | _, .commandArgs => do
    let arg ← call .expr
    if ← eat (.symbol .comma) then
      skipNewlines
      return arg :: (← call .commandArgs)
    else return [arg]
  | _, .simple => do
    let start ← position
    let target ← call .expr
    match assignOp? (← peek) with
    | none => return .expr target
    | some op =>
      if target.isTarget then
        let _ ← advance
        skipNewlines
        return .assign target op (← call .expr) start
      else failWith .invalidTarget start
  | _, .expr => enclosedAlways (call (.binary .or))
  | _, .binary level => do
    let left ← call (.operand level)
    call (.binaryFrom level left)
  | _, .binaryFrom level left => do
    match level.join? (← peek) (← position) with
    | none => return left
    | some join =>
      let _ ← advance
      skipNewlines
      let right ← call (.operand level)
      call (.binaryFrom level (join left right))
  | _, .operand level =>
    match level.tighter? with
    | some tighter => call (.binary tighter)
    | none => call .unary
  | _, .unary => do
    match unaryOp? (← peek) with
    | none => call .chain
    | some op =>
      let start := (← advance).pos
      enclosedAlways do return .unary op (← call .unary) start
  | _, .chain => do
    let head ← call .primary
    call (.chainFrom head)
  | _, .chainFrom object => do
    skipToChain
    match ← peek with
    | .symbol .dot =>
      let start := (← advance).pos
      let name ← expectIdent
      let kind ← peek
      if kind = .symbol .parenOpen then
        let args ← call .callArgs
        call (.chainFrom (.method object name args start))
      else if kind = .symbol .braceOpen then
        let body ← call .closure
        call (.chainFrom (.method object name [body] start))
      else call (.chainFrom (.member object name start))
    | .symbol .bracketOpen =>
      let start := (← advance).pos
      skipNewlines
      let index ← call .expr
      skipNewlines
      let _ ← expect (.symbol .bracketClose) "']'"
      call (.chainFrom (.index object index start))
    | .symbol .parenOpen =>
      let start ← position
      let args ← call .callArgs
      call (.chainFrom (.call object args start))
    | _ => return object
  | _, .callArgs => do
    let _ ← expect (.symbol .parenOpen) "'('"
    skipNewlines
    let args ← if ← eat (.symbol .parenClose) then pure [] else call .argsFrom
    if (← peek) = .symbol .braceOpen then return args ++ [← call .closure]
    else return args
  | _, .argsFrom => do
    let arg ← call .expr
    skipNewlines
    if ← eat (.symbol .comma) then
      skipNewlines
      return arg :: (← call .argsFrom)
    else
      let _ ← expect (.symbol .parenClose) "',' or ')'"
      return [arg]
  | _, .primary => do
    let leaf (e : Expr) : Reading Expr := do
      let _ ← advance
      return e
    match ← peek with
    | .int n => leaf (.int n)
    | .float literal => leaf (.float literal)
    | .str text => leaf (.str text)
    | .keyword .trues => leaf (.bool true)
    | .keyword .falses => leaf (.bool false)
    | .keyword .nulls => leaf .null
    | .ident name => leaf (.var name (← position))
    | .symbol .parenOpen =>
      let _ ← advance
      skipNewlines
      let inner ← call .expr
      skipNewlines
      let _ ← expect (.symbol .parenClose) "')'"
      return inner
    | .symbol .bracketOpen => call .collection
    | .symbol .braceOpen => call .closure
    | _ => unexpected "expression"
  | _, .collection => do
    let _ ← advance
    skipNewlines
    if ← eat (.symbol .colon) then
      let _ ← expect (.symbol .bracketClose) "']'"
      return .map []
    else if ← isMapKey then return .map (← call .entries)
    else return .list (← call .items)
  | _, .items => do
    skipNewlines
    if ← eat (.symbol .bracketClose) then return []
    else
      let item ← call .expr
      skipNewlines
      if ← eat (.symbol .comma) then return item :: (← call .items)
      else
        let _ ← expect (.symbol .bracketClose) "',' or ']'"
        return [item]
  | _, .entries => do
    skipNewlines
    if ← eat (.symbol .bracketClose) then return []
    else
      let key ← expectKey
      let _ ← expect (.symbol .colon) "':'"
      skipNewlines
      let value ← call .expr
      skipNewlines
      if ← eat (.symbol .comma) then return (key, value) :: (← call .entries)
      else
        let _ ← expect (.symbol .bracketClose) "',' or ']'"
        return [(key, value)]
  | _, .closure => do
    -- the brace is taken first, so that a closure that is too deep is refused behind it
    let start ← expect (.symbol .braceOpen) "'\x7b'"
    enclosed do
      skipNewlines
      let names ← closureParams
      return .closure names (← call .braced) start

end Step

/-- A procedure with a bound on its recursion. -/
def run : Nat → {α : Type} → Procedure α → Reading α
  | 0, _, _ => throw .exhausted
  | fuel + 1, _, procedure => step fuel (run fuel) procedure

/-- A whole program: statements up to the end of the input. -/
def program (fuel : Nat) : Reading (List Stmt) := do
  let stmts ← run fuel (.statements .eof)
  let _ ← expect .eof "end of input"
  return stmts

end RowConsole.Script.Grammar.Indexed
