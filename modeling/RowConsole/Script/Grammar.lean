import RowConsole.Script.Grammar.Basic

/-!
# The Grammar

A recursive-descent reading of the token list. Statements are separated by line feeds or semicolons. Line
feeds do not count inside parentheses and brackets, after an operator, and before a point that continues a
chain of members.

Every procedure takes a bound on the remaining recursion (`fuel`), which the entry point chooses large enough
for the number of tokens, and the number of constructs around it (`depth`), which is limited.
-/

namespace RowConsole.Script.Grammar

/-! ## Section 1: The Procedures -/

/-- The parameters of a named function behind the first ones: names separated by commas, up to the closing
parenthesis. Each may be marked by the keyword of declarations, and none may be repeated. -/
def paramsFrom (fuel : Nat) (params : List String) : Parser (List String) := do
  match fuel with
  | 0 => throw .exhausted
  | fuel + 1 =>
    let _ ← eat (.keyword .defines)
    let name ← expectIdent
    if params.contains name then failWith (.duplicateParameter name) (← position)
    let params := params ++ [name]
    skipNewlines
    if ← eat (.symbol .comma) then
      skipNewlines
      paramsFrom fuel params
    else
      let _ ← expect (.symbol .parenClose) "',' or ')'"
      return params
termination_by structural fuel

/-- The parameters of a named function in their parentheses. -/
def params (fuel : Nat) : Parser (List String) := do
  let _ ← expect (.symbol .parenOpen) "'('"
  skipNewlines
  if ← eat (.symbol .parenClose) then return []
  else paramsFrom fuel []

mutual

/-- Statements up to a closing token, which is not taken, or the end of the input. -/
def statements (fuel depth : Nat) (stop : TokenKind) : Parser (List Stmt) := do
  match fuel with
  | 0 => throw .exhausted
  | fuel + 1 =>
    skipSeparators
    let kind ← peek
    if kind = stop || kind = .eof then return []
    else
      let s ← statement fuel depth
      let kind ← peek
      if isSeparator kind || kind = .eof || kind = stop then
        return s :: (← statements fuel depth stop)
      else unexpected "end of statement"
termination_by structural fuel

/-- The statements between braces. -/
def braced (fuel depth : Nat) : Parser (List Stmt) := do
  match fuel with
  | 0 => throw .exhausted
  | fuel + 1 =>
    let body ← statements fuel depth (.symbol .braceClose)
    let _ ← expect (.symbol .braceClose) "'\x7d'"
    return body
termination_by structural fuel

/-- The body of a condition or a loop: statements in braces, or a single statement. -/
def block (fuel depth : Nat) : Parser (List Stmt) := do
  match fuel with
  | 0 => throw .exhausted
  | fuel + 1 =>
    -- A body counts as one more construct, with braces or without.
    let depth ← enter depth
    skipNewlines
    if ← eat (.symbol .braceOpen) then braced fuel depth
    else return [← statement fuel depth]
termination_by structural fuel

/-- One statement. -/
def statement (fuel depth : Nat) : Parser Stmt := do
  match fuel with
  | 0 => throw .exhausted
  | fuel + 1 =>
    match ← peek with
    | .keyword .defines | .keyword .varies => declaration fuel depth
    | .keyword .ifs => conditional fuel depth
    | .keyword .whiles =>
      let _ ← advance
      let cond ← condition fuel depth
      return .whileLoop cond (← block fuel depth)
    | .keyword .fors => forLoop fuel depth
    | .keyword .returns =>
      let _ ← advance
      let kind ← peek
      if isSeparator kind || kind = .symbol .braceClose || kind = .eof then return .returns none
      else return .returns (some (← expr fuel depth))
    | .keyword .breaks =>
      let _ ← advance
      return .breaks
    | .keyword .continues =>
      let _ ← advance
      return .continues
    | _ => if isCommandCall (← get) then commandCall fuel depth else simple fuel depth
termination_by structural fuel

/-- A declaration of a variable, or of a function when a parenthesis follows the name. -/
def declaration (fuel depth : Nat) : Parser Stmt := do
  match fuel with
  | 0 => throw .exhausted
  | fuel + 1 =>
    let start := (← advance).pos
    let name ← expectIdent
    if (← peek) = .symbol .parenOpen then
      let ps ← params fuel
      skipNewlines
      let _ ← expect (.symbol .braceOpen) "'\x7b' to start function body"
      return .function name ps (← braced fuel depth) start
    else if ← eat (.symbol .assign) then
      skipNewlines
      return .declare name (some (← expr fuel depth)) start
    else return .declare name none start
termination_by structural fuel

/-- A condition in parentheses. -/
def condition (fuel depth : Nat) : Parser Expr := do
  match fuel with
  | 0 => throw .exhausted
  | fuel + 1 =>
    let _ ← expect (.symbol .parenOpen) "'('"
    skipNewlines
    let cond ← expr fuel depth
    skipNewlines
    let _ ← expect (.symbol .parenClose) "')'"
    return cond
termination_by structural fuel

/-- A conditional statement. Its alternative may follow on a later line; without one, nothing behind the
body is taken. -/
def conditional (fuel depth : Nat) : Parser Stmt := do
  match fuel with
  | 0 => throw .exhausted
  | fuel + 1 =>
    let _ ← advance
    let cond ← condition fuel depth
    let thenBody ← block fuel depth
    -- Separators may stand before the alternative; without one they are given back.
    let save ← get
    skipSeparators
    if ← eat (.keyword .elses) then
      if (← peek) = .keyword .ifs then
        return .branch cond thenBody (some [← conditional fuel depth])
      else return .branch cond thenBody (some (← block fuel depth))
    else
      set save
      return .branch cond thenBody none
termination_by structural fuel

/-- A loop over the elements of a value. -/
def forLoop (fuel depth : Nat) : Parser Stmt := do
  match fuel with
  | 0 => throw .exhausted
  | fuel + 1 =>
    let start := (← advance).pos
    let _ ← expect (.symbol .parenOpen) "'('"
    skipDeclarator
    let var ← expectIdent
    let _ ← expect (.keyword .ins) "'in'"
    let items ← expr fuel depth
    let _ ← expect (.symbol .parenClose) "')'"
    return .forLoop var items (← block fuel depth) start
termination_by structural fuel

/-- A call without parentheses. -/
def commandCall (fuel depth : Nat) : Parser Stmt := do
  match fuel with
  | 0 => throw .exhausted
  | fuel + 1 =>
    let start ← position
    let name ← expectIdent
    let args ← commandArgs fuel depth
    -- The call stands where its name does.
    return .expr (.call (.var name start) args start)
termination_by structural fuel

/-- Arguments separated by commas, without parentheses around them. -/
def commandArgs (fuel depth : Nat) : Parser (List Expr) := do
  match fuel with
  | 0 => throw .exhausted
  | fuel + 1 =>
    let arg ← expr fuel depth
    if ← eat (.symbol .comma) then
      skipNewlines
      return arg :: (← commandArgs fuel depth)
    else return [arg]
termination_by structural fuel

/-- An expression, or an assignment when one of its symbols follows a target. -/
def simple (fuel depth : Nat) : Parser Stmt := do
  match fuel with
  | 0 => throw .exhausted
  | fuel + 1 =>
    let start ← position
    let target ← expr fuel depth
    match assignOp? (← peek) with
    | none => return .expr target
    | some op =>
      if target.isTarget then
        let _ ← advance
        skipNewlines
        return .assign target op (← expr fuel depth) start
      -- The place of the error is the start of the target, not the sign behind it.
      else failWith .invalidTarget start
termination_by structural fuel

/-- An expression. -/
def expr (fuel depth : Nat) : Parser Expr := do
  match fuel with
  | 0 => throw .exhausted
  | fuel + 1 =>
    let depth ← enter depth
    binary fuel depth .or
termination_by structural fuel

/-- Operands of a level joined by its operators, from the left. -/
def binary (fuel depth : Nat) (level : Level) : Parser Expr := do
  match fuel with
  | 0 => throw .exhausted
  | fuel + 1 =>
    let left ← operand fuel depth level
    binaryFrom fuel depth level left
termination_by structural fuel

/-- Further operands of a level behind the expression read so far. -/
def binaryFrom (fuel depth : Nat) (level : Level) (left : Expr) : Parser Expr := do
  match fuel with
  | 0 => throw .exhausted
  | fuel + 1 =>
    match level.join? (← peek) (← position) with
    | none => return left
    | some join =>
      let _ ← advance
      skipNewlines
      let right ← operand fuel depth level
      binaryFrom fuel depth level (join left right)
termination_by structural fuel

/-- An operand of a level: an expression of the next tighter level, or in the end a unary one. -/
def operand (fuel depth : Nat) (level : Level) : Parser Expr := do
  match fuel with
  | 0 => throw .exhausted
  | fuel + 1 =>
    match level.tighter? with
    | some tighter => binary fuel depth tighter
    | none => unary fuel depth
termination_by structural fuel

/-- An expression behind any number of unary operators. -/
def unary (fuel depth : Nat) : Parser Expr := do
  match fuel with
  | 0 => throw .exhausted
  | fuel + 1 =>
    match unaryOp? (← peek) with
    | none => chain fuel depth
    | some op =>
      let start := (← advance).pos
      -- Every sign nests, so a long row of them meets the limit too.
      let depth ← enter depth
      return .unary op (← unary fuel depth) start
termination_by structural fuel

/-- A primary expression and the members, indices and calls behind it. -/
def chain (fuel depth : Nat) : Parser Expr := do
  match fuel with
  | 0 => throw .exhausted
  | fuel + 1 =>
    let head ← primary fuel depth
    chainFrom fuel depth head
termination_by structural fuel

/-- Further members, indices and calls behind the expression read so far. -/
def chainFrom (fuel depth : Nat) (object : Expr) : Parser Expr := do
  match fuel with
  | 0 => throw .exhausted
  | fuel + 1 =>
    skipToChain
    match ← peek with
    | .symbol .dot =>
      let start := (← advance).pos
      let name ← expectIdent
      let kind ← peek
      if kind = .symbol .parenOpen then
        let args ← callArgs fuel depth
        chainFrom fuel depth (.method object name args start)
      -- A closure directly behind the name is the only argument.
      else if kind = .symbol .braceOpen then
        let body ← closure fuel depth
        chainFrom fuel depth (.method object name [body] start)
      else chainFrom fuel depth (.member object name start)
    | .symbol .bracketOpen =>
      let start := (← advance).pos
      skipNewlines
      let index ← expr fuel depth
      skipNewlines
      let _ ← expect (.symbol .bracketClose) "']'"
      chainFrom fuel depth (.index object index start)
    -- Whatever the chain has come to is called, not only a name.
    | .symbol .parenOpen =>
      let start ← position
      let args ← callArgs fuel depth
      chainFrom fuel depth (.call object args start)
    | _ => return object
termination_by structural fuel

/-- Arguments in parentheses, and a closure behind them as one more argument. -/
def callArgs (fuel depth : Nat) : Parser (List Expr) := do
  match fuel with
  | 0 => throw .exhausted
  | fuel + 1 =>
    let _ ← expect (.symbol .parenOpen) "'('"
    skipNewlines
    let args ← if ← eat (.symbol .parenClose) then pure [] else argsFrom fuel depth
    if (← peek) = .symbol .braceOpen then return args ++ [← closure fuel depth]
    else return args
termination_by structural fuel

/-- Arguments separated by commas, up to the closing parenthesis. -/
def argsFrom (fuel depth : Nat) : Parser (List Expr) := do
  match fuel with
  | 0 => throw .exhausted
  | fuel + 1 =>
    let arg ← expr fuel depth
    skipNewlines
    if ← eat (.symbol .comma) then
      skipNewlines
      return arg :: (← argsFrom fuel depth)
    else
      let _ ← expect (.symbol .parenClose) "',' or ')'"
      return [arg]
termination_by structural fuel

/-- A literal, a name, a collection, a closure, or an expression in parentheses. -/
def primary (fuel depth : Nat) : Parser Expr := do
  match fuel with
  | 0 => throw .exhausted
  | fuel + 1 =>
    let leaf (e : Expr) : Parser Expr := do
      let _ ← advance
      return e
    match ← peek with
    | .int n => leaf (.int n)
    | .float literal => leaf (.float literal)
    | .str text => leaf (.str text)
    | .keyword .trues => leaf (.bool true)
    | .keyword .falses => leaf (.bool false)
    | .keyword .nulls => leaf .null
    | .ident name => leaf (.var name (← position))
    | .symbol .parenOpen =>
      let _ ← advance
      skipNewlines
      let inner ← expr fuel depth
      skipNewlines
      let _ ← expect (.symbol .parenClose) "')'"
      -- Parentheses leave no trace in the tree.
      return inner
    | .symbol .bracketOpen => collection fuel depth
    | .symbol .braceOpen => closure fuel depth
    | _ => unexpected "expression"
termination_by structural fuel

/-- A list or a map in brackets. It is a map if its first entry has a key, or if it holds only a colon. -/
def collection (fuel depth : Nat) : Parser Expr := do
  match fuel with
  | 0 => throw .exhausted
  | fuel + 1 =>
    let _ ← advance
    skipNewlines
    -- Only the empty map needs the colon alone.
    if ← eat (.symbol .colon) then
      let _ ← expect (.symbol .bracketClose) "']'"
      return .map []
    else if isMapKey (← get) then return .map (← entries fuel depth)
    else return .list (← items fuel depth)
termination_by structural fuel

/-- The items of a list, up to the closing bracket; a comma may follow the last one. -/
def items (fuel depth : Nat) : Parser (List Expr) := do
  match fuel with
  | 0 => throw .exhausted
  | fuel + 1 =>
    skipNewlines
    if ← eat (.symbol .bracketClose) then return []
    else
      let item ← expr fuel depth
      skipNewlines
      if ← eat (.symbol .comma) then return item :: (← items fuel depth)
      else
        let _ ← expect (.symbol .bracketClose) "',' or ']'"
        return [item]
termination_by structural fuel

/-- The entries of a map, up to the closing bracket; a comma may follow the last one. -/
def entries (fuel depth : Nat) : Parser (List (String × Expr)) := do
  match fuel with
  | 0 => throw .exhausted
  | fuel + 1 =>
    skipNewlines
    if ← eat (.symbol .bracketClose) then return []
    else
      let key ← expectKey
      let _ ← expect (.symbol .colon) "':'"
      skipNewlines
      let value ← expr fuel depth
      skipNewlines
      if ← eat (.symbol .comma) then return (key, value) :: (← entries fuel depth)
      else
        let _ ← expect (.symbol .bracketClose) "',' or ']'"
        return [(key, value)]
termination_by structural fuel

/-- A closure in braces. -/
def closure (fuel depth : Nat) : Parser Expr := do
  match fuel with
  | 0 => throw .exhausted
  | fuel + 1 =>
    let start ← expect (.symbol .braceOpen) "'\x7b'"
    let depth ← enter depth
    skipNewlines
    -- Whether there are parameters is known only at the arrow, so all of them are read ahead.
    let (names, c) := closureParams (← get)
    set c
    return .closure names (← braced fuel depth) start
termination_by structural fuel

end

/-! ## Section 2: Programs -/

/-- A whole program: statements up to the end of the input. -/
def program (fuel : Nat) : Parser (List Stmt) := do
  let stmts ← statements fuel 0 .eof
  let _ ← expect .eof "end of input"
  return stmts

/-- A bound on the recursion that reading a number of tokens can need. -/
def fuelFor (tokens : Nat) : Nat := 32 * (tokens + 1)

/-- The program that a token list spells. -/
def parseTokens (tokens : List Token) : Except Stop (List Stmt) :=
  match tokens with
  | [] => .ok []
  | t :: rest =>
    match program (fuelFor tokens.length) ⟨t, rest⟩ with
    | .ok (stmts, _) => .ok stmts
    | .error stop => .error stop

end RowConsole.Script.Grammar

namespace RowConsole.Script

/-- The program that a source spells. The bound on the recursion is never reached; were it reached, the
source would count as nested too deeply. -/
def parse (source : String) : ScriptResult (List Stmt) := do
  let tokens ← tokenize source
  match Grammar.parseTokens tokens with
  | .ok stmts => .ok stmts
  | .error (.failed e) => .error e
  | .error .exhausted => refusalAt .nestedTooDeeply Pos.start

end RowConsole.Script
