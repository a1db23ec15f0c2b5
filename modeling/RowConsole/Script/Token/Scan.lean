import RowConsole.Script.Error
import RowConsole.Text.Blank
import RowConsole.Text.Identifier

/-!
# From Text to Tokens

A source is cut into tokens from left to right. Each reader takes the glyphs still unread and returns what
it read together with the glyphs behind it, so that a token stands where its first glyph stands. Blanks other
than line feeds and comments separate tokens and are dropped.
-/

namespace RowConsole.Script

/-! ## Section 1: Blanks and Comments -/

/-- Where a reader of blanks and comments stands. -/
inductive Trivia where
  | between
  | lineComment
  /-- Inside a block comment that starts at a position. -/
  | blockComment (start : Pos)
  deriving DecidableEq, Repr

/-- The glyphs from the next token, line feed or end onwards. -/
def skipTrivia : Trivia → List Glyph → ScriptResult (List Glyph)
  | .between, [] => .ok []
  | .between, g :: rest =>
    if g.char ≠ '\n' ∧ Text.isBlank g.char = true then skipTrivia .between rest
    else if g.char = '/' then
      match rest with
      | ⟨'/', _⟩ :: rest => skipTrivia .lineComment rest
      | ⟨'*', _⟩ :: rest => skipTrivia (.blockComment g.pos) rest
      | _ => .ok (g :: rest)
    else .ok (g :: rest)
  | .lineComment, [] => .ok []
  | .lineComment, g :: rest =>
    -- The line feed that ends a comment is a token, so it stays.
    if g.char = '\n' then .ok (g :: rest) else skipTrivia .lineComment rest
  | .blockComment start, [] => refusalAt .unterminatedComment start
  | .blockComment _, ⟨'*', _⟩ :: ⟨'/', _⟩ :: rest => skipTrivia .between rest
  | .blockComment start, _ :: rest => skipTrivia (.blockComment start) rest

/-! ## Section 2: Literals and Words -/

/-- The character that an escape stands for. -/
def unescape : Char → Char
  | 'n' => '\n'
  | 't' => '\t'
  | 'r' => '\r'
  | '0' => '\x00'
  | c => c

/-- The characters up to the closing quote, and the glyphs behind it. -/
def scanString (quote : Char) : List Glyph → Option (List Char × List Glyph)
  | [] => none
  | g :: rest =>
    if g.char = quote then some ([], rest)
    else if g.char = '\\' then
      match rest with
      | [] => none
      | e :: rest => (scanString quote rest).map fun (cs, tail) => (unescape e.char :: cs, tail)
    else (scanString quote rest).map fun (cs, tail) => (g.char :: cs, tail)

/-- The leading digits, underscores among them dropped, and the glyphs behind. -/
def scanDigits : List Glyph → List Char × List Glyph
  | [] => ([], [])
  | g :: rest =>
    if g.char.isDigit then
      let (ds, tail) := scanDigits rest
      (g.char :: ds, tail)
    else if g.char = '_' then scanDigits rest
    else ([], g :: rest)

/-- The fraction that follows the digits of a number: a point with a digit directly behind it. -/
def scanFraction? : List Glyph → Option (List Char × List Glyph)
  | ⟨'.', _⟩ :: d :: rest => if d.char.isDigit then some (scanDigits (d :: rest)) else none
  | _ => none

/-- The number that starts with a digit at `start`. -/
def scanNumber (start : Pos) (first : Char) (rest : List Glyph) :
    ScriptResult (TokenKind × List Glyph) :=
  let (more, tail) := scanDigits rest
  let whole := first :: more
  -- A point without a digit behind it is a token of its own.
  match scanFraction? tail with
  | some (fraction, tail) => .ok (.float (String.ofList (whole ++ '.' :: fraction)), tail)
  | none =>
    match Decimal.toInt64? (Decimal.ofDigits whole : Nat) with
    | some n => .ok (.int n, tail)
    | none => refusalAt (.integerTooLarge (String.ofList whole)) start

/-- Whether a character may start a word. -/
def isWordStart (c : Char) : Bool :=
  c == '_' || c == '$' || Text.isIdentifierStart c

/-- Whether a character may continue a word. -/
def isWordContinue (c : Char) : Bool :=
  c == '_' || c == '$' || Text.isIdentifierContinue c

/-- A word is a keyword if it is spelled like one, and otherwise an identifier. -/
def wordKind (word : String) : TokenKind :=
  match Keyword.ofWord? word with
  | some k => .keyword k
  | none => .ident word

/-- The word that starts with a character. -/
def scanWord (first : Char) (rest : List Glyph) : TokenKind × List Glyph :=
  let more := rest.takeWhile fun g => isWordContinue g.char
  let word := String.ofList (first :: more.map Glyph.char)
  (wordKind word, rest.dropWhile fun g => isWordContinue g.char)

/-! ## Section 3: Symbols -/

/-- The symbols of two characters. -/
def symbolOfTwo? : Char → Char → Option Symbol
  | '+', '=' => some .plusAssign
  | '-', '>' => some .arrow
  | '-', '=' => some .minusAssign
  | '=', '=' => some .equal
  | '!', '=' => some .notEqual
  | '<', '=' => some .lessEqual
  | '>', '=' => some .greaterEqual
  | '&', '&' => some .and
  | '|', '|' => some .or
  | _, _ => none

/-- The symbols of one character. -/
def symbolOfOne? : Char → Option Symbol
  | '(' => some .parenOpen
  | ')' => some .parenClose
  | '{' => some .braceOpen
  | '}' => some .braceClose
  | '[' => some .bracketOpen
  | ']' => some .bracketClose
  | ',' => some .comma
  | ':' => some .colon
  | '.' => some .dot
  | ';' => some .semicolon
  | '*' => some .star
  | '/' => some .slash
  | '%' => some .percent
  | '+' => some .plus
  | '-' => some .minus
  | '=' => some .assign
  | '!' => some .not
  | '<' => some .less
  | '>' => some .greater
  | _ => none

/-- The symbol that starts with a character; a longer symbol is preferred. -/
def scanSymbol? (first : Char) (rest : List Glyph) : Option (Symbol × List Glyph) :=
  match rest with
  | g :: tail =>
    match symbolOfTwo? first g.char with
    | some s => some (s, tail)
    | none => (symbolOfOne? first).map (·, rest)
  | [] => (symbolOfOne? first).map (·, rest)

/-! ## Section 4: Tokens -/

/-- The token that starts with a glyph, and the glyphs behind it. -/
def scanToken (g : Glyph) (rest : List Glyph) : ScriptResult (TokenKind × List Glyph) :=
  if g.char = '\n' then .ok (.newline, rest)
  else if g.char = '\x27' ∨ g.char = '\x22' then
    match scanString g.char rest with
    | some (cs, tail) => .ok (.str (String.ofList cs), tail)
    | none => refusalAt .unterminatedString g.pos
  else if g.char.isDigit then scanNumber g.pos g.char rest
  else if isWordStart g.char then .ok (scanWord g.char rest)
  else
    match scanSymbol? g.char rest with
    | some (s, tail) => .ok (.symbol s, tail)
    | none => refusalAt (.unexpectedCharacter g.char) g.pos

/-- The tokens of the unread glyphs of a source that ends at `finish`. Each token takes at least one glyph,
so `fuel` never runs out before the glyphs do when it starts at their number. -/
def scanFrom (finish : Pos) (fuel : Nat) (glyphs : List Glyph) : ScriptResult (List Token) :=
  match fuel with
  | 0 => .ok [⟨.eof, finish⟩]
  | fuel + 1 =>
    match skipTrivia .between glyphs with
    | .error e => .error e
    | .ok [] => .ok [⟨.eof, finish⟩]
    | .ok (g :: rest) =>
      match scanToken g rest with
      | .error e => .error e
      | .ok (kind, tail) =>
        match scanFrom finish fuel tail with
        | .error e => .error e
        | .ok tokens => .ok (⟨kind, g.pos⟩ :: tokens)

/-- The tokens of a text, the end of the input as the last one. -/
def tokenizeChars (cs : List Char) : ScriptResult (List Token) :=
  scanFrom (Pos.start.after cs) cs.length (locate Pos.start cs)

/-- The tokens of a source, the end of the input as the last one. -/
def tokenize (source : String) : ScriptResult (List Token) :=
  tokenizeChars source.toList

end RowConsole.Script
