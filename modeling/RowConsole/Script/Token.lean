import RowConsole.Decimal.Layout
import RowConsole.Decimal.Numeral
import RowConsole.Script.Position

/-!
# Tokens

The words of the scripting language: literals, identifiers, keywords, symbols, the end of a line, which
separates statements, and the end of the input. A decimal literal keeps its digits; its value is worked out
where it is needed.
-/

namespace RowConsole.Script

/-! ## Section 1: Keywords and Symbols -/

/-- The words that are never identifiers. -/
inductive Keyword where
  | defines | varies | ifs | elses | whiles | fors | ins | returns | breaks | continues
  | trues | falses | nulls
  deriving DecidableEq, Repr

/-- Every keyword. -/
def Keyword.all : List Keyword :=
  [.defines, .varies, .ifs, .elses, .whiles, .fors, .ins, .returns, .breaks, .continues,
   .trues, .falses, .nulls]

/-- The spelling of a keyword. -/
def Keyword.word : Keyword → String
  | .defines => "def"
  | .varies => "var"
  | .ifs => "if"
  | .elses => "else"
  | .whiles => "while"
  | .fors => "for"
  | .ins => "in"
  | .returns => "return"
  | .breaks => "break"
  | .continues => "continue"
  | .trues => "true"
  | .falses => "false"
  | .nulls => "null"

/-- The name by which messages call a keyword. -/
def Keyword.label : Keyword → String
  | .defines => "KwDef"
  | .varies => "KwVar"
  | .ifs => "KwIf"
  | .elses => "KwElse"
  | .whiles => "KwWhile"
  | .fors => "KwFor"
  | .ins => "KwIn"
  | .returns => "KwReturn"
  | .breaks => "KwBreak"
  | .continues => "KwContinue"
  | .trues => "KwTrue"
  | .falses => "KwFalse"
  | .nulls => "KwNull"

/-- The keyword with a given spelling. -/
def Keyword.ofWord? (word : String) : Option Keyword :=
  Keyword.all.find? fun k => k.word == word

/-- Whether a word is a keyword. -/
def isKeyword (word : String) : Bool :=
  (Keyword.ofWord? word).isSome

/-- Punctuation and operators. -/
inductive Symbol where
  | parenOpen | parenClose | braceOpen | braceClose | bracketOpen | bracketClose
  | comma | colon | dot | semicolon | arrow
  | plus | minus | star | slash | percent
  | assign | plusAssign | minusAssign
  | equal | notEqual | less | lessEqual | greater | greaterEqual
  | and | or | not
  deriving DecidableEq, Repr

/-- The spelling of a symbol. -/
def Symbol.word : Symbol → String
  | .parenOpen => "("
  | .parenClose => ")"
  | .braceOpen => "\x7b"
  | .braceClose => "\x7d"
  | .bracketOpen => "["
  | .bracketClose => "]"
  | .comma => ","
  | .colon => ":"
  | .dot => "."
  | .semicolon => ";"
  | .arrow => "->"
  | .plus => "+"
  | .minus => "-"
  | .star => "*"
  | .slash => "/"
  | .percent => "%"
  | .assign => "="
  | .plusAssign => "+="
  | .minusAssign => "-="
  | .equal => "=="
  | .notEqual => "!="
  | .less => "<"
  | .lessEqual => "<="
  | .greater => ">"
  | .greaterEqual => ">="
  | .and => "&&"
  | .or => "||"
  | .not => "!"

/-- The name by which messages call a symbol. -/
def Symbol.label : Symbol → String
  | .parenOpen => "LParen"
  | .parenClose => "RParen"
  | .braceOpen => "LBrace"
  | .braceClose => "RBrace"
  | .bracketOpen => "LBracket"
  | .bracketClose => "RBracket"
  | .comma => "Comma"
  | .colon => "Colon"
  | .dot => "Dot"
  | .semicolon => "Semicolon"
  | .arrow => "Arrow"
  | .plus => "Plus"
  | .minus => "Minus"
  | .star => "Star"
  | .slash => "Slash"
  | .percent => "Percent"
  | .assign => "Assign"
  | .plusAssign => "PlusAssign"
  | .minusAssign => "MinusAssign"
  | .equal => "EqEq"
  | .notEqual => "Neq"
  | .less => "Lt"
  | .lessEqual => "Le"
  | .greater => "Gt"
  | .greaterEqual => "Ge"
  | .and => "And"
  | .or => "Or"
  | .not => "Not"

/-! ## Section 2: Tokens -/

/-- What a token is. A decimal literal is kept as digits, a point and digits. -/
inductive TokenKind where
  | int (value : Int64)
  | float (literal : String)
  | str (text : String)
  | ident (name : String)
  | keyword (k : Keyword)
  | symbol (s : Symbol)
  | newline
  | eof
  deriving DecidableEq, Repr

/-- A token and the position of its first character. -/
structure Token where
  kind : TokenKind
  pos : Pos
  deriving DecidableEq, Repr

/-- The double that a decimal literal stands for. -/
def literalValue (literal : String) : Float :=
  (Decimal.readDecimal literal.toList).getD 0.0

/-- The name by which the kind of a token is called. -/
def TokenKind.label : TokenKind → String
  | .int _ => "Int"
  | .float _ => "Float"
  | .str _ => "Str"
  | .ident _ => "Ident"
  | .keyword k => k.label
  | .symbol s => s.label
  | .newline => "Newline"
  | .eof => "Eof"

/-- How a message about an unexpected token calls it. -/
def TokenKind.describe : TokenKind → String
  | .int n => "number " ++ toString n
  | .float literal => "number " ++ Decimal.Layout.plain.ofFloat (literalValue literal)
  | .str text => "string '" ++ text ++ "'"
  | .ident name => "identifier '" ++ name ++ "'"
  | .newline => "end of line"
  | .eof => "end of input"
  | .keyword k => k.label
  | .symbol s => s.label

end RowConsole.Script
