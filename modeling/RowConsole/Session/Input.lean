import RowConsole.Script.Token
import RowConsole.Text.Blank
import RowConsole.Text.Identifier
import RowConsole.Text.LetterCase
import RowConsole.Text.Search

/-!
# Classifying Input

What a chunk of console input is, decided from its text before anything is evaluated. The rules are tried in
a fixed order, and the first that applies decides: blank text, a command, an exit request, an unfinished block,
a declaration or definition, an assignment, and otherwise an expression. Braces are counted wherever they
stand, in strings and comments as well.
-/

namespace RowConsole.Session

open Script (Keyword)

/-! ## Section 1: Kinds of Input -/

/-- Classified input. -/
inductive Input where
  | empty
  | exit
  /-- A command behind a colon, in small letters, and the rest of the text. -/
  | command (name args : String)
  | declaration (keyword : Keyword) (name expr : String)
  /-- A definition of a function; `source` is the whole text. -/
  | functionDefinition (name source : String)
  | assignment (name expr : String)
  | expression (text : String)
  /-- More lines are needed. -/
  | incomplete
  deriving DecidableEq, Repr

/-! ## Section 2: Questions about Text -/

/-- Whether a text closes at least as many braces as it opens. -/
def isComplete (cs : List Char) : Bool :=
  cs.count '{' ≤ cs.count '}'

/-- The name and the expression of a bare assignment: the text is cut at its first equals sign, which must not
be part of a comparison, and there has to be an identifier before it and something behind it. -/
def findAssignment (cs : List Char) : Option (String × String) :=
  let before := cs.takeWhile (· ≠ '=')
  match cs.dropWhile (· ≠ '=') with
  | [] => none
  | _ :: after =>
    -- The sign may be the second character of a comparison as well as the first.
    let inComparison :=
      (match before.getLast? with
        | some c => c = '=' || c = '!' || c = '<' || c = '>'
        | none => false) || after.head? = some '='
    if inComparison then none
    else
      let name := String.ofList (Text.trimChars before)
      let expr := String.ofList (Text.trimChars after)
      if Text.isIdentifier name && expr ≠ "" then some (name, expr) else none

/-- The keyword of a declaration that a text starts with, with a blank behind it, and what follows the
blanks. -/
def splitKeyword (cs : List Char) : Option (Keyword × List Char) :=
  [Keyword.defines, Keyword.varies].findSome? fun k =>
    match Text.stripStart? k.word.toList cs with
    | some (c :: rest) => if Text.isBlank c then some (k, Text.dropBlanks rest) else none
    | _ => none

/-- The longest name of a declaration that a text starts with, and what follows it. -/
def splitName : List Char → Option (List Char × List Char)
  | [] => none
  | c :: rest =>
    if c = '_' || Text.isEstablishedStart c then
      some (c :: rest.takeWhile Text.isEstablishedContinue,
        rest.dropWhile Text.isEstablishedContinue)
    else none

/-- The keyword, the name and the rest of a text that starts like a declaration. -/
def splitDeclaration (cs : List Char) : Option (Keyword × List Char × List Char) := do
  let (k, rest) ← splitKeyword cs
  let (name, rest) ← splitName rest
  return (k, name, Text.dropBlanks rest)

/-! ## Section 3: The Rules -/

/-- The two words that ask to leave, in any mixture of small and capital letters. -/
def isExitRequest (text : String) : Bool :=
  Text.equalIgnoringAsciiCase text "exit" || Text.equalIgnoringAsciiCase text "quit"

/-- A text that starts like a declaration: a function definition if a parenthesis follows the name and one is
closed somewhere, a declaration if an equals sign with something behind it follows, or else an expression. -/
def classifyDeclaration (text : String) (keyword : Keyword) (name rest : List Char) : Input :=
  if rest.head? = some '(' && rest.contains ')' then .functionDefinition (String.ofList name) text
  else
    match rest with
    | '=' :: expr =>
      let trimmed := String.ofList (Text.trimChars expr)
      if expr.head? ≠ some '=' && trimmed ≠ "" then
        .declaration keyword (String.ofList name) trimmed
      else .expression text
    | _ => .expression text

/-- A command behind its colon: its name ends before the first blank. -/
def classifyCommand (rest : List Char) : Input :=
  let name := rest.takeWhile fun c => !Text.isBlank c
  let args := rest.dropWhile fun c => !Text.isBlank c
  .command (Text.toLower (String.ofList name)) (String.ofList (Text.trimChars args))

/-- Classifies the accumulated input. -/
def classify (buffer : String) : Input :=
  let cs := Text.trimChars buffer.toList
  let text := String.ofList cs
  match cs with
  | [] => .empty
  | ':' :: rest => classifyCommand rest
  | _ =>
    if isExitRequest text then .exit
    else if !isComplete cs then .incomplete
    else
      match splitDeclaration cs with
      | some (keyword, name, rest) => classifyDeclaration text keyword name rest
      | none =>
        match findAssignment cs with
        | some (name, expr) => .assignment name expr
        | none => .expression text

end RowConsole.Session
