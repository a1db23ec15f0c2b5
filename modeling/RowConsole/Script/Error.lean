import RowConsole.Script.Operator
import RowConsole.Script.Token

/-!
# Script Errors

Why a script could not be compiled or run. A cause determines the kind and the message; an error adds the
position where it arose, which is attached once and never replaced, and the calls that it ended, the
innermost first. What runs may fail in one more way: the program that runs it may break down.
-/

namespace RowConsole.Script

/-! ## Section 1: Causes -/

/-- The broad classes of failures. -/
inductive ErrorKind where
  | malformed | unbound | type | arithmetic | runtime
  deriving DecidableEq, Repr

/-- The name of a class of failures. -/
def ErrorKind.name : ErrorKind → String
  | .malformed => "SyntaxError"
  | .unbound => "UnboundReference"
  | .type => "TypeError"
  | .arithmetic => "ArithmeticError"
  | .runtime => "RuntimeError"

/-- Every cause of a failure. -/
inductive Cause where
  -- Reading the source
  | unterminatedComment
  | unterminatedString
  | integerTooLarge (digits : String)
  | unexpectedCharacter (c : Char)
  | unexpectedToken (expected : String) (found : TokenKind)
  | duplicateParameter (name : String)
  | nestedTooDeeply
  | invalidTarget
  -- Names
  | noVariable (name : String)
  | noFunction (name : String)
  | rejectedName (reason : String)
  -- Arithmetic and comparison
  | overflow
  | divisionByZero
  | operands (op : BinaryOp) (left right : ValueType)
  | incomparable (left right : ValueType)
  | cannotNegate (type : ValueType)
  | negativeRepeat
  -- Parts of values
  | propertyOfNull (name : String)
  | noProperty (name : String) (type : ValueType)
  | cannotSetProperty (name : String) (type : ValueType)
  | indexOfNull
  | cannotIndex (container index : ValueType)
  | stringIndexOutOfRange (index : Int64)
  | listIndexOutOfRange (index : Int64)
  | temporaryTarget
  | cannotIterate (type : ValueType)
  -- Calls
  | notCallable (type : ValueType)
  | callTooDeep (limit : Nat)
  | arity (name expected : String) (got : Nat)
  | strayLoopControl
  -- Builtin functions and methods
  | noSize (type : ValueType)
  | unreadableNumber (text : String) (target : ValueType)
  | cannotConvert (type target : ValueType)
  | keysOf (type : ValueType)
  | expectsInt (name : String) (got : ValueType)
  | rangeTooLong (limit : Nat)
  | expectsClosure (method : String)
  | expectsString (method : String)
  | noMethod (name : String) (type : ValueType)
  | methodOfNull (name : String)
  | unsortable
  -- Output
  | output (reason : String)
  -- Definitions and data sources
  | notOneDefinition (name : String)
  | noTables (type : ValueType)
  -- A failure reported from outside the language
  | external (kind : ErrorKind) (message : String)
  deriving DecidableEq, Repr

/-- The class of a cause. -/
def Cause.kind : Cause → ErrorKind
  | .unterminatedComment | .unterminatedString | .integerTooLarge _ | .unexpectedCharacter _
  | .unexpectedToken _ _ | .duplicateParameter _ | .nestedTooDeeply | .invalidTarget => .malformed
  | .noVariable _ | .noFunction _ => .unbound
  | .overflow | .divisionByZero => .arithmetic
  | .operands _ _ _ | .incomparable _ _ | .cannotNegate _ | .noProperty _ _
  | .cannotSetProperty _ _ | .cannotIndex _ _ | .cannotIterate _ | .notCallable _ | .noSize _
  | .cannotConvert _ _ | .keysOf _ | .expectsInt _ _ | .noMethod _ _ | .unsortable
  | .noTables _ => .type
  | .rejectedName _ | .negativeRepeat | .propertyOfNull _ | .indexOfNull
  | .stringIndexOutOfRange _ | .listIndexOutOfRange _ | .temporaryTarget | .callTooDeep _
  | .arity _ _ _ | .strayLoopControl | .unreadableNumber _ _ | .rangeTooLong _
  | .expectsClosure _ | .expectsString _ | .methodOfNull _ | .output _
  | .notOneDefinition _ => .runtime
  | .external kind _ => kind

/-- The message of a cause. -/
def Cause.message : Cause → String
  | .unterminatedComment => "Unterminated comment"
  | .unterminatedString => "Unterminated string literal"
  | .integerTooLarge digits => "Integer literal out of range: '" ++ digits ++ "'"
  | .unexpectedCharacter c => "Unexpected character: '" ++ String.singleton c ++ "'"
  | .unexpectedToken expected found => "Expected " ++ expected ++ " but found " ++ found.describe
  | .duplicateParameter name => "Duplicate parameter '" ++ name ++ "'"
  | .nestedTooDeeply => "Input nested too deeply"
  | .invalidTarget => "Invalid assignment target"
  | .noVariable name => "No such variable: " ++ name
  | .noFunction name => "No such function: " ++ name ++ "()"
  | .rejectedName reason => reason
  | .overflow => "Integer overflow"
  | .divisionByZero => "Division by zero"
  | .operands op left right =>
    "Cannot apply '" ++ op.word ++ "' to " ++ left.name ++ " and " ++ right.name
  | .incomparable left right => "Cannot compare " ++ left.name ++ " with " ++ right.name
  | .cannotNegate type => "Cannot negate a " ++ type.name
  | .negativeRepeat => "Negative repeat count"
  | .propertyOfNull name => "Cannot get property '" ++ name ++ "' on null value"
  | .noProperty name type => "No such property '" ++ name ++ "' on " ++ type.name
  | .cannotSetProperty name type => "Cannot set property '" ++ name ++ "' on " ++ type.name
  | .indexOfNull => "Cannot index into null value"
  | .cannotIndex container index => "Cannot index " ++ container.name ++ " with " ++ index.name
  | .stringIndexOutOfRange index => "String index out of range: " ++ toString index
  | .listIndexOutOfRange index => "List index out of range: " ++ toString index
  | .temporaryTarget => "Cannot assign to a temporary value"
  | .cannotIterate type => "Cannot iterate over " ++ type.name
  | .notCallable type => "Value of type " ++ type.name ++ " is not callable"
  | .callTooDeep limit => "Maximum call depth of " ++ toString limit ++ " exceeded"
  | .arity name expected got =>
    name ++ "() expects " ++ expected ++ " argument(s) but got " ++ toString got
  | .strayLoopControl => "'break' or 'continue' used outside of a loop"
  | .noSize type => type.name ++ " has no size"
  | .unreadableNumber text target => "Cannot convert '" ++ text ++ "' to " ++ target.name
  | .cannotConvert type target => "Cannot convert " ++ type.name ++ " to " ++ target.name
  | .keysOf type => "keys() expects a map but got " ++ type.name
  | .expectsInt name got => name ++ "() expects an int but got " ++ got.name
  | .rangeTooLong limit => "range() is limited to " ++ toString limit ++ " elements"
  | .expectsClosure method => method ++ "() expects a closure argument"
  | .expectsString method => method ++ "() expects a string argument"
  | .noMethod name type => "No such method '" ++ name ++ "' for " ++ type.name
  | .methodOfNull name => "Cannot invoke method " ++ name ++ "() on null value"
  | .unsortable => "sort() found values that cannot be compared"
  | .output reason => "Output error: " ++ reason
  | .notOneDefinition name => "Expected a single definition of function '" ++ name ++ "'"
  | .noTables type => "A " ++ type.name ++ " does not expose tables"
  | .external _ message => message

/-! ## Section 2: Errors -/

/-- A call that an error ended: the function's name and where it was called. -/
structure CallSite where
  function : String
  pos : Pos
  deriving DecidableEq, Repr

/-- How a diagnostic shows a call. -/
def CallSite.text (c : CallSite) : String :=
  "at " ++ c.function ++ "() (" ++ c.pos.text ++ ")"

/-- A failure of a script. -/
structure ScriptError where
  cause : Cause
  pos : Option Pos := none
  trace : List CallSite := []
  deriving DecidableEq, Repr

namespace ScriptError

/-- The class of an error. -/
def kind (e : ScriptError) : ErrorKind := e.cause.kind

/-- The message of an error. -/
def message (e : ScriptError) : String := e.cause.message

/-- Attaches a position unless the error has one. -/
def located (e : ScriptError) (p : Pos) : ScriptError :=
  match e.pos with
  | some _ => e
  | none => { e with pos := some p }

/-- Records that the error ended a call. -/
def inCall (e : ScriptError) (function : String) (site : Pos) : ScriptError :=
  { e with trace := e.trace ++ [⟨function, site⟩] }

/-- The class and the message, then the origin, then the ended calls, one in each line. -/
def diagnostic (e : ScriptError) : String :=
  let origin := match e.pos with
    | some p => "at <input> (" ++ p.text ++ ")"
    | none => "at <input>"
  String.join ((e.kind.name ++ ": " ++ e.message) ::
    (origin :: e.trace.map CallSite.text).map ("\n    " ++ ·))

end ScriptError

/-- A result that may be an error of a script: of reading a source, or of what a session is told. -/
abbrev ScriptResult (α : Type) := Except ScriptError α

/-- Fails for a cause, with no position. -/
def refusal {α : Type} (cause : Cause) : ScriptResult α :=
  .error { cause := cause }

/-- Fails for a cause at a position. -/
def refusalAt {α : Type} (cause : Cause) (p : Pos) : ScriptResult α :=
  .error { cause := cause, pos := some p }

/-! ## Section 3: Failures of Running -/

/-- A breakdown of the program that runs a script. It is no error of the script: nothing catches it, neither in a
script nor in a session, and the program ends with it. -/
inductive Crash where
  /-- A remainder whose quotient does not fit in 64 bits. -/
  | remainderOverflow
  /-- A string that is longer than any memory. -/
  | capacityOverflow
  /-- A sort that was told of an order that contradicts itself. -/
  | inconsistentOrder
  deriving DecidableEq, Repr

/-- The last words of a program that breaks down. -/
def Crash.message : Crash → String
  | .remainderOverflow => "attempt to calculate the remainder with overflow"
  | .capacityOverflow => "capacity overflow"
  | .inconsistentOrder =>
    "user-provided comparison function does not correctly implement a total order"

/-- What ends an operation or a run that has no result. -/
inductive Failure where
  /-- An error of the script, which is reported. -/
  | script (e : ScriptError)
  /-- A breakdown of the program. -/
  | crash (c : Crash)
  deriving DecidableEq, Repr

namespace Failure

/-- A failure with its error changed; a crash stays as it is. -/
def map (f : ScriptError → ScriptError) : Failure → Failure
  | .script e => .script (f e)
  | .crash c => .crash c

/-- Attaches a position to an error unless it has one. -/
def located (e : Failure) (p : Pos) : Failure :=
  e.map (·.located p)

/-- Records that an error ended a call. -/
def inCall (e : Failure) (function : String) (site : Pos) : Failure :=
  e.map (·.inCall function site)

end Failure

/-- A result of an operation or of a run, which may fail. -/
abbrev Attempt (α : Type) := Except Failure α

/-- Fails for a cause, with no position yet. -/
def failure {α : Type} (cause : Cause) : Attempt α :=
  .error (.script { cause := cause })

/-- Fails for a cause at a position. -/
def failureAt {α : Type} (cause : Cause) (p : Pos) : Attempt α :=
  .error (.script { cause := cause, pos := some p })

/-- Breaks down. -/
def crash {α : Type} (c : Crash) : Attempt α :=
  .error (.crash c)

/-- Two steps have a result if the first one has one from which the second one makes it. -/
theorem Attempt.bind_eq_ok {α β : Type} {r : Attempt α} {next : α → Attempt β} {b : β} :
    (r >>= next) = .ok b ↔ ∃ a, r = .ok a ∧ next a = .ok b := by
  cases r with
  | error e => exact ⟨nofun, nofun⟩
  | ok a =>
    constructor
    · exact fun h => ⟨a, rfl, h⟩
    · intro ⟨_, ha, h⟩
      cases ha
      exact h

end RowConsole.Script
