import RowConsole.Script.Evaluate
import RowConsole.Script.Grammar

/-!
# The Script Runtime

What the rest of the program asks of the scripting language: running a source against a store of globals,
compiling a named function without running it, and describing values.
-/

namespace RowConsole.Script

/-! ## Section 1: Settings and State -/

/-- The number of frames that a script may use unless set otherwise. -/
def defaultMaxDepth : Nat := 100

/-- A bound on the recursion of a run that no script that ends comes near. -/
def ampleFuel : Nat := Nat.pow 2 62

/-- A runtime: its limits, the serial number of the next function value, and the output with what has been
written so far and not yet taken. -/
structure Runtime where
  maxDepth : Nat := defaultMaxDepth
  fuel : Nat := ampleFuel
  serial : Nat := 0
  output : Output := {}

/-- A runtime with a limit on the number of frames; at least one frame is needed. -/
def Runtime.withMaxDepth (maxDepth : Nat) : Runtime :=
  { maxDepth := max maxDepth 1 }

/-- Takes the output written so far. -/
def Runtime.takeOutput (rt : Runtime) : String × Runtime :=
  (rt.output.text, { rt with output := { rt.output with text := "" } })

/-! ## Section 2: Running -/

/-- Parses and runs a source. Top-level declarations land in the globals, also when the run fails later on.
There is no answer when the run is cut off. -/
def Runtime.run {γ : Type} [Globals γ] (rt : Runtime) (source : String) (globals : γ) :
    Option (Attempt Value × γ × Runtime) :=
  match parse source with
  | .error e => some (.error (.script e), globals, rt)
  | .ok program =>
    match runProgram rt.maxDepth rt.fuel program (Machine.start globals rt.serial rt.output) with
    | none => none
    | some (result, m) =>
      some (result, m.globals, { rt with serial := m.serial, output := m.output })

/-- What a run leaves to whoever goes on behind it: a crash leaves nothing. -/
def survived {α β : Type} : Attempt α × β → Option (ScriptResult α × β)
  | (.ok v, rest) => some (.ok v, rest)
  | (.error (.script e), rest) => some (.error e, rest)
  | (.error (.crash _), _) => none

theorem survived_eq_some {α β : Type} {o : Attempt α × β} {r : ScriptResult α} {rest : β} :
    survived o = some (r, rest) ↔ o = (r.mapError .script, rest) := by
  obtain ⟨attempt, left⟩ := o
  constructor
  · intro h
    rcases attempt with (_ | _) | _
    · cases h
      rfl
    · contradiction
    · cases h
      rfl
  · intro h
    cases h
    cases r <;> rfl

/-! ## Section 3: Compiling -/

/-- Whether a text starts like a definition of a function: a keyword of declarations, blanks, the name and an
opening parenthesis. -/
def isDefinitionOf (source name : String) : Bool :=
  [Keyword.defines, Keyword.varies].any fun k =>
    match Text.stripStart? k.word.toList source.toList with
    | some (c :: rest) =>
      Text.isBlank c &&
        match Text.stripStart? name.toList (Text.dropBlanks rest) with
        | some rest => (Text.dropBlanks rest).head? == some '('
        | none => false
    | _ => false

/-- The definition of a function without parameters around a body. -/
def wrapBody (name body : String) : String :=
  "def " ++ name ++ "() \x7b\n" ++ body ++ "\n\x7d"

/-- The text that is compiled for a function: the trimmed source if it is a definition of the function, and
otherwise a definition around it. -/
def definitionText (name source : String) : String :=
  let trimmed := Text.trim source
  if isDefinitionOf trimmed name then trimmed else wrapBody name trimmed

/-- The function that a definition text defines, which has to hold nothing else. -/
def compileRoutine (name source : String) : ScriptResult Routine :=
  match parse (definitionText name source) with
  | .error e => .error e
  | .ok [.function defined params body _] =>
    if defined = name then .ok ⟨some name, params, body⟩ else refusal (.notOneDefinition name)
  | .ok _ => refusal (.notOneDefinition name)

/-- Compiles a named function without running it. The source is a whole definition or a bare body. -/
def Runtime.compileFunction (rt : Runtime) (name source : String) :
    ScriptResult Value × Runtime :=
  match compileRoutine name source with
  | .ok routine => (.ok (.function routine rt.serial []), { rt with serial := rt.serial + 1 })
  | .error e => (.error e, rt)

/-! ## Section 4: Describing -/

/-- The names of the tables of a data source. -/
def listTables : Value → ScriptResult (List String)
  | .map tables => .ok (OrderedMap.keys tables)
  | v => refusal (.noTables v.type)

end RowConsole.Script
