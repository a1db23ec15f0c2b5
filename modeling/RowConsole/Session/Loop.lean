import RowConsole.Session.Completion
import RowConsole.Session.Input

/-!
# The Session

The loop that reads lines, collects those of an open block, classifies each complete input and routes it to
the workspace or to a command. Faults are reported and the session carries on; it ends with an exit request,
with the end of the input or with a failure to read.

A step has no result only when an evaluation does not come to an end, or breaks the program down.
-/

namespace RowConsole.Session

/-! ## Section 1: State -/

/-- Where the session stands. -/
inductive Phase where
  | idle | reading | classifying | dispatchingMeta | declaring | defining | assigning
  | evaluating | printing | exited
  deriving DecidableEq, Repr

/-- The name of a phase. -/
def Phase.name : Phase → String
  | .idle => "Idle"
  | .reading => "Reading"
  | .classifying => "Classifying"
  | .dispatchingMeta => "DispatchingMeta"
  | .declaring => "Declaring"
  | .defining => "Defining"
  | .assigning => "Assigning"
  | .evaluating => "Evaluating"
  | .printing => "Printing"
  | .exited => "Exited"

/-- The prompts at the start of an input and inside an open block. -/
structure Prompts where
  start : String := "db > "
  continuation : String := "... "

/-- What reading a line can bring. -/
inductive ReadEvent where
  | line (text : String)
  | interrupted
  | endOfInput
  | failed (message : String)
  deriving DecidableEq, Repr

/-- The side of the session that faces the line reader: the prompts shown, the last completion candidates
handed over, and the lines kept in the history. -/
structure Reader where
  prompts : List String := []
  candidates : List String := []
  history : List String := []

end RowConsole.Session

namespace RowConsole

open Session

/-- A session. -/
structure Session (ε : Type) where
  workspace : Workspace ε
  console : Console
  reader : Reader
  prompts : Prompts
  phase : Phase

end RowConsole

namespace RowConsole.Session

open Script (Value)

variable {ε : Type}

/-- A new session with an engine. -/
def new (engine : ε) (prompts : Prompts) : Session ε :=
  ⟨⟨engine, Context.new⟩, Console.empty, {}, prompts, .idle⟩

/-- The context of a session. -/
def context (s : Session ε) : Context := s.workspace.context

/-- A session with its context changed. -/
def mapContext (s : Session ε) (f : Context → Context) : Session ε :=
  { s with workspace := { s.workspace with context := f s.workspace.context } }

/-- A session with its console changed. -/
def mapConsole (s : Session ε) (f : Console → Console) : Session ε :=
  { s with console := f s.console }

/-- A session in another phase. -/
def enter (s : Session ε) (phase : Phase) : Session ε :=
  { s with phase := phase }

/-- Binds a value before or between inputs. -/
def setVariable (s : Session ε) (name : String) (v : Value) : Outcome Unit × Session ε :=
  let (r, w) := s.workspace.setVariable name v
  (r, { s with workspace := w })

/-- Registers a function from a script body. -/
def registerScript [Engine ε] (s : Session ε) (name body : String) : Outcome Unit × Session ε :=
  let (r, w) := s.workspace.registerScript name body
  (r, { s with workspace := w })

/-! ## Section 2: Complete Inputs -/

/-- The message at the end of a session. -/
def farewell : String := "Exiting REPL..."

/-- Ends the session. -/
def exit (s : Session ε) : Session ε :=
  ((s.mapContext Context.clearPending).mapConsole (·.success farewell)).enter .exited

/-- Reports the outcome of an input: the confirmation and the value, unless it is null, or the fault. -/
def print (s : Session ε) (confirmation : Option String) (outcome : Outcome Value) : Session ε :=
  let s := s.enter .printing
  let s := match outcome with
    | .ok v =>
      let s := match confirmation with
        | some text => s.mapConsole (·.success text)
        | none => s
      if v.isNull then s else s.mapConsole (·.line v.display)
    | .error f => s.mapConsole (·.report f s.context.debug)
  s.enter .idle

/-- Prints the outcome of an operation on the workspace. -/
def finish (s : Session ε) (confirmation : Option String)
    (result : Option (Outcome Value × Workspace ε)) : Option (Session ε) :=
  match result with
  | none => none
  | some (outcome, w) => some (print { s with workspace := w } confirmation outcome)

/-- Routes a complete input. -/
def dispatch [Engine ε] (s : Session ε) (input : Input) : Option (Session ε) :=
  match input with
  | .empty | .incomplete => some (s.enter .idle)
  | .exit => some s.exit
  | .command name args =>
    let (ctx, console) := dispatchCommand s.workspace s.console name args
    some (({ s with console := console }.mapContext fun _ => ctx).enter .idle)
  | .declaration _ name expr =>
    (s.enter .declaring).finish (some ("Variable set: " ++ name))
      (s.workspace.declareVariable name expr)
  -- A definition always comes to an end, so its outcome is there at once.
  | .functionDefinition name source =>
    let (r, w) := s.workspace.declareFunction name source
    (s.enter .defining).finish (some ("Function defined: " ++ name))
      (some (r.map fun _ => .null, w))
  | .assignment name expr =>
    (s.enter .assigning).finish (some ("Variable set: " ++ name)) (s.workspace.assign name expr)
  | .expression text => (s.enter .evaluating).finish none (s.workspace.evaluate text)

/-! ## Section 3: Lines -/

/-- Handles one line: a blank one outside of a block is ignored, any other joins the lines collected so far,
and when they make a complete input it is routed. -/
def handleLine [Engine ε] (s : Session ε) (line : String) : Option (Session ε) :=
  let blank := Text.isBlankString line
  if blank && !s.context.hasPending then some (s.enter .idle)
  else
    -- A blank line within a block is collected like any other, but not kept in the history.
    let s := if blank then s
      else { s with reader := { s.reader with history := s.reader.history ++ [line] } }
    let s := (s.mapContext (·.pushPending line)).enter .classifying
    match classify s.context.pending with
    | .incomplete => some s
    | input => (s.mapContext Context.clearPending).dispatch input

/-- The outcome of one input evaluated without the loop. -/
inductive EvalResult where
  | value (v : Value)
  | done
  | failed (message : String)
  | incomplete

/-- What a caller is told about a fault: the message, and in debug mode the diagnostic. -/
def describe (s : Session ε) (f : Fault) : String :=
  match s.context.debug, f.diagnostic? with
  | true, some diagnostic => f.message ++ "\n" ++ diagnostic
  | _, _ => f.message

/-- Evaluates one input without the loop. -/
def evalLine [Engine ε] (s : Session ε) (code : String) : Option (EvalResult × Session ε) :=
  match classify code with
  | .incomplete => some (.incomplete, s)
  | .expression text =>
    match s.workspace.evaluate text with
    | none => none
    | some (outcome, w) =>
      let s := ({ s with workspace := w } : Session ε).enter .idle
      match outcome with
      | .ok v => some (if v.isNull then .done else .value v, s)
      | .error f => some (.failed (s.describe f), s)
  -- All other inputs print their outcome; the caller is told only that they are done.
  | input => (s.dispatch input).map fun s => (.done, s)

/-! ## Section 4: The Loop -/

/-- The prompt for the next line. -/
def prompt (s : Session ε) : String :=
  if s.context.hasPending then s.prompts.continuation else s.prompts.start

/-- Greets the user. -/
def greet (s : Session ε) : Session ε :=
  s.mapConsole fun c =>
    (c.success "DB REPL started. Type 'exit' to quit.").success
      "Type ':help' for available commands."

/-- Hands the candidates to the reader and shows the prompt. -/
def beginRead (s : Session ε) : Session ε :=
  let reader := { s.reader with
    candidates := candidates s.context, prompts := s.reader.prompts ++ [s.prompt] }
  { s with phase := .reading, reader := reader }

/-- Takes what reading brought. -/
def receive [Engine ε] (s : Session ε) : ReadEvent → Option (Session ε)
  | .line text => s.handleLine text
  | .interrupted =>
    some (((s.mapContext Context.clearPending).mapConsole (·.error "Interrupted")).enter .idle)
  | .endOfInput => some s.exit
  | .failed message => some (s.mapConsole (·.error (Fault.io message).message)).exit

/-- Reads until the session has ended; the events that were not read, and the session. Behind the last event
the input ends. -/
def loop [Engine ε] (s : Session ε) : List ReadEvent → Option (List ReadEvent × Session ε)
  -- One more prompt is shown before the end of the input is met.
  | [] => if s.phase = .exited then some ([], s) else some ([], s.beginRead.exit)
  | e :: rest =>
    if s.phase = .exited then some (e :: rest, s)
    else
      match s.beginRead.receive e with
      | none => none
      | some s => s.loop rest

/-- Runs a session: it greets the user and reads until it has ended. -/
def run [Engine ε] (s : Session ε) (events : List ReadEvent) :
    Option (List ReadEvent × Session ε) :=
  s.greet.loop events

end RowConsole.Session
