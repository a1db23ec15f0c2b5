import RowConsole.Launch.Arguments
import RowConsole.Launch.Dialogue
import RowConsole.Settings.Location

/-!
# Starting the Program

From the arguments to a session that is set up: the settings are read, then the tables; the tables are bound
and the functions of the settings are registered. A function that cannot be registered is skipped.
-/

namespace RowConsole.Launch

open Script (Runtime Value)
open Session (Fault)

/-- How the files that the program needs are read. -/
abbrev ReadFile (m : Type → Type) := String → m (Except FileFault String)

variable {m : Type → Type} [Monad m]

/-! ## Section 1: Settings and Tables -/

/-- The settings of the file that was asked for, or the user's settings if there are any. -/
def readSettings (read : ReadFile m) (env : Environment) (a : Arguments) :
    m (Except Failure Settings) := do
  match a.config with
  | some path =>
    match Settings.ofContent path (← read path) with
    | .ok settings => return .ok settings
    | .error e => return .error ⟨"Failed to load config: " ++ path, e.messages⟩
  | none =>
    match env.configPath with
    | none => return .ok {}
    | some path =>
      match Settings.ofContent path (← read path) with
      | .ok settings => return .ok settings
      | .error (.unreadable path fault) =>
        -- No file is no error, unless it was asked for.
        if fault.isPresent then
          return .error ⟨"Failed to load user config", (Settings.ReadError.unreadable path fault).messages⟩
        else return .ok {}
      | .error e => return .error ⟨"Failed to load user config", e.messages⟩

/-- The note on a table that was read. -/
def loadNote (source : Tables.Source) : LogNote :=
  ⟨.info, "loaded " ++ source.name ++ " from " ++ source.path⟩

/-! ## Section 2: Setting Up a Session -/

/-- Registers functions; those that fail are noted and skipped. -/
def registerAll (s : Session Runtime) :
    List (String × String) → List LogNote × Session Runtime
  | [] => ([], s)
  | (name, body) :: rest =>
    let (outcome, s) := s.registerScript name body
    let note := match outcome with
      | .ok () => ⟨.info, "Registered function: " ++ name⟩
      | .error (f : Fault) =>
        ⟨.warn, "Skipping startup function '" ++ name ++ "': " ++ f.message⟩
    let (notes, s) := registerAll s rest
    (note :: notes, s)

/-- A session with its debug flag, its tables and its functions. -/
def setUp (a : Arguments) (settings : Settings) (tables : OrderedMap Value) :
    Except Failure (List LogNote × Session Runtime) :=
  let s : Session Runtime := .new {} settings.prompts
  let s := s.mapContext fun ctx => { ctx with debug := a.debug || settings.debug }
  match Tables.seed s tables with
  | (.error f, _) => .error ⟨"Failed to bind row sets", [f.message]⟩
  | (.ok (), s) => .ok (registerAll s settings.functions)

/-- The report of code that was evaluated in place of a console. -/
def evaluateOnce (colors : Bool) (s : Session Runtime) (code : String) (before : Written) :
    Option Report :=
  match s.evalLine code with
  | none => none
  | some (result, s) =>
    let written := before ++ (Dialogue.flush colors s).1
    match result with
    | .value v => some { written := written ++ .ofOutput (v.display ++ "\n") }
    | .done => some { written := written }
    | .failed message => some (Failure.report ⟨message, []⟩ written)
    | .incomplete => some (Failure.report ⟨"Incomplete input: unbalanced braces", []⟩ written)

/-! ## Section 3: The History -/

/-- The history before the session and notes on what was wrong with its file. -/
def readHistory (read : ReadFile m) (limit : Nat) (path : Option String) :
    m (List LogNote × History) := do
  let history : History := { limit := limit }
  match path with
  | none => return ([], history)
  | some path =>
    match ← read path with
    | .ok content =>
      let (malformed, history) := history.load content
      return (malformed.map fun line => ⟨.warn, "bad escaped line: " ++ line⟩, history)
    | .error fault =>
      if fault.isPresent then
        return ([⟨.warn, "Failed to load history from " ++ path ++ ": " ++ fault.message⟩], history)
      else return ([], history)

/-! ## Section 4: From the Arguments to the Session -/

/-- How a run starts: it may be over at once, or there is a dialogue to be held. -/
inductive Start where
  | finished (r : Report)
  | dialogue (before : Written) (d : Dialogue)

/-- Starts a session. There is no answer when code that was to be evaluated does not come to an end. -/
def startSession (read : ReadFile m) (env : Environment) (a : Arguments) : m (Option Start) := do
  let level := LogLevel.ofVerbosity a.verbosity
  let noted := fun notes => Written.ofErrors (logText level notes)
  match ← readSettings read env a with
  | .error f => return some (.finished (f.report {}))
  | .ok settings =>
    let (tables, failure) ← Tables.readAll read a.tables
    let loaded := noted (tables.map fun t => loadNote t.1)
    match failure with
    | some e => return some (.finished (Failure.report ⟨"Failed to load row sets", e.messages⟩ loaded))
    | none =>
      match a.code, setUp a settings (Tables.byName tables) with
      -- The tables are bound in either case, also for code that is evaluated at once.
      | _, .error f => return some (.finished (f.report loaded))
      | some code, .ok (notes, s) =>
        return (evaluateOnce settings.colors s code (loaded ++ noted notes)).map .finished
      | none, .ok (notes, s) =>
        let path := if a.noHistory then none else settings.historyPath env
        let (historyNotes, history) ← readHistory read settings.historySize path
        let d : Dialogue := ⟨s, history, path, settings.colors, level⟩
        return some (.dialogue (loaded ++ noted (historyNotes ++ notes)) d)

/-- Starts the program. -/
def start (read : ReadFile m) (env : Environment) (arguments : List String) :
    m (Option Start) :=
  match Request.read arguments with
  | .error e => return some (.finished ⟨2, .ofErrors e.text⟩)
  | .ok .help => return some (.finished { written := .ofOutput optionsText })
  | .ok .version => return some (.finished { written := .ofOutput versionText })
  | .ok (.session a) => startSession read env a

/-! ## Section 5: Whole Runs -/

/-- A whole run on a tree of files with the whole input given: the report and the files afterwards. -/
def run (arguments : List String) (env : Environment) (files : FileTree) (input : String) :
    Option (Report × FileTree) :=
  match start (m := Id) files.read env arguments with
  | none => none
  | some (.finished r) => some (r, files)
  | some (.dialogue before d) =>
    let (greeting, d) := d.start
    match d.feedAll (Dialogue.typedLines input) with
    | none => none
    | some (written, d) =>
      let (failure, files) := match d.historyFile? with
        | none => (none, files)
        | some (path, content) =>
          match files.write path content with
          | .ok files => (none, files)
          | .error fault => (some fault, files)
      some (⟨0, before ++ greeting ++ written ++ d.finish failure⟩, files)

end RowConsole.Launch
