import RowConsole.Tables

/-!
# Command-Line Arguments

The options of the program. Options with one letter may be joined behind one dash; a value stands behind its
option, with or without an equals sign, or in the next argument.
-/

namespace RowConsole.Launch

/-! ## Section 1: What Can Be Asked For -/

/-- How a session is to be run. -/
structure Arguments where
  config : Option String := none
  debug : Bool := false
  verbosity : Nat := 0
  noHistory : Bool := false
  tables : List Tables.Source := []
  /-- Code to evaluate in place of a console. -/
  code : Option String := none

/-- What the arguments ask for. -/
inductive Request where
  | session (a : Arguments)
  | help
  | version

/-- The options that take a value. -/
inductive ValueOption where
  | config | load | eval
  deriving DecidableEq, Repr

/-- The options that take none. -/
inductive Switch where
  | debug | verbose | noHistory | help | version
  deriving DecidableEq, Repr

/-- An option. -/
inductive AnyOption where
  | value (o : ValueOption)
  | switch (s : Switch)
  deriving DecidableEq, Repr

/-- How an option with a value is shown. -/
def ValueOption.usage : ValueOption → String
  | .config => "--config <FILE>"
  | .load => "--load <NAME=FILE>"
  | .eval => "--eval <CODE>"

/-- How an option without a value is shown. -/
def Switch.usage : Switch → String
  | .debug => "--debug"
  | .verbose => "--verbose"
  | .noHistory => "--no-history"
  | .help => "--help"
  | .version => "--version"

/-- The option of a long name. -/
def longOption? : String → Option AnyOption
  | "config" => some (.value .config)
  | "load" => some (.value .load)
  | "eval" => some (.value .eval)
  | "debug" => some (.switch .debug)
  | "verbose" => some (.switch .verbose)
  | "no-history" => some (.switch .noHistory)
  | "help" => some (.switch .help)
  | "version" => some (.switch .version)
  | _ => none

/-- The option of a letter. -/
def shortOption? : Char → Option AnyOption
  | 'c' => some (.value .config)
  | 'l' => some (.value .load)
  | 'e' => some (.value .eval)
  | 'd' => some (.switch .debug)
  | 'v' => some (.switch .verbose)
  | 'h' => some (.switch .help)
  | 'V' => some (.switch .version)
  | _ => none

/-! ## Section 2: Errors -/

/-- Why arguments were not understood. -/
inductive UsageError where
  | unexpected (argument : String)
  | unexpectedValue (value : String) (option : Switch)
  | missingValue (option : ValueOption)
  | repeated (usage : String)
  | badTable (text : String) (e : Tables.SourceError)
  deriving DecidableEq, Repr

/-- What the user is told about arguments that were not understood. -/
def UsageError.message : UsageError → String
  | .unexpected argument => "unexpected argument '" ++ argument ++ "' found"
  | .unexpectedValue value option =>
    "unexpected value '" ++ value ++ "' for '" ++ option.usage ++ "' found; no more were expected"
  | .missingValue option => "a value is required for '" ++ option.usage ++ "' but none was supplied"
  | .repeated usage => "the argument '" ++ usage ++ "' cannot be used multiple times"
  | .badTable text e =>
    "invalid value '" ++ text ++ "' for '" ++ ValueOption.load.usage ++ "': " ++ e.message

/-! ## Section 3: Reading -/

/-- What has been read: the arguments so far, or a request that ends the reading. -/
abbrev Progress := Except Request Arguments

/-- Sets the value of an option. Only tables may be given several times. -/
def setValue (a : Arguments) (option : ValueOption) (value : String) :
    Except UsageError Arguments :=
  match option with
  | .config =>
    if a.config.isSome then .error (.repeated option.usage)
    -- The path of the settings may not be empty; code may.
    else if value = "" then .error (.missingValue option)
    else .ok { a with config := some value }
  | .eval =>
    if a.code.isSome then .error (.repeated option.usage) else .ok { a with code := some value }
  | .load =>
    match Tables.Source.parse value with
    | .ok source => .ok { a with tables := a.tables ++ [source] }
    | .error e => .error (.badTable value e)

/-- Turns a switch on. Only verbosity may be asked for several times. -/
def setSwitch (a : Arguments) (option : Switch) : Except UsageError Progress :=
  match option with
  | .debug => if a.debug then .error (.repeated option.usage) else .ok (.ok { a with debug := true })
  | .noHistory =>
    if a.noHistory then .error (.repeated option.usage) else .ok (.ok { a with noHistory := true })
  | .verbose => .ok (.ok { a with verbosity := min (a.verbosity + 1) 255 })
  | .help => .ok (.error .help)
  | .version => .ok (.error .version)

/-- What a group of letters behind one dash leaves: arguments, or an option whose value is the next
argument. -/
abbrev GroupResult := Progress × Option ValueOption

/-- Reads the letters behind one dash. -/
def readGroup (a : Arguments) : List Char → Except UsageError GroupResult
  | [] => .ok (.ok a, none)
  | c :: rest =>
    match shortOption? c with
    | none => .error (.unexpected ("-" ++ String.singleton c))
    | some (.value option) =>
      match rest with
      | [] => .ok (.ok a, some option)
      -- Behind a letter with a value the rest of the group is that value.
      | '=' :: value => (setValue a option (String.ofList value)).map fun a => (.ok a, none)
      | value => (setValue a option (String.ofList value)).map fun a => (.ok a, none)
    | some (.switch option) =>
      match setSwitch a option with
      | .error e => .error e
      | .ok (.error request) => .ok (.error request, none)
      | .ok (.ok a) => readGroup a rest

/-- Reads an argument that starts with two dashes. -/
def readLong (a : Arguments) (body : List Char) : Except UsageError GroupResult :=
  let name := String.ofList (body.takeWhile (· ≠ '='))
  let value := (body.dropWhile (· ≠ '=')).tail?.map String.ofList
  match longOption? name, value with
  | none, _ => .error (.unexpected ("--" ++ name))
  | some (.value option), none => .ok (.ok a, some option)
  | some (.value option), some value => (setValue a option value).map fun a => (.ok a, none)
  | some (.switch option), none => (setSwitch a option).map fun p => (p, none)
  | some (.switch option), some value => .error (.unexpectedValue value option)

/-- Whether an argument is an option, and no value. -/
def isOptionLike (argument : String) : Bool :=
  match argument.toList with
  | '-' :: _ :: _ => true
  | _ => false

/-- Reads arguments; `wanted` is the option whose value comes next. -/
def readFrom (a : Arguments) (wanted : Option ValueOption) :
    List String → Except UsageError Request
  | [] =>
    match wanted with
    | some option => .error (.missingValue option)
    | none => .ok (.session a)
  | argument :: rest =>
    match wanted with
    | some option =>
      -- What looks like an option is not taken as a value.
      if isOptionLike argument then .error (.missingValue option)
      else
        match setValue a option argument with
        | .error e => .error e
        | .ok a => readFrom a none rest
    | none =>
      let result : Except UsageError GroupResult := match argument.toList with
        -- Two dashes alone end the options, and there are no other arguments to come.
        | ['-', '-'] =>
          match rest with
          | [] => .ok (.ok a, none)
          | extra :: _ => .error (.unexpected extra)
        | '-' :: '-' :: body => readLong a body
        | '-' :: c :: letters => readGroup a (c :: letters)
        | _ => .error (.unexpected argument)
      match result with
      | .error e => .error e
      | .ok (.error request, _) => .ok request
      | .ok (.ok a, wanted) => readFrom a wanted rest

/-- What the arguments ask for. -/
def Request.read (arguments : List String) : Except UsageError Request :=
  readFrom {} none arguments

/-! ## Section 4: Texts about the Program -/

/-- The name of the program. -/
def programName : String := "rowscope"

/-- The program and its version. -/
def versionText : String := programName ++ " 0.1.0\n"

/-- How the program is called. -/
def usageLine : String := "Usage: " ++ programName ++ " [OPTIONS]\n"

/-- The help text. -/
def optionsText : String :=
  programName ++ " - interactive row-set console\n\n" ++ usageLine ++ "\nOptions:\n" ++
  "  -c, --config <FILE>     Config file (default: ~/.config/rowscope/config.toml)\n" ++
  "  -d, --debug             Start with debug mode on\n" ++
  "  -v, --verbose...        Log more to stderr (repeat for more)\n" ++
  "      --no-history        Don't read or write the history file\n" ++
  "  -l, --load <NAME=FILE>  Load a JSON row set and bind it as NAME\n" ++
  "  -e, --eval <CODE>       Evaluate CODE and exit instead of starting the console\n" ++
  "  -h, --help              Print help\n" ++
  "  -V, --version           Print version\n"

/-- The text for arguments that were not understood. -/
def UsageError.text (e : UsageError) : String :=
  "error: " ++ e.message ++ "\n\n" ++ usageLine ++ "\nFor more information, try '--help'.\n"

end RowConsole.Launch
