import RowConsole.Files
import RowConsole.Settings

/-!
# Where Settings and History Are

The places of the user's files as the environment gives them, and the settings that are found there.
-/

namespace RowConsole

/-! ## Section 1: Paths -/

/-- The environment variables that decide about places. -/
structure Environment where
  home : Option String := none
  userProfile : Option String := none
  configHome : Option String := none
  appData : Option String := none

/-- A name below a base. -/
def joinPath (base name : String) : String :=
  if base = "" || base.toList.getLast? = some '/' then base ++ name else base ++ "/" ++ name

namespace Environment

/-- The history file when none is set. -/
def historyPath (env : Environment) : Option String :=
  (env.home <|> env.userProfile).map (joinPath · ".db_repl_history")

/-- The directory of the user's settings. -/
def configFolder (env : Environment) : Option String :=
  env.configHome.map (joinPath · "rowscope") <|>
    env.home.map (fun home => joinPath (joinPath home ".config") "rowscope") <|>
    env.appData.map (joinPath · "rowscope")

/-- The file with the user's settings. -/
def configPath (env : Environment) : Option String :=
  env.configFolder.map (joinPath · "config.toml")

end Environment

namespace Settings

/-- The history file: the one that is set, or the user's. -/
def historyPath (s : Settings) (env : Environment) : Option String :=
  s.historyFile <|> env.historyPath

/-! ## Section 2: Reading -/

/-- Why settings were not read. -/
inductive ReadError where
  | unreadable (path : String) (fault : FileFault)
  /-- The file is not TOML, or an entry has the wrong type. -/
  | malformed
  deriving DecidableEq, Repr

/-- What the user is told about settings that were not read, and the reasons behind it. -/
def ReadError.messages : ReadError → List String
  | .unreadable path fault =>
    ["Cannot read config file " ++ path ++ ": " ++ fault.message, fault.message]
  | .malformed => ["Config parse error"]

/-- The settings in the content of a file. -/
def ofContent (path : String) : Except FileFault String → Except ReadError Settings
  | .error fault => .error (.unreadable path fault)
  | .ok text =>
    match read? text with
    | some settings => .ok settings
    | none => .error .malformed

end Settings

end RowConsole
