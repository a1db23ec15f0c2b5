import RowConsole.Session.Console

/-!
# Showing the Console

How the console's messages look on a terminal.
-/

namespace RowConsole.Launch

open Session (ConsoleEvent Style)

/-- The codes that switch to a foreground color and back to the default one. -/
def inColor (code : Nat) (text : String) : String :=
  "\x1b[" ++ toString code ++ "m" ++ text ++ "\x1b[39m"

/-- A message with its style shown as a color: green for confirmations, red for failures. -/
def styled (colors : Bool) (style : Style) (text : String) : String :=
  match colors, style with
  | true, .success => inColor 32 text
  | true, .error => inColor 31 text
  | _, _ => text

/-- What a terminal is sent for something on the console. -/
def showEvent (colors : Bool) : ConsoleEvent → String
  | .message style text => styled colors style text ++ "\n"
  | .clear => "\x1b[2J\x1b[1;1H"

/-- What a terminal is sent for the whole console. -/
def showConsole (colors : Bool) (c : Session.Console) : String :=
  String.join (c.events.map (showEvent colors))

end RowConsole.Launch
