import RowConsole.Session.Fault
import RowConsole.Text.Search

/-!
# The Console

The record of what a session tells its user: messages in three styles and requests to clear the screen, in
order. How a record is shown is decided by whoever shows it.
-/

namespace RowConsole.Session

/-- How a message is meant. -/
inductive Style where
  | plain | success | error
  deriving DecidableEq, Repr

/-- Something sent to the console. -/
inductive ConsoleEvent where
  | message (style : Style) (text : String)
  | clear
  deriving DecidableEq, Repr

/-- All that was sent to the console, the first first. -/
structure Console where
  events : List ConsoleEvent

namespace Console

/-- A console to which nothing was sent. -/
def empty : Console := ⟨[]⟩

/-- Sends something. -/
def send (c : Console) (e : ConsoleEvent) : Console :=
  ⟨c.events ++ [e]⟩

/-- Sends a plain message. -/
def line (c : Console) (text : String) : Console := c.send (.message .plain text)

/-- Sends a confirmation. -/
def success (c : Console) (text : String) : Console := c.send (.message .success text)

/-- Sends a failure message. -/
def error (c : Console) (text : String) : Console := c.send (.message .error text)

/-- Asks to clear the screen. -/
def clear (c : Console) : Console := c.send .clear

/-- Sends several plain messages. -/
def eachLine (c : Console) (texts : List String) : Console :=
  texts.foldl line c

/-- Reports a fault; the diagnostic of a script is shown only in debug mode. -/
def report (c : Console) (f : Fault) (debug : Bool) : Console :=
  let c := c.error f.message
  match debug, f.diagnostic? with
  | true, some diagnostic => c.error diagnostic
  | _, _ => c

end Console

/-! ## Views -/

/-- The lines that one event adds to the console: an empty message still makes an empty line. -/
def ConsoleEvent.lines : ConsoleEvent → List (Style × String)
  | .message style text =>
    if text = "" then [(style, "")] else (Text.lines text).map fun line => (style, line)
  | .clear => []

/-- All lines on the console with their styles. -/
def Console.lines (c : Console) : List (Style × String) :=
  c.events.flatMap ConsoleEvent.lines

/-- How often the screen was cleared. -/
def Console.clears (c : Console) : Nat :=
  c.events.count .clear

end RowConsole.Session
