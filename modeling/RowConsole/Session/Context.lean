import RowConsole.Session.Bindings

/-!
# The Session Context

Everything that input changes: the bindings, the named functions, the debug flag and the lines of a block
that is still open.
-/

namespace RowConsole.Session

open Script (Value)

/-! ## Section 1: Functions -/

/-- A named function of the session: its source as typed or registered, and the function itself. -/
structure RegisteredFunction where
  name : String
  source : String
  handle : Value

/-- The named functions in the order of their first registration. -/
abbrev Functions := OrderedMap RegisteredFunction

/-- Registers a function in place of an earlier one of that name. -/
def Functions.register (fs : Functions) (f : RegisteredFunction) : Functions :=
  OrderedMap.insert fs f.name f

/-! ## Section 2: The Context -/

/-- The state that input changes. -/
structure Context where
  bindings : Bindings
  functions : Functions
  debug : Bool
  /-- The lines of an open block, separated by line feeds. -/
  pending : String

namespace Context

/-- A new context, in which only the handles are bound. -/
def new : Context :=
  ⟨Bindings.empty.installReserved, [], false, ""⟩

/-- Whether a block is open. -/
def hasPending (ctx : Context) : Bool :=
  ctx.pending != ""

/-- Appends a line to the open block. -/
def pushPending (ctx : Context) (line : String) : Context :=
  { ctx with pending := if ctx.hasPending then ctx.pending ++ "\n" ++ line else line }

/-- Drops the open block. -/
def clearPending (ctx : Context) : Context :=
  { ctx with pending := "" }

/-- Switches the debug flag. -/
def toggleDebug (ctx : Context) : Context :=
  { ctx with debug := !ctx.debug }

end Context

end RowConsole.Session
