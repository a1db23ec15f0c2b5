import RowConsole.Data.OrderedMap

/-!
# TOML Values

Documents as trees. A table remembers how it came about, because that decides what later lines may add to
it.
-/

namespace RowConsole

namespace Toml

/-- How a table came about. -/
inductive Origin where
  /-- By its own header, which may not be repeated. -/
  | header
  /-- On the way to the table of a longer header. -/
  | implied
  /-- On the way to the value of a dotted key. -/
  | dotted
  /-- As a value in braces, to which nothing may be added. -/
  | closed
  deriving DecidableEq, Repr

end Toml

/-- TOML values. -/
inductive Toml where
  | string (s : String)
  | integer (n : Int64)
  | float (x : Float)
  | boolean (b : Bool)
  /-- A date, a time of day or both, in normal form. -/
  | datetime (text : String)
  | array (items : List Toml)
  | table (origin : Toml.Origin) (entries : List (String × Toml))
  /-- Tables that share a doubled header, each of which starts the next one. -/
  | tables (elements : List (List (String × Toml)))

end RowConsole
