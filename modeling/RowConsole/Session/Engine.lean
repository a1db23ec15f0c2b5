import RowConsole.Script.Runtime
import RowConsole.Session.Bindings

/-!
# Script Engines

The narrow capability that a session needs of a scripting language. The script runtime provides it; the
session does not depend on which engine it has.
-/

namespace RowConsole.Session

open Script (Runtime ScriptResult Value)

/-- An engine that evaluates code against bindings. -/
class Engine (ε : Type) where
  /-- Runs code, which may write bindings before it fails. There is no answer when the run does not come to
  an end, or breaks the program down. -/
  evaluate : ε → String → Bindings → Option (ScriptResult Value × Bindings × ε)
  /-- Compiles the source of a named function without binding it. -/
  compileFunction : ε → String → String → ScriptResult Value × ε
  /-- A structural dump of a value. -/
  inspect : ε → Value → ScriptResult String
  /-- The names of the tables of a data source. -/
  listTables : ε → Value → ScriptResult (List String)

/-- The script runtime as an engine. -/
instance : Engine Runtime where
  evaluate rt code bindings := (rt.run code bindings).bind Script.survived
  compileFunction := Runtime.compileFunction
  inspect _ v := .ok v.inspect
  listTables _ := Script.listTables

/-- What the runtime answers as an engine is how a run of it ended, if that was no crash. -/
theorem evaluate_eq_some {rt rt' : Runtime} {code : String} {b b' : Bindings} {r : ScriptResult Value} :
    Engine.evaluate rt code b = some (r, b', rt') ↔ rt.run code b = some (r.mapError .script, b', rt') := by
  refine Option.bind_eq_some_iff.trans ⟨?_, fun h => ⟨_, h, Script.survived_eq_some.mpr rfl⟩⟩
  rintro ⟨ended, hrun, hended⟩
  rw [hrun, Script.survived_eq_some.mp hended]

end RowConsole.Session
