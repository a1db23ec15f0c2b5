import RowConsole.Proofs.Script.Bindings
import RowConsole.Proofs.Session.Routing

/-!
# Declared and Assigned Names Are Bound

A declaration and an assignment run a text that is put together from the name and an expression as it was typed, and
report what the name is bound to afterwards, or null if it is not bound. The text may hold more than the expression. If
it runs to its end, the name is bound all the same, so that the null is never reported for want of a binding.

Main statement: `Workspace.bound_of_success`.
-/

namespace RowConsole.Session.Workspace

open Script (Runtime ScriptError ScriptResult Token Value tokenize)
open Script.Grammar (StartsBinding)

variable {w w' : Workspace Runtime} {name text : String} {v : Value}

/-- What is reported of a text that starts with a binding of a name is what the name is bound to. -/
theorem get?_of_reported {fault : ScriptError → Fault}
    (hstarts : ∀ ts, tokenize text = .ok ts → StartsBinding name (ts.map Token.kind))
    (h : (w.runAtomic text).map (fun r => (bound name fault r, r.2)) = some (.ok v, w')) :
    w'.context.bindings.get? name = some v := by
  obtain ⟨⟨result, w₁⟩, hrun, hreported⟩ := Option.map_eq_some_iff.mp h
  obtain ⟨bindings, engine, heval, ⟨u, rfl, rfl⟩ | ⟨e, rfl, rfl⟩⟩ := runAtomic_cases hrun
  · obtain ⟨hvalue, rfl⟩ := Prod.mk.inj hreported
    have hbound : (bindings.get? name).isSome = true := Runtime.run_binds hstarts (evaluate_eq_some.mp heval)
    obtain ⟨value, hget⟩ := Option.isSome_iff_exists.mp hbound
    have hreported : (bindings.get? name).getD .null = v := Except.ok.inj hvalue
    rw [hget] at hreported
    exact hget.trans (congrArg some hreported)
  · cases hreported

/-- A name that was declared or assigned with success is bound, and to the value that was reported. -/
theorem bound_of_success (w w' : Workspace Runtime) (name expr : String) (v : Value) :
    (w.declareVariable name expr = some (.ok v, w') → w'.context.bindings.get? name = some v) ∧
      (w.assign name expr = some (.ok v, w') → w'.context.bindings.get? name = some v) := by
  cases hname : checkName name with
  | error e =>
    rw [declareVariable_of_refused w hname, assign_of_refused w hname]
    constructor <;> (intro h; cases h)
  | ok u =>
    have hisName := isName_of_checkName hname
    rw [declareVariable_eq w hname, assign_eq w hname]
    constructor
    · exact get?_of_reported fun ts hts => Script.startsBinding_declaration hisName hts
    · exact get?_of_reported fun ts hts => Script.startsBinding_assignment hisName hts

/-- Code whose outcome passes a test has succeeded with a value that does. -/
theorem exists_ok_of_any {answer : Option (Outcome Value × Workspace Runtime)} {test : Value → Bool}
    (h : (answer.any fun r => r.1.toOption.any test) = true) :
    ∃ v w', answer = some (.ok v, w') ∧ test v = true := by
  obtain ⟨⟨r, w'⟩, hanswer, hr⟩ := (Option.any_eq_true _ _).mp h
  obtain ⟨v, hv, htest⟩ := (Option.any_eq_true _ _).mp hr
  cases r with
  | error fault => cases hv
  | ok u =>
    cases hv
    exact ⟨v, w', hanswer, htest⟩

/-- The text behind the equals sign goes on behind the expression, rebinds the name and leaves by a value of its own:
what is reported is what the name is bound to. -/
theorem bound_of_success_further :
    let w : Workspace Runtime := ⟨{ fuel := 20 }, Context.new⟩
    (∃ v w', w.declareVariable "x" "2 // two\ny = x; x = y + 1\nreturn 9" = some (.ok v, w') ∧
        v.equals (.int 3) = true ∧ w'.context.bindings.get? "x" = some v) ∧
      ∃ v w', w.assign "x" "null; return 9" = some (.ok v, w') ∧ v.equals .null = true ∧
        w'.context.bindings.get? "x" = some v := by
  intro w
  -- What is reported is what the name holds at the end, which is 3 and not the 9 that the code returns.
  have hdeclared : ((w.declareVariable "x" "2 // two\ny = x; x = y + 1\nreturn 9").any fun r =>
      r.1.toOption.any fun v => v.equals (.int 3)) = true := by decide +kernel
  have hassigned : ((w.assign "x" "null; return 9").any fun r => r.1.toOption.any fun v => v.equals .null) = true := by
    decide +kernel
  constructor
  · obtain ⟨v, w', hrun, hequals⟩ := exists_ok_of_any hdeclared
    exact ⟨v, w', hrun, hequals, (bound_of_success w w' "x" _ v).1 hrun⟩
  · obtain ⟨v, w', hrun, hequals⟩ := exists_ok_of_any hassigned
    exact ⟨v, w', hrun, hequals, (bound_of_success w w' "x" _ v).2 hrun⟩

end RowConsole.Session.Workspace
