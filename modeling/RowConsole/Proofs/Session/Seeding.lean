import RowConsole.Proofs.Script.BareBody
import RowConsole.Proofs.Script.Literal.Evaluated
import RowConsole.Proofs.Session.BindingStore
import RowConsole.Proofs.Session.Routing

/-!
# Values from Outside

A value that is bound from outside can be read back under its name. The store takes names by its own notion of an
identifier, and everything that the name then passes through agrees with it: it is cut off as one token and no keyword,
it is read as a variable, and it is looked up among the globals before the builtin functions.

Main statement: `Workspace.setVariable_readBack`.
-/

namespace RowConsole.Script

/-! ## Section 1: Names as Programs -/

/-- A name is a single token. -/
theorem tokenize_name {name : String} (h : isName name = true) :
    tokenize name = .ok [⟨.ident name, .start⟩, endOf name.toList] := by
  obtain ⟨c, cs, hword, hstart, hcontinue, hkeyword⟩ := toList_of_isName h
  have hkind : wordKind name = .ident name := by rw [wordKind, hkeyword]
  rw [tokenize, tokenizeChars_eq, ← List.append_nil name.toList,
    scanAll_word hword hstart hcontinue (by simp), scanAll_done rfl, hkind, List.append_nil]
  rfl

/-- A name is the program that consists of this variable. -/
theorem parse_name {name : String} (h : isName name = true) : ∃ p, parse name = .ok [.expr (.var name p)] := by
  have hpiece : Grammar.Piece (fun e => ∃ p, e = .var name p) [.ident name] unaryRank 0 false :=
    Grammar.Piece.leaf (e := .var name) rfl rfl (fun p => ⟨p, rfl⟩) fun _ _ _ _ => rfl
  have hkinds : [⟨.ident name, .start⟩, endOf name.toList].map Token.kind = [.ident name] ++ [.eof] := rfl
  rcases parseTokens_of_returns hkinds fun _ hc => Grammar.program_expr hpiece hc with
    ⟨_, _, hparse, e, ⟨p, rfl⟩, rfl⟩ | ⟨hdeep, _⟩
  · exact ⟨p, parse_of_tokenize (tokenize_name h) hparse⟩
  -- a single name is not nested at all
  · exact absurd (by decide) hdeep

variable {γ : Type} [Globals γ]

/-- A variable has the value that is found for it, and reading it changes nothing. -/
theorem runProgram_name {m : Machine γ} {name : String} {v : Value} (h : m.lookup name = some v) (p : Pos)
    {limit fuel : Nat} (hfuel : 2 ≤ fuel) : runProgram limit fuel [.expr (.var name p)] m = some (.ok v, m) := by
  obtain ⟨fuel, rfl⟩ := Nat.exists_eq_add_of_le' hfuel
  have hexec : exec limit (fuel + 2) (.expr (.var name p)) m = some (.ok (.next v), m) := by
    rw [exec, execWith, Run.bind_of_ok (eval_var h p)]
    rfl
  rw [runProgram, runBlock, Run.bind_apply, Run.bind_apply, hexec]
  rfl

/-- The text of a name that the globals bind is evaluated to what is bound, whether a builtin function has that name,
too, or not. Nothing is bound and nothing is written. -/
theorem Runtime.run_name {name : String} {v : Value} (h : isName name = true) (rt : Runtime) (hfuel : 2 ≤ rt.fuel)
    {globals : γ} (hbound : Globals.lookup globals name = some v) :
    rt.run name globals = some (.ok v, globals, rt) := by
  obtain ⟨p, hparse⟩ := parse_name h
  have hlookup : (Machine.start globals rt.serial rt.output).lookup name = some v := by
    -- a program starts without locals, and the globals come before the builtin functions
    have hlocal : lookupScopes name (Machine.start globals rt.serial rt.output).frame.scopes = none := rfl
    have hglobal : Globals.lookup (Machine.start globals rt.serial rt.output).globals name = some v := hbound
    rw [Machine.lookup, hlocal]
    dsimp only
    rw [hglobal]
  rw [Runtime.run, hparse]
  dsimp only
  rw [runProgram_name hlookup p hfuel]
  rfl

end RowConsole.Script

namespace RowConsole.Session

open Script (Runtime Value ampleFuel)

/-! ## Section 2: Seeded Values -/

/-- The names that may not be bound: they are no identifiers, they are keywords, or they are reserved. -/
theorem checkName_eq_error_iff {name : String} :
    (∃ e, checkName name = .error e) ↔
      Text.isIdentifier name = false ∨ Script.isKeyword name = true ∨ isReserved name = true := by
  unfold checkName
  cases Text.isIdentifier name <;> cases Script.isKeyword name <;> cases isReserved name <;> simp

/-- A name is refused by the store exactly when it may not be bound. -/
theorem Bindings.set_eq_error_iff {b : Bindings} {name : String} {v : Value} :
    (∃ e, b.set name v = .error e) ↔ ∃ e, checkName name = .error e := by
  unfold Bindings.set
  cases checkName name <;> simp [bind, Except.bind, pure, Except.pure]

namespace Workspace

/-- The text of a bound name is evaluated to what is bound, and the workspace is as it was. -/
theorem evaluate_name {w : Workspace Runtime} {name : String} {v : Value} (hname : Script.isName name = true)
    (hfuel : 2 ≤ w.engine.fuel) (hbound : w.context.bindings.get? name = some v) :
    w.evaluate name = some (.ok v, w) := by
  have hrun : Engine.evaluate w.engine name w.context.bindings = some (.ok v, w.context.bindings, w.engine) :=
    evaluate_eq_some.mpr (Runtime.run_name hname w.engine hfuel hbound)
  have hatomic : w.runAtomic name = some (.ok v, w) := by
    unfold runAtomic
    dsimp only
    rw [hrun]
  rw [evaluate_eq, hatomic]
  rfl

/-- A value bound from outside is read back by its name: the name is one token, evaluating it gives the value, and this
leaves the bindings, the functions and all that was written as they were. A name is refused, and nothing is changed,
exactly if it is no identifier, or a keyword, or reserved. -/
theorem setVariable_readBack (rt : Runtime) (ctx : Context) (name : String) (v : Value) :
    (∀ w', setVariable ⟨{ rt with fuel := ampleFuel }, ctx⟩ name v = (.ok (), w') →
      Script.tokenize name = .ok [⟨.ident name, .start⟩, ⟨.eof, Script.Pos.start.after name.toList⟩] ∧
        w'.evaluate name = some (.ok v, w')) ∧
    ((∃ f w', setVariable ⟨{ rt with fuel := ampleFuel }, ctx⟩ name v = (.error f, w')) ↔
      Text.isIdentifier name = false ∨ Script.isKeyword name = true ∨ isReserved name = true) ∧
    ∀ f w', setVariable ⟨{ rt with fuel := ampleFuel }, ctx⟩ name v = (.error f, w') →
      w' = ⟨{ rt with fuel := ampleFuel }, ctx⟩ := by
  rw [← checkName_eq_error_iff, ← Bindings.set_eq_error_iff (b := ctx.bindings) (v := v)]
  rcases setVariable_cases (⟨{ rt with fuel := ampleFuel }, ctx⟩ : Workspace Runtime) name v with
    ⟨bindings, hset, heq⟩ | ⟨e, hset, heq⟩
  · obtain ⟨hname, hbindings⟩ := Bindings.set_eq_ok hset
    have hisName := isName_of_checkName hname
    have hbound : bindings.get? name = some v := by
      rw [hbindings]
      exact OrderedMap.get?_insert_self _ _ _
    -- Evaluating a name takes two steps, one for the statement and one for the expression.
    have hfuel : 2 ≤ ampleFuel := by decide
    refine ⟨fun w' h => ?_, ?_, fun f w' h => ?_⟩
    · obtain ⟨_, rfl⟩ := Prod.mk.inj (heq.symm.trans h)
      exact ⟨Script.tokenize_name hisName, evaluate_name hisName hfuel hbound⟩
    · simp [heq, hset]
    · cases heq.symm.trans h
  · refine ⟨fun w' h => ?_, ?_, fun f w' h => ?_⟩
    · cases heq.symm.trans h
    · exact ⟨fun _ => ⟨e, hset⟩, fun _ => ⟨_, _, heq⟩⟩
    · exact (Prod.mk.inj (heq.symm.trans h)).2.symm

/-- The name of a builtin function, bound to null, which is then what the name stands for; the name of the terminal is
refused. -/
theorem setVariable_readBack_builtin :
    (∃ w', setVariable (⟨{}, Context.new⟩ : Workspace Runtime) "println" .null = (.ok (), w') ∧
      w'.evaluate "println" = some (.ok .null, w')) ∧
    ∃ f w', setVariable (⟨{}, Context.new⟩ : Workspace Runtime) "terminal" .null = (.error f, w') ∧
      w' = ⟨{}, Context.new⟩ := by
  obtain ⟨hread, hrefused, _⟩ := setVariable_readBack {} Context.new "println" .null
  obtain ⟨_, hterminal, hkept⟩ := setVariable_readBack {} Context.new "terminal" .null
  constructor
  · rcases hset : setVariable (⟨{}, Context.new⟩ : Workspace Runtime) "println" .null with ⟨_ | _, w'⟩
    · have hbad := hrefused.mp ⟨_, _, hset⟩
      exact absurd hbad (by decide +kernel)
    · exact ⟨w', rfl, (hread w' hset).2⟩
  · obtain ⟨f, w', hset⟩ := hterminal.mpr (by decide +kernel)
    exact ⟨f, w', hset, hkept f w' hset⟩

end Workspace

end RowConsole.Session
