import RowConsole.Proofs.Script.Composition
import RowConsole.Proofs.Script.FirstLine
import RowConsole.Proofs.Script.Grammar.Binding
import RowConsole.Proofs.Script.Variables

/-!
# Texts That Start With a Binding

A name, an equals sign and any text behind it: if this spells a program, the program starts with an assignment to the
name. A run of it at the top level that comes to its end has made the assignment, and nothing that follows takes the
global away again: statements can rebind it or return early, but there is nothing by which a name is unbound.

Main statement: `Runtime.run_binds`.
-/

namespace RowConsole.Script

open Grammar (StartsBinding moveToken parseTokens)

/-! ## Section 1: Tokens -/

section Tokens

variable {name expr : String} {cs ds : List Char} {ts : List Token}

/-- Columns do not matter to the kinds of tokens. -/
theorem exists_kinds_of_flushTokens {front : List Token} (h : tokenizeChars cs = .ok ts)
    (hflush : flushTokens cs = (flushTokens ds).map (front ++ ·)) :
    ∃ rest, ts.map Token.kind = front.map Token.kind ++ rest := by
  -- Flushing moves tokens and leaves their kinds.
  have hkinds : (ts.map (moveToken Pos.flush)).map Token.kind = ts.map Token.kind := by
    simp [moveToken]
  have hts : flushTokens cs = .ok (ts.map (moveToken Pos.flush)) := by
    rw [flushTokens, h]
    rfl
  rw [hts] at hflush
  cases hds : flushTokens ds with
  | error e =>
    rw [hds] at hflush
    contradiction
  | ok us =>
    rw [hds] at hflush
    refine ⟨us.map Token.kind, ?_⟩
    rw [← hkinds, Except.ok.inj hflush, List.map_append]

private theorem flushTokens_assignment (hname : isName name = true) :
    flushTokens (name ++ " = " ++ expr).toList =
      (flushTokens expr.toList).map ([⟨.ident name, .start⟩, ⟨.symbol .assign, .start⟩] ++ ·) := by
  have htext : (name ++ " = " ++ expr).toList = name.toList ++ ([' '] ++ '=' :: ([' '] ++ expr.toList)) := by
    simp
  rw [htext]
  exact tokens_binding hname inLine_blank inLine_blank (by simp)

private theorem flushTokens_declaration (hname : isName name = true) :
    flushTokens ("def " ++ name ++ " = " ++ expr).toList =
      (flushTokens expr.toList).map
        ([⟨.keyword .defines, .start⟩, ⟨.ident name, .start⟩, ⟨.symbol .assign, .start⟩] ++ ·) := by
  -- a declaration is an assignment behind the keyword
  have htext : ("def " ++ name ++ " = " ++ expr).toList =
      Keyword.defines.word.toList ++ ([' '] ++ (name ++ " = " ++ expr).toList) := by
    simp [Keyword.word]
  rw [htext, flushTokens_keyword .defines inLine_blank, flushTokens_assignment hname]
  cases flushTokens expr.toList <;> rfl

theorem startsBinding_assignment (hname : isName name = true) (h : tokenize (name ++ " = " ++ expr) = .ok ts) :
    StartsBinding name (ts.map Token.kind) := by
  obtain ⟨rest, hkinds⟩ := exists_kinds_of_flushTokens h (flushTokens_assignment hname)
  rw [hkinds]
  exact .assignment rest

theorem startsBinding_declaration (hname : isName name = true)
    (h : tokenize ("def " ++ name ++ " = " ++ expr) = .ok ts) : StartsBinding name (ts.map Token.kind) := by
  obtain ⟨rest, hkinds⟩ := exists_kinds_of_flushTokens h (flushTokens_declaration hname)
  rw [hkinds]
  exact .declaration rest

end Tokens

/-! ## Section 2: Runs -/

section Runs

variable {γ : Type} [Globals γ] {limit fuel : Nat} {m m' : Machine γ} {name : String}

/-- At the top level, outside of all blocks, a statement that binds a name binds it as a global. -/
theorem lookup_of_boundName {s : Stmt} {flow : Flow} (hs : s.boundName? = some name) (hscopes : m.frame.scopes = [])
    (h : exec limit fuel s m = some (.ok flow, m')) :
    ∃ v, flow = .next v ∧ Globals.lookup m'.globals name = some v := by
  cases s with
  | declare other init p =>
    cases hs
    obtain ⟨v, hflow, hbound, _⟩ := declare_readBack h
    -- With no scope open a declaration goes to the globals.
    have hdeclared : m.declared name = .global name := by simp [Machine.declared, hscopes]
    rw [hdeclared] at hbound
    exact ⟨v, hflow, hbound⟩
  | assign target op e p =>
    cases target with
    | var other q =>
      cases hs
      obtain ⟨v, hflow, hbound, _⟩ := assign_readBack h
      -- So does an assignment, to a new name as well.
      have hresolve : m.resolve name = .global name := by simp [Machine.resolve, hscopes]
      rw [hresolve] at hbound
      exact ⟨v, hflow, hbound⟩
    | _ => contradiction
  | _ => contradiction

/-- A global that is bound stays bound: the store can take further names and other values. -/
theorem isSome_lookup_of_assign {g g' : γ} {other : String} {v : Value} (hbound : (Globals.lookup g name).isSome = true)
    (h : Globals.assign g other v = .ok g') : (Globals.lookup g' name).isSome = true := by
  rw [Globals.lookup_assign h]
  split
  · rfl
  · exact hbound

private theorem isSome_lookup_of_runBlock {last : Value} {body : List Stmt} {r : Attempt Flow}
    (hbound : (Globals.lookup m.globals name).isSome = true)
    (h : runBlock (exec limit fuel) last body m = some (r, m')) : (Globals.lookup m'.globals name).isSome = true := by
  have hinvariant : Invariant .anything fun m : Machine γ => (Globals.lookup m.globals name).isSome = true :=
    invariant_globals isSome_lookup_of_assign
  have hall := keepsAll (fun _ => trivial) hinvariant limit fuel
  have hblock : Mode.whenever.Holds _ (fun _ => runBlock (exec limit fuel) last body) (Flow.Meets .anything) :=
    Mode.Holds.runBlock (fun s _ => hall.exec s) last.meets_anything
  exact (hblock m hbound _ h).1

/-- A program whose first statement binds a name leaves it bound, if it comes to its end at the top level. -/
theorem isSome_lookup_of_runProgram {s : Stmt} {rest : List Stmt} {v : Value} (hs : s.boundName? = some name)
    (hscopes : m.frame.scopes = []) (h : runProgram limit fuel (s :: rest) m = some (.ok v, m')) :
    (Globals.lookup m'.globals name).isSome = true := by
  obtain ⟨flow, m₁, hblock, hresult⟩ := Run.bind_eq_ok.mp h
  obtain ⟨first, m₂, hfirst, hrest⟩ := Run.bind_eq_ok.mp hblock
  obtain ⟨w, rfl, hw⟩ := lookup_of_boundName hs hscopes hfirst
  -- a statement that binds a name does not leave the program, so the others are run next, whatever they do
  have hbound : (Globals.lookup m₂.globals name).isSome = true := by
    rw [hw]
    rfl
  have hkept := isSome_lookup_of_runBlock hbound hrest
  cases flow <;> cases hresult <;> exact hkept

/-- A text that starts with a binding of a name leaves it bound, whatever follows, if it runs to its end. -/
theorem Runtime.run_binds {rt rt' : Runtime} {source : String} {g g' : γ} {v : Value}
    (hstarts : ∀ ts, tokenize source = .ok ts → StartsBinding name (ts.map Token.kind))
    (h : rt.run source g = some (.ok v, g', rt')) : (Globals.lookup g' name).isSome = true := by
  unfold Runtime.run at h
  split at h
  · cases h
  · next program hparse =>
    obtain ⟨ts, _, htokenize, hprogram⟩ := tokens_of_parse hparse
    obtain ⟨s, rest, rfl, hs⟩ := Grammar.parseTokens_binding (hstarts _ htokenize) hprogram
    split at h
    · contradiction
    · next result m hrun =>
      cases h
      exact isSome_lookup_of_runProgram hs rfl hrun

end Runs

end RowConsole.Script
