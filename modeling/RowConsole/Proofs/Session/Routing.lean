import RowConsole.Proofs.Script.FirstLine
import RowConsole.Proofs.Session.Blocks

/-!
# Routed Bindings

A declaration or an assignment is not evaluated as it was typed: its text is cut into a name and an expression,
and a statement put together from these is run. Cutting decides by characters and running by tokens, and both
agree: the statement spells the program of the typed text, save for columns in the first line.

Main statement: `Workspace.routed_sameEffect`. The two have the same effect, save for columns in the first line
that functions made by them have recorded.
-/

namespace RowConsole.Session

open Script (InLine Keyword Movable Pos Runtime SameProgram SameRun ScriptResult Value isName mapValues)
open Text (EndsInk isBlank)

/-! ## Section 1: Cutting -/

private theorem splitKeyword_spec {cs rest : List Char} {k : Keyword} (h : splitKeyword cs = some (k, rest)) :
    (k = .defines ∨ k = .varies) ∧ ∃ first between, (∀ c ∈ first :: between, isBlank c = true) ∧
      cs = k.word.toList ++ (first :: between ++ rest) := by
  obtain ⟨k', hk', h⟩ := List.exists_of_findSome?_eq_some h
  split at h
  · next first tail hstrip =>
    split at h
    · next hfirst =>
      cases h
      refine ⟨by simpa using hk', ?_⟩
      obtain ⟨between, hbetween, htail⟩ := Text.exists_dropBlanks tail
      refine ⟨first, between, List.forall_mem_cons.mpr ⟨hfirst, hbetween⟩, ?_⟩
      rw [Text.eq_append_of_stripStart? hstrip, List.cons_append, ← htail]
    · contradiction
  · contradiction

private theorem splitName_spec {cs name rest : List Char} (h : splitName cs = some (name, rest)) :
    cs = name ++ rest := by
  unfold splitName at h
  split at h
  · contradiction
  · split at h
    · cases h
      simp
    · contradiction

theorem splitDeclaration_spec {cs name rest : List Char} {k : Keyword}
    (h : splitDeclaration cs = some (k, name, rest)) :
    (k = .defines ∨ k = .varies) ∧ ∃ first between blanks, (∀ c ∈ first :: between, isBlank c = true) ∧
      (∀ c ∈ blanks, isBlank c = true) ∧
      cs = k.word.toList ++ (first :: between ++ (name ++ (blanks ++ rest))) := by
  unfold splitDeclaration at h
  obtain ⟨⟨k', tail⟩, hkeyword, h⟩ := Option.bind_eq_some_iff.mp h
  obtain ⟨⟨name', tail'⟩, hname, h⟩ := Option.bind_eq_some_iff.mp h
  cases h
  obtain ⟨hk, first, between, hbetween, rfl⟩ := splitKeyword_spec hkeyword
  obtain ⟨blanks, hblanks, htail⟩ := Text.exists_dropBlanks tail'
  refine ⟨hk, first, between, blanks, hbetween, hblanks, ?_⟩
  rw [← htail, splitName_spec hname]

/-- A text of a binding: a name, an equals sign that is part of no comparison and an expression, with blanks
around the sign. -/
structure Binds (cs : List Char) (name expr : String) (blanks blanks' : List Char) : Prop where
  eq : cs = name.toList ++ (blanks ++ '=' :: (blanks' ++ expr.toList))
  before : ∀ c ∈ blanks, isBlank c = true
  behind : ∀ c ∈ blanks', isBlank c = true
  noComparison : (blanks' ++ expr.toList).head? ≠ some '='

/-- The typed text of a declaration is a keyword, blanks and a binding. -/
theorem binds_of_declaration {buffer name expr : String} {k : Keyword}
    (h : classify buffer = .declaration k name expr) :
    (k = .defines ∨ k = .varies) ∧ ∃ first between blanks blanks' cs,
      (∀ c ∈ first :: between, isBlank c = true) ∧
      Text.trimChars buffer.toList = k.word.toList ++ (first :: between ++ cs) ∧
      Binds cs name expr blanks blanks' := by
  have hclassified := classified buffer
  rw [h] at hclassified
  cases hclassified with
  | early h => simp at h
  | @declared k' name' rest _ hsplit hinput =>
    obtain ⟨hk, first, between, blanks, hbetween, hblanks, htext⟩ := splitDeclaration_spec hsplit
    rcases classifyDeclaration_cases (String.ofList (Text.trimChars buffer.toList)) k' name' rest with
      hother | ⟨behind, rfl, hcompare, hdeclaration⟩ | hother
    · rw [hother] at hinput
      cases hinput
    · rw [hdeclaration] at hinput
      cases hinput
      -- the trimmed text ends with the expression, which is trimmed in front only
      have hink : EndsInk (k.word.toList ++ (first :: between ++ (name' ++ (blanks ++ (['='] ++ behind))))) :=
        htext ▸ Text.endsInk_trimChars _
      obtain ⟨blanks', hblanks', hbehind⟩ :=
        Text.exists_trimChars_of_endsInk hink.of_append.of_append.of_append.of_append.of_append
      refine ⟨hk, first, between, blanks, blanks', _, hbetween, htext, ?_, hblanks, hblanks', ?_⟩
      · rw [String.toList_ofList, String.toList_ofList, ← hbehind]
      · rw [String.toList_ofList, ← hbehind]
        exact hcompare
    · rw [hother] at hinput
      cases hinput

/-- The text before the first equals sign, that sign, and the text behind it. -/
theorem findAssignment_spec {cs : List Char} {name expr : String} (h : findAssignment cs = some (name, expr)) :
    ∃ before behind, cs = before ++ '=' :: behind ∧ name = String.ofList (Text.trimChars before) ∧
      expr = String.ofList (Text.trimChars behind) ∧ behind.head? ≠ some '=' ∧ Text.isIdentifier name = true ∧
      expr ≠ "" := by
  unfold findAssignment at h
  dsimp only at h
  split at h
  · contradiction
  · next sign behind hdrop =>
    -- The text is cut where the first equals sign is.
    obtain rfl : sign = '=' := by
      have hhead := List.head?_dropWhile_not (fun c => decide (c ≠ '=')) cs
      rw [hdrop] at hhead
      simpa using hhead
    obtain ⟨hcompare, h⟩ := Option.ite_none_left_eq_some.mp h
    obtain ⟨hidentifier, h⟩ := Option.ite_none_right_eq_some.mp h
    cases h
    obtain ⟨hname, hexpr⟩ := (Bool.and_eq_true _ _).mp hidentifier
    refine ⟨cs.takeWhile fun c => decide (c ≠ '='), behind, ?_, rfl, rfl, ?_, hname, of_decide_eq_true hexpr⟩
    · rw [← hdrop, List.takeWhile_append_dropWhile]
    · intro hhead
      simp [hhead] at hcompare

/-- The typed text of an assignment is a binding. -/
theorem binds_of_assignment {buffer name expr : String} (h : classify buffer = .assignment name expr) :
    ∃ blanks blanks', Binds (Text.trimChars buffer.toList) name expr blanks blanks' := by
  have hclassified := classified buffer
  rw [h] at hclassified
  cases hclassified with
  | early h => simp at h
  | @declared k name' rest _ _ hinput =>
    rcases classifyDeclaration_cases (String.ofList (Text.trimChars buffer.toList)) k name' rest with
      hother | ⟨_, _, _, hother⟩ | hother
    all_goals
      rw [hother] at hinput
      cases hinput
  | assigned hfound =>
    obtain ⟨before, behind, htext, rfl, rfl, hcompare, hidentifier, _⟩ := findAssignment_spec hfound
    have hne : before ≠ [] := by
      rintro rfl
      contradiction
    -- the typed text starts with the name, which is trimmed at its end only
    have hfront : Text.dropBlanks before = before := by
      obtain ⟨c, rest, rfl⟩ := List.exists_cons_of_ne_nil hne
      have hc : isBlank c = false := Text.isBlank_head?_trimChars buffer.toList c (by rw [htext]; rfl)
      exact List.dropWhile_cons_of_neg (by simp [hc])
    obtain ⟨blanks, hblanks, hbefore⟩ := Text.exists_dropBlanksEnd before
    have hink : EndsInk (before ++ (['='] ++ behind)) := htext ▸ Text.endsInk_trimChars _
    obtain ⟨blanks', hblanks', hbehind⟩ := Text.exists_trimChars_of_endsInk hink.of_append.of_append
    refine ⟨blanks, blanks', ?_, hblanks, hblanks', ?_⟩
    · rw [String.toList_ofList, String.toList_ofList, ← hbehind, htext, Text.trimChars, hfront, ← List.append_assoc,
        ← hbefore]
    · rw [String.toList_ofList, ← hbehind]
      exact hcompare

/-! ## Section 2: Statements -/

variable {lines : List String} {buffer name expr : String} {k : Keyword}

/-- In accumulated lines, what stands before the first brace stands in the first line. -/
theorem not_mem_newline_of_accumulated (h : Accumulated lines buffer) {front tail : List Char}
    (htext : Text.trimChars buffer.toList = front ++ tail) (hbrace : '\x7b' ∉ front) : '\n' ∉ front := by
  intro hnewline
  obtain ⟨before, behind, rfl⟩ := List.append_of_mem hnewline
  obtain ⟨blanks, blanks', hblanks, hbuffer⟩ := Text.exists_trimChars buffer.toList
  have hopens : '\x7b' ∈ blanks ++ before := by
    apply opensFirst_of_accumulated h _ (behind ++ tail ++ blanks')
    rw [hbuffer, htext]
    simp
  rcases List.mem_append.mp hopens with hmem | hmem
  · exact absurd (hblanks _ hmem) (by decide)
  · exact hbrace (List.mem_append_left _ hmem)

theorem isName_of_checkName (h : checkName name = .ok ()) : isName name = true := by
  unfold checkName at h
  split at h
  · contradiction
  · next hname =>
    simp only [Bool.or_eq_true, Bool.not_eq_true', not_or, Bool.not_eq_false, Bool.not_eq_true] at hname
    exact Script.isName_of_isIdentifier hname.1 hname.2

private theorem not_mem_brace_of_isBlank {blanks : List Char} (h : ∀ c ∈ blanks, isBlank c = true) : '\x7b' ∉ blanks :=
  fun hmem => absurd (h _ hmem) (by decide)

private theorem not_mem_brace_of_isName (h : isName name = true) : '\x7b' ∉ name.toList :=
  Script.not_mem_of_isName h (Script.isWordStart_ascii (by decide)) (Script.isWordContinue_ascii (by decide))

/-- Blanks in a text without line feeds. -/
theorem inLine_of_subset {blanks front : List Char} (h : ∀ c ∈ blanks, isBlank c = true) (hfront : '\n' ∉ front)
    (hsubset : blanks ⊆ front) : InLine blanks := by
  intro c hc
  refine ⟨?_, h c hc⟩
  rintro rfl
  exact hfront (hsubset hc)

/-- The statement for an assignment spells the program that was typed. -/
theorem sameProgram_of_assignment (haccumulated : Accumulated lines buffer)
    (h : classify buffer = .assignment name expr) (hname : checkName name = .ok ()) :
    SameProgram Pos.flush (name ++ " = " ++ expr) (Text.trim buffer) := by
  have hisName := isName_of_checkName hname
  obtain ⟨blanks, blanks', hbinds⟩ := binds_of_assignment h
  -- No line ends before the first brace, and what is in front of the expression has no brace.
  have hline : '\n' ∉ name.toList ++ (blanks ++ ('=' :: blanks')) := by
    have hcut : Text.trimChars buffer.toList = (name.toList ++ (blanks ++ ('=' :: blanks'))) ++ expr.toList := by
      simpa using hbinds.eq
    apply not_mem_newline_of_accumulated haccumulated hcut
    · have hblanks := not_mem_brace_of_isBlank hbinds.before
      have hblanks' := not_mem_brace_of_isBlank hbinds.behind
      simp [not_mem_brace_of_isName hisName, hblanks, hblanks']
  have hinLine := inLine_of_subset hbinds.before hline fun c hc => by simp [hc]
  have hinLine' := inLine_of_subset hbinds.behind hline fun c hc => by simp [hc]
  have hprogram := Script.sameProgram_binding hisName hinLine hinLine' hbinds.noComparison
    ((Text.toList_trim buffer).trans hbinds.eq)
  rwa [String.ofList_toList] at hprogram

/-- The statement for a declaration spells the program that was typed. -/
theorem sameProgram_of_declaration (haccumulated : Accumulated lines buffer)
    (h : classify buffer = .declaration k name expr) (hname : checkName name = .ok ()) :
    SameProgram Pos.flush ("def " ++ name ++ " = " ++ expr) (Text.trim buffer) := by
  have hisName := isName_of_checkName hname
  obtain ⟨hk, first, between, blanks, blanks', cs, hbetween, htext, hbinds⟩ := binds_of_declaration h
  rw [hbinds.eq] at htext
  -- As for assignments, with the keyword and the blanks behind it in front.
  have hline : '\n' ∉ k.word.toList ++ (first :: between ++ (name.toList ++ (blanks ++ ('=' :: blanks')))) := by
    have hcut : Text.trimChars buffer.toList =
        (k.word.toList ++ (first :: between ++ (name.toList ++ (blanks ++ ('=' :: blanks'))))) ++ expr.toList := by
      simpa using htext
    apply not_mem_newline_of_accumulated haccumulated hcut
    · have hkeyword : '\x7b' ∉ k.word.toList := by rcases hk with rfl | rfl <;> decide
      have hblanks := not_mem_brace_of_isBlank hbinds.before
      have hblanks' := not_mem_brace_of_isBlank hbinds.behind
      have hbetween := not_mem_brace_of_isBlank hbetween
      have hisName := not_mem_brace_of_isName hisName
      simp only [List.mem_append, List.mem_cons, not_or] at hbetween ⊢
      exact ⟨hkeyword, hbetween, hisName, hblanks, by decide, hblanks'⟩
  have hbefore := inLine_of_subset hbetween hline fun c hc =>
    List.mem_append_right _ (List.mem_append_left _ hc)
  have hinLine := inLine_of_subset hbinds.before hline fun c hc => by simp [hc]
  have hinLine' := inLine_of_subset hbinds.behind hline fun c hc => by simp [hc]
  have hprogram := Script.sameProgram_declaration hk hisName hbefore hinLine hinLine' hbinds.noComparison
    ((Text.toList_trim buffer).trans htext)
  rwa [String.ofList_toList] at hprogram

/-! ## Section 3: Effects -/

/-- Bindings whose values are moved. -/
instance : Movable Bindings where
  mapPos f b := ⟨mapValues (Value.mapPos f) b.values⟩
  lookup_mapPos f b name := Script.get?_mapValues _ b.values name
  assign_mapPos f b name v := by
    have hset : Bindings.set ⟨mapValues (Value.mapPos f) b.values⟩ name (v.mapPos f) =
        (b.set name v).map fun b => ⟨mapValues (Value.mapPos f) b.values⟩ := by
      unfold Bindings.set
      rw [Script.insert_mapValues]
      cases checkName name <;> rfl
    show (match Bindings.set ⟨mapValues (Value.mapPos f) b.values⟩ name (v.mapPos f) with
      | .ok b => Except.ok b
      | .error e => .error e.message) = _
    rw [hset]
    show _ = (match b.set name v with
      | .ok b => Except.ok b
      | .error e => .error e.message).map _
    cases b.set name v <;> rfl

/-- Two ended operations with the same effect: both succeed or both fail, they leave the same bindings up to
columns in the first line that function values have recorded, the same functions, debug flag and open block, and
the same engine with all that scripts have written. -/
structure SameEffect {α β φ ψ : Type} (r : Except α φ × Workspace Runtime) (r' : Except β ψ × Workspace Runtime) :
    Prop where
  success : r.1.isOk = r'.1.isOk
  bindings : Movable.mapPos Pos.flush r.2.context.bindings = Movable.mapPos Pos.flush r'.2.context.bindings
  functions : r.2.context.functions = r'.2.context.functions
  debug : r.2.context.debug = r'.2.context.debug
  pending : r.2.context.pending = r'.2.context.pending
  engine : r.2.engine = r'.2.engine

namespace Workspace

variable {source source' : String} (w : Workspace Runtime)

private theorem runAtomic_sameEffect (h : SameProgram Pos.flush source source') :
    Option.Rel SameEffect (w.runAtomic source) (w.runAtomic source') := by
  have hrun : Option.Rel (SameRun Pos.flush) (w.engine.run source w.context.bindings)
      (w.engine.run source' w.context.bindings) := Runtime.run_sameProgram h w.engine w.context.bindings
  unfold runAtomic
  dsimp only [Engine.evaluate]
  generalize w.engine.run source w.context.bindings = o at hrun
  generalize w.engine.run source' w.context.bindings = o' at hrun
  cases hrun with
  | none => exact .none
  | some hsame =>
    rename_i r r'
    obtain ⟨result, bindings, engine⟩ := r
    obtain ⟨result', bindings', engine'⟩ := r'
    have hengine : engine = engine' := hsame.runtime
    -- The two runs succeed, fail or crash together, and the bindings are kept or dropped together.
    match result, result' with
    | .ok v, .ok v' => exact .some ⟨rfl, hsame.globals, rfl, rfl, rfl, hengine⟩
    | .error (.script e), .error (.script e') => exact .some ⟨rfl, rfl, rfl, rfl, rfl, hengine⟩
    | .error (.crash c), .error (.crash c') => exact .none
    | .ok v, .error e' => exact absurd hsame.success (by simp [Except.isOk, Except.toBool])
    | .error e, .ok v' => exact absurd hsame.success (by simp [Except.isOk, Except.toBool])
    | .error (.crash c), .error (.script e') => exact absurd ((hsame.crashes c).mp rfl) nofun
    | .error (.script e), .error (.crash c') => exact absurd ((hsame.crashes c').mpr rfl) nofun

/-- Operations that make their outcomes of those of two runs have the same effect if the runs have. -/
theorem sameEffect_map {α β φ ψ φ' ψ' α' β' : Type} {o : Option (Except α φ × Workspace Runtime)}
    {o' : Option (Except β ψ × Workspace Runtime)} (h : Option.Rel SameEffect o o')
    {g : Except α φ × Workspace Runtime → Except α' φ'} {g' : Except β ψ × Workspace Runtime → Except β' ψ'}
    (hg : ∀ r, (g r).isOk = r.1.isOk) (hg' : ∀ r, (g' r).isOk = r.1.isOk) :
    Option.Rel SameEffect (o.map fun r => (g r, r.2)) (o'.map fun r => (g' r, r.2)) := by
  cases h with
  | none => exact .none
  | some hsame => exact .some { hsame with success := (hg _).trans (hsame.success.trans (hg' _).symm) }

private theorem isOk_bound (fault : Script.ScriptError → Fault) (r : ScriptResult Value × Workspace Runtime) :
    (bound name fault r).isOk = r.1.isOk := by
  obtain ⟨_ | _, _⟩ := r <;> rfl

private theorem isOk_mapError {α β φ : Type} (f : α → β) (r : Except α φ) : (r.mapError f).isOk = r.isOk := by
  cases r <;> rfl

/-- A declaration or an assignment that is routed has the effect that evaluating the typed text has. -/
theorem routed_sameEffect (haccumulated : Accumulated lines buffer) (w : Workspace Runtime) :
    (∀ k name expr, classify buffer = .declaration k name expr → checkName name = .ok () →
      Option.Rel SameEffect (w.declareVariable name expr) (w.evaluate (Text.trim buffer))) ∧
    (∀ name expr, classify buffer = .assignment name expr → checkName name = .ok () →
      Option.Rel SameEffect (w.assign name expr) (w.evaluate (Text.trim buffer))) := by
  constructor
  · intro k name expr h hname
    rw [declareVariable_eq w hname, evaluate_eq]
    have hprogram := sameProgram_of_declaration haccumulated h hname
    exact sameEffect_map (runAtomic_sameEffect w hprogram) (isOk_bound _) fun r => isOk_mapError _ r.1
  · intro name expr h hname
    rw [assign_eq w hname, evaluate_eq]
    have hprogram := sameProgram_of_assignment haccumulated h hname
    exact sameEffect_map (runAtomic_sameEffect w hprogram) (isOk_bound _) fun r => isOk_mapError _ r.1

/-- A closure over two lines, assigned with more blanks than the statement for it has, and a declaration with the
other keyword and without blanks. -/
theorem routed_sameEffect_closure :
    (Accumulated ["f  = \x7b x ->", "  println(x) \x7d"] "f  = \x7b x ->\n  println(x) \x7d" ∧
      classify "f  = \x7b x ->\n  println(x) \x7d" = .assignment "f" "\x7b x ->\n  println(x) \x7d" ∧
      (assign (⟨{}, Context.new⟩ : Workspace Runtime) "f" "\x7b x ->\n  println(x) \x7d").map (fun r => r.1.isOk) =
        some true ∧
      Option.Rel SameEffect
        (assign (⟨{}, Context.new⟩ : Workspace Runtime) "f" "\x7b x ->\n  println(x) \x7d")
        (evaluate ⟨{}, Context.new⟩ (Text.trim "f  = \x7b x ->\n  println(x) \x7d"))) ∧
    Accumulated ["var n=1"] "var n=1" ∧ classify "var n=1" = .declaration .varies "n" "1" ∧
      Option.Rel SameEffect (declareVariable (⟨{}, Context.new⟩ : Workspace Runtime) "n" "1")
        (evaluate ⟨{}, Context.new⟩ (Text.trim "var n=1")) := by
  have hfirst : Accumulated ["f  = \x7b x ->"] "f  = \x7b x ->" := .first (by decide)
  -- The first line leaves a brace open, so the second one is joined to it.
  have hclosure : Accumulated ["f  = \x7b x ->", "  println(x) \x7d"] "f  = \x7b x ->\n  println(x) \x7d" :=
    hfirst.further (by decide +kernel) (by decide)
  have hassignment : classify "f  = \x7b x ->\n  println(x) \x7d" =
      .assignment "f" "\x7b x ->\n  println(x) \x7d" := by decide +kernel
  have hline : Accumulated ["var n=1"] "var n=1" := .first (by decide)
  have hdeclaration : classify "var n=1" = .declaration .varies "n" "1" := by decide +kernel
  constructor
  · refine ⟨hclosure, hassignment, by decide +kernel, ?_⟩
    exact (routed_sameEffect hclosure _).2 _ _ hassignment (by decide +kernel)
  · exact ⟨hline, hdeclaration, (routed_sameEffect hline _).1 _ _ _ hdeclaration (by decide +kernel)⟩

/-- Where the variable stands that a closure bound to a name evaluates first. -/
def firstVariable? (name : String) (b : Bindings) : Option Pos :=
  match b.get? name with
  | some (.function ⟨_, _, .expr (.var _ p) :: _⟩ _ _) => some p
  | _ => none

/-- The bindings themselves differ: a closure records the columns of the statement, not those that were typed. -/
theorem assign_bindings_ne :
    Accumulated ["f  = \x7b y \x7d"] "f  = \x7b y \x7d" ∧
      classify "f  = \x7b y \x7d" = .assignment "f" "\x7b y \x7d" ∧ checkName "f" = .ok () ∧
      (assign (⟨{}, Context.new⟩ : Workspace Runtime) "f" "\x7b y \x7d").map (fun r => r.2.context.bindings) ≠
        (evaluate (⟨{}, Context.new⟩ : Workspace Runtime) (Text.trim "f  = \x7b y \x7d")).map fun r =>
          r.2.context.bindings := by
  refine ⟨.first (by decide), by decide +kernel, by decide +kernel, fun h => ?_⟩
  have hassigned : (assign (⟨{}, Context.new⟩ : Workspace Runtime) "f" "\x7b y \x7d").map
      (fun r => firstVariable? "f" r.2.context.bindings) = some (some ⟨1, 7⟩) := by decide +kernel
  have hevaluated : (evaluate (⟨{}, Context.new⟩ : Workspace Runtime) (Text.trim "f  = \x7b y \x7d")).map
      (fun r => firstVariable? "f" r.2.context.bindings) = some (some ⟨1, 8⟩) := by decide +kernel
  have hsame := congrArg (Option.map (firstVariable? "f")) h
  rw [Option.map_map, Option.map_map] at hsame
  have hcontra := hassigned.symm.trans (hsame.trans hevaluated)
  simp at hcontra

end Workspace

end RowConsole.Session
