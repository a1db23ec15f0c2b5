import RowConsole.Proofs.Session.Registry
import RowConsole.Proofs.Session.Routing

/-!
# Functions from Scripts

A script is registered under a name as a definition of it: the text of the script where it starts like one, and a
definition around it elsewhere. What is then compiled may have been wrapped on the way already, and compiling makes up
its own mind about what is a definition. The two agree on bare bodies, and on definitions that start with the keyword
`def`, one blank and the name. Every other definition of the name is wrapped once more, and then the function that is
registered does nothing but define the one that was meant.

Main statement: `Workspace.registerScript_compiled`.
-/

namespace RowConsole.Script

open Text (dropBlanks isBlank startsWith stripStart?)

variable {name : String}

/-! ## Section 1: Definitions -/

/-- A text starts like a definition of a function: with a keyword of declarations, blanks, the name and an opening
parenthesis. -/
structure Defines (name : String) (text : String) (k : Keyword) (blanks : List Char) : Prop where
  keyword : k = .defines ∨ k = .varies
  blank : ∀ c ∈ blanks, isBlank c = true
  separated : blanks ≠ []
  eq : ∃ rest, text.toList = k.word.toList ++ (blanks ++ (name.toList ++ rest)) ∧ (dropBlanks rest).head? = some '('

/-- No name starts with a blank. -/
theorem not_blank_of_isName (h : isName name = true) (cs : List Char) :
    ∀ c ∈ (name.toList ++ cs).head?, isBlank c = false := by
  obtain ⟨c, rest, hword, hstart, _, _⟩ := toList_of_isName h
  rw [hword]
  rintro d ⟨⟩
  exact (isWordStart_lead hstart).1

/-- The check for definitions finds just the texts that start like one. -/
theorem isDefinitionOf_iff (h : isName name = true) {text : String} :
    isDefinitionOf text name = true ↔ ∃ k blanks, Defines name text k blanks := by
  unfold isDefinitionOf
  rw [List.any_eq_true]
  constructor
  · rintro ⟨k, hk, hstarts⟩
    split at hstarts
    · next first tail hkeyword =>
      obtain ⟨hfirst, hname⟩ := (Bool.and_eq_true _ _).mp hstarts
      split at hname
      · next rest hrest =>
        -- The first blank is tested on its own; the others are dropped.
        obtain ⟨between, hbetween, htail⟩ := Text.exists_dropBlanks tail
        refine ⟨k, first :: between, by simpa using hk, List.forall_mem_cons.mpr ⟨hfirst, hbetween⟩, by simp, rest, ?_,
          by simpa using hname⟩
        rw [Text.eq_append_of_stripStart? hkeyword, List.cons_append, ← Text.eq_append_of_stripStart? hrest, ← htail]
      · contradiction
    · contradiction
  · rintro ⟨k, blanks, hk, hblank, hseparated, rest, htext, hparen⟩
    refine ⟨k, by simpa using hk, ?_⟩
    obtain ⟨first, between, rfl⟩ := List.exists_cons_of_ne_nil hseparated
    obtain ⟨hfirst, hbetween⟩ := List.forall_mem_cons.mp hblank
    have hkeyword : stripStart? k.word.toList text.toList = some (first :: (between ++ (name.toList ++ rest))) := by
      rw [htext]
      exact Text.stripStart?_append _ _
    have hrest : stripStart? name.toList (dropBlanks (between ++ (name.toList ++ rest))) = some rest := by
      rw [Text.dropBlanks_append hbetween (not_blank_of_isName h rest)]
      exact Text.stripStart?_append _ _
    simp only [hkeyword, hfirst, hrest, hparen, Bool.true_and, beq_self_eq_true]

/-- Of the definitions of a name, those with the keyword `def` and one blank are the ones that start with these. -/
theorem startsWith_iff_of_defines (h : isName name = true) {text : String} {k : Keyword} {blanks : List Char}
    (hdefines : Defines name text k blanks) :
    startsWith ("def " ++ name).toList text.toList = true ↔ k = .defines ∧ blanks = [' '] := by
  obtain ⟨hk, hblank, hseparated, rest, htext, _⟩ := hdefines
  obtain ⟨first, between, rfl⟩ := List.exists_cons_of_ne_nil hseparated
  obtain ⟨c, cs, hword, hstart, _, _⟩ := toList_of_isName h
  have hink : isBlank c = false := (isWordStart_lead hstart).1
  have hprefix : ("def " ++ name).toList = 'd' :: 'e' :: 'f' :: ' ' :: name.toList := by simp
  rw [htext, hprefix]
  constructor
  · intro hstarts
    obtain ⟨tail, htail⟩ := Text.startsWith_iff.mp hstarts
    have heq := htail.symm
    rcases hk with rfl | rfl
    · -- behind the keyword stands one blank, and behind it the name, which starts with no blank
      have hbehind : first :: (between ++ (name.toList ++ rest)) = ' ' :: (name.toList ++ tail) := by
        simpa [Keyword.word] using heq
      obtain ⟨rfl, hafter⟩ := List.cons.inj hbehind
      refine ⟨rfl, ?_⟩
      cases between with
      | nil => rfl
      | cons d between =>
        rw [hword] at hafter
        obtain ⟨rfl, _⟩ := List.cons.inj hafter
        have hd := hblank d (by simp)
        rw [hink] at hd
        contradiction
    · simp [Keyword.word] at heq
  · rintro ⟨rfl, hblanks⟩
    rw [hblanks]
    have hcut : Keyword.defines.word.toList ++ ([' '] ++ (name.toList ++ rest)) =
        'd' :: 'e' :: 'f' :: ' ' :: name.toList ++ rest := by simp [Keyword.word]
    rw [hcut]
    exact Text.startsWith_iff.mpr ⟨rest, rfl⟩

/-! ## Section 2: Wrapped Bodies -/

/-- A wrapped body is a definition. -/
theorem isDefinitionOf_wrapBody (h : isName name = true) (body : String) :
    isDefinitionOf (wrapBody name body) name = true := by
  refine (isDefinitionOf_iff h).mpr ⟨.defines, [' '], .inl rfl, List.forall_mem_singleton.mpr rfl, by simp, ?_⟩
  refine ⟨'(' :: ')' :: ' ' :: '\x7b' :: '\n' :: (body.toList ++ ['\n', '\x7d']), ?_, rfl⟩
  rw [toList_wrapBody]
  simp [front, Keyword.word]

/-- Nothing is trimmed off a wrapped body. -/
theorem trim_wrapBody (name body : String) : Text.trim (wrapBody name body) = wrapBody name body := by
  have htrimmed : Text.trimChars (wrapBody name body).toList = (wrapBody name body).toList := by
    apply Text.trimChars_eq_self
    · rw [toList_wrapBody]
      rintro c ⟨⟩
      decide
    · have hlast : (wrapBody name body).toList = (front name ++ '\n' :: (body.toList ++ ['\n'])) ++ ['\x7d'] := by
        simp [toList_wrapBody]
      rw [hlast]
      apply Text.EndsInk.append_left _ (by simp)
      rintro c ⟨⟩
      decide
  rw [Text.trim, htrimmed, String.ofList_toList]

theorem trim_trim (s : String) : Text.trim (Text.trim s) = Text.trim s := by
  have htrimmed : (Text.trim (Text.trim s)).toList = (Text.trim s).toList := by
    rw [Text.toList_trim, Text.toList_trim, Text.trimChars_trimChars]
  exact String.toList_inj.mp htrimmed

/-- A body that is wrapped already is compiled as it stands. -/
theorem definitionText_wrapBody (h : isName name = true) (body : String) :
    definitionText name (wrapBody name body) = wrapBody name body := by
  unfold definitionText
  dsimp only
  rw [trim_wrapBody, isDefinitionOf_wrapBody h]
  rfl

/-- A text of which no blanks are left to trim is compiled like the one that it was trimmed from. -/
theorem definitionText_trim (name body : String) : definitionText name (Text.trim body) = definitionText name body := by
  unfold definitionText
  rw [trim_trim]

private theorem compileRoutine_congr {source source' : String}
    (h : definitionText name source = definitionText name source') :
    compileRoutine name source = compileRoutine name source' := by
  unfold compileRoutine
  rw [h]

/-- A body with a definition around it is compiled exactly if it is a program by itself, which is then what the
function runs. -/
theorem compileRoutine_wrapBody (h : isName name = true) {source body : String}
    (hwrapped : definitionText name source = wrapBody name body) :
    ((∃ routine, compileRoutine name source = .ok routine) ↔ ∃ p, parse body = .ok p) ∧
      ∀ p, parse body = .ok p → compileRoutine name source = .ok ⟨some name, [], mapPosStmts (Pos.down 1) p⟩ := by
  have hcompiled : ∀ p, parse body = .ok p →
      compileRoutine name source = .ok ⟨some name, [], mapPosStmts (Pos.down 1) p⟩ := by
    intro p hp
    obtain ⟨at_, hparse⟩ := parse_wrapBody h hp
    exact compileRoutine_eq_ok_iff.mpr ⟨_, _, at_, hwrapped ▸ hparse, rfl⟩
  refine ⟨⟨?_, fun ⟨p, hp⟩ => ⟨_, hcompiled p hp⟩⟩, hcompiled⟩
  rintro ⟨routine, hroutine⟩
  obtain ⟨params, stmts, at_, hparse, _⟩ := compileRoutine_eq_ok_iff.mp hroutine
  exact exists_parse_of_wrapBody h (hwrapped ▸ hparse)

end RowConsole.Script

namespace RowConsole.Session

open Script (Defines Pos Routine Runtime Value compileRoutine definitionText isDefinitionOf isName mapPosStmts parse
  wrapBody)

variable {name body : String}

/-! ## Section 3: Registered Scripts -/

namespace Workspace

/-- What a script is registered with is compiled like its body, unless the body is a definition that does not start
with the keyword `def`, one blank and the name. -/
theorem definitionText_scriptSource (h : isName name = true)
    (hplain : ∀ k blanks, Defines name (Text.trim body) k blanks → k = .defines ∧ blanks = [' ']) :
    definitionText name (scriptSource name body) = definitionText name body := by
  unfold scriptSource
  dsimp only
  split
  · exact Script.definitionText_trim name body
  · next hother =>
    -- what does not start with the prefix is no definition at all
    have hbare : isDefinitionOf (Text.trim body) name = false := by
      apply Bool.eq_false_iff.mpr
      intro hdefinition
      obtain ⟨k, blanks, hdefines⟩ := (Script.isDefinitionOf_iff h).mp hdefinition
      exact hother ((Script.startsWith_iff_of_defines h hdefines).mpr (hplain k blanks hdefines))
    rw [Script.definitionText_wrapBody h, Script.definitionText_eq_wrapBody hbare]

/-- Every other definition is wrapped once more. -/
theorem definitionText_scriptSource_again (h : isName name = true) {k : Script.Keyword} {blanks : List Char}
    (hdefines : Defines name (Text.trim body) k blanks) (hother : ¬(k = .defines ∧ blanks = [' '])) :
    definitionText name (scriptSource name body) = wrapBody name (Text.trim body) := by
  have hstarts := mt (Script.startsWith_iff_of_defines h hdefines).mp hother
  unfold scriptSource
  dsimp only
  rw [if_neg hstarts, Script.definitionText_wrapBody h]

/-- A name that may be bound is bound to the function that its source is compiled to, and so is its entry in the
registry. -/
theorem declareFunction_compiled (w : Workspace Runtime) (hname : checkName name = .ok ()) (source : String) :
    ((w.declareFunction name source).1 = .ok () ↔ ∃ routine, compileRoutine name source = .ok routine) ∧
      ∀ routine, compileRoutine name source = .ok routine →
        ∃ f, OrderedMap.get? (w.declareFunction name source).2.context.functions name = some f ∧
          (w.declareFunction name source).2.context.bindings.get? name = some f.handle ∧
          f.handle = .function routine w.engine.serial [] := by
  have hdeclared : ∀ routine, compileRoutine name source = .ok routine →
      (w.declareFunction name source).1 = .ok () := by
    intro routine hroutine
    have hcompile : Engine.compileFunction w.engine name source =
        (.ok (.function routine w.engine.serial []), { w.engine with serial := w.engine.serial + 1 }) := by
      show w.engine.compileFunction name source = _
      unfold Runtime.compileFunction
      rw [hroutine]
    have hset : w.context.bindings.set name (.function routine w.engine.serial []) =
        .ok ⟨w.context.bindings.values.insert name (.function routine w.engine.serial [])⟩ := by
      unfold Bindings.set
      rw [hname]
      rfl
    unfold declareFunction
    simp only [hname, hcompile, hset]
  have hcompiled : (w.declareFunction name source).1 = .ok () → ∃ routine, compileRoutine name source = .ok routine := by
    intro h
    obtain ⟨routine, _, hroutine, _⟩ := declareFunction_ok (Prod.ext h rfl)
    exact ⟨routine, hroutine⟩
  refine ⟨⟨hcompiled, fun ⟨routine, hroutine⟩ => hdeclared routine hroutine⟩, fun routine hroutine => ?_⟩
  obtain ⟨routine', bindings, hroutine', hset, hbindings, hfunctions⟩ :=
    declareFunction_ok (Prod.ext (hdeclared routine hroutine) rfl)
  -- the entry and the binding are made of one and the same function
  cases Except.ok.inj (hroutine.symm.trans hroutine')
  refine ⟨⟨name, source, .function routine w.engine.serial []⟩, ?_, ?_, rfl⟩
  · rw [hfunctions]
    exact OrderedMap.get?_insert_self _ _ _
  · rw [hbindings, Bindings.values_of_set hset]
    exact OrderedMap.get?_insert_self _ _ _

/-- Unless the body is a definition that does not start with the keyword `def`, one blank and the name, a script is
registered exactly if its body is compiled under the name, and then with the function that the body is compiled to: bare
bodies are wrapped once, and definitions are not. Any other definition of the name is wrapped again and registered as
a function without parameters that runs the definition. -/
theorem registerScript_compiled (w : Workspace Runtime) {name : String} (hname : checkName name = .ok ())
    (body : String) :
    ((∀ k blanks, Defines name (Text.trim body) k blanks → k = .defines ∧ blanks = [' ']) →
      ((w.registerScript name body).1 = .ok () ↔ ∃ handle, (w.engine.compileFunction name body).1 = .ok handle) ∧
        ∀ handle, (w.engine.compileFunction name body).1 = .ok handle →
          ∃ f, OrderedMap.get? (w.registerScript name body).2.context.functions name = some f ∧
            (w.registerScript name body).2.context.bindings.get? name = some f.handle ∧ f.handle = handle) ∧
    ∀ k blanks, Defines name (Text.trim body) k blanks → ¬(k = .defines ∧ blanks = [' ']) →
      ((w.registerScript name body).1 = .ok () ↔ ∃ p, parse (Text.trim body) = .ok p) ∧
        ∀ p, parse (Text.trim body) = .ok p →
          ∃ f, OrderedMap.get? (w.registerScript name body).2.context.functions name = some f ∧
            (w.registerScript name body).2.context.bindings.get? name = some f.handle ∧
            f.handle = .function ⟨some name, [], mapPosStmts (Pos.down 1) p⟩ w.engine.serial [] := by
  have hisName := isName_of_checkName hname
  obtain ⟨hregistered, hentry⟩ := declareFunction_compiled w hname (scriptSource name body)
  constructor
  · intro hplain
    -- what is handed on is compiled to the same function as the body
    have hsame : compileRoutine name (scriptSource name body) = compileRoutine name body :=
      Script.compileRoutine_congr (definitionText_scriptSource hisName hplain)
    rw [hsame] at hregistered
    constructor
    · refine hregistered.trans ⟨fun ⟨routine, hroutine⟩ => ?_, fun ⟨handle, hhandle⟩ => ?_⟩
      · exact ⟨_, compileFunction_eq_ok_iff.mpr ⟨routine, hroutine, rfl⟩⟩
      · obtain ⟨routine, hroutine, _⟩ := compileFunction_eq_ok_iff.mp hhandle
        exact ⟨routine, hroutine⟩
    · intro handle hhandle
      obtain ⟨routine, hroutine, rfl⟩ := compileFunction_eq_ok_iff.mp hhandle
      exact hentry routine (hsame.trans hroutine)
  · intro k blanks hdefines hother
    obtain ⟨hprogram, hcompiled⟩ :=
      Script.compileRoutine_wrapBody hisName (definitionText_scriptSource_again hisName hdefines hother)
    exact ⟨hregistered.trans hprogram, fun p hp => hentry _ (hcompiled p hp)⟩

/-- A bare body, a definition that is left as it is, and a definition with the other keyword, which is wrapped again. -/
theorem registerScript_compiled_bodies :
    let w : Workspace Runtime := ⟨{}, Context.new⟩
    (∀ body ∈ ["x + 1", " def f(x) \x7b x \x7d "], (w.registerScript "f" body).1 = .ok () ∧
      ∃ f, OrderedMap.get? (w.registerScript "f" body).2.context.functions "f" = some f ∧
        (w.engine.compileFunction "f" body).1 = .ok f.handle) ∧
    ∃ p, parse "var f(x) \x7b x \x7d" = .ok p ∧
      ∃ f, OrderedMap.get? (w.registerScript "f" "var f(x) \x7b x \x7d").2.context.functions "f" = some f ∧
        f.handle = .function ⟨some "f", [], mapPosStmts (Pos.down 1) p⟩ 0 [] := by
  intro w
  have hname : checkName "f" = .ok () := by decide +kernel
  have hisName : isName "f" = true := by decide +kernel
  -- Both bodies compile to the handle that is registered, a bare one as well as a definition with `def`.
  have hregistered : ∀ body, (w.engine.compileFunction "f" body).1.toOption.isSome = true →
      (isDefinitionOf (Text.trim body) "f" = true →
        Text.startsWith "def f".toList (Text.trim body).toList = true) →
      (w.registerScript "f" body).1 = .ok () ∧
        ∃ f, OrderedMap.get? (w.registerScript "f" body).2.context.functions "f" = some f ∧
          (w.engine.compileFunction "f" body).1 = .ok f.handle := by
    intro body hok hstarts
    obtain ⟨hsucceeds, hentry⟩ := (registerScript_compiled w hname body).1 fun k blanks hdefines =>
      (Script.startsWith_iff_of_defines hisName hdefines).mp
        (hstarts ((Script.isDefinitionOf_iff hisName).mpr ⟨k, blanks, hdefines⟩))
    obtain ⟨handle, hhandle⟩ : ∃ handle, (w.engine.compileFunction "f" body).1 = .ok handle := by
      cases hcompiled : (w.engine.compileFunction "f" body).1 with
      | ok handle => exact ⟨handle, rfl⟩
      | error e => simp [hcompiled, Except.toOption] at hok
    obtain ⟨f, hf, _, rfl⟩ := hentry handle hhandle
    exact ⟨hsucceeds.mpr ⟨_, hhandle⟩, f, hf, hhandle⟩
  constructor
  · intro body hbody
    rcases List.mem_pair.mp hbody with rfl | rfl
    · exact hregistered _ (by decide +kernel) (by decide +kernel)
    · exact hregistered _ (by decide +kernel) (by decide +kernel)
  · have htrim : Text.trim "var f(x) \x7b x \x7d" = "var f(x) \x7b x \x7d" := by decide +kernel
    have hdefines : Defines "f" (Text.trim "var f(x) \x7b x \x7d") .varies [' '] := by
      rw [htrim]
      exact ⟨.inr rfl, List.forall_mem_singleton.mpr rfl, by simp, "(x) \x7b x \x7d".toList, by decide +kernel,
        by decide +kernel⟩
    obtain ⟨_, hentry⟩ := (registerScript_compiled w hname "var f(x) \x7b x \x7d").2 _ _ hdefines (by simp)
    rw [htrim] at hentry
    obtain ⟨p, hp, _⟩ := Script.exists_of_length_parse
      (show (parse "var f(x) \x7b x \x7d").toOption.map List.length = some 1 by decide +kernel)
    obtain ⟨f, hf, _, hhandle⟩ := hentry p hp
    exact ⟨p, hp, f, hf, hhandle⟩

/-- The parameters of a function, if it is one. -/
def params? : Value → Option (List String)
  | .function routine _ _ => some routine.params
  | _ => none

/-- A definition with the keyword `var` is compiled to a function with a parameter, and the function that is registered
for it has none. -/
theorem registerScript_var :
    let w : Workspace Runtime := ⟨{}, Context.new⟩
    checkName "f" = .ok () ∧ isDefinitionOf "var f(x) \x7b x \x7d" "f" = true ∧
      (w.engine.compileFunction "f" "var f(x) \x7b x \x7d").1.toOption.bind params? = some ["x"] ∧
      (w.registerScript "f" "var f(x) \x7b x \x7d").1 = .ok () ∧
      (OrderedMap.get? (w.registerScript "f" "var f(x) \x7b x \x7d").2.context.functions "f").bind
        (fun f => params? f.handle) = some [] := by
  decide +kernel

end Workspace

end RowConsole.Session
