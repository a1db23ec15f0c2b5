import RowConsole.Proofs.Session.Classification
import RowConsole.Proofs.Session.Scripts

/-!
# Typed Definitions

What is typed is recognized as the definition of a function by a pattern for declarations that is matched greedily, and
what is compiled is recognized by taking the keyword, the blanks and the name off its front. Where the name may be
bound, the second check accepts everything that the first one has found. So a typed definition is compiled as it stands
and never wrapped in another one, and the function that is made of it is the one that the text defines.

Main statement: `compileFunction_typed`.
-/

namespace RowConsole.Session

open Script (Defines Keyword Runtime definitionText isDefinitionOf isName parse refusal)

variable {buffer name source : String}

/-! ## Section 1: What Is Recognized -/

/-- Behind the name of a function stands an opening parenthesis. -/
theorem functionDefinition_of_classifyDeclaration {text : String} {k : Keyword} {declared rest : List Char}
    (h : classifyDeclaration text k declared rest = .functionDefinition name source) :
    rest.head? = some '(' ∧ name = String.ofList declared ∧ source = text := by
  unfold classifyDeclaration at h
  split at h
  · next hparen =>
    cases h
    exact ⟨of_decide_eq_true ((Bool.and_eq_true _ _).mp hparen).1, rfl, rfl⟩
  · split at h
    · dsimp only at h
      split at h <;> cases h
    · cases h

/-- The source of a definition is the text as it was typed, without blanks around it. -/
theorem source_of_functionDefinition (h : classify buffer = .functionDefinition name source) :
    source = Text.trim buffer :=
  trim_of_classifyBinding.1 name source (passed_of_classify h rfl).2.2.symm

/-- What is classified as the definition of a function starts like one: with a keyword, blanks, the name and, behind
blanks or none, an opening parenthesis. -/
theorem defines_of_functionDefinition (h : classify buffer = .functionDefinition name source) :
    ∃ k blanks, Defines name source k blanks := by
  have hclassified := classified buffer
  rw [h] at hclassified
  cases hclassified with
  | early hother => simp at hother
  | @declared k declared rest _ hsplit hinput =>
    obtain ⟨hparen, rfl, htext⟩ := functionDefinition_of_classifyDeclaration hinput
    obtain ⟨hk, first, between, behind, hblank, hbehind, hcut⟩ := splitDeclaration_spec hsplit
    -- behind the name both drop the blanks, and no more than these, as the parenthesis is none
    have hink : ∀ c ∈ rest.head?, Text.isBlank c = false := by
      rw [hparen]
      rintro c ⟨⟩
      decide
    refine ⟨k, first :: between, hk, hblank, by simp, behind ++ rest, ?_, ?_⟩
    · rw [htext, String.toList_ofList, String.toList_ofList, hcut]
    · rw [Text.dropBlanks_append hbehind hink, hparen]

/-- The check for definitions accepts what was classified as one, so it is not wrapped. -/
theorem definitionText_of_functionDefinition (h : classify buffer = .functionDefinition name source)
    (hname : isName name = true) : isDefinitionOf source name = true ∧ definitionText name source = source := by
  have hdefinition : isDefinitionOf source name = true :=
    (Script.isDefinitionOf_iff hname).mpr (defines_of_functionDefinition h)
  have htrim : Text.trim source = source := by
    rw [source_of_functionDefinition h, Script.trim_trim]
  refine ⟨hdefinition, ?_⟩
  unfold definitionText
  dsimp only
  rw [htrim, hdefinition]
  rfl

/-! ## Section 2: What Is Compiled -/

section Outcomes

variable {rt rt' : Runtime} {f : Script.Value}

/-- A text that cannot be parsed fails as it does where it is parsed. -/
theorem compileFunction_of_error {e : Script.ScriptError} (h : parse (definitionText name source) = .error e) :
    rt.compileFunction name source = (.error e, rt) := by
  unfold Runtime.compileFunction Script.compileRoutine
  generalize parse (definitionText name source) = parsed at h ⊢
  subst h
  rfl

/-- A program that is not a single definition of the name is refused. -/
theorem compileFunction_of_other {program : List Script.Stmt} (h : parse (definitionText name source) = .ok program)
    (hother : ∀ params body at_, program ≠ [.function name params body at_]) :
    rt.compileFunction name source = (refusal (.notOneDefinition name), rt) := by
  have hrefused : Script.compileRoutine name source = refusal (.notOneDefinition name) := by
    unfold Script.compileRoutine
    generalize parse (definitionText name source) = parsed at h ⊢
    split
    · cases h
    · next defined params body at_ =>
      cases h
      -- A single function of another name is refused as well.
      have hne : defined ≠ name := fun hdefined => hother params body at_ (by rw [hdefined])
      exact if_neg hne
    · rfl
  unfold Runtime.compileFunction
  rw [hrefused]
  rfl

/-- What is made is the function that a single definition of the name defines. -/
theorem compileFunction_eq_ok :
    rt.compileFunction name source = (.ok f, rt') ↔
      ∃ params body at_, parse (definitionText name source) = .ok [.function name params body at_] ∧
        f = .function ⟨some name, params, body⟩ rt.serial [] ∧ rt' = { rt with serial := rt.serial + 1 } := by
  constructor
  · intro h
    obtain ⟨routine, hroutine, rfl⟩ := compileFunction_eq_ok_iff.mp (congrArg Prod.fst h)
    obtain ⟨params, body, at_, hparse, rfl⟩ := Script.compileRoutine_eq_ok_iff.mp hroutine
    unfold Runtime.compileFunction at h
    rw [hroutine] at h
    exact ⟨params, body, at_, hparse, rfl, (Prod.mk.inj h).2.symm⟩
  · rintro ⟨params, body, at_, hparse, rfl, rfl⟩
    unfold Runtime.compileFunction
    rw [Script.compileRoutine_eq_ok_iff.mpr ⟨params, body, at_, hparse, rfl⟩]

end Outcomes

/-- A text that is typed as the definition of a function whose name may be bound is compiled as it stands. If it cannot
be parsed, then this is how compiling fails; if it holds anything but a single definition of the name, then it is
refused; and otherwise the function that is made has the name, the parameters and the body of that definition. -/
theorem compileFunction_typed (h : classify buffer = .functionDefinition name source)
    (hname : checkName name = .ok ()) :
    source = Text.trim buffer ∧ isDefinitionOf source name = true ∧ definitionText name source = source ∧
      ∀ rt : Runtime,
        (∀ e, parse source = .error e → rt.compileFunction name source = (.error e, rt)) ∧
        (∀ program, parse source = .ok program → (∀ params body at_, program ≠ [.function name params body at_]) →
          rt.compileFunction name source = (refusal (.notOneDefinition name), rt)) ∧
        ∀ f rt', rt.compileFunction name source = (.ok f, rt') ↔
          ∃ params body at_, parse source = .ok [.function name params body at_] ∧
            f = .function ⟨some name, params, body⟩ rt.serial [] ∧ rt' = { rt with serial := rt.serial + 1 } := by
  obtain ⟨hdefinition, htext⟩ := definitionText_of_functionDefinition h (isName_of_checkName hname)
  refine ⟨source_of_functionDefinition h, hdefinition, htext, fun rt => ⟨fun e he => ?_, fun program hp hother => ?_,
    fun f rt' => ?_⟩⟩
  · exact compileFunction_of_error (htext.symm ▸ he)
  · exact compileFunction_of_other (htext.symm ▸ hp) hother
  · rw [compileFunction_eq_ok, htext]

/-- A definition with the other keyword, blanks of several kinds and a name of other letters, typed with blanks around
it. -/
theorem compileFunction_typed_letters :
    let buffer := "  var\t größe  (a, b) \x7b\n a + b \x7d\n"
    let source := "var\t größe  (a, b) \x7b\n a + b \x7d"
    classify buffer = .functionDefinition "größe" source ∧ checkName "größe" = .ok () ∧
      isDefinitionOf source "größe" = true ∧ ∃ params body at_, parse source = .ok [.function "größe" params body at_] ∧
        ∀ rt : Runtime, rt.compileFunction "größe" source =
          (.ok (.function ⟨some "größe", params, body⟩ rt.serial []), { rt with serial := rt.serial + 1 }) := by
  intro buffer source
  have hclass : classify buffer = .functionDefinition "größe" source := by decide +kernel
  have hname : checkName "größe" = .ok () := by decide +kernel
  have hmade : (({} : Runtime).compileFunction "größe" source).1.isOk = true := by decide +kernel
  obtain ⟨-, hdefinition, -, hcompiled⟩ := compileFunction_typed hclass hname
  -- The function is found by compiling once; the general equation then holds for every engine.
  rcases hcompile : ({} : Runtime).compileFunction "größe" source with ⟨_ | f, rt'⟩
  · rw [hcompile] at hmade
    contradiction
  · obtain ⟨params, body, at_, hparse, -⟩ := ((hcompiled {}).2.2 f rt').mp hcompile
    exact ⟨hclass, hname, hdefinition, params, body, at_, hparse, fun rt =>
      ((hcompiled rt).2.2 _ _).mpr ⟨params, body, at_, hparse, rfl, rfl⟩⟩

end RowConsole.Session
