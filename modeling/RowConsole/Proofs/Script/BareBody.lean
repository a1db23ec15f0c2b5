import RowConsole.Proofs.Script.Composition
import RowConsole.Script.Runtime

/-!
# Functions from Bare Bodies

A body that is no definition itself is compiled inside a definition put around its text. What the text opens
and closes does not reach out of that definition: the compiled function runs the program that the body spells
by itself, and a body that spells no program is not compiled.

Main statement: `compileFunction_body`.
-/

namespace RowConsole.Script

open Grammar (Endless KeepsLines Wrapping moveToken parseTokens)

variable {name : String} {body : String} {ts : List Token} {p : List Stmt}

/-! ## Section 1: The Tokens around a Body -/

/-- Identifiers that are no keywords are names. -/
theorem isName_of_isIdentifier (h : Text.isIdentifier name = true) (hkeyword : isKeyword name = false) :
    isName name = true := by
  unfold Text.isIdentifier at h
  unfold isName
  cases hname : name.toList with
  | nil =>
    rw [hname] at h
    contradiction
  | cons c rest =>
    rw [hname] at h
    obtain ⟨hstart, hrest⟩ := (Bool.and_eq_true _ _).mp h
    have hwordStart : isWordStart c = true := by
      rcases (Bool.or_eq_true _ _).mp hstart with hc | hc <;> simp [isWordStart, hc]
    have hwordRest : rest.all isWordContinue = true := by
      apply List.all_eq_true.mpr
      intro d hd
      simp [isWordContinue, List.all_eq_true.mp hrest d hd]
    simp only [hwordStart, hwordRest, hkeyword, Bool.not_false, Bool.and_true]

/-- The characters of a definition without parameters up to its body. -/
def front (name : String) : List Char :=
  "def".toList ++ ' ' :: (name.toList ++ ['(', ')', ' ', '\x7b'])

theorem toList_wrapBody (name body : String) :
    (wrapBody name body).toList = front name ++ '\n' :: (body.toList ++ ['\n', '\x7d']) := by
  simp [wrapBody, front]

/-- A character that neither starts nor continues a word occurs in no name. -/
theorem not_mem_of_isName (h : isName name = true) {c : Char} (hstart : isWordStart c = false)
    (hcontinue : isWordContinue c = false) : c ∉ name.toList := by
  obtain ⟨d, rest, hword, hd, hrest, _⟩ := toList_of_isName h
  rw [hword]
  intro hmem
  rcases List.mem_cons.mp hmem with rfl | hmem
  · rw [hstart] at hd
    contradiction
  · have hc := List.all_eq_true.mp hrest c hmem
    rw [hcontinue] at hc
    contradiction

/-- No name reaches over a line feed. -/
theorem count_newline_of_isName (h : isName name = true) : name.toList.count '\n' = 0 :=
  List.count_eq_zero.mpr (not_mem_of_isName h (isWordStart_ascii (by decide)) isWordContinue_newline)

private theorem after_front (hname : isName name = true) :
    (Pos.start.after (front name)).next '\n' = Pos.start.down 1 := by
  have hcount : (front name).count '\n' = 0 := by
    simp [front, count_newline_of_isName hname]
  rw [Pos.after_line, hcount]

/-- Where the tokens around a body stand, the last two of them at given places. -/
def around (name : String) (braceClose finish : Pos) : Wrapping :=
  let word := Pos.start.after "def ".toList
  let paren := word.after name.toList
  { keyword := .start
    name := word
    parenOpen := paren
    parenClose := paren.after ['(']
    braceOpen := paren.after ['(', ')', ' ']
    newline := paren.after ['(', ')', ' ', '\x7b']
    braceClose := braceClose
    finish := finish }

/-- The tokens up to a body, which starts in the second line. -/
theorem scanAll_front (hname : isName name = true) (braceClose finish finish' : Pos) (cs : List Char) :
    scanAll finish' (locate Pos.start (front name ++ '\n' :: cs)) =
      (scanAll finish' (locate (Pos.start.down 1) cs)).map
        ((around name braceClose finish).opening name ++ ·) := by
  obtain ⟨c, rest, hword, hstart, hcontinue, hkeyword⟩ := toList_of_isName hname
  have hkind : wordKind name = .ident name := by rw [wordKind, hkeyword]
  have hparen : isWordContinue '(' = false := isWordContinue_ascii (by decide)
  have hfront : front name ++ '\n' :: cs =
      "def".toList ++ (' ' :: (name.toList ++ ('(' :: ')' :: ' ' :: '\x7b' :: '\n' :: cs))) := by
    simp [front]
  have hline : ((((((((Pos.start.after "def".toList).next ' ').after name.toList).next '(').next ')').next ' ').next
      '\x7b').next '\n') = Pos.start.down 1 := by
    rw [← after_front hname]
    simp [front, Pos.after]
  -- The opening line is read token by token; its break puts the rest on the next line.
  rw [hfront,
    scanAll_word (show "def".toList = _ from rfl) (by decide) (by decide)
      (by simp [isWordContinue_blank]),
    scanAll_blank (by decide), scanAll_word hword hstart hcontinue (by simp [hparen]), hkind,
    scanAll_symbol (c := '(') (s := .parenOpen) rfl rfl (by decide) (by simp [symbolOfTwo?]),
    scanAll_symbol (c := ')') (s := .parenClose) rfl rfl (by decide) (by simp [symbolOfTwo?]),
    scanAll_blank (by decide),
    scanAll_symbol (c := '\x7b') (s := .braceOpen) rfl rfl (by decide) (by simp [symbolOfTwo?]),
    scanAll_line, hline]
  cases scanAll finish' (locate (Pos.start.down 1) cs) <;> rfl

/-- The tokens behind a body. -/
theorem scanAll_back (finish p : Pos) :
    scanAll finish (locate p ['\n', '\x7d']) =
      .ok [⟨.newline, p⟩, ⟨.symbol .braceClose, p.next '\n'⟩, ⟨.eof, finish⟩] := by
  rw [scanAll_line, scanAll_symbol (c := '\x7d') (s := .braceClose) rfl rfl (by decide) (by simp)]
  rfl

/-- The glyphs of a body and of what stands behind it, which closes nothing that the body leaves open. -/
theorem locate_body (cs : List Char) :
    locate (Pos.start.down 1) (cs ++ ['\n', '\x7d']) =
      place (Pos.down 1) (locate ((Pos.start.after cs).down 1) ['\n', '\x7d']) (locate Pos.start cs) := by
  rw [locate_append, Pos.after_down, locate_down]
  rfl

private theorem endsLine_back (p : Pos) : EndsLine (locate p ['\n', '\x7d']) :=
  endsLine_newline

private theorem inert_back (p : Pos) : Inert (locate p ['\n', '\x7d']) := by
  simp [Inert, locate]

/-- The tokens of the definition around a body are those of the body and the ones put around them. -/
theorem tokenize_wrapBody (hname : isName name = true)
    (h : tokenize body = .ok (ts ++ [endOf body.toList])) :
    ∃ w : Wrapping, tokenize (wrapBody name body) =
      .ok (w.tokens name (ts.map (moveToken (Pos.down 1))) ((Pos.start.after body.toList).down 1) ++
        [⟨.eof, w.finish⟩]) := by
  have hbody : scanAll (Pos.start.after body.toList) (locate Pos.start body.toList) =
      .ok (ts ++ [endOf body.toList]) := by
    rw [← tokenizeChars_eq]
    exact h
  -- Only the place of the closing brace and that of the end depend on the body as a text.
  generalize hclose : ((Pos.start.after body.toList).down 1).next '\n' = braceClose
  refine ⟨around name braceClose (Pos.start.after (wrapBody name body).toList), ?_⟩
  rw [tokenize, tokenizeChars_eq]
  generalize Pos.start.after (wrapBody name body).toList = finish
  rw [toList_wrapBody, scanAll_front hname braceClose finish, locate_body,
    scanAll_place (endsLine_back _) hbody, scanAll_back, hclose]
  simp [Except.map, Wrapping.tokens, around]

/-- A body that is not cut into tokens is not cut into tokens inside the definition either. -/
theorem tokenize_wrapBody_error (hname : isName name = true) {e : ScriptError} (h : tokenize body = .error e) :
    ∃ e', tokenize (wrapBody name body) = .error e' := by
  have hbody : scanAll (Pos.start.after body.toList) (locate Pos.start body.toList) = .error e := by
    rw [← tokenizeChars_eq]
    exact h
  refine ⟨e.mapPos (Pos.down 1), ?_⟩
  rw [tokenize, tokenizeChars_eq, toList_wrapBody, scanAll_front hname .start .start, locate_body,
    scanAll_place_error (endsLine_back _) (inert_back _) hbody]
  rfl

/-! ## Section 2: Compiling a Body -/

/-- The definition around a program defines the function whose body is that program. -/
theorem parse_wrapBody (hname : isName name = true) (h : parse body = .ok p) :
    ∃ at_, parse (wrapBody name body) = .ok [.function name [] (mapPosStmts (Pos.down 1) p) at_] := by
  obtain ⟨ts, hts, htokens, hparse⟩ := tokens_of_parse h
  obtain ⟨w, hwrap⟩ := tokenize_wrapBody hname htokens
  have hfunction := Grammar.parseTokens_function w name (keepsLines_down 1) hts rfl hparse
  exact ⟨w.keyword, parse_of_tokenize hwrap hfunction⟩

/-- If the definition around a body is a single statement, then the body is a program. -/
theorem exists_parse_of_wrapBody (hname : isName name = true) {stmt : Stmt}
    (h : parse (wrapBody name body) = .ok [stmt]) : ∃ p, parse body = .ok p := by
  obtain ⟨us, _, hus, hparse⟩ := tokens_of_parse h
  rcases tokenize_cases body with ⟨ts, hts, htokens⟩ | ⟨e, htokens⟩
  · obtain ⟨w, hwrap⟩ := tokenize_wrapBody hname htokens
    rw [Except.ok.inj (hus.symm.trans hwrap)] at hparse
    have hend : (endOf body.toList).kind = .eof := rfl
    obtain ⟨p, hp⟩ := Grammar.exists_body_of_parseTokens w name (keepsLines_down 1) hts hend hparse
    exact ⟨p, parse_of_tokenize htokens hp⟩
  · obtain ⟨e', hwrap⟩ := tokenize_wrapBody_error hname htokens
    rw [hwrap] at hus
    cases hus

/-- What is compiled is exactly a text that defines the function and nothing else. -/
theorem compileRoutine_eq_ok_iff {source : String} {routine : Routine} :
    compileRoutine name source = .ok routine ↔
      ∃ params stmts at_, parse (definitionText name source) = .ok [.function name params stmts at_] ∧
        routine = ⟨some name, params, stmts⟩ := by
  unfold compileRoutine
  -- What the text is has no part in this, only what it parses to.
  generalize parse (definitionText name source) = parsed
  constructor
  · intro h
    split at h
    · contradiction
    · next defined params stmts at_ =>
      split at h
      · next hdefined =>
        subst hdefined
        exact ⟨params, stmts, at_, rfl, (Except.ok.inj h).symm⟩
      · contradiction
    · contradiction
  · rintro ⟨params, stmts, at_, rfl, rfl⟩
    exact if_pos rfl

theorem definitionText_eq_wrapBody (hbare : isDefinitionOf (Text.trim body) name = false) :
    definitionText name body = wrapBody name (Text.trim body) := by
  unfold definitionText
  dsimp only
  rw [hbare]
  rfl

/-- A body that is no definition is compiled exactly if it is a program by itself. The function then has the
name asked for, no parameters and no captured locals, and its body is that program, which stands one line
lower inside the definition. -/
theorem compileFunction_body (rt : Runtime) {name body : String} (hname : isName name = true)
    (hbare : isDefinitionOf (Text.trim body) name = false) :
    ((∃ f, (rt.compileFunction name body).1 = .ok f) ↔ ∃ p, parse (Text.trim body) = .ok p) ∧
      ∀ p, parse (Text.trim body) = .ok p →
        rt.compileFunction name body =
          (.ok (.function ⟨some name, [], mapPosStmts (Pos.down 1) p⟩ rt.serial []),
            { rt with serial := rt.serial + 1 }) := by
  have htext := definitionText_eq_wrapBody hbare
  generalize Text.trim body = trimmed at htext
  have hcompiled : ∀ p, parse trimmed = .ok p →
      rt.compileFunction name body =
        (.ok (.function ⟨some name, [], mapPosStmts (Pos.down 1) p⟩ rt.serial []),
          { rt with serial := rt.serial + 1 }) := by
    intro p hp
    obtain ⟨at_, hparse⟩ := parse_wrapBody hname hp
    rw [← htext] at hparse
    have hroutine := compileRoutine_eq_ok_iff.mpr ⟨_, _, _, hparse, rfl⟩
    unfold Runtime.compileFunction
    rw [hroutine]
  have hprogram : (∃ f, (rt.compileFunction name body).1 = .ok f) → ∃ p, parse trimmed = .ok p := by
    rintro ⟨f, hf⟩
    unfold Runtime.compileFunction at hf
    cases hroutine : compileRoutine name body with
    | error e =>
      rw [hroutine] at hf
      cases hf
    | ok routine =>
      -- Only a single definition is accepted, so nothing stands before or behind the braces.
      obtain ⟨params, stmts, at_, hparse, _⟩ := compileRoutine_eq_ok_iff.mp hroutine
      rw [htext] at hparse
      exact exists_parse_of_wrapBody hname hparse
  have hfunction : (∃ p, parse trimmed = .ok p) → ∃ f, (rt.compileFunction name body).1 = .ok f := by
    rintro ⟨p, hp⟩
    exact ⟨_, congrArg Prod.fst (hcompiled p hp)⟩
  exact ⟨⟨hprogram, hfunction⟩, hcompiled⟩

/-- A comment at the end of a body does not hide the closing brace. A body that closes the brace itself and opens
another definition behind it is not compiled. -/
theorem compileFunction_body_comment :
    (∃ p, parse "x // one" = .ok p ∧ ({} : Runtime).compileFunction "f" " x // one" =
      (.ok (.function ⟨some "f", [], mapPosStmts (Pos.down 1) p⟩ 0 []), { serial := 1 })) ∧
    ¬ ∃ f, (({} : Runtime).compileFunction "f" "1 \x7d\ndef g() \x7b 2").1 = .ok f := by
  have hf : isName "f" = true := by decide +kernel
  constructor
  · have htrim : Text.trim " x // one" = "x // one" := by decide +kernel
    obtain ⟨p, hp, _⟩ := exists_of_length_parse
      (show (parse "x // one").toOption.map List.length = some 1 by decide +kernel)
    have hbare : isDefinitionOf (Text.trim " x // one") "f" = false := by decide +kernel
    exact ⟨p, hp, (compileFunction_body {} hf hbare).2 p (htrim.symm ▸ hp)⟩
  · have hbare : isDefinitionOf (Text.trim "1 \x7d\ndef g() \x7b 2") "f" = false := by decide +kernel
    have hnone : (parse (Text.trim "1 \x7d\ndef g() \x7b 2")).toOption.map List.length = none := by decide +kernel
    rw [(compileFunction_body {} hf hbare).1]
    rintro ⟨p, hp⟩
    rw [hp] at hnone
    cases hnone

end RowConsole.Script
