import Mathlib.Data.Option.Basic
import RowConsole.Proofs.Script.BareBody
import RowConsole.Proofs.Script.Moved.Evaluation

/-!
# Blanks in the First Line

Two sources may differ in the blanks between the words of their first line, and in the keyword of a
declaration. They spell the same program up to columns in that line then, and running either has the same
effect up to such columns, which stay in the functions that are made.

Main statements: `tokens_binding`, that the blanks around the parts of a binding leave no trace in its tokens,
and `Runtime.run_sameProgram`.
-/

namespace RowConsole.Script

open Grammar (Endless KeepsLines moveToken parseTokens)

/-! ## Section 1: Columns in the First Line -/

/-- A position, its column forgotten in the first line. -/
def Pos.flush (p : Pos) : Pos :=
  if p.line = 1 then .start else p

private theorem Pos.flush_of_line {p : Pos} (h : p.line = 1) : p.flush = .start :=
  if_pos h

private theorem keepsLines_flush : KeepsLines Pos.flush := by
  have hline : ∀ p : Pos, p.flush.line = p.line := by
    intro p
    unfold Pos.flush
    split
    · next h => exact h.symm
    · rfl
  intro p q
  rw [hline, hline]

/-- In the first line it does not matter where a text starts. -/
theorem flush_after {p q : Pos} (hp : p.line = 1) (hq : q.line = 1) (cs : List Char) :
    (p.after cs).flush = (q.after cs).flush := by
  induction cs generalizing p q with
  | nil => rw [Pos.after, Pos.after, List.foldl_nil, List.foldl_nil, Pos.flush_of_line hp, Pos.flush_of_line hq]
  | cons c cs ih =>
    show ((p.next c).after cs).flush = ((q.next c).after cs).flush
    by_cases hc : c = '\n'
    · have hnext : p.next c = q.next c := by simp [Pos.next, hc, hp, hq]
      rw [hnext]
    · exact ih (by simp [Pos.next, hc, hp]) (by simp [Pos.next, hc, hq])

private theorem locate_flush {p q : Pos} (hp : p.line = 1) (hq : q.line = 1) (cs : List Char) :
    (locate p cs).map (Glyph.mapPos Pos.flush) = (locate q cs).map (Glyph.mapPos Pos.flush) := by
  induction cs generalizing p q with
  | nil => rfl
  | cons c cs ih =>
    have hfirst : Glyph.mapPos Pos.flush ⟨c, p⟩ = Glyph.mapPos Pos.flush ⟨c, q⟩ := by
      simp [Glyph.mapPos, Pos.flush_of_line hp, Pos.flush_of_line hq]
    rw [locate, locate, List.map_cons, List.map_cons, hfirst]
    by_cases hc : c = '\n'
    · have hnext : p.next c = q.next c := by simp [Pos.next, hc, hp, hq]
      rw [hnext]
    · have hp' : (p.next c).line = 1 := by simp [Pos.next, hc, hp]
      have hq' : (q.next c).line = 1 := by simp [Pos.next, hc, hq]
      rw [ih hp' hq']

/-! ## Section 2: Tokens -/

/-- The tokens of a text, the columns in the first line forgotten. -/
def flushTokens (cs : List Char) : ScriptResult (List Token) :=
  moveResult Pos.flush (List.map (moveToken Pos.flush)) (tokenizeChars cs)

variable {cs ds : List Char} {p : Pos}

private theorem flushTokens_eq (hp : p.line = 1) (cs : List Char) :
    flushTokens cs =
      moveResult Pos.flush (List.map (moveToken Pos.flush)) (scanAll (p.after cs) (locate p cs)) := by
  have hstart : Pos.start.line = 1 := rfl
  rw [flushTokens, tokenizeChars_eq, ← scanAll_move, ← scanAll_move, locate_flush hstart hp cs,
    flush_after hstart hp cs]

/-- A text without line feeds ends in the line in which it starts. -/
theorem line_after_eq (h : cs.count '\n' = 0) : (Pos.start.after cs).line = 1 := by
  rw [Pos.line_after, h]
  rfl

/-- Blanks within one line. -/
def InLine (blanks : List Char) : Prop :=
  ∀ c ∈ blanks, c ≠ '\n' ∧ Text.isBlank c = true

theorem inLine_blank : InLine [' '] :=
  List.forall_mem_singleton.mpr (by decide)

/-- Blanks in front of a text leave no trace. -/
theorem flushTokens_blanks {blanks : List Char} (h : InLine blanks) :
    flushTokens (blanks ++ cs) = flushTokens cs := by
  have hcount : blanks.count '\n' = 0 := List.count_eq_zero.mpr fun hmem => (h _ hmem).1 rfl
  rw [flushTokens_eq (line_after_eq hcount) cs, flushTokens, tokenizeChars_eq, scanAll_blanks h, Pos.after_append]

/-- A word in front of a text. -/
theorem flushTokens_word {word : String} {c : Char} (hword : word.toList = c :: cs)
    (hstart : isWordStart c = true) (hcontinue : cs.all isWordContinue = true)
    (hcount : word.toList.count '\n' = 0) (hds : ∀ d ∈ ds.head?, isWordContinue d = false) :
    flushTokens (word.toList ++ ds) = (flushTokens ds).map (⟨wordKind word, .start⟩ :: ·) := by
  rw [flushTokens_eq (line_after_eq hcount) ds, flushTokens, tokenizeChars_eq,
    scanAll_word hword hstart hcontinue hds, Pos.after_append]
  cases scanAll ((Pos.start.after word.toList).after ds) (locate (Pos.start.after word.toList) ds) <;> rfl

/-- An equals sign that is part of no longer symbol, in front of a text. -/
theorem flushTokens_assign (hcs : cs.head? ≠ some '=') :
    flushTokens ('=' :: cs) = (flushTokens cs).map (⟨.symbol .assign, .start⟩ :: ·) := by
  have htwo : ∀ d ∈ cs.head?, symbolOfTwo? '=' d = none := by
    intro d hd
    have hne : d ≠ '=' := by
      rintro rfl
      exact hcs hd
    simp [symbolOfTwo?, hne]
  have hline : (Pos.start.next '=').line = 1 := rfl
  rw [flushTokens_eq hline cs, flushTokens, tokenizeChars_eq,
    scanAll_symbol (c := '=') (s := .assign) rfl rfl (by decide) htwo]
  show moveResult _ _ ((scanAll ((Pos.start.next '=').after cs) _).map _) = _
  cases scanAll ((Pos.start.next '=').after cs) (locate (Pos.start.next '=') cs) <;> rfl

/-- Blanks before a text that continues no word continue none either. -/
theorem head?_blanks {blanks : List Char} (hblanks : ∀ c ∈ blanks, Text.isBlank c = true)
    (hcs : ∀ c ∈ cs.head?, isWordContinue c = false) : ∀ c ∈ (blanks ++ cs).head?, isWordContinue c = false := by
  cases blanks with
  | nil => exact hcs
  | cons b blanks =>
    intro c hc
    obtain rfl : b = c := Option.some.inj hc
    exact isWordContinue_of_isBlank (hblanks b List.mem_cons_self)

/-! ## Section 3: Bindings -/

section Bindings

variable {name : String} {blanks blanks' expr : List Char}

/-- The blanks around the equals sign of a binding leave no trace in its tokens. -/
theorem tokens_binding (hname : isName name = true) (hblanks : InLine blanks) (hblanks' : InLine blanks')
    (hexpr : (blanks' ++ expr).head? ≠ some '=') :
    flushTokens (name.toList ++ (blanks ++ '=' :: (blanks' ++ expr))) =
      (flushTokens expr).map fun ts => ⟨.ident name, .start⟩ :: ⟨.symbol .assign, .start⟩ :: ts := by
  obtain ⟨c, rest, hword, hstart, hcontinue, hkeyword⟩ := toList_of_isName hname
  have hkind : wordKind name = .ident name := by rw [wordKind, hkeyword]
  have hends : ∀ d ∈ (blanks ++ '=' :: (blanks' ++ expr)).head?, isWordContinue d = false := by
    apply head?_blanks fun d hd => (hblanks d hd).2
    rintro d hd
    obtain rfl : '=' = d := Option.some.inj hd
    exact isWordContinue_ascii (by decide)
  rw [flushTokens_word hword hstart hcontinue (count_newline_of_isName hname) hends, hkind,
    flushTokens_blanks hblanks, flushTokens_assign hexpr, flushTokens_blanks hblanks']
  cases flushTokens expr <;> rfl

/-- A keyword with blanks behind it, in front of a text. -/
theorem flushTokens_keyword (k : Keyword) {blank : Char}
    (hblanks : InLine (blank :: blanks)) :
    flushTokens (k.word.toList ++ (blank :: blanks ++ cs)) =
      (flushTokens cs).map (⟨.keyword k, .start⟩ :: ·) := by
  obtain ⟨hof, c, rest, hword, hstart, hcontinue⟩ := keyword_word k
  have hkind : wordKind k.word = .keyword k := by rw [wordKind, hof]
  have hcount : k.word.toList.count '\n' = 0 := by cases k <;> decide
  have hends : ∀ d ∈ (blank :: blanks ++ cs).head?, isWordContinue d = false := by
    intro d hd
    obtain rfl : blank = d := Option.some.inj hd
    exact isWordContinue_of_isBlank (hblanks blank List.mem_cons_self).2
  rw [flushTokens_word hword hstart hcontinue hcount hends, hkind, flushTokens_blanks hblanks]

end Bindings

/-! ## Section 4: Programs -/

/-- Two sources that spell the same program at moved positions, or no program both. -/
def SameProgram (f : Pos → Pos) (source source' : String) : Prop :=
  (parse source).toOption.map (mapPosStmts f) = (parse source').toOption.map (mapPosStmts f)

private theorem toOption_parseTokens_move {f : Pos → Pos} (hf : KeepsLines f) {ts : List Token} (hts : Endless ts)
    {last : Token} (hlast : last.kind = .eof) :
    (parseTokens ((ts ++ [last]).map (moveToken f))).toOption =
      (parseTokens (ts ++ [last])).toOption.map (mapPosStmts f) := by
  cases h : parseTokens (ts ++ [last]) with
  | ok p =>
    rw [Grammar.parseTokens_move hf hts hlast h]
    rfl
  | error stop =>
    obtain ⟨stop', h'⟩ := Grammar.parseTokens_move_error hf hts hlast h
    rw [h']
    rfl

/-- The program of a source at moved positions is that of its tokens at moved positions. -/
theorem toOption_parse_move {f : Pos → Pos} (hf : KeepsLines f) (source : String) :
    (parse source).toOption.map (mapPosStmts f) =
      (moveResult f (List.map (moveToken f)) (tokenize source)).toOption.bind fun ts =>
        (parseTokens ts).toOption := by
  unfold parse
  -- Errors are forgotten on both sides, so only a text with tokens needs an argument.
  rcases tokenize_cases source with ⟨ts, hts, htokenize⟩ | ⟨e, htokenize⟩
  · have hlast : (endOf source.toList).kind = .eof := rfl
    have hmove := toOption_parseTokens_move hf hts hlast
    rw [htokenize]
    show _ = (parseTokens ((ts ++ [endOf source.toList]).map (moveToken f))).toOption
    rw [hmove]
    simp only [bind, Except.bind]
    cases parseTokens (ts ++ [endOf source.toList]) with
    | ok p => rfl
    | error stop => cases stop <;> rfl
  · rw [htokenize]
    rfl

/-- Declarations are read alike behind either keyword. -/
theorem parseTokens_declarator (k : Keyword) (hk : k = .defines ∨ k = .varies) (p : Pos) (t : Token)
    (ts : List Token) :
    parseTokens (⟨.keyword k, p⟩ :: t :: ts) = parseTokens (⟨.keyword .defines, p⟩ :: t :: ts) := by
  rcases hk with rfl | rfl
  · rfl
  · rfl

/-- A binding does not depend on the blanks in it. -/
theorem sameProgram_binding {name source : String} {blanks blanks' expr : List Char} (hname : isName name = true)
    (hblanks : InLine blanks) (hblanks' : InLine blanks') (hexpr : (blanks' ++ expr).head? ≠ some '=')
    (hsource : source.toList = name.toList ++ (blanks ++ '=' :: (blanks' ++ expr))) :
    SameProgram Pos.flush (name ++ " = " ++ String.ofList expr) source := by
  have hrebuilt : (name ++ " = " ++ String.ofList expr).toList = name.toList ++ ([' '] ++ '=' :: ([' '] ++ expr)) := by
    simp
  unfold SameProgram
  rw [toOption_parse_move keepsLines_flush, toOption_parse_move keepsLines_flush]
  show (flushTokens _).toOption.bind _ = (flushTokens _).toOption.bind _
  -- the blanks of both are forgotten with the columns, and the same tokens are left
  rw [hrebuilt, hsource, tokens_binding hname inLine_blank inLine_blank (by simp),
    tokens_binding hname hblanks hblanks' hexpr]

/-- A declaration does not depend on the blanks in it, nor on its keyword. -/
theorem sameProgram_declaration {k : Keyword} (hk : k = .defines ∨ k = .varies) {name source : String}
    {first : Char} {between blanks blanks' expr : List Char} (hname : isName name = true)
    (hbetween : InLine (first :: between)) (hblanks : InLine blanks) (hblanks' : InLine blanks')
    (hexpr : (blanks' ++ expr).head? ≠ some '=')
    (hsource : source.toList =
      k.word.toList ++ (first :: between ++ (name.toList ++ (blanks ++ '=' :: (blanks' ++ expr))))) :
    SameProgram Pos.flush ("def " ++ name ++ " = " ++ String.ofList expr) source := by
  have hrebuilt : ("def " ++ name ++ " = " ++ String.ofList expr).toList =
      Keyword.defines.word.toList ++ ([' '] ++ (name.toList ++ ([' '] ++ '=' :: ([' '] ++ expr)))) := by
    simp [Keyword.word]
  unfold SameProgram
  rw [toOption_parse_move keepsLines_flush, toOption_parse_move keepsLines_flush]
  show (flushTokens _).toOption.bind _ = (flushTokens _).toOption.bind _
  -- With all positions flushed to one place, the two texts have the same tokens but for the keyword.
  rw [hrebuilt, hsource, flushTokens_keyword .defines inLine_blank, flushTokens_keyword k hbetween,
    tokens_binding hname inLine_blank inLine_blank (by simp), tokens_binding hname hblanks hblanks' hexpr]
  cases flushTokens expr with
  | error e => rfl
  | ok ts =>
    have hdeclarator := parseTokens_declarator k hk .start ⟨.ident name, .start⟩ (⟨.symbol .assign, .start⟩ :: ts)
    exact congrArg Except.toOption hdeclarator.symm

/-! ## Section 5: Runs -/

section Runs

variable {γ : Type} [Globals γ] [Movable γ] (f : Pos → Pos)

/-- Two ended runs with the same effect up to moved positions: both succeed, both fail or both crash, they leave
the same globals up to moved positions, and they leave the same runtime. -/
structure SameRun (r r' : Attempt Value × γ × Runtime) : Prop where
  success : r.1.isOk = r'.1.isOk
  crashes : ∀ c, r.1 = crash c ↔ r'.1 = crash c
  globals : Movable.mapPos f r.2.1 = Movable.mapPos f r'.2.1
  runtime : r.2.2 = r'.2.2

private theorem isOk_moveAttempt {α β : Type} (g : α → β) (r : Attempt α) : (moveAttempt f g r).isOk = r.isOk := by
  cases r <;> rfl

private theorem moveAttempt_eq_crash {α β : Type} (g : α → β) (r : Attempt α) (c : Crash) :
    moveAttempt f g r = crash c ↔ r = crash c := by
  rcases r with (_ | _) | _ <;> simp [moveAttempt, Failure.mapPos, Failure.map, crash]

/-- Outcomes that agree at moved positions have the same effect on a runtime. -/
theorem SameRun.of_moved {r r' : Attempt Value} {m m' : Machine γ}
    (h : moveOutcome f (Value.mapPos f) (r, m) = moveOutcome f (Value.mapPos f) (r', m')) (rt : Runtime) :
    SameRun f (r, m.globals, { rt with serial := m.serial, output := m.output })
      (r', m'.globals, { rt with serial := m'.serial, output := m'.output }) := by
  obtain ⟨hresult, hmachine⟩ := Prod.mk.inj h
  have hserial : m.serial = m'.serial := by simpa using congrArg Machine.serial hmachine
  have houtput : m.output = m'.output := by simpa using congrArg Machine.output hmachine
  constructor
  case success =>
    have hisOk := congrArg Except.isOk hresult
    rwa [isOk_moveAttempt, isOk_moveAttempt] at hisOk
  case crashes =>
    intro c
    rw [← moveAttempt_eq_crash f (Value.mapPos f) r, ← moveAttempt_eq_crash f (Value.mapPos f) r']
    exact iff_of_eq (congrArg (· = crash c) hresult)
  case globals => exact congrArg Machine.globals hmachine
  case runtime => rw [hserial, houtput]

/-- Sources with the same program run to the same effect, or are both cut off. -/
theorem Runtime.run_sameProgram {f : Pos → Pos} {source source' : String} (h : SameProgram f source source')
    (rt : Runtime) (globals : γ) :
    Option.Rel (SameRun f) (rt.run source globals) (rt.run source' globals) := by
  unfold SameProgram at h
  unfold Runtime.run
  cases hp : parse source with
  | error e =>
    rw [hp] at h
    cases hp' : parse source' with
    | error e' => exact .some ⟨rfl, fun _ => iff_of_false nofun nofun, rfl, rfl⟩
    | ok p' =>
      rw [hp'] at h
      contradiction
  | ok p =>
    rw [hp] at h
    cases hp' : parse source' with
    | error e' =>
      rw [hp'] at h
      contradiction
    | ok p' =>
      rw [hp'] at h
      have hmoved : mapPosStmts f p = mapPosStmts f p' := Option.some.inj h
      -- both programs do what the program with moved positions does
      have hrun := Moves.runProgram (γ := γ) (f := f) rt.maxDepth rt.fuel p (Machine.start globals rt.serial rt.output)
      have hrun' := Moves.runProgram (γ := γ) (f := f) rt.maxDepth rt.fuel p' (Machine.start globals rt.serial rt.output)
      rw [hmoved, hrun'] at hrun
      dsimp only
      cases hm : runProgram rt.maxDepth rt.fuel p (Machine.start globals rt.serial rt.output) with
      | none =>
        rw [hm] at hrun
        rw [Option.map_eq_none_iff.mp hrun]
        exact .none
      | some o =>
        rw [hm] at hrun
        obtain ⟨o', hm', ho⟩ := Option.map_eq_some_iff.mp hrun
        rw [hm']
        exact .some (SameRun.of_moved f ho.symm rt)

end Runs

end RowConsole.Script
