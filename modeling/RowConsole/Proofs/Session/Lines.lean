import RowConsole.Proofs.Session.Blocks

/-!
# Line by Line

The text of an open block is classified anew with each line. The rules that come before the count of the braces
never interfere: they look at the beginning of the text, which stays, and at the exit words, which have no brace.
So it makes no difference whether a block is typed line by line or handed over as one text.

Main statement: `lineByLine`.
-/

namespace RowConsole.Session

open Script (Keyword Runtime Value)

/-! ## Section 1: The First Rules -/

/-- A character that is in neither exit word is in no exit request. -/
theorem not_mem_of_isExitRequest {text : String} {c : Char} (h : isExitRequest text = true)
    (hc : Text.lowerAscii c ∉ "exitquit".toList) : c ∉ text.toList := by
  intro hmem
  have hlower : Text.lowerAscii c ∈ text.toList.map Text.lowerAscii := List.mem_map_of_mem hmem
  have hexit : "exit".toList.map Text.lowerAscii = "exit".toList := by decide
  have hquit : "quit".toList.map Text.lowerAscii = "quit".toList := by decide
  simp only [isExitRequest, Text.equalIgnoringAsciiCase, Bool.or_eq_true, beq_iff_eq, hexit, hquit] at h
  have hwords : "exitquit".toList = "exit".toList ++ "quit".toList := by decide
  rw [hwords] at hc
  apply hc
  rcases h with h | h
  · exact List.mem_append_left _ (h ▸ hlower)
  · exact List.mem_append_right _ (h ▸ hlower)

/-- The rules that look at the beginning of a text and at the exit words come first: a blank text, a command, an
exit request, or none of them. -/
inductive FirstRules (cs : List Char) : Input → Prop where
  | empty : cs = [] → FirstRules cs .empty
  | command {rest : List Char} {name args : String} : cs = ':' :: rest → FirstRules cs (.command name args)
  | exit : cs.head? ≠ some ':' → isExitRequest (String.ofList cs) = true → FirstRules cs .exit
  | later {input : Input} : cs ≠ [] → cs.head? ≠ some ':' → isExitRequest (String.ofList cs) = false →
      input ≠ .empty → input ≠ .exit → (∀ name args, input ≠ .command name args) → FirstRules cs input

theorem firstRules (buffer : String) : FirstRules (Text.trimChars buffer.toList) (classify buffer) := by
  unfold classify
  dsimp only
  split
  · next h => exact .empty h
  · next rest h => exact .command h
  · next hnil hcolon =>
    have hhead : (Text.trimChars buffer.toList).head? ≠ some ':' := by
      intro h
      obtain ⟨rest, hrest⟩ := List.head?_eq_some_iff.mp h
      exact hcolon rest hrest
    split
    · next h => exact .exit hhead h
    · next h =>
      -- Behind the first rules the input is of a later kind, whichever rule makes it.
      have hlater : ∀ input, input ≠ .empty → input ≠ .exit → (∀ name args, input ≠ .command name args) →
          FirstRules (Text.trimChars buffer.toList) input := fun _ => .later hnil hhead (by simpa using h)
      split
      · apply hlater <;> simp
      · split
        · next k name rest _ =>
          rcases classifyDeclaration_cases (String.ofList (Text.trimChars buffer.toList)) k name rest with
            hinput | ⟨_, _, _, hinput⟩ | hinput
          all_goals
            rw [hinput]
            apply hlater <;> simp
        · split <;> (apply hlater <;> simp)

theorem classify_eq_exit_iff (buffer : String) :
    classify buffer = .exit ↔ isExitRequest (Text.trim buffer) = true := by
  have hrules := firstRules buffer
  constructor
  · intro h
    rw [h] at hrules
    cases hrules with
    | exit _ hexit => exact hexit
    | later _ _ _ _ hno => exact absurd rfl hno
  · intro h
    generalize classify buffer = input at hrules
    cases hrules with
    | empty hnil =>
      rw [Text.trim, hnil] at h
      exact absurd h (by decide)
    | @command rest _ _ hcons =>
      -- A request to leave has no colon in it, so it is no command.
      have hcolon := not_mem_of_isExitRequest (c := ':') h (by decide)
      rw [Text.trim, hcons] at hcolon
      simp at hcolon
    | exit => rfl
    | later _ _ hno => exact absurd h (ne_true_of_eq_false hno)

/-! ## Section 2: Lines of an Open Block -/

/-- A text that needs more lines is, with whatever line comes next, no blank text, no command and no exit request:
it starts as before, and it holds a brace. -/
theorem not_early_of_incomplete {buffer : String} (h : classify buffer = .incomplete) (line : String) :
    classify (buffer ++ "\n" ++ line) ≠ .empty ∧ classify (buffer ++ "\n" ++ line) ≠ .exit ∧
      ∀ name args, classify (buffer ++ "\n" ++ line) ≠ .command name args := by
  -- An open buffer has a brace in it, and starts with something other than a colon; both stay so when a line is added.
  have hbrace : '\x7b' ∈ Text.trimChars (buffer ++ "\n" ++ line).toList := by
    apply Text.mem_trimChars _ (by decide)
    simp [mem_brace_of_incomplete h]
  have hhead : (Text.trimChars (buffer ++ "\n" ++ line).toList).head? ≠ some ':' := by
    have hrules := firstRules buffer
    rw [h] at hrules
    cases hrules with
    | later hne hcolon =>
      obtain ⟨c, hc⟩ := Option.isSome_iff_exists.mp (List.isSome_head?.mpr hne)
      rw [String.toList_append, String.toList_append, List.append_assoc, Text.head?_trimChars_append hc, ← hc]
      exact hcolon
  have hrules := firstRules (buffer ++ "\n" ++ line)
  generalize classify (buffer ++ "\n" ++ line) = input at hrules
  cases hrules with
  | empty hnil =>
    rw [hnil] at hbrace
    exact absurd hbrace List.not_mem_nil
  | command hcons =>
    rw [hcons] at hhead
    exact absurd rfl hhead
  | exit _ hexit =>
    have hno := not_mem_of_isExitRequest (c := '\x7b') hexit (by decide)
    rw [String.toList_ofList] at hno
    exact absurd hbrace hno
  | later _ _ _ hempty hexit hcommand => exact ⟨hempty, hexit, hcommand⟩

/-! ## Section 3: Sessions That Are Set Up -/

/-- What is done to a session before it reads. -/
inductive Preparation where
  | value (name : String) (v : Value)
  | script (name body : String)

variable {ε : Type} [Engine ε]

/-- A session after a preparation, which may have failed. -/
def prepare (s : Session ε) : Preparation → Session ε
  | .value name v => (s.setVariable name v).2
  | .script name body => (s.registerScript name body).2

/-- A new session with its debug flag and after its preparations. -/
def setUp (engine : ε) (prompts : Prompts) (debug : Bool) (preparations : List Preparation) : Session ε :=
  preparations.foldl prepare ((Session.new engine prompts).mapContext fun ctx => { ctx with debug := debug })

/-- A session that has not read anything: it has no open block and has told its user nothing. -/
structure Fresh (s : Session ε) : Prop where
  idle : s.phase = .idle
  pending : s.context.pending = ""
  console : s.console = Console.empty
  reader : s.reader = {}

theorem Fresh.prepare {s : Session ε} (h : s.Fresh) (p : Preparation) : (s.prepare p).Fresh := by
  cases p with
  | value name v =>
    have hrun : (Operation.setVariable name v).run s.workspace = some (s.workspace.setVariable name v) := rfl
    exact ⟨h.idle, (Operation.pending_of_run hrun).trans h.pending, h.console, h.reader⟩
  | script name body =>
    have hrun : (Operation.registerScript name body).run s.workspace = some (s.workspace.registerScript name body) := rfl
    exact ⟨h.idle, (Operation.pending_of_run hrun).trans h.pending, h.console, h.reader⟩

theorem fresh_setUp (engine : ε) (prompts : Prompts) (debug : Bool) (preparations : List Preparation) :
    (setUp engine prompts debug preparations).Fresh := by
  have hfold : ∀ (ps : List Preparation) (s : Session ε), s.Fresh → (ps.foldl Session.prepare s).Fresh := by
    intro ps
    induction ps with
    | nil => exact fun s h => h
    | cons p ps ih => exact fun s h => ih _ (h.prepare p)
  exact hfold preparations _ ⟨rfl, rfl, rfl, rfl⟩

/-! ## Section 4: Taking a Line -/

omit [Engine ε] in
/-- Printing looks at the reader as little as it changes it. -/
theorem print_withReader (s : Session ε) (r : Reader) (confirmation : Option String) (outcome : Outcome Value) :
    print { s with reader := r } confirmation outcome = { print s confirmation outcome with reader := r } := by
  cases outcome with
  | error f => rfl
  | ok v => cases confirmation <;> cases hnull : v.isNull <;> simp [print, enter, mapConsole, hnull]

omit [Engine ε] in
private theorem finish_withReader (s : Session ε) (r : Reader) (confirmation : Option String)
    (answer : Option (Outcome Value × Workspace ε)) :
    finish { s with reader := r } confirmation answer =
      (finish s confirmation answer).map fun s' => { s' with reader := r } := by
  cases answer with
  | none => rfl
  | some answer =>
    obtain ⟨outcome, w⟩ := answer
    exact congrArg some (print_withReader { s with workspace := w } r confirmation outcome)

/-- A function definition is routed like the other operations, with null for its value. -/
theorem dispatch_functionDefinition (s : Session ε) (name source : String) :
    s.dispatch (.functionDefinition name source) =
      (s.enter .defining).finish (some ("Function defined: " ++ name))
        (some ((s.workspace.declareFunction name source).1.map fun _ => .null,
          (s.workspace.declareFunction name source).2)) :=
  rfl

/-- What a complete input does has nothing to do with the reader. -/
theorem dispatch_withReader (s : Session ε) (r : Reader) (input : Input) :
    ({ s with reader := r } : Session ε).dispatch input =
      (s.dispatch input).map fun s' => { s' with reader := r } := by
  cases input with
  | declaration k name expr => exact finish_withReader (s.enter .declaring) r _ _
  | functionDefinition name source =>
    rw [dispatch_functionDefinition, dispatch_functionDefinition]
    exact finish_withReader (s.enter .defining) r _ _
  | assignment name expr => exact finish_withReader (s.enter .assigning) r _ _
  | expression text => exact finish_withReader (s.enter .evaluating) r _ _
  | _ => rfl

/-- Behind a complete input the session is idle, or has ended if that was asked for. -/
theorem phase_of_dispatch {s s' : Session ε} {input : Input} (h : s.dispatch input = some s') :
    s'.phase = if input = .exit then .exited else .idle := by
  -- Finishing an operation leaves the session idle, whatever came of it.
  have hfinish : ∀ {t : Session ε} {confirmation answer}, t.finish confirmation answer = some s' →
      s'.phase = .idle := by
    intro t confirmation answer ht
    cases answer with
    | none => contradiction
    | some answer =>
      cases ht
      rfl
  cases input with
  | declaration k name expr => exact hfinish h
  | functionDefinition name source =>
    rw [dispatch_functionDefinition] at h
    exact hfinish h
  | assignment name expr => exact hfinish h
  | expression text => exact hfinish h
  | _ => cases h; rfl

/-- A session that has collected some text and is about to classify it, with another history. -/
def collected (s : Session ε) (text : String) (history : List String) : Session ε :=
  { s with
    workspace := { s.workspace with context := { s.workspace.context with pending := text } }
    reader := { s.reader with history := history }
    phase := .classifying }

/-- Classifies the collected text: if more lines are needed nothing is done, and otherwise the text makes a complete
input. -/
def resolve (s : Session ε) : Option (Session ε) :=
  match classify s.context.pending with
  | .incomplete => some s
  | input => (s.mapContext Context.clearPending).dispatch input

/-- A session as it was but for the history. -/
def withoutHistory (s : Session ε) : Session ε :=
  { s with reader := { s.reader with history := [] } }

/-- The history with a line that is kept unless it is blank. -/
def keepLine (history : List String) (line : String) : List String :=
  if Text.isBlankString line then history else history ++ [line]

/-- A line that is not ignored joins the open block, and the text so far is classified. -/
theorem handleLine_eq (s : Session ε) (line : String) :
    s.handleLine line =
      if Text.isBlankString line && !s.context.hasPending then some (s.enter .idle)
      else (s.collected (s.context.pushPending line).pending (keepLine s.reader.history line)).resolve := by
  unfold handleLine keepLine
  dsimp only
  split
  · rfl
  · cases Text.isBlankString line <;> rfl

theorem resolve_of_incomplete {s : Session ε} {text : String} (h : classify text = .incomplete)
    (history : List String) : (s.collected text history).resolve = some (s.collected text history) := by
  have hpending : (s.collected text history).context.pending = text := rfl
  unfold resolve
  rw [hpending, h]

theorem resolve_of_complete {s : Session ε} (h : classify s.context.pending ≠ .incomplete) :
    s.resolve = (s.mapContext Context.clearPending).dispatch (classify s.context.pending) := by
  unfold resolve
  split
  · next hincomplete => exact absurd hincomplete h
  · rfl

theorem resolve_cases {s s' : Session ε} (h : s.resolve = some s') :
    (classify s.context.pending = .incomplete ∧ s' = s) ∨
      (classify s.context.pending ≠ .incomplete ∧
        (s.mapContext Context.clearPending).dispatch (classify s.context.pending) = some s') := by
  unfold resolve at h
  split at h
  · next hincomplete =>
    cases h
    exact .inl ⟨hincomplete, rfl⟩
  · next hcomplete => exact .inr ⟨hcomplete, h⟩

/-- The history has no part in what a collected text does. -/
theorem resolve_collected (s : Session ε) (text : String) (history history' : List String) :
    (s.collected text history).resolve.map withoutHistory = (s.collected text history').resolve.map withoutHistory := by
  by_cases hincomplete : classify text = .incomplete
  · rw [resolve_of_incomplete hincomplete, resolve_of_incomplete hincomplete]
    rfl
  · -- What is dispatched does not look at the reader, so the history is put back afterwards.
    have hdispatch : ∀ h input, ((s.collected text h).mapContext Context.clearPending).dispatch input =
        (((s.collected text []).mapContext Context.clearPending).dispatch input).map fun s' =>
          { s' with reader := { s.reader with history := h } } := fun h input =>
      dispatch_withReader ((s.collected text []).mapContext Context.clearPending) { s.reader with history := h } input
    have hpending : ∀ h, (s.collected text h).context.pending = text := fun _ => rfl
    have hresolved : ∀ h, (s.collected text h).resolve =
        ((s.collected text h).mapContext Context.clearPending).dispatch (classify text) := by
      intro h
      rw [resolve_of_complete (by rw [hpending]; exact hincomplete), hpending]
    rw [hresolved history, hresolved history', hdispatch history, hdispatch history', Option.map_map, Option.map_map]
    rfl

/-! ## Section 5: States Reached by Typing -/

/-- No block is open, or one that needs more lines, and the session is classifying exactly in the latter case. -/
structure Steady (s : Session ε) : Prop where
  pending : s.context.pending = "" ∨ classify s.context.pending = .incomplete
  phase : s.phase = .classifying ↔ classify s.context.pending = .incomplete

omit [Engine ε] in
private theorem Steady.of_empty {s : Session ε} (hpending : s.context.pending = "") (hphase : s.phase ≠ .classifying) :
    s.Steady := by
  constructor
  · exact .inl hpending
  · have hempty : classify "" ≠ .incomplete := by decide
    rw [hpending]
    exact ⟨fun h => absurd h hphase, fun h => absurd h hempty⟩

/-- A line leaves a steady state behind, whatever the state was before. -/
theorem steady_of_handleLine {s s' : Session ε} {line : String} (h : s.handleLine line = some s') : s'.Steady := by
  rw [handleLine_eq] at h
  split at h
  · next hignored =>
    cases h
    have hpending : s.context.hasPending = false := by simpa using ((Bool.and_eq_true _ _).mp hignored).2
    have hempty : s.context.pending = "" := by simpa [Context.hasPending] using hpending
    exact Steady.of_empty hempty Phase.noConfusion
  · rcases resolve_cases h with ⟨hincomplete, rfl⟩ | ⟨_, hdispatch⟩
    · exact ⟨.inr hincomplete, fun _ => hincomplete, fun _ => rfl⟩
    · -- the block is dropped before the input is routed, which opens none
      apply Steady.of_empty
      · rcases keepsPending_of_routes (dispatch_cases hdispatch) with hsame | hempty
        · exact hsame
        · exact hempty
      · rw [phase_of_dispatch hdispatch]
        split <;> exact Phase.noConfusion

/-- Typing: a line, or the key that interrupts one. -/
def Interaction.IsTyped : Interaction → Prop
  | .line _ | .interrupt => True
  | _ => False

private theorem steady_of_interact {s s' : Session ε} {i : Interaction} (hi : i.IsTyped) (h : s.interact i = some s') :
    s'.Steady := by
  cases i with
  | line text =>
    have hline : s.handleLine text = some s' := h
    exact steady_of_handleLine hline
  | interrupt =>
    cases h
    exact Steady.of_empty rfl Phase.noConfusion
  | _ => contradiction

private theorem steady_of_interactAll {s s' : Session ε} (hs : s.Steady) {steps : List Interaction}
    (hsteps : ∀ i ∈ steps, i.IsTyped) (h : s.interactAll steps = some s') : s'.Steady := by
  induction steps generalizing s with
  | nil =>
    cases h
    exact hs
  | cons i rest ih =>
    simp only [interactAll] at h
    split at h
    · contradiction
    · next s₁ hstep =>
      obtain ⟨hi, hrest⟩ := List.forall_mem_cons.mp hsteps
      exact ih (steady_of_interact hi hstep) hrest h

/-! ## Section 6: Line by Line -/

/-- Lines joined to one text. -/
def joinLines (lines : List String) : String :=
  "\n".intercalate lines

private theorem joinLines_concat {lines : List String} (h : lines ≠ []) (line : String) :
    joinLines (lines ++ [line]) = joinLines lines ++ "\n" ++ line := by
  unfold joinLines
  rw [String.intercalate_append_of_ne_nil h (List.cons_ne_nil _ _), String.intercalate_singleton]

private theorem isBlankString_joinLines {line : String} (h : Text.isBlankString line = false) (rest : List String) :
    Text.isBlankString (joinLines (line :: rest)) = false := by
  unfold joinLines
  cases rest with
  | nil =>
    rw [String.intercalate_singleton]
    exact h
  | cons next rest =>
    unfold Text.isBlankString at h ⊢
    rw [String.intercalate_cons_cons, String.toList_append, String.toList_append, List.all_append, List.all_append, h]
    rfl

/-- Lines that make at most one complete input: the first one is not blank, and behind each of them but the last one
the text so far needs more lines. -/
structure OneBlock (lines : List String) : Prop where
  first : ∃ line rest, lines = line :: rest ∧ Text.isBlankString line = false
  unfinished : ∀ n < lines.length, 0 < n → classify (joinLines (lines.take n)) = .incomplete

theorem OneBlock.incomplete {before behind : List String} (h : OneBlock (before ++ behind)) (hbefore : before ≠ [])
    (hbehind : behind ≠ []) : classify (joinLines before) = .incomplete := by
  have hlength : before.length < (before ++ behind).length := by
    rw [List.length_append]
    exact Nat.lt_add_of_pos_right (List.length_pos_iff.mpr hbehind)
  have hincomplete := h.unfinished before.length hlength (List.length_pos_iff.mpr hbefore)
  rwa [List.take_left] at hincomplete

private theorem interactAll_append (s : Session ε) (before behind : List Interaction) :
    s.interactAll (before ++ behind) = (s.interactAll before).bind fun s' => s'.interactAll behind := by
  induction before generalizing s with
  | nil => rfl
  | cons i rest ih =>
    rw [List.cons_append, interactAll, interactAll]
    cases s.interact i with
    | none => rfl
    | some s' => exact ih s'

private theorem interactAll_line (s : Session ε) (line : String) : s.interactAll [.line line] = s.handleLine line := by
  have hstep : s.interact (.line line) = s.handleLine line := rfl
  rw [interactAll, hstep]
  cases s.handleLine line <;> rfl

section

variable {s : Session ε}

/-- A text that is not blank, typed where no block is open. -/
theorem handleLine_of_empty (hpending : s.context.pending = "") {text : String}
    (htext : Text.isBlankString text = false) :
    s.handleLine text = (s.collected text (keepLine s.reader.history text)).resolve := by
  have hpushed : (s.context.pushPending text).pending = text := by
    simp [Context.pushPending, Context.hasPending, hpending]
  rw [handleLine_eq, htext, hpushed]
  rfl

/-- A line that is typed where a block is open. -/
theorem handleLine_collected {text : String} (htext : text ≠ "") (history : List String) (line : String) :
    (s.collected text history).handleLine line =
      (s.collected (text ++ "\n" ++ line) (keepLine history line)).resolve := by
  have hopen : (s.collected text history).context.hasPending = true := by
    show (text != "") = true
    simpa using htext
  have hpushed : ((s.collected text history).context.pushPending line).pending = text ++ "\n" ++ line := by
    unfold Context.pushPending
    rw [hopen]
    rfl
  rw [handleLine_eq, hopen, hpushed, Bool.not_true, Bool.and_false]
  rfl

omit [Engine ε] in
theorem ne_empty_of_incomplete {text : String} (h : classify text = .incomplete) : text ≠ "" := by
  rintro rfl
  exact absurd h (by decide)

/-- Lines behind each of which more are needed are collected, and nothing else happens. -/
theorem interactAll_unfinished (hpending : s.context.pending = "") {lines : List String}
    (hfirst : ∃ line rest, lines = line :: rest ∧ Text.isBlankString line = false)
    (hunfinished : ∀ before behind, lines = before ++ behind → before ≠ [] →
      classify (joinLines before) = .incomplete) :
    ∃ history, s.interactAll (lines.map .line) = some (s.collected (joinLines lines) history) := by
  -- on the lines from the end, since a prefix of lines that are not finished is not finished
  induction lines using List.reverseRecOn with
  | nil =>
    obtain ⟨line, rest, hnil, _⟩ := hfirst
    contradiction
  | append_singleton lines last ih =>
    have hlast := hunfinished (lines ++ [last]) [] (List.append_nil _).symm (by simp)
    obtain ⟨first, rest, hcons, hblank⟩ := hfirst
    cases lines with
    | nil =>
      -- the first line opens the block
      obtain ⟨rfl, rfl⟩ := List.cons.inj hcons
      rw [List.nil_append, joinLines, String.intercalate_singleton] at hlast ⊢
      refine ⟨keepLine s.reader.history last, ?_⟩
      rw [List.map_singleton, interactAll_line, handleLine_of_empty hpending hblank, resolve_of_incomplete hlast]
    | cons line lines =>
      obtain ⟨rfl, _⟩ := List.cons.inj hcons
      have hbefore := hunfinished (line :: lines) [last] rfl (List.cons_ne_nil _ _)
      have hearlier : ∀ before behind, line :: lines = before ++ behind → before ≠ [] →
          classify (joinLines before) = .incomplete := fun before behind heq =>
        hunfinished before (behind ++ [last]) (by rw [heq, List.append_assoc])
      obtain ⟨history, hcollected⟩ := ih ⟨line, lines, rfl, hblank⟩ hearlier
      refine ⟨keepLine history last, ?_⟩
      rw [joinLines_concat (List.cons_ne_nil _ _)] at hlast ⊢
      rw [List.map_append, interactAll_append, hcollected, Option.bind_some, List.map_singleton, interactAll_line,
        handleLine_collected (ne_empty_of_incomplete hbefore), resolve_of_incomplete hlast]

/-- Lines of one block do what their joined text does, but for the history. -/
theorem interactAll_oneBlock (hpending : s.context.pending = "") {lines : List String} (hlines : OneBlock lines) :
    (s.interactAll (lines.map .line)).map withoutHistory = (s.handleLine (joinLines lines)).map withoutHistory := by
  obtain ⟨first, rest, rfl, hblank⟩ := hlines.first
  rcases List.eq_nil_or_concat' rest with rfl | ⟨between, last, rfl⟩
  · rw [List.map_singleton, interactAll_line, joinLines, String.intercalate_singleton]
  · -- the lines before the last one are collected, and the last one joins them to the text
    rw [← List.cons_append] at hlines
    have hbefore := hlines.incomplete (List.cons_ne_nil _ _) (List.cons_ne_nil _ _)
    have hearlier : ∀ before behind, first :: between = before ++ behind → before ≠ [] →
        classify (joinLines before) = .incomplete := by
      intro before behind heq hne
      rw [heq, List.append_assoc] at hlines
      exact hlines.incomplete hne (by simp)
    obtain ⟨history, hcollected⟩ := interactAll_unfinished hpending ⟨first, between, rfl, hblank⟩ hearlier
    have hjoined : joinLines (first :: (between ++ [last])) = joinLines (first :: between) ++ "\n" ++ last :=
      joinLines_concat (List.cons_ne_nil _ _) last
    have htyped : s.interactAll ((first :: (between ++ [last])).map .line) =
        (s.collected (joinLines (first :: (between ++ [last]))) (keepLine history last)).resolve := by
      rw [← List.cons_append, List.map_append, interactAll_append, hcollected, Option.bind_some, List.map_singleton,
        interactAll_line, handleLine_collected (ne_empty_of_incomplete hbefore), List.cons_append, hjoined]
    -- only the histories differ when the same text is classified
    rw [htyped, handleLine_of_empty hpending (isBlankString_joinLines hblank _)]
    exact resolve_collected s _ _ _

/-- In an open block, what a line completes is neither a command nor an exit request, and the session goes on. -/
theorem handleLine_open (hopen : classify s.context.pending = .incomplete) (line : String) :
    (classify (s.context.pushPending line).pending ≠ .exit ∧
      ∀ name args, classify (s.context.pushPending line).pending ≠ .command name args) ∧
      ∀ s', s.handleLine line = some s' → s'.phase ≠ .exited := by
  have hne := ne_empty_of_incomplete hopen
  have hhas : s.context.hasPending = true := by simpa [Context.hasPending] using hne
  have hpushed : (s.context.pushPending line).pending = s.context.pending ++ "\n" ++ line := by
    unfold Context.pushPending
    rw [hhas]
    rfl
  -- The lines are read together, and together they are neither a request to leave nor a command.
  obtain ⟨_, hexit, hcommand⟩ := not_early_of_incomplete hopen line
  rw [hpushed]
  refine ⟨⟨hexit, hcommand⟩, ?_⟩
  intro s' h
  rw [handleLine_eq, hhas, hpushed, Bool.not_true, Bool.and_false] at h
  rcases resolve_cases h with ⟨_, rfl⟩ | ⟨_, hdispatch⟩
  · exact Phase.noConfusion
  · have hphase : s'.phase = .idle := (phase_of_dispatch hdispatch).trans (if_neg hexit)
    simp [hphase]

/-- The last line of a block is the first one that does anything: up to it, only the open block grows. -/
theorem interactAll_take (hpending : s.context.pending = "") {lines : List String} (hlines : OneBlock lines) {n : Nat}
    (hn : n < lines.length) :
    ∃ s', s.interactAll ((lines.take n).map .line) = some s' ∧
      s'.context = { s.context with pending := joinLines (lines.take n) } ∧
      s'.workspace.engine = s.workspace.engine ∧ s'.console = s.console := by
  rcases Nat.eq_zero_or_pos n with rfl | hpos
  · have hcontext : s.context = { s.context with pending := "" } := by rw [← hpending]
    exact ⟨s, rfl, hcontext, rfl, rfl⟩
  · obtain ⟨line, rest, rfl, hblank⟩ := hlines.first
    obtain ⟨k, rfl⟩ := Nat.exists_eq_succ_of_ne_zero (Nat.ne_of_gt hpos)
    have hbehind : (line :: rest).drop (k + 1) ≠ [] := by simpa using hn
    -- All shorter prefixes are open as well, since lines follow them.
    have hearlier : ∀ before behind, (line :: rest).take (k + 1) = before ++ behind → before ≠ [] →
        classify (joinLines before) = .incomplete := by
      intro before behind heq hne
      rw [← List.take_append_drop (k + 1) (line :: rest), heq, List.append_assoc] at hlines
      exact hlines.incomplete hne (List.append_ne_nil_of_right_ne_nil _ hbehind)
    obtain ⟨history, hcollected⟩ := interactAll_unfinished hpending ⟨line, rest.take k, rfl, hblank⟩ hearlier
    exact ⟨_, hcollected, rfl, rfl, rfl⟩

end

/-- Typing leaves a set-up session without an open block, or with one that needs more lines, and exactly then the
session is classifying. Lines of one block do what their joined text does, up to the lines kept for the history; up to
the last one they are only collected. And no line of an open block is taken for a command or an exit request. -/
theorem lineByLine :
    (∀ (engine : ε) (prompts : Prompts) (debug : Bool) (preparations : List Preparation) (steps : List Interaction) s,
      (∀ i ∈ steps, i.IsTyped) → (setUp engine prompts debug preparations).interactAll steps = some s →
      (s.context.pending = "" ∨ classify s.context.pending = .incomplete) ∧
        (s.phase = .classifying ↔ classify s.context.pending = .incomplete)) ∧
    (∀ (s : Session ε) (lines : List String), s.context.pending = "" → OneBlock lines →
      (s.interactAll (lines.map .line)).map withoutHistory = (s.handleLine (joinLines lines)).map withoutHistory ∧
        ∀ n < lines.length, ∃ s', s.interactAll ((lines.take n).map .line) = some s' ∧
          s'.context = { s.context with pending := joinLines (lines.take n) } ∧
          s'.workspace.engine = s.workspace.engine ∧ s'.console = s.console) ∧
    ∀ (s : Session ε), classify s.context.pending = .incomplete → ∀ line,
      (classify (s.context.pushPending line).pending ≠ .exit ∧
        ∀ name args, classify (s.context.pushPending line).pending ≠ .command name args) ∧
        ∀ s', s.handleLine line = some s' → s'.phase ≠ .exited := by
  refine ⟨?_, ?_, fun s hopen line => handleLine_open hopen line⟩
  · -- a session that was set up has no open block and is idle, which is a steady state
    intro engine prompts debug preparations steps s hsteps h
    have hfresh := fresh_setUp engine prompts debug preparations
    have hsteady := Steady.of_empty hfresh.pending (by rw [hfresh.idle]; exact Phase.noConfusion)
    obtain ⟨hpending, hphase⟩ := steady_of_interactAll hsteady hsteps h
    exact ⟨hpending, hphase⟩
  · intro s lines hpending hlines
    exact ⟨interactAll_oneBlock hpending hlines, fun n hn => interactAll_take hpending hlines hn⟩

/-- A definition over three lines, the second of which would end the session outside of it. -/
theorem lineByLine_definition :
    let s : Session Runtime := setUp { fuel := 30 } {} false [.value "n" (.int 5)]
    let lines := ["def f(exit) \x7b", "exit", "\x7d"]
    OneBlock lines ∧
      (s.interactAll (lines.map .line)).map withoutHistory = (s.handleLine (joinLines lines)).map withoutHistory ∧
      (s.handleLine (joinLines lines)).map (fun s => (s.phase, s.context.functions.keys)) = some (.idle, ["f"]) ∧
      ∃ s', s.interactAll [.line "def f(exit) \x7b"] = some s' ∧ s'.phase = .classifying ∧
        classify s'.context.pending = .incomplete ∧
        classify (s'.context.pushPending "exit").pending ≠ .exit := by
  intro s lines
  have hlines : OneBlock lines := ⟨⟨"def f(exit) \x7b", ["exit", "\x7d"], rfl, by decide⟩, by decide +kernel⟩
  have hpending : s.context.pending = "" := by decide +kernel
  obtain ⟨hsame, hcollected⟩ := (lineByLine (ε := Runtime)).2.1 s lines hpending hlines
  obtain ⟨s', htyped, hcontext, _, _⟩ := hcollected 1 (by decide)
  -- After the first line the definition is open, and `exit` is a line of its body.
  have hopen : classify s'.context.pending = .incomplete := by
    rw [hcontext]
    decide +kernel
  have hphase : s'.phase = .classifying :=
    ((lineByLine (ε := Runtime)).1 _ _ _ _ [.line "def f(exit) \x7b"] s' (by simp [Interaction.IsTyped]) htyped).2.mpr
      hopen
  have hexit := ((lineByLine (ε := Runtime)).2.2 s' hopen "exit").1.1
  exact ⟨hlines, hsame, by decide +kernel, s', htyped, hphase, hopen, hexit⟩

end RowConsole.Session
