import RowConsole.Proofs.Session.Interaction
import RowConsole.Proofs.Text.Trimming

/-!
# Open Blocks

Lines are collected while the text so far needs more of them, which is decided by its braces. So a text of more
than one line opens a brace in the first one, whatever the lines are.

Main statements: `opensFirst_of_accumulated`, and `collecting_of_interactAll`, that the open block of a session
is such a text after whatever was done to the session.
-/

namespace RowConsole.Session

open Script (Keyword)

/-! ## Section 1: Accumulated Lines -/

/-- The text of a block after some lines: each line behind the first was asked for because more lines were
needed. -/
inductive Accumulated : List String → String → Prop where
  | first {line : String} : '\n' ∉ line.toList → Accumulated [line] line
  | further {lines : List String} {buffer line : String} : Accumulated lines buffer →
      classify buffer = .incomplete → '\n' ∉ line.toList → Accumulated (lines ++ [line]) (buffer ++ "\n" ++ line)

/-! ## Section 2: Classification -/

/-- How a trimmed text is classified where it is not empty, a command or an exit request. -/
inductive Classified (cs : List Char) : Input → Prop where
  | early {input : Input} : input = .empty ∨ input = .exit ∨ (∃ name args, input = .command name args) →
      Classified cs input
  | incomplete : isComplete cs = false → Classified cs .incomplete
  | declared {k : Keyword} {name rest : List Char} {input : Input} : splitDeclaration cs = some (k, name, rest) →
      classifyDeclaration (String.ofList cs) k name rest = input → Classified cs input
  | assigned {name expr : String} : findAssignment cs = some (name, expr) → Classified cs (.assignment name expr)
  | other : Classified cs (.expression (String.ofList cs))

theorem classified (buffer : String) : Classified (Text.trimChars buffer.toList) (classify buffer) := by
  unfold classify
  dsimp only
  split
  · exact .early (.inl rfl)
  · exact .early (.inr (.inr ⟨_, _, rfl⟩))
  · split
    · exact .early (.inr (.inl rfl))
    · split
      · next h => exact .incomplete (by simpa using h)
      · split
        · next h => exact .declared h rfl
        · split
          · next h => exact .assigned h
          · exact .other

/-- A text that starts like a declaration is a definition of a function, a declaration or an expression. -/
theorem classifyDeclaration_cases (text : String) (k : Keyword) (name rest : List Char) :
    classifyDeclaration text k name rest = .functionDefinition (String.ofList name) text ∨
      (∃ expr, rest = '=' :: expr ∧ expr.head? ≠ some '=' ∧
        classifyDeclaration text k name rest =
          .declaration k (String.ofList name) (String.ofList (Text.trimChars expr))) ∨
      classifyDeclaration text k name rest = .expression text := by
  unfold classifyDeclaration
  -- A bracket behind the name makes it a function; one sign of assignment, with something behind it, a variable.
  split
  · exact .inl rfl
  · split
    · next expr _ =>
      dsimp only
      split
      · next h =>
        have hcompares := ((Bool.and_eq_true _ _).mp h).1
        exact .inr (.inl ⟨expr, rfl, of_decide_eq_true hcompares, rfl⟩)
      · exact .inr (.inr rfl)
    · exact .inr (.inr rfl)

/-- Trimming takes off no braces. -/
theorem isComplete_trimChars (cs : List Char) : isComplete (Text.trimChars cs) = isComplete cs := by
  simp only [isComplete]
  rw [Text.count_trimChars cs (by decide), Text.count_trimChars cs (by decide)]

/-- More lines are needed only where more braces are opened than are closed. -/
theorem isComplete_of_incomplete {buffer : String} (h : classify buffer = .incomplete) :
    isComplete buffer.toList = false := by
  have hclassified := classified buffer
  rw [h] at hclassified
  cases hclassified with
  | early h => simp at h
  | incomplete hopen => exact isComplete_trimChars buffer.toList ▸ hopen
  | @declared k name rest _ _ h =>
    rcases classifyDeclaration_cases (String.ofList (Text.trimChars buffer.toList)) k name rest with
      hother | ⟨_, _, _, hother⟩ | hother
    all_goals
      rw [hother] at h
      cases h

theorem mem_brace_of_incomplete {buffer : String} (h : classify buffer = .incomplete) : '\x7b' ∈ buffer.toList := by
  have hopen : ¬buffer.toList.count '\x7b' ≤ buffer.toList.count '\x7d' :=
    of_decide_eq_false (isComplete_of_incomplete h)
  exact List.count_pos_iff.mp (by omega)

/-- A text in which a brace is opened before the first line ends. -/
def OpensFirst (cs : List Char) : Prop :=
  ∀ before behind, cs = before ++ '\n' :: behind → '\x7b' ∈ before

theorem opensFirst_of_accumulated {lines : List String} {buffer : String} (h : Accumulated lines buffer) :
    OpensFirst buffer.toList := by
  induction h with
  | first hline =>
    intro before behind heq
    exact absurd (heq ▸ by simp) hline
  | @further lines buffer line _ hincomplete hline ih =>
    intro before behind heq
    have hbuffer := mem_brace_of_incomplete hincomplete
    have hchars : buffer.toList ++ '\n' :: line.toList = before ++ '\n' :: behind := by
      rw [← heq]
      simp
    -- the line feed lies in the earlier lines or directly behind them
    rcases List.append_eq_append_iff.mp hchars with ⟨more, rfl, _⟩ | ⟨more, hmore, htail⟩
    · exact List.mem_append_left _ hbuffer
    · cases more with
      | nil =>
        rw [List.append_nil] at hmore
        exact hmore ▸ hbuffer
      | cons c more =>
        obtain ⟨rfl, _⟩ := List.cons.inj htail
        exact ih before more hmore

/-! ## Section 3: The Open Block of a Session -/

variable {ε : Type} [Engine ε]

theorem Changes.pending {w : Workspace ε} {ctx : Context} (h : Changes w ctx) :
    ctx.pending = w.context.pending := by
  cases h <;> rfl

/-- No operation touches the open block. -/
theorem Operation.pending_of_run {w w' : Workspace ε} {op : Operation} {r : Outcome Unit}
    (h : op.run w = some (r, w')) : w'.context.pending = w.context.pending :=
  (Operation.changes h).pending

/-- No block is open, or one whose lines so far need more of them. -/
def Collecting (ctx : Context) : Prop :=
  ctx.pending = "" ∨ ∃ lines, Accumulated lines ctx.pending ∧ classify ctx.pending = .incomplete

/-- The text that is classified when a line is typed has been accumulated. -/
theorem accumulated_pushPending {ctx : Context} (h : Collecting ctx) {line : String} (hline : '\n' ∉ line.toList) :
    ∃ lines, Accumulated lines (ctx.pushPending line).pending := by
  unfold Context.pushPending Context.hasPending
  rcases h with hempty | ⟨lines, haccumulated, hincomplete⟩
  · refine ⟨[line], ?_⟩
    simp only [hempty, bne_self_eq_false, Bool.false_eq_true, if_false]
    exact .first hline
  · split
    · exact ⟨_, haccumulated.further hincomplete hline⟩
    · exact ⟨_, .first hline⟩

/-- The open block is left as it is, or dropped. -/
def KeepsPending (ctx ctx' : Context) : Prop :=
  ctx'.pending = ctx.pending ∨ ctx'.pending = ""

private theorem Collecting.of_keepsPending {ctx ctx' : Context} (h : Collecting ctx) (hkeeps : KeepsPending ctx ctx') :
    Collecting ctx' := by
  rcases hkeeps with hsame | hempty
  · unfold Collecting
    rw [hsame]
    exact h
  · exact .inl hempty

theorem KeepsPending.of_eq {ctx ctx' : Context} (h : ctx'.pending = ctx.pending) : KeepsPending ctx ctx' :=
  .inl h

theorem keepsPending_of_routes {s s' : Session ε} (h : Routes s s') : KeepsPending s.context s'.context := by
  cases h with
  | keeps h => exact .of_eq (by rw [h])
  | toggles h => exact .of_eq (by rw [h]; rfl)
  | clears h => exact .inr (by rw [h]; rfl)
  | operates op hrun => exact .of_eq (Operation.pending_of_run hrun)

/-- A line that is typed leaves no block open, or one that needs more lines. -/
theorem collecting_of_handleLine {s s' : Session ε} {line : String} (hcollecting : Collecting s.context)
    (hline : '\n' ∉ line.toList) (h : s.handleLine line = some s') : Collecting s'.context := by
  obtain ⟨lines, hpushed⟩ := accumulated_pushPending hcollecting hline
  rcases handleLine_cases h with hsame | ⟨hincomplete, hs'⟩ | ⟨s₁, hs₁, hroutes⟩
  · rw [hsame]
    exact hcollecting
  · rw [hs']
    exact .inr ⟨lines, hpushed, hincomplete⟩
  · have hcleared : Collecting s₁.context := .inl (congrArg Context.pending hs₁)
    exact hcleared.of_keepsPending (keepsPending_of_routes hroutes)

/-- A line that is typed holds no line feed. -/
def Interaction.IsOneLine : Interaction → Prop
  | .line text => '\n' ∉ text.toList
  | _ => True

private theorem collecting_of_interact {s s' : Session ε} {i : Interaction} (hcollecting : Collecting s.context)
    (hi : i.IsOneLine) (h : s.interact i = some s') : Collecting s'.context := by
  cases i with
  -- Only a line adds to what is pending, and a line holds no break.
  | line text =>
    have hline : s.handleLine text = some s' := h
    exact collecting_of_handleLine hcollecting hi hline
  | evaluation code => exact hcollecting.of_keepsPending (keepsPending_of_routes (evalLine_cases h))
  | interrupt =>
    cases h
    exact .inl rfl
  | setVariable name v =>
    cases h
    have hrun : (Operation.setVariable name v).run s.workspace = some (s.workspace.setVariable name v) := rfl
    exact hcollecting.of_keepsPending (.of_eq (Operation.pending_of_run hrun))
  | registerScript name body =>
    cases h
    have hrun : (Operation.registerScript name body).run s.workspace = some (s.workspace.registerScript name body) := rfl
    exact hcollecting.of_keepsPending (.of_eq (Operation.pending_of_run hrun))

/-- Whatever is done to a session, its open block needs more lines if it did before, and so the text that the
next line completes has been accumulated. -/
theorem collecting_of_interactAll {s s' : Session ε} (hcollecting : Collecting s.context) {steps : List Interaction}
    (hsteps : ∀ i ∈ steps, i.IsOneLine) (h : s.interactAll steps = some s') : Collecting s'.context := by
  induction steps generalizing s with
  | nil =>
    cases h
    exact hcollecting
  | cons i rest ih =>
    simp only [interactAll] at h
    split at h
    · contradiction
    · next s₁ hstep =>
      obtain ⟨hi, hrest⟩ := List.forall_mem_cons.mp hsteps
      exact ih (collecting_of_interact hcollecting hi hstep) hrest h

end RowConsole.Session
