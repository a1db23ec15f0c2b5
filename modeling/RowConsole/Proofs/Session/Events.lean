import RowConsole.Proofs.Session.Lines

/-!
# Events

The inputs that events complete, the open block behind them and the end of the session depend on the events alone,
and not on what evaluations bring.

Main statements: `pending_of_receive` and `phase_of_receive`.
-/

namespace RowConsole.Session

variable {ε : Type} [Engine ε]

/-! ## Section 1: Inputs -/

/-- The text so far with one more line. -/
def joinLine (pending line : String) : String :=
  if pending != "" then pending ++ "\n" ++ line else line

/-- The input that an event completes behind the lines of an open block: a line may be ignored or leave the block
open. -/
def completed? (pending : String) : ReadEvent → Option Input
  | .line text =>
    if Text.isBlankString text && !(pending != "") then none
    else if classify (joinLine pending text) = .incomplete then none
    else some (classify (joinLine pending text))
  | _ => none

theorem completed?_line_eq_some_iff {pending text : String} {input : Input} :
    completed? pending (.line text) = some input ↔
      (Text.isBlankString text && !(pending != "")) = false ∧ classify (joinLine pending text) = input ∧
        input ≠ .incomplete := by
  unfold completed?
  dsimp only
  split
  · next hignored => simp [hignored]
  · next hkept =>
    rw [Bool.eq_false_iff, and_iff_right hkept]
    split
    · next hincomplete =>
      rw [hincomplete]
      exact iff_of_false (Option.some_ne_none _).symm fun ⟨heq, hne⟩ => hne heq.symm
    · next hcomplete =>
      rw [Option.some_inj]
      exact ⟨fun heq => ⟨heq, heq ▸ hcomplete⟩, And.left⟩

/-- The lines of the block that is open behind an event. -/
def pendingAfter (pending : String) : ReadEvent → String
  | .line text =>
    if Text.isBlankString text && !(pending != "") then pending
    else if classify (joinLine pending text) = .incomplete then joinLine pending text else ""
  | _ => ""

/-- An input that is complete leaves no block open. -/
theorem pendingAfter_of_completed {pending text : String} {input : Input}
    (h : completed? pending (.line text) = some input) : pendingAfter pending (.line text) = "" := by
  obtain ⟨hkept, rfl, hcomplete⟩ := completed?_line_eq_some_iff.mp h
  unfold pendingAfter
  dsimp only
  rw [hkept, if_neg hcomplete, if_neg Bool.false_ne_true]

/-- Whether a session ends with an event: an exit request, the end of the input or a failure to read. -/
def isLast (pending : String) : ReadEvent → Bool
  | .line text => completed? pending (.line text) = some .exit
  | .interrupted => false
  | .endOfInput | .failed _ => true

/-- The inputs that events complete, up to the one with which the session ends. -/
def inputs (pending : String) : List ReadEvent → List Input
  | [] => []
  | e :: rest =>
    (completed? pending e).toList ++ if isLast pending e then [] else inputs (pendingAfter pending e) rest

/-- A line that completes an input drops the open block and has the input routed. -/
theorem handleLine_of_completed {s : Session ε} {text : String} {input : Input}
    (h : completed? s.context.pending (.line text) = some input) :
    s.handleLine text = (s.collected "" (keepLine s.reader.history text)).dispatch input := by
  obtain ⟨hkept, rfl, hcomplete⟩ := completed?_line_eq_some_iff.mp h
  have hignored : (Text.isBlankString text && !s.context.hasPending) = false := hkept
  rw [handleLine_eq, hignored, if_neg Bool.false_ne_true, resolve_of_complete]
  · rfl
  · exact hcomplete

/-- Any other line is ignored or collected. -/
theorem handleLine_of_uncompleted {s : Session ε} {text : String}
    (h : completed? s.context.pending (.line text) = none) :
    s.handleLine text =
      if Text.isBlankString text && !s.context.hasPending then some (s.enter .idle)
      else some (s.collected (joinLine s.context.pending text) (keepLine s.reader.history text)) := by
  rw [handleLine_eq]
  split
  · rfl
  · next hkept =>
    -- The line completes nothing although it is kept, so the buffer is open and the line joins it.
    have hignored : ¬(Text.isBlankString text && !(s.context.pending != "")) = true := hkept
    unfold completed? at h
    dsimp only at h
    rw [if_neg hignored] at h
    split at h
    · next hincomplete => exact resolve_of_incomplete hincomplete _
    · contradiction

/-! ## Section 2: Sessions -/

omit [Engine ε] in
/-- Getting ready to read leaves the open block. -/
@[simp] theorem pending_beginRead (s : Session ε) : s.beginRead.context.pending = s.context.pending := rfl

/-- A session that has not ended reads an event, and goes on behind it. -/
theorem loop_cons {s : Session ε} (h : s.phase ≠ .exited) (e : ReadEvent) (rest : List ReadEvent) :
    s.loop (e :: rest) = (s.beginRead.receive e).bind fun s' => s'.loop rest := by
  rw [loop, if_neg h]
  cases s.beginRead.receive e <;> rfl

/-- The open block behind an event. -/
theorem pending_of_receive {s s' : Session ε} {e : ReadEvent} (h : s.receive e = some s') :
    s'.context.pending = pendingAfter s.context.pending e := by
  cases e with
  | line text =>
    have hline : s.handleLine text = some s' := h
    rw [handleLine_eq] at hline
    have hhas : s.context.hasPending = (s.context.pending != "") := rfl
    have hpushed : (s.context.pushPending text).pending = joinLine s.context.pending text := rfl
    rw [hhas, hpushed] at hline
    unfold pendingAfter
    dsimp only
    split at hline
    · next hignored =>
      cases hline
      exact (if_pos hignored).symm
    · next hkept =>
      -- the line joins the block, which is open behind it if the text needs more lines
      rw [if_neg hkept]
      rcases resolve_cases hline with ⟨hincomplete, rfl⟩ | ⟨hcomplete, hdispatch⟩
      · exact (if_pos hincomplete).symm
      · -- the block is dropped before the input is routed
        have hdropped : classify (joinLine s.context.pending text) ≠ .incomplete := hcomplete
        rw [if_neg hdropped]
        rcases keepsPending_of_routes (dispatch_cases hdispatch) with hsame | hempty
        · exact hsame
        · exact hempty
  | interrupted => cases h; rfl
  | endOfInput => cases h; rfl
  | failed message => cases h; rfl

/-- A session ends with the last event, and with no other one. -/
theorem phase_of_receive {s s' : Session ε} {e : ReadEvent} (h : s.receive e = some s') :
    s'.phase = .exited ↔ isLast s.context.pending e = true := by
  cases e with
  -- A line can end the session only through the input that it completes.
  | line text =>
    have hline : s.handleLine text = some s' := h
    unfold isLast
    cases hcompleted : completed? s.context.pending (.line text) with
    | some input =>
      rw [handleLine_of_completed hcompleted] at hline
      rw [phase_of_dispatch hline]
      by_cases hexit : input = .exit <;> simp [hexit, hcompleted]
    | none =>
      rw [handleLine_of_uncompleted hcompleted] at hline
      split at hline
      · cases hline
        simp [enter, hcompleted]
      · cases hline
        simp [collected, hcompleted]
  | interrupted => cases h; simp [enter, isLast]
  | endOfInput => cases h; simp [exit, enter, isLast]
  | failed message => cases h; simp [exit, enter, isLast]

end RowConsole.Session
