import RowConsole.Proofs.Session.Notices

/-!
# Reads

What a session reads up to the event with which it ends, whatever the inputs before it have brought. The only thing
that can keep a session from reading on is an evaluation that has no end. Each read shows a prompt, and each line that
is not blank is kept for the history.

Main statements: `loop_reads` and `Reads.reader`.
-/

namespace RowConsole.Session

open Script (Value)

variable {ε : Type} [Engine ε]

/-! ## Section 1: Evaluations That End -/

/-- The code that an input has evaluated, if any. A name that may not be bound keeps its statement from being run. -/
def Input.code? : Input → Option String
  | .declaration _ name expr =>
    match checkName name with
    | .ok () => some ("def " ++ name ++ " = " ++ expr)
    | .error _ => none
  | .assignment name expr =>
    match checkName name with
    | .ok () => some (name ++ " = " ++ expr)
    | .error _ => none
  | .expression text => some text
  | _ => none

/-- Whether the evaluation comes to an end that a session makes with an event, if it makes one. -/
def evaluationEnds (s : Session ε) (e : ReadEvent) : Bool :=
  ((completed? s.context.pending e).bind Input.code?).all fun code =>
    (Engine.evaluate s.workspace.engine code s.context.bindings).isSome

/-- Whether each of the evaluations comes to an end that a session makes while it reads events. -/
def evaluationsEnd (s : Session ε) : List ReadEvent → Bool
  | [] => true
  | e :: rest =>
    s.phase = .exited || (s.evaluationEnds e && (s.beginRead.receive e).all fun s' => s'.evaluationsEnd rest)

private theorem isSome_runAtomic {w : Workspace ε} {code : String}
    (h : (Engine.evaluate w.engine code w.context.bindings).isSome) : (w.runAtomic code).isSome := by
  unfold Workspace.runAtomic
  obtain ⟨⟨_ | _, bindings, engine⟩, heval⟩ := Option.isSome_iff_exists.mp h <;> (dsimp only; rw [heval]; rfl)

omit [Engine ε] in
private theorem isSome_finish {s : Session ε} {confirmation : Option String}
    {answer : Option (Outcome Value × Workspace ε)} (h : answer.isSome) : (s.finish confirmation answer).isSome := by
  obtain ⟨answer, rfl⟩ := Option.isSome_iff_exists.mp h
  rfl

/-- An input is routed to its end if the code that it has evaluated comes to one. -/
theorem isSome_dispatch (s : Session ε) {input : Input}
    (h : ∀ code, input.code? = some code → (Engine.evaluate s.workspace.engine code s.context.bindings).isSome) :
    (s.dispatch input).isSome := by
  cases input with
  | declaration k name expr =>
    apply isSome_finish
    cases hname : checkName name with
    | error e =>
      -- nothing is evaluated for a name that is refused
      rw [Workspace.declareVariable_of_refused _ hname]
      rfl
    | ok u =>
      rw [Workspace.declareVariable_eq _ hname, Option.isSome_map]
      exact isSome_runAtomic (h _ (by simp only [Input.code?, hname]))
  | assignment name expr =>
    apply isSome_finish
    cases hname : checkName name with
    | error e =>
      rw [Workspace.assign_of_refused _ hname]
      rfl
    | ok u =>
      rw [Workspace.assign_eq _ hname, Option.isSome_map]
      exact isSome_runAtomic (h _ (by simp only [Input.code?, hname]))
  | expression text =>
    apply isSome_finish
    rw [Workspace.evaluate_eq, Option.isSome_map]
    exact isSome_runAtomic (h _ rfl)
  | _ => rfl

/-- An event is answered if the evaluation of the input that it completes, if any, comes to an end. -/
theorem isSome_receive (s : Session ε) {e : ReadEvent} (h : s.evaluationEnds e = true) : (s.receive e).isSome := by
  cases e with
  -- Only a line that completes an input runs code, and that code ends by the hypothesis.
  | line text =>
    show (s.handleLine text).isSome
    cases hcompleted : completed? s.context.pending (.line text) with
    | none =>
      rw [handleLine_of_uncompleted hcompleted]
      split <;> rfl
    | some input =>
      rw [handleLine_of_completed hcompleted]
      apply isSome_dispatch (s.collected "" (keepLine s.reader.history text))
      intro code hcode
      unfold evaluationEnds at h
      rw [hcompleted, Option.bind_some, hcode] at h
      exact h
  | _ => rfl

/-! ## Section 2: Reads -/

/-- Events read one after the other, each with the session before its read. -/
inductive Reads : Session ε → List (Session ε × ReadEvent) → Session ε → Prop where
  | done {s : Session ε} : Reads s [] s
  | read {s s₁ s' : Session ε} {e : ReadEvent} {reads : List (Session ε × ReadEvent)} : s.phase ≠ .exited →
    s.beginRead.receive e = some s₁ → Reads s₁ reads s' → Reads s ((s, e) :: reads) s'

/-- A session whose evaluations end reads up to the first event with which it ends, and no further. If there is no
such event, the end of the input is read behind all of them. -/
theorem loop_reads (events : List ReadEvent) (s : Session ε) (hgoes : s.phase ≠ .exited)
    (hends : s.evaluationsEnd events = true) :
    ∃ (unread : List ReadEvent) (s' : Session ε) (earlier : List (Session ε × ReadEvent))
      (last : Session ε × ReadEvent), s.loop events = some (unread, s') ∧ Reads s (earlier ++ [last]) s' ∧
      ((earlier ++ [last]).map Prod.snd ++ unread = events ∨
        unread = [] ∧ (earlier ++ [last]).map Prod.snd = events ++ [.endOfInput]) ∧
      isLast last.1.context.pending last.2 = true ∧ ∀ r ∈ earlier, isLast r.1.context.pending r.2 = false := by
  -- on the events, for every session: what is read behind the first event is read by the session behind it
  induction events generalizing s with
  | nil =>
    -- behind the last event the input ends, which is read, too
    have hlast : s.beginRead.receive .endOfInput = some s.beginRead.exit := rfl
    exact ⟨[], s.beginRead.exit, [], (s, .endOfInput), if_neg hgoes, .read hgoes hlast .done, .inr ⟨rfl, rfl⟩, rfl,
      fun r hr => absurd hr List.not_mem_nil⟩
  | cons e rest ih =>
    have hparts : s.evaluationEnds e = true ∧
        (s.beginRead.receive e).all (fun s' => s'.evaluationsEnd rest) = true := by
      simpa only [evaluationsEnd, hgoes, decide_false, Bool.false_or, Bool.and_eq_true] using hends
    -- only the evaluation that the event brings could keep the session from going on
    obtain ⟨hevaluation, hrest⟩ := hparts
    obtain ⟨s₁, hreceive⟩ := Option.isSome_iff_exists.mp (isSome_receive s.beginRead hevaluation)
    have hloop : s.loop (e :: rest) = s₁.loop rest := by
      rw [loop_cons hgoes, hreceive]
      rfl
    have hphase := phase_of_receive hreceive
    rw [pending_beginRead] at hphase
    rw [hreceive] at hrest
    by_cases hexited : s₁.phase = .exited
    · -- nothing behind the event is read
      have hunread : s₁.loop rest = some (rest, s₁) := by cases rest <;> exact if_pos hexited
      exact ⟨rest, s₁, [], (s, e), hloop.trans hunread, .read hgoes hreceive .done, .inl rfl, hphase.mp hexited,
        fun r hr => absurd hr List.not_mem_nil⟩
    · -- the event is one of the earlier ones, and all others come from the session behind it
      obtain ⟨unread, s', earlier, last, hrun, hreads, hevents, hlast, hearlier⟩ := ih s₁ hexited hrest
      refine ⟨unread, s', (s, e) :: earlier, last, hloop.trans hrun, .read hgoes hreceive hreads, ?_, hlast, ?_⟩
      · rcases hevents with hevents | ⟨hunread, hevents⟩
        · exact .inl (congrArg (e :: ·) hevents)
        · exact .inr ⟨hunread, congrArg (e :: ·) hevents⟩
      · intro r hr
        rcases List.mem_cons.mp hr with rfl | hr
        · exact Bool.eq_false_iff.mpr fun h => hexited (hphase.mpr h)
        · exact hearlier r hr

/-! ## Section 3: Prompts and History -/

/-- The line of an event that is kept for the history, if it has one that is not blank. -/
def keptLine? : ReadEvent → Option String
  | .line text => if Text.isBlankString text then none else some text
  | _ => none

private theorem keepLine_eq (history : List String) (text : String) :
    keepLine history text = history ++ (keptLine? (.line text)).toList := by
  cases hblank : Text.isBlankString text <;> simp [keepLine, keptLine?, hblank]

private theorem dispatch_frame {s s' : Session ε} {input : Input} (h : s.dispatch input = some s') :
    s'.reader = s.reader ∧ s'.prompts = s.prompts := by
  -- What is printed goes to the console; the reader and the prompts are left alone.
  have hfinish : ∀ {phase confirmation answer}, (s.enter phase).finish confirmation answer = some s' →
      s'.reader = s.reader ∧ s'.prompts = s.prompts := by
    intro phase confirmation answer hanswer
    cases answer with
    | none => contradiction
    | some answer =>
      obtain rfl : print _ confirmation answer.1 = s' := Option.some.inj hanswer
      rw [print_eq]
      exact ⟨rfl, rfl⟩
  cases input with
  | declaration k name expr => exact hfinish h
  | functionDefinition name source =>
    rw [dispatch_functionDefinition] at h
    exact hfinish h
  | assignment name expr => exact hfinish h
  | expression text => exact hfinish h
  | _ =>
    cases h
    exact ⟨rfl, rfl⟩

/-- Only reading writes to the reader, and nothing changes the two prompts. -/
theorem receive_frame {s s' : Session ε} {e : ReadEvent} (h : s.receive e = some s') :
    s'.reader = { s.reader with history := s.reader.history ++ (keptLine? e).toList } ∧ s'.prompts = s.prompts := by
  cases e with
  | line text =>
    have hline : s.handleLine text = some s' := h
    cases hcompleted : completed? s.context.pending (.line text) with
    | some input =>
      rw [handleLine_of_completed hcompleted, keepLine_eq] at hline
      exact dispatch_frame hline
    | none =>
      rw [handleLine_of_uncompleted hcompleted, keepLine_eq] at hline
      split at hline
      · next hignored =>
        cases hline
        -- A line that is ignored is blank, and blank lines are not kept.
        have hblank : Text.isBlankString text = true := ((Bool.and_eq_true _ _).mp hignored).1
        have hkept : keptLine? (.line text) = none := if_pos hblank
        rw [hkept, Option.toList_none, List.append_nil]
        exact ⟨rfl, rfl⟩
      · cases hline
        exact ⟨rfl, rfl⟩
  | _ =>
    cases h
    exact ⟨congrArg (fun kept => { s.reader with history := kept }) (List.append_nil _).symm, rfl⟩

/-- The prompt of a read: the one for further lines exactly where a block is open. -/
def shownPrompt (prompts : Prompts) (r : Session ε × ReadEvent) : String :=
  if r.1.context.pending = "" then prompts.start else prompts.continuation

/-- Each read shows its prompt and keeps its line, by induction on the reads. -/
theorem Reads.reader {s s' : Session ε} {reads : List (Session ε × ReadEvent)} (h : Reads s reads s') :
    s'.reader.prompts = s.reader.prompts ++ reads.map (shownPrompt s.prompts) ∧
      s'.reader.history = s.reader.history ++ reads.flatMap fun r => (keptLine? r.2).toList := by
  induction h with
  | done => simp
  | @read s s₁ s' e reads _ hreceive _ ih =>
    obtain ⟨hreader, hprompts⟩ := receive_frame hreceive
    obtain ⟨hshown, hkept⟩ := ih
    -- The prompt is chosen by whether something is pending, and that is known before the read.
    have hprompt : s.prompt = shownPrompt s.prompts (s, e) := by
      simp [prompt, shownPrompt, Context.hasPending]
    rw [hshown, hkept, hreader, hprompts]
    constructor
    · show (s.reader.prompts ++ [s.prompt]) ++ reads.map (shownPrompt s.prompts) = _
      rw [hprompt, List.append_assoc]
      rfl
    · rw [List.flatMap_cons, ← List.append_assoc]
      rfl

end RowConsole.Session
