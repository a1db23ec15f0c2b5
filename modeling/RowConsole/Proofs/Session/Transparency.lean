import RowConsole.Proofs.Session.Notices

/-!
# Transparent Commands

A command that does not switch the debug flag only adds to the console. What a session does later depends on its
workspace alone, so such commands can be left out of the events: the session ends as it did with them, and of what it
told its user just their answers are missing.

Main statement: `run_remaining`.
-/

namespace RowConsole.Session

open Script (Runtime Value)

variable {ε : Type} [Engine ε]

/-! ## Section 1: Effects -/

/-- What a step does to a session but for its reader: the workspace and the phase to which it leads, and what it adds to
the console. -/
structure Effect (ε : Type) where
  workspace : Workspace ε
  phase : Phase
  added : List ConsoleEvent

omit [Engine ε] in
/-- A step from one session to another has an effect. -/
structure Effect.Leads (r : Effect ε) (s s' : Session ε) : Prop where
  workspace : s'.workspace = r.workspace
  phase : s'.phase = r.phase
  console : s'.console.events = s.console.events ++ r.added

/-- The effect of a step depends on the workspace of the session alone. There is none where the step has no end. -/
def Acts (w : Workspace ε) (step : Session ε → Option (Session ε)) : Prop :=
  ∃ o : Option (Effect ε), ∀ s : Session ε, s.workspace = w → Option.Rel (fun r s' => r.Leads s s') o (step s)

omit [Engine ε] in
private theorem Acts.of_leads {w : Workspace ε} {step : Session ε → Option (Session ε)} (r : Effect ε)
    (next : Session ε → Session ε) (h : ∀ s, s.workspace = w → step s = some (next s) ∧ r.Leads s (next s)) :
    Acts w step := by
  refine ⟨some r, fun s hs => ?_⟩
  obtain ⟨hstep, hleads⟩ := h s hs
  rw [hstep]
  exact .some hleads

omit [Engine ε] in
/-- A step behind a change that adds nothing to the console. -/
theorem Acts.after {w w' : Workspace ε} {step step' : Session ε → Option (Session ε)} (change : Session ε → Session ε)
    (h : Acts w' step)
    (hchange : ∀ s, s.workspace = w →
      step' s = step (change s) ∧ (change s).workspace = w' ∧ (change s).console = s.console) : Acts w step' := by
  obtain ⟨o, hstep⟩ := h
  refine ⟨o, fun s hs => ?_⟩
  obtain ⟨heq, hworkspace, hconsole⟩ := hchange s hs
  have hleads := hstep (change s) hworkspace
  rw [heq]
  generalize step (change s) = after at hleads
  cases hleads with
  | none => exact .none
  | some hleads => exact .some ⟨hleads.workspace, hleads.phase, hconsole ▸ hleads.console⟩

omit [Engine ε] in
/-- An operation whose outcome is printed leads to its own workspace and adds the notices of the outcome. -/
theorem Acts.finish (w : Workspace ε) (phase : Phase) (confirmation : Option String)
    (answer : Workspace ε → Option (Outcome Value × Workspace ε)) :
    Acts w fun s => (s.enter phase).finish confirmation (answer s.workspace) := by
  refine ⟨(answer w).map fun r =>
    ⟨r.2, .idle, (outcomeNotices confirmation r.1).flatMap (Notice.shown r.2.context.debug)⟩, ?_⟩
  rintro s rfl
  dsimp only
  cases answer s.workspace with
  | none => exact .none
  | some r =>
    -- What is printed depends on the outcome and on the flag, which both belong to the workspace.
    have hprinted : (s.enter phase).finish confirmation (some r) =
        some (print { s.enter phase with workspace := r.2 } confirmation r.1) := rfl
    rw [hprinted, print_eq]
    exact .some ⟨rfl, rfl, rfl⟩

omit [Engine ε] in
/-- The end of a session drops the open block and adds the message at the end. -/
theorem Acts.exit (w : Workspace ε) : Acts w fun s => some s.exit := by
  apply Acts.of_leads ⟨{ w with context := w.context.clearPending }, .exited, [.message .success farewell]⟩ (·.exit)
  rintro s rfl
  exact ⟨rfl, rfl, rfl, rfl⟩

/-! ## Section 2: Commands -/

/-- A command adds to the console, whatever was told before. -/
theorem exists_dispatchCommand (w : Workspace ε) (name args : String) :
    ∃ ctx more, ∀ c : Console, dispatchCommand w c name args = (ctx, ⟨c.events ++ more⟩) := by
  by_cases hdebug : Command.ofName? name = some .debug
  · unfold dispatchCommand
    rw [hdebug]
    exact ⟨_, _, fun _ => rfl⟩
  · obtain ⟨notices, _, hcommand⟩ := dispatchCommand_withDebug w hdebug args
    exact ⟨w.context, _, fun c => hcommand w.context.debug c⟩

/-- A command that does not switch the debug flag leaves the workspace as it is. -/
theorem dispatch_command {name : String} (hdebug : Command.ofName? name ≠ some .debug) (s : Session ε) (args : String) :
    ∃ s' more, s.dispatch (.command name args) = some s' ∧ (⟨s.workspace, .idle, more⟩ : Effect ε).Leads s s' := by
  obtain ⟨notices, _, hcommand⟩ := dispatchCommand_withDebug s.workspace hdebug args
  have hanswer : dispatchCommand s.workspace s.console name args =
      (s.workspace.context, s.console.tell s.context.debug notices) := hcommand s.context.debug s.console
  unfold dispatch
  dsimp only
  rw [hanswer]
  exact ⟨_, notices.flatMap (Notice.shown s.context.debug), rfl, rfl, rfl, rfl⟩

/-! ## Section 3: Events -/

/-- What a complete input does depends on the workspace alone. -/
theorem dispatch_acts (w : Workspace ε) (input : Input) : Acts w (·.dispatch input) := by
  -- The effect of an input is computed from the workspace alone, so sessions with the same one do the same.
  cases input with
  | empty | incomplete =>
    apply Acts.of_leads ⟨w, .idle, []⟩ (·.enter .idle)
    rintro s rfl
    exact ⟨rfl, rfl, rfl, (List.append_nil _).symm⟩
  | exit => exact Acts.exit w
  | command name args =>
    obtain ⟨ctx, more, hcommand⟩ := exists_dispatchCommand w name args
    apply Acts.of_leads ⟨{ w with context := ctx }, .idle, more⟩ fun s =>
      ({ s with console := ⟨s.console.events ++ more⟩ }.mapContext fun _ => ctx).enter .idle
    rintro s rfl
    refine ⟨?_, rfl, rfl, rfl⟩
    unfold dispatch
    dsimp only
    rw [hcommand]
  | declaration k name expr =>
    exact Acts.finish w .declaring (some ("Variable set: " ++ name)) (·.declareVariable name expr)
  | functionDefinition name source =>
    exact Acts.finish w .defining (some ("Function defined: " ++ name)) fun w =>
      some ((w.declareFunction name source).1.map fun _ => .null, (w.declareFunction name source).2)
  | assignment name expr =>
    exact Acts.finish w .assigning (some ("Variable set: " ++ name)) (·.assign name expr)
  | expression text => exact Acts.finish w .evaluating none (·.evaluate text)

/-- The effect of an event depends on the workspace alone. -/
theorem receive_acts (w : Workspace ε) (e : ReadEvent) : Acts w (·.receive e) := by
  cases e with
  | line text =>
    show Acts w (·.handleLine text)
    cases hcompleted : completed? w.context.pending (.line text) with
    | some input =>
      -- the input is routed by the session that has dropped the open block
      apply Acts.after (fun s => s.collected "" (keepLine s.reader.history text))
        (dispatch_acts { w with context := { w.context with pending := "" } } input)
      rintro s rfl
      exact ⟨handleLine_of_completed hcompleted, rfl, rfl⟩
    | none =>
      by_cases hignored : (Text.isBlankString text && !w.context.hasPending) = true
      · apply Acts.of_leads ⟨w, .idle, []⟩ (·.enter .idle)
        rintro s rfl
        exact ⟨(handleLine_of_uncompleted hcompleted).trans (if_pos hignored), rfl, rfl, (List.append_nil _).symm⟩
      · -- the line is added to the open block, and the reader waits for the next one
        let pending := joinLine w.context.pending text
        apply Acts.of_leads ⟨{ w with context := { w.context with pending := pending } }, .classifying, []⟩ fun s =>
          s.collected pending (keepLine s.reader.history text)
        rintro s rfl
        exact ⟨(handleLine_of_uncompleted hcompleted).trans (if_neg hignored), rfl, rfl, (List.append_nil _).symm⟩
  | interrupted =>
    apply Acts.of_leads ⟨{ w with context := w.context.clearPending }, .idle, [.message .error "Interrupted"]⟩ fun s =>
      ((s.mapContext Context.clearPending).mapConsole (·.error "Interrupted")).enter .idle
    rintro s rfl
    exact ⟨rfl, rfl, rfl, rfl⟩
  | endOfInput => exact Acts.exit w
  | failed message =>
    apply Acts.of_leads ⟨{ w with context := w.context.clearPending }, .exited,
      [.message .error (Fault.io message).message, .message .success farewell]⟩ fun s =>
        (s.mapConsole (·.error (Fault.io message).message)).exit
    rintro s rfl
    exact ⟨rfl, rfl, rfl, by simp [exit, mapConsole, mapContext, enter, Console.success, Console.error, Console.send]⟩

/-- Whether an event, read behind the lines of an open block, is a command outside of a block that does not switch the
debug flag. -/
def isTransparent (pending : String) (e : ReadEvent) : Bool :=
  pending == "" &&
    match completed? pending e with
    | some (.command name _) => Command.ofName? name != some .debug
    | _ => false

/-- A transparent command adds to the console and does nothing else. -/
theorem receive_transparent {s : Session ε} {e : ReadEvent} (h : isTransparent s.context.pending e = true) :
    ∃ s' more, s.receive e = some s' ∧ (⟨s.workspace, .idle, more⟩ : Effect ε).Leads s s' := by
  obtain ⟨hpending, hcommand⟩ := (Bool.and_eq_true _ _).mp h
  have hempty : s.context.pending = "" := by simpa using hpending
  split at hcommand
  · next name args hcompleted =>
    cases e with
    | line text =>
      have hline : s.receive (.line text) = (s.collected "" (keepLine s.reader.history text)).dispatch (.command name args) :=
        handleLine_of_completed hcompleted
      -- there is no open block that the command drops
      have hsame : (s.collected "" (keepLine s.reader.history text)).workspace = s.workspace := by
        show { s.workspace with context := { s.workspace.context with pending := "" } } = s.workspace
        rw [← hempty]
        rfl
      obtain ⟨s', more, hdispatch, hleads⟩ :=
        dispatch_command (by simpa using hcommand) (s.collected "" (keepLine s.reader.history text)) args
      exact ⟨s', more, hline.trans hdispatch, hleads.workspace.trans hsame, hleads.phase, hleads.console⟩
    | _ => contradiction
  · contradiction

/-! ## Section 4: Runs -/

/-- What is left of a list without the elements that are marked. -/
def remaining {α : Type} (marked : List (α × Bool)) : List α :=
  (marked.filter fun m => !m.2).map Prod.fst

@[simp] theorem remaining_nil {α : Type} : remaining ([] : List (α × Bool)) = [] := rfl

@[simp] theorem remaining_cons_true {α : Type} (a : α) (marked : List (α × Bool)) :
    remaining ((a, true) :: marked) = remaining marked := rfl

@[simp] theorem remaining_cons_false {α : Type} (a : α) (marked : List (α × Bool)) :
    remaining ((a, false) :: marked) = a :: remaining marked := rfl

/-- Whether all marked events are transparent commands where they are read. -/
def areTransparent (pending : String) : List (ReadEvent × Bool) → Bool
  | [] => true
  | (e, deleted) :: rest => (!deleted || isTransparent pending e) && areTransparent (pendingAfter pending e) rest

/-- What reading an event adds to the console. -/
def added (s : Session ε) (e : ReadEvent) : List ConsoleEvent :=
  (s.beginRead.receive e).elim [] fun s' => s'.console.events.drop s.console.events.length

/-- What each event adds to the console, up to the one with which the session ends, under the mark of the event. Behind
the last event the input ends. -/
def answers (s : Session ε) : List (ReadEvent × Bool) → List (List ConsoleEvent × Bool)
  | [] => if s.phase = .exited then [] else [(s.added .endOfInput, false)]
  | (e, deleted) :: rest =>
    if s.phase = .exited then []
    else (s.added e, deleted) :: (s.beginRead.receive e).elim [] fun s' => s'.answers rest

omit [Engine ε] in
/-- Getting ready to read adds nothing to the console. -/
theorem Effect.Leads.of_beginRead {s s' : Session ε} {r : Effect ε} (h : r.Leads s.beginRead s') : r.Leads s s' :=
  ⟨h.workspace, h.phase, h.console⟩

private theorem added_eq {s s' : Session ε} {e : ReadEvent} {r : Effect ε} (hreceive : s.beginRead.receive e = some s')
    (hleads : r.Leads s s') : s.added e = r.added := by
  rw [added, hreceive, Option.elim_some, hleads.console, List.drop_left]

/-- Two runs that end alike, and behind what was told before each of them has added the answers that it has to give, the
second one without those that are marked. -/
structure SameButAnswers (start start' : List ConsoleEvent) (answers : List (List ConsoleEvent × Bool))
    (r r' : List ReadEvent × Session ε) : Prop where
  workspace : r'.2.workspace = r.2.workspace
  phase : r'.2.phase = r.2.phase
  console : r.2.console.events = start ++ (answers.map Prod.fst).flatten
  remaining : r'.2.console.events = start' ++ (remaining answers).flatten

namespace SameButAnswers

variable {s t s₁ t₁ : Session ε} {e : Effect ε} {answers : List (List ConsoleEvent × Bool)}
  {r r' : List ReadEvent × Session ε}

omit [Engine ε] in
/-- Where nothing is left to read, nothing is told. -/
theorem done (hworkspace : t.workspace = s.workspace) (hphase : t.phase = s.phase) (unread unread' : List ReadEvent) :
    SameButAnswers s.console.events t.console.events [] (unread, s) (unread', t) :=
  ⟨hworkspace, hphase, (List.append_nil _).symm, (List.append_nil _).symm⟩

omit [Engine ε] in
/-- What both sessions tell first comes first. -/
theorem kept (hs : e.Leads s s₁) (ht : e.Leads t t₁)
    (h : SameButAnswers s₁.console.events t₁.console.events answers r r') :
    SameButAnswers s.console.events t.console.events ((e.added, false) :: answers) r r' where
  workspace := h.workspace
  phase := h.phase
  console := by rw [h.console, hs.console, List.map_cons, List.flatten_cons, List.append_assoc]
  remaining := by rw [h.remaining, ht.console, remaining_cons_false, List.flatten_cons, List.append_assoc]

omit [Engine ε] in
/-- What the first session tells alone is marked. -/
theorem deleted (hs : e.Leads s s₁) {start : List ConsoleEvent}
    (h : SameButAnswers s₁.console.events start answers r r') :
    SameButAnswers s.console.events start ((e.added, true) :: answers) r r' where
  workspace := h.workspace
  phase := h.phase
  console := by rw [h.console, hs.console, List.map_cons, List.flatten_cons, List.append_assoc]
  remaining := by rw [h.remaining, remaining_cons_true]

end SameButAnswers

private theorem rel_imp {α β : Type} {P Q : α → β → Prop} {o : Option α} {o' : Option β} (hrel : Option.Rel P o o')
    (h : ∀ a b, P a b → Q a b) : Option.Rel Q o o' := by
  cases hrel with
  | none => exact .none
  | some hab => exact .some (h _ _ hab)

/-- A session that has ended reads nothing. -/
theorem loop_of_exited {s : Session ε} (h : s.phase = .exited) (events : List ReadEvent) :
    s.loop events = some (events, s) := by
  cases events <;> exact if_pos h

/-- Sessions with the same workspace read an event with the same effect, or neither comes to an end of it. -/
theorem receive_cases {s t : Session ε} (hworkspace : t.workspace = s.workspace) (e : ReadEvent) :
    (s.beginRead.receive e = none ∧ t.beginRead.receive e = none) ∨
      ∃ r s₁ t₁, s.beginRead.receive e = some s₁ ∧ t.beginRead.receive e = some t₁ ∧
        Effect.Leads r s s₁ ∧ Effect.Leads r t t₁ := by
  -- One effect serves both sessions, since they share the workspace.
  obtain ⟨o, hleads⟩ := receive_acts s.workspace e
  have hs := hleads s.beginRead rfl
  have ht := hleads t.beginRead hworkspace
  dsimp only at hs ht
  generalize s.beginRead.receive e = after at hs
  generalize t.beginRead.receive e = after' at ht
  cases hs with
  | none =>
    cases ht
    exact .inl ⟨rfl, rfl⟩
  | some hs =>
    cases ht with
    | some ht => exact .inr ⟨_, _, _, rfl, rfl, hs.of_beginRead, ht.of_beginRead⟩

/-- Sessions with the same workspace end alike if one of them does not read the marked commands. -/
theorem loop_remaining (marked : List (ReadEvent × Bool)) (s t : Session ε) (hworkspace : t.workspace = s.workspace)
    (hphase : t.phase = .exited ↔ s.phase = .exited) (h : areTransparent s.context.pending marked = true) :
    Option.Rel (SameButAnswers s.console.events t.console.events (s.answers marked))
      (s.loop (marked.map Prod.fst)) (t.loop (remaining marked)) := by
  -- on the events: behind a marked one the second session still stands where it was, and both have the same workspace
  induction marked generalizing s t with
  | nil =>
    by_cases hexited : s.phase = .exited
    · rw [answers, if_pos hexited, loop_of_exited hexited, loop_of_exited (hphase.mpr hexited)]
      exact .some (.done hworkspace ((hphase.mpr hexited).trans hexited.symm) _ _)
    · -- behind the last event both sessions read the end of the input
      have hend : ∀ u : Session ε, u.phase ≠ .exited →
          u.loop [] = (u.beginRead.receive .endOfInput).map fun u' => ([], u') := fun u hu => if_neg hu
      obtain ⟨r, s₁, t₁, hs, ht, hsleads, htleads⟩ :=
        (receive_cases hworkspace .endOfInput).resolve_left fun hnone => Option.some_ne_none _ hnone.1
      rw [answers, if_neg hexited, added_eq hs hsleads, List.map_nil, remaining_nil, hend s hexited,
        hend t (mt hphase.mp hexited), hs, ht]
      have hworkspace₁ : t₁.workspace = s₁.workspace := htleads.workspace.trans hsleads.workspace.symm
      have hphase₁ : t₁.phase = s₁.phase := htleads.phase.trans hsleads.phase.symm
      exact .some (.kept hsleads htleads (.done hworkspace₁ hphase₁ [] []))
  | cons m rest ih =>
    obtain ⟨e, deleted⟩ := m
    rw [areTransparent, Bool.and_eq_true] at h
    obtain ⟨htransparent, hrest⟩ := h
    rw [List.map_cons]
    by_cases hexited : s.phase = .exited
    · rw [answers, if_pos hexited, loop_of_exited hexited, loop_of_exited (hphase.mpr hexited)]
      exact .some (.done hworkspace ((hphase.mpr hexited).trans hexited.symm) _ _)
    · rw [answers, if_neg hexited, loop_cons hexited]
      cases deleted with
      | true =>
        -- the second session does not move
        obtain ⟨s₁, more, hs, hleads⟩ := receive_transparent (s := s.beginRead) htransparent
        replace hleads := hleads.of_beginRead
        have hbehind : areTransparent s₁.context.pending rest = true := by
          rw [pending_of_receive hs, pending_beginRead]
          exact hrest
        have hphase₁ : t.phase = .exited ↔ s₁.phase = .exited := by simp [hphase, hexited, hleads.phase]
        rw [added_eq hs hleads, hs, Option.elim_some, Option.bind_some, remaining_cons_true]
        exact rel_imp (ih s₁ t (hworkspace.trans hleads.workspace.symm) hphase₁ hbehind)
          fun r r' hsame => .deleted hleads hsame
      | false =>
        rw [remaining_cons_false, loop_cons (mt hphase.mp hexited)]
        rcases receive_cases hworkspace e with ⟨hs, ht⟩ | ⟨r, s₁, t₁, hs, ht, hsleads, htleads⟩
        · rw [hs, ht]
          exact .none
        · have hbehind : areTransparent s₁.context.pending rest = true := by
            rw [pending_of_receive hs, pending_beginRead]
            exact hrest
          have hphase₁ : t₁.phase = .exited ↔ s₁.phase = .exited := by rw [hsleads.phase, htleads.phase]
          rw [added_eq hs hsleads, hs, ht, Option.elim_some, Option.bind_some, Option.bind_some]
          exact rel_imp (ih s₁ t₁ (htleads.workspace.trans hsleads.workspace.symm) hphase₁ hbehind)
            fun r r' hsame => .kept hsleads htleads hsame

/-- Commands that do not switch the debug flag and are read outside of an open block may be left out of a run. The
session then ends with the same bindings, functions, debug flag and open block, in the same phase, and with an engine
that has written the same output, or it does not end in either case. Its console shows what each of the other events
has added to it. -/
theorem run_remaining (engine : ε) (prompts : Prompts) (debug : Bool) (preparations : List Preparation)
    (marked : List (ReadEvent × Bool)) (h : areTransparent "" marked = true) :
    let s := setUp engine prompts debug preparations
    Option.Rel
      (fun r r' => r'.2.workspace = r.2.workspace ∧ r'.2.phase = r.2.phase ∧
        r.2.console.events = s.greet.console.events ++ ((s.greet.answers marked).map Prod.fst).flatten ∧
        r'.2.console.events = s.greet.console.events ++ (remaining (s.greet.answers marked)).flatten)
      (s.run (marked.map Prod.fst)) (s.run (remaining marked)) := by
  intro s
  have hpending : s.greet.context.pending = "" := (fresh_setUp engine prompts debug preparations).pending
  rw [← hpending] at h
  have hends := loop_remaining marked s.greet s.greet rfl Iff.rfl h
  exact rel_imp hends fun r r' hsame => ⟨hsame.workspace, hsame.phase, hsame.console, hsame.remaining⟩

/-- A listing, an unknown command, one without its argument and one without a data source are left out, and the command
that switches the debug flag and a line of an open block are not. -/
theorem run_remaining_commands :
    let s : Session Runtime := setUp { fuel := 30 } {} false [.value "n" (.int 5)]
    let marked : List (ReadEvent × Bool) :=
      [(.line ":vars", true), (.line ":debug", false), (.line ":unknown", true), (.line "def f() \x7b", false),
        (.line ":vars", false), (.line "\x7d", false), (.line ":inspect", true), (.line "n + m", false),
        (.line ":tables", true), (.line "n", false)]
    areTransparent "" marked = true ∧
      (s.greet.answers marked).map (fun a => (a.1.length, a.2)) =
        [(2, true), (1, false), (2, true), (0, false), (0, false), (2, false), (1, true), (2, false), (1, true),
          (1, false), (1, false)] ∧
      ∃ r r', s.run (marked.map Prod.fst) = some r ∧ s.run (remaining marked) = some r' ∧
        r'.2.workspace = r.2.workspace ∧ r'.2.phase = r.2.phase ∧
        r.2.console.events = s.greet.console.events ++ ((s.greet.answers marked).map Prod.fst).flatten ∧
        r'.2.console.events = s.greet.console.events ++ (remaining (s.greet.answers marked)).flatten := by
  intro s marked
  -- The lines that are left out are commands that only look; within a definition they are kept.
  have htransparent : areTransparent "" marked = true := by decide +kernel
  have hended : (s.run (marked.map Prod.fst)).isSome = true := by decide +kernel
  have hsame := run_remaining ({ fuel := 30 } : Runtime) {} false [.value "n" (.int 5)] marked htransparent
  refine ⟨htransparent, by decide +kernel, ?_⟩
  change Option.Rel _ (s.run (marked.map Prod.fst)) (s.run (remaining marked)) at hsame
  obtain ⟨r, hr⟩ := Option.isSome_iff_exists.mp hended
  rw [hr] at hsame
  generalize s.run (remaining marked) = without at hsame
  cases hsame with
  | some h => exact ⟨r, _, hr, rfl, h⟩

end RowConsole.Session
