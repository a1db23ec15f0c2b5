import RowConsole.Proofs.Session.Faults
import RowConsole.Proofs.Session.Reads
import RowConsole.Proofs.Session.Reports

/-!
# Whole Runs

A run reads events up to the first one that ends the session, whatever faults come up before it. The message at the end
comes once and last, and no block is left open.

Main statement: `run_contract`.
-/

namespace RowConsole.Session

open Script (Runtime)

variable {ε : Type} [Engine ε]

/-! ## Section 1: The Console -/

/-- The entry that the message at the end of a session makes on the console. -/
def farewellEntry : Style × String :=
  (.success, farewell)

/-- The lines of a message have its style, and they are lines of its text. -/
private theorem mem_lines_message {style : Style} {text : String} {entry : Style × String}
    (h : entry ∈ (ConsoleEvent.message style text).lines) : entry.1 = style ∧ (entry.2 = "" ∨ entry.2 ∈ Text.lines text) := by
  dsimp only [ConsoleEvent.lines] at h
  split at h
  · rw [List.mem_singleton.mp h]
    exact ⟨rfl, .inl rfl⟩
  · obtain ⟨line, hline, rfl⟩ := List.mem_map.mp h
    exact ⟨rfl, .inr hline⟩

/-- A message of another style is not the one at the end. -/
private theorem farewellEntry_not_mem_message {style : Style} (hstyle : style ≠ .success) (text : String) :
    farewellEntry ∉ (ConsoleEvent.message style text).lines :=
  fun hmem => hstyle (mem_lines_message hmem).1.symm

/-- Nothing that an ordinary notice shows is the message at the end. -/
private theorem Notice.Ordinary.not_mem {n : Notice} (h : n.Ordinary) (debug : Bool) :
    farewellEntry ∉ (n.shown debug).flatMap ConsoleEvent.lines := by
  intro hmem
  obtain ⟨event, hevent, hline⟩ := List.mem_flatMap.mp hmem
  cases n with
  | said text =>
    obtain rfl := List.mem_singleton.mp hevent
    exact farewellEntry_not_mem_message Style.noConfusion text hline
  | cleared =>
    obtain rfl := List.mem_singleton.mp hevent
    contradiction
  | interrupted =>
    obtain rfl := List.mem_singleton.mp hevent
    exact farewellEntry_not_mem_message Style.noConfusion _ hline
  | failed f =>
    rcases List.mem_cons.mp hevent with rfl | hevent
    · exact farewellEntry_not_mem_message Style.noConfusion _ hline
    · split at hevent
      · obtain ⟨diagnostic, _, rfl⟩ := Option.map_eq_some_iff.mp (Option.mem_toList.mp hevent)
        exact farewellEntry_not_mem_message Style.noConfusion _ hline
      · contradiction
  | confirmed text =>
    -- confirmations have the style of the message, so it is the text that differs
    obtain rfl := List.mem_singleton.mp hevent
    rcases (mem_lines_message hline).2 with hempty | hmem
    · exact absurd hempty (by decide)
    · exact h text rfl hmem

/-- Notices add their lines behind those on the console. -/
private theorem lines_tell_eq (c : Console) (debug : Bool) (notices : List Notice) :
    (c.tell debug notices).lines = c.lines ++ notices.flatMap fun n => (n.shown debug).flatMap ConsoleEvent.lines := by
  rw [Console.lines, Console.tell, List.flatMap_append, List.flatMap_assoc]
  rfl

/-- The lines on a console behind ordinary notices. -/
theorem farewellEntry_not_mem_tell {c : Console} {notices : List Notice} (hc : farewellEntry ∉ c.lines) (debug : Bool)
    (h : ∀ n ∈ notices, n.Ordinary) : farewellEntry ∉ (c.tell debug notices).lines := by
  intro hmem
  rw [lines_tell_eq] at hmem
  rcases List.mem_append.mp hmem with hmem | hmem
  · exact hc hmem
  · obtain ⟨n, hn, hline⟩ := List.mem_flatMap.mp hmem
    exact (h n hn).not_mem debug hline

/-- An event with which the session does not end leaves the message at the end out. -/
theorem console_of_receive {s s' : Session ε} {e : ReadEvent} (hlast : isLast s.context.pending e = false)
    (h : s.receive e = some s') (hs : farewellEntry ∉ s.console.lines) : farewellEntry ∉ s'.console.lines := by
  by_cases hdebug : ∃ name args, completed? s.context.pending e = some (.command name args) ∧
      Command.ofName? name = some .debug
  · -- the command that switches the flag says so in one line
    obtain ⟨name, args, hcompleted, hcommand⟩ := hdebug
    cases e with
    | line text =>
      have hline : s.handleLine text = some s' := h
      rw [handleLine_of_completed hcompleted] at hline
      dsimp only [dispatch, dispatchCommand] at hline
      rw [hcommand] at hline
      cases hline
      have hordinary : ∀ said, ∀ n ∈ [Notice.said said], n.Ordinary := by
        intro said n hn text heq
        rw [List.mem_singleton.mp hn] at heq
        contradiction
      exact farewellEntry_not_mem_tell hs false (hordinary _)
    | _ => contradiction
  · obtain ⟨o, hordinary, hreceive⟩ := receive_tells s hlast fun name args hcompleted hcommand =>
      hdebug ⟨name, args, hcompleted, hcommand⟩
    -- the session is one that has its own flag and has given no more notices
    have hself := hreceive s.context.debug []
    rw [telling_self] at hself
    obtain ⟨r, hr, rfl⟩ := Option.map_eq_some_iff.mp (hself.symm.trans h)
    obtain ⟨hconsole, hnotices⟩ := hordinary r hr
    have htold : (r.1.telling s.context.debug ([] ++ r.2)).console = s.console.tell s.context.debug r.2 :=
      congrArg (fun c => c.tell s.context.debug r.2) hconsole
    rw [htold]
    exact farewellEntry_not_mem_tell hs _ hnotices

/-- The event with which the session ends puts the message at the end of the console. -/
theorem console_of_last {s s' : Session ε} {e : ReadEvent} (hlast : isLast s.context.pending e = true)
    (h : s.receive e = some s') (hs : farewellEntry ∉ s.console.lines) :
    ∃ before, s'.console.lines = before ++ [farewellEntry] ∧ farewellEntry ∉ before := by
  obtain ⟨s₁, more, hconsole, hordinary, hreceive⟩ := receive_last s hlast
  have hself := hreceive s.context.debug []
  rw [telling_self, h] at hself
  -- what is told before the message are ordinary notices, such as that of a failure to read
  have htold : s'.console = (s.console.tell s.context.debug more).tell s.context.debug [.confirmed farewell] := by
    rw [Option.some.inj hself, Console.tell_tell, ← hconsole]
    rfl
  have hentry : [Notice.confirmed farewell].flatMap
      (fun n => (n.shown s.context.debug).flatMap ConsoleEvent.lines) = [farewellEntry] := by
    cases s.context.debug <;> decide
  have hlines := congrArg Console.lines htold
  rw [lines_tell_eq, hentry] at hlines
  exact ⟨_, hlines, farewellEntry_not_mem_tell hs _ hordinary⟩

/-- The message at the end comes once and last, by induction on the reads before the last one. -/
theorem Reads.console {s s' : Session ε} {earlier : List (Session ε × ReadEvent)} {last : Session ε × ReadEvent}
    (h : Reads s (earlier ++ [last]) s') (hearlier : ∀ r ∈ earlier, isLast r.1.context.pending r.2 = false)
    (hlast : isLast last.1.context.pending last.2 = true) (hs : farewellEntry ∉ s.console.lines) :
    ∃ before, s'.console.lines = before ++ [farewellEntry] ∧ farewellEntry ∉ before := by
  -- The farewell is absent before each read that is not the last, and the last one adds it.
  induction earlier generalizing s with
  | nil =>
    cases h with
    | read _ hreceive hdone =>
      cases hdone
      rw [← pending_beginRead] at hlast
      exact console_of_last hlast hreceive hs
  | cons r earlier ih =>
    cases h with
    | read _ hreceive hrest =>
      obtain ⟨hr, hothers⟩ := List.forall_mem_cons.mp hearlier
      rw [← pending_beginRead] at hr
      exact ih hrest hothers (console_of_receive hr hreceive hs)

/-! ## Section 2: The Last Event -/

/-- No block is open, or one that needs more lines. -/
def Continues (pending : String) : Prop :=
  pending = "" ∨ classify pending = .incomplete

/-- A block stays open only while it needs more lines. -/
private theorem continues_pendingAfter {pending : String} (h : Continues pending) (e : ReadEvent) :
    Continues (pendingAfter pending e) := by
  cases e with
  | line text =>
    unfold pendingAfter
    dsimp only
    split
    · exact h
    · split
      · next hincomplete => exact .inr hincomplete
      · exact .inl rfl
  | _ => exact .inl rfl

/-- The last event leaves no block open. -/
private theorem pendingAfter_of_isLast {pending : String} {e : ReadEvent} (h : isLast pending e = true) :
    pendingAfter pending e = "" := by
  cases e with
  | line text => exact pendingAfter_of_completed (of_decide_eq_true h)
  | _ => rfl

/-- What ends a session: an exit request typed outside of a block, the end of the input or a failure to read. -/
def EndsSession (r : Session ε × ReadEvent) : Prop :=
  match r.2 with
  | .line text => r.1.context.pending = "" ∧ isExitRequest (Text.trim text) = true
  | .interrupted => False
  | .endOfInput | .failed _ => True

/-- A line is the last one just if it is an exit request outside of a block. -/
private theorem isLast_line_iff {pending : String} (h : Continues pending) (text : String) :
    isLast pending (.line text) = true ↔ pending = "" ∧ isExitRequest (Text.trim text) = true := by
  have hlast : isLast pending (.line text) = true ↔ completed? pending (.line text) = some .exit :=
    decide_eq_true_iff
  rw [hlast, completed?_line_eq_some_iff]
  rcases h with rfl | hopen
  · -- a blank line is ignored, and is no exit request
    show _ ∧ classify text = .exit ∧ _ ↔ _
    rw [classify_eq_exit_iff]
    constructor
    · exact fun ⟨_, hexit, _⟩ => ⟨rfl, hexit⟩
    · rintro ⟨_, hexit⟩
      refine ⟨?_, hexit, Input.noConfusion⟩
      cases hblank : Text.isBlankString text with
      | false => rfl
      | true =>
        rw [Text.trim_of_isBlankString hblank] at hexit
        exact absurd hexit (by decide)
  · -- with a line of an open block, the text is no exit request, and neither is the line by itself one
    have hne := ne_empty_of_incomplete hopen
    have hjoined : joinLine pending text = pending ++ "\n" ++ text := if_pos (by simpa using hne)
    rw [hjoined]
    exact iff_of_false (fun hexit => (not_early_of_incomplete hopen text).2.1 hexit.2.1) fun hexit => hne hexit.1

omit [Engine ε] in
/-- Whether an event is the last one is decided by the open block and the event alone. -/
private theorem isLast_iff_endsSession {r : Session ε × ReadEvent} (h : Continues r.1.context.pending) :
    isLast r.1.context.pending r.2 = true ↔ EndsSession r := by
  obtain ⟨s, e⟩ := r
  cases e with
  | line text => exact isLast_line_iff h text
  | interrupted => exact iff_of_false Bool.false_ne_true id
  | endOfInput => exact iff_of_true rfl trivial
  | failed message => exact iff_of_true rfl trivial

/-- Wherever a session reads, no block is open or one that needs more lines. -/
theorem Reads.continues {s s' : Session ε} {reads : List (Session ε × ReadEvent)} (h : Reads s reads s')
    (hs : Continues s.context.pending) : ∀ r ∈ reads, Continues r.1.context.pending := by
  -- On the reads: what one of them leaves open is what the next one starts with.
  induction h with
  | done => exact fun r hr => absurd hr List.not_mem_nil
  | @read s s₁ s' e reads _ hreceive _ ih =>
    have hbehind := continues_pendingAfter hs e
    rw [← pending_beginRead, ← pending_of_receive hreceive] at hbehind
    intro r hr
    rcases List.mem_cons.mp hr with rfl | hr
    · exact hs
    · exact ih hbehind r hr

/-- Reads end in what the session makes of the last one. -/
theorem Reads.last {s s' : Session ε} {earlier : List (Session ε × ReadEvent)} {last : Session ε × ReadEvent}
    (h : Reads s (earlier ++ [last]) s') : last.1.beginRead.receive last.2 = some s' := by
  induction earlier generalizing s with
  | nil =>
    cases h with
    | read _ hreceive hdone =>
      cases hdone
      exact hreceive
  | cons r earlier ih =>
    cases h with
    | read _ _ hrest => exact ih hrest

/-! ## Section 3: Runs -/

/-- What a whole run is, from a session that starts to read: what it reads up to its end, what it leaves unread, and
the session behind it. -/
structure RunSpec (s : Session ε) (events unread : List ReadEvent) (earlier : List (Session ε × ReadEvent))
    (last : Session ε × ReadEvent) (s' : Session ε) : Prop where
  reads : Reads s (earlier ++ [last]) s'
  /-- The events are read in order, and behind all of them the end of the input. -/
  events : (earlier ++ [last]).map Prod.snd ++ unread = events ∨
    unread = [] ∧ (earlier ++ [last]).map Prod.snd = events ++ [.endOfInput]
  /-- No event is read behind the first one that ends the session. -/
  goes : ∀ r ∈ earlier, ¬ EndsSession r
  ends : EndsSession last
  /-- No fault gives the run up. -/
  faults : ∀ r ∈ earlier ++ [last], ∀ f, readFault? r = some f → CarriesOn r f
  phase : s'.phase = .exited
  pending : s'.context.pending = ""
  /-- Each read shows one prompt. -/
  prompts : s'.reader.prompts = (earlier ++ [last]).map (shownPrompt s.prompts)
  /-- Of all lines that are read, those that are not blank are kept. -/
  history : s'.reader.history = (earlier ++ [last]).flatMap fun r => (keptLine? r.2).toList
  /-- The message at the end is the last line on the console, and is on none of the others. -/
  farewell : ∃ before, s'.console.lines = before ++ [farewellEntry] ∧ farewellEntry ∉ before

/-- The reads of a loop, its last event, its prompts, its history and its console make a whole run. -/
private theorem loop_runSpec {s : Session ε} {events : List ReadEvent} (hgoes : s.phase ≠ .exited)
    (hpending : Continues s.context.pending) (hreader : s.reader = {}) (hconsole : farewellEntry ∉ s.console.lines)
    (hends : s.evaluationsEnd events = true) :
    ∃ unread earlier last s', s.loop events = some (unread, s') ∧ RunSpec s events unread earlier last s' := by
  obtain ⟨unread, s', earlier, last, hloop, hreads, hevents, hlast, hearlier⟩ := loop_reads events s hgoes hends
  have hcontinues := hreads.continues hpending
  have hreceive := hreads.last
  have hlast' : isLast last.1.beginRead.context.pending last.2 = true := by rw [pending_beginRead]; exact hlast
  obtain ⟨hprompts, hhistory⟩ := hreads.reader
  rw [hreader] at hprompts hhistory
  refine ⟨unread, earlier, last, s', hloop, ?_⟩
  constructor
  case reads => exact hreads
  case events => exact hevents
  case goes =>
    -- where the session reads a line, its text so far decides what the line can be
    intro r hr hends
    have hlast := (isLast_iff_endsSession (hcontinues r (List.mem_append_left _ hr))).mpr hends
    exact absurd hlast (Bool.eq_false_iff.mp (hearlier r hr))
  case ends => exact (isLast_iff_endsSession (hcontinues last (by simp))).mp hlast
  case faults => exact fun r _ f hfault => carriesOn_of_readFault? hfault
  case phase => exact (phase_of_receive hreceive).mpr hlast'
  case pending => exact (pending_of_receive hreceive).trans (pendingAfter_of_isLast hlast')
  case prompts => exact hprompts
  case history => exact hhistory
  case farewell => exact hreads.console hearlier hlast hconsole

/-- Preparations keep the prompts. -/
private theorem prompts_setUp (engine : ε) (prompts : Prompts) (debug : Bool) (preparations : List Preparation) :
    (setUp engine prompts debug preparations).prompts = prompts := by
  have hfold : ∀ (ps : List Preparation) (s : Session ε), (ps.foldl prepare s).prompts = s.prompts := by
    intro ps
    induction ps with
    | nil => exact fun s => rfl
    | cons p ps ih =>
      intro s
      rw [List.foldl_cons, ih]
      cases p <;> rfl
  exact hfold preparations _

/-- A run from a session that was set up, over events with which each evaluation comes to its end, is as specified, and
its prompts are those with which the session was set up. -/
theorem run_contract (engine : ε) (prompts : Prompts) (debug : Bool) (preparations : List Preparation)
    (events : List ReadEvent)
    (hends : (setUp engine prompts debug preparations).greet.evaluationsEnd events = true) :
    (setUp engine prompts debug preparations).greet.prompts = prompts ∧
      ∃ unread earlier last s', (setUp engine prompts debug preparations).run events = some (unread, s') ∧
        RunSpec (setUp engine prompts debug preparations).greet events unread earlier last s' := by
  have hfresh := fresh_setUp engine prompts debug preparations
  have hprompts := prompts_setUp engine prompts debug preparations
  -- of the session only that it is fresh is needed, and not how it was set up
  generalize setUp engine prompts debug preparations = s at hfresh hprompts hends ⊢
  have hgoes : s.greet.phase ≠ .exited := by
    show s.phase ≠ .exited
    rw [hfresh.idle]
    exact Phase.noConfusion
  have hconsole : farewellEntry ∉ s.greet.console.lines := by
    show farewellEntry ∉ ((s.console.success _).success _).lines
    rw [hfresh.console]
    decide
  exact ⟨hprompts, loop_runSpec hgoes (.inl hfresh.pending) hfresh.reader hconsole hends⟩

/-- Failures, an open block that is interrupted and commands do not end this run. The exit request does, and the line
behind it is not read. -/
theorem run_contract_mixed :
    (setUp ({ fuel := 30 } : Runtime) {} false [.value "n" (.int 5)]).greet.evaluationsEnd
        [.line "m = n / 0", .line "def f(x) \x7b", .line "exit", .interrupted, .line ":tables", .line "  ",
          .line "repl = 1", .line " Quit ", .line "n"] = true ∧
      ∃ unread earlier last s', (setUp ({ fuel := 30 } : Runtime) {} false [.value "n" (.int 5)]).run
        [.line "m = n / 0", .line "def f(x) \x7b", .line "exit", .interrupted, .line ":tables", .line "  ",
          .line "repl = 1", .line " Quit ", .line "n"] = some (unread, s') ∧
        RunSpec (setUp ({ fuel := 30 } : Runtime) {} false [.value "n" (.int 5)]).greet
          [.line "m = n / 0", .line "def f(x) \x7b", .line "exit", .interrupted, .line ":tables", .line "  ",
            .line "repl = 1", .line " Quit ", .line "n"] unread earlier last s' ∧
        unread = [.line "n"] := by
  have hends : (setUp ({ fuel := 30 } : Runtime) {} false [.value "n" (.int 5)]).greet.evaluationsEnd
      [.line "m = n / 0", .line "def f(x) \x7b", .line "exit", .interrupted, .line ":tables", .line "  ",
        .line "repl = 1", .line " Quit ", .line "n"] = true := by decide +kernel
  obtain ⟨_, unread, earlier, last, s', hrun, hspec⟩ := run_contract _ _ _ _ _ hends
  -- The session ends at ` Quit `, so the line behind it is not read.
  have hunread : ((setUp ({ fuel := 30 } : Runtime) {} false [.value "n" (.int 5)]).run
      [.line "m = n / 0", .line "def f(x) \x7b", .line "exit", .interrupted, .line ":tables", .line "  ",
        .line "repl = 1", .line " Quit ", .line "n"]).map Prod.fst = some [.line "n"] := by decide +kernel
  rw [hrun] at hunread
  exact ⟨hends, unread, earlier, last, s', hrun, hspec, Option.some.inj hunread⟩

end RowConsole.Session
