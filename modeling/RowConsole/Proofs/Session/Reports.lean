import RowConsole.Proofs.Session.Notices

/-!
# What a Session Tells Its User

Each step of a session is the same with the debug flag on and off: it leaves the same session but for the flag, and
gives the same notices. So do whole runs in which the flag is not switched.

Main statement: `run_sameButReports`.
-/

namespace RowConsole.Session

open Script (Runtime Value)

variable {ε : Type} [Engine ε]

/-! ## Section 1: Steps -/

/-- Whatever the flag and the notices so far, a step leaves the same session but for the flag and gives the same
notices, all of them with a property. -/
def Tells (P : Notice → Prop) (s : Session ε) (step : Session ε → Option (Session ε)) : Prop :=
  ∃ o : Option (Session ε × List Notice), (∀ r, o = some r → r.1.console = s.console ∧ ∀ n ∈ r.2, P n) ∧
    ∀ debug notices, step (s.telling debug notices) = o.map fun r => r.1.telling debug (notices ++ r.2)

omit [Engine ε] in
/-- A step that always gives the same notices. -/
theorem Tells.some {P : Notice → Prop} {step : Session ε → Option (Session ε)} (s s' : Session ε)
    (more : List Notice) (hconsole : s'.console = s.console) (hP : ∀ n ∈ more, P n)
    (h : ∀ debug notices, step (s.telling debug notices) = .some (s'.telling debug (notices ++ more))) :
    s.Tells P step :=
  ⟨.some (s', more), fun _ heq => Option.some.inj heq ▸ ⟨hconsole, hP⟩, h⟩

omit [Engine ε] in
/-- A step that gives no notices. -/
theorem Tells.silent {P : Notice → Prop} {step : Session ε → Option (Session ε)} (s s' : Session ε)
    (hconsole : s'.console = s.console)
    (h : ∀ debug notices, step (s.telling debug notices) = .some (s'.telling debug notices)) : s.Tells P step := by
  apply Tells.some s s' [] hconsole
  · exact fun n hn => absurd hn List.not_mem_nil
  · intro debug notices
    rw [List.append_nil]
    exact h debug notices

omit [Engine ε] in
/-- An operation whose outcome is printed gives the notices of the outcome. -/
theorem Tells.finish {P : Notice → Prop} {s : Session ε} (phase : Phase) (confirmation : Option String)
    (op : Workspace ε → Option (Outcome Value × Workspace ε))
    (hop : ∀ w debug, op (w.withDebug debug) = (op w).map fun r => (r.1, r.2.withDebug debug))
    (hP : ∀ r, op s.workspace = .some r → ∀ n ∈ outcomeNotices confirmation r.1, P n) :
    s.Tells P fun s => (s.enter phase).finish confirmation (op s.workspace) := by
  refine ⟨(op s.workspace).map fun r => ({ s with workspace := r.2, phase := .idle }, outcomeNotices confirmation r.1),
    ?_, fun debug notices => ?_⟩
  · intro r hr
    obtain ⟨answer, hanswer, rfl⟩ := Option.map_eq_some_iff.mp hr
    exact ⟨rfl, hP answer hanswer⟩
  · -- With the flag or without it the operation has the same outcome, and the notices are printed behind the others.
    show ((s.telling debug notices).enter phase).finish confirmation (op (s.workspace.withDebug debug)) = _
    rw [hop]
    cases op s.workspace with
    | none => rfl
    | some answer =>
      show Option.some (print _ confirmation answer.1) = _
      rw [print_eq]
      show Option.some { s with
        workspace := answer.2.withDebug debug
        console := (s.console.tell debug notices).tell debug (outcomeNotices confirmation answer.1)
        phase := .idle } = _
      rw [Console.tell_tell]
      rfl

/-- A notice that does not look like the message at the end of a session. -/
def Notice.Ordinary (n : Notice) : Prop :=
  ∀ text, n = .confirmed text → farewell ∉ Text.lines text

private theorem Notice.Unconfirmed.ordinary {n : Notice} (h : n.Unconfirmed) : n.Ordinary :=
  fun text heq => absurd heq (h text)

/-- The notices of an outcome are ordinary if its confirmation is, where there is one to be given. -/
theorem ordinary_outcomeNotices {confirmation : Option String} {outcome : Outcome Value}
    (h : ∀ text v, confirmation = some text → outcome = .ok v → farewell ∉ Text.lines text) :
    ∀ n ∈ outcomeNotices confirmation outcome, n.Ordinary := by
  intro n hn text heq
  subst heq
  cases outcome with
  | error f => simp [outcomeNotices] at hn
  | ok v =>
    rcases List.mem_append.mp hn with hn | hn
    · cases confirmation with
      | none => contradiction
      | some confirmation =>
        obtain rfl : text = confirmation := by simpa using hn
        exact h text v rfl rfl
    · split at hn <;> simp at hn

/-- The confirmations of bound names are single lines: a name that may be bound is an identifier. -/
theorem farewell_not_mem_lines {name : String} (hname : checkName name = .ok ()) :
    farewell ∉ Text.lines ("Variable set: " ++ name) ∧ farewell ∉ Text.lines ("Function defined: " ++ name) := by
  -- A name that may be bound holds no line break, so the confirmation is one line.
  have hline : '\n' ∉ name.toList := by
    apply Text.not_mem_of_isIdentifier (checkName_eq_ok_iff.mp hname).1
    rw [Text.isIdentifierContinue_ascii (by decide)]
    decide
  have hother : ∀ title : String, '\n' ∉ title.toList → title.toList.head? ≠ some 'E' → title ≠ "" →
      farewell ∉ Text.lines (title ++ name) := by
    intro title htitle hhead hne hmem
    rw [Text.lines_of_not_mem (by simp [htitle, hline]) (by simp [hne])] at hmem
    have hstart := congrArg (fun s : String => s.toList.head?) (List.mem_singleton.mp hmem)
    cases htext : title.toList with
    | nil => exact hne (by simpa using htext)
    | cons c cs =>
      rw [htext] at hhead
      simp only [String.toList_append, htext, List.cons_append, List.head?_cons] at hstart hhead
      exact hhead (hstart.symm.trans (by decide))
  exact ⟨hother _ (by decide) (by decide) (by decide), hother _ (by decide) (by decide) (by decide)⟩

namespace Workspace

variable {w w' : Workspace ε} {name text : String} {v : Value}

private theorem checkName_of_declareVariable (h : w.declareVariable name text = some (.ok v, w')) :
    checkName name = .ok () := by
  cases hname : checkName name with
  | ok u => rfl
  | error e =>
    rw [declareVariable_of_refused _ hname] at h
    cases h

private theorem checkName_of_assign (h : w.assign name text = some (.ok v, w')) : checkName name = .ok () := by
  cases hname : checkName name with
  | ok u => rfl
  | error e =>
    rw [assign_of_refused _ hname] at h
    cases h

private theorem checkName_of_declareFunction (h : (w.declareFunction name text).1 = .ok ()) :
    checkName name = .ok () := by
  cases hname : checkName name with
  | ok u => rfl
  | error e =>
    unfold declareFunction at h
    rw [hname] at h
    cases h

end Workspace

/-- An input that neither ends the session nor switches the flag gives ordinary notices. -/
theorem dispatch_tells (s : Session ε) {input : Input} (hexit : input ≠ .exit)
    (hdebug : ∀ name args, input = .command name args → Command.ofName? name ≠ some .debug) :
    s.Tells Notice.Ordinary (·.dispatch input) := by
  have hidle : s.Tells Notice.Ordinary fun s => some (s.enter .idle) :=
    Tells.silent s (s.enter .idle) rfl fun _ _ => rfl
  -- a confirmation is given only where the name has passed the check
  have hconfirmed : ∀ {title : String} {r : Outcome Value × Workspace ε},
      (∀ v, r.1 = .ok v → farewell ∉ Text.lines title) →
      ∀ n ∈ outcomeNotices (some title) r.1, n.Ordinary := by
    intro title r h
    apply ordinary_outcomeNotices
    intro text v htext hv
    obtain rfl : title = text := Option.some.inj htext
    exact h v hv
  cases input with
  | empty => exact hidle
  | incomplete => exact hidle
  | exit => contradiction
  | command name args =>
    obtain ⟨more, hunconfirmed, hcommand⟩ := dispatchCommand_withDebug s.workspace (hdebug name args rfl) args
    apply Tells.some s (s.enter .idle) more rfl fun n hn => (hunconfirmed n hn).ordinary
    intro debug notices
    have hanswer := hcommand debug (s.console.tell debug notices)
    rw [Console.tell_tell] at hanswer
    simp only [dispatch, telling, hanswer]
    rfl
  | declaration k name expr =>
    apply Tells.finish .declaring (some ("Variable set: " ++ name)) (·.declareVariable name expr)
    · exact fun w debug => w.declareVariable_withDebug debug name expr
    · rintro ⟨outcome, w'⟩ hr
      apply hconfirmed
      rintro v rfl
      exact (farewell_not_mem_lines (Workspace.checkName_of_declareVariable hr)).1
  | assignment name expr =>
    apply Tells.finish .assigning (some ("Variable set: " ++ name)) (·.assign name expr)
    · exact fun w debug => w.assign_withDebug debug name expr
    · rintro ⟨outcome, w'⟩ hr
      apply hconfirmed
      rintro v rfl
      exact (farewell_not_mem_lines (Workspace.checkName_of_assign hr)).1
  | functionDefinition name source =>
    apply Tells.finish .defining (some ("Function defined: " ++ name)) fun w =>
      some ((w.declareFunction name source).1.map fun _ => .null, (w.declareFunction name source).2)
    · intro w debug
      rw [w.declareFunction_withDebug debug name source]
      rfl
    · intro r hr
      apply hconfirmed
      intro v hv
      -- the value is null, which is there if the function has been declared
      cases hr
      have hok : (s.workspace.declareFunction name source).1 = .ok () := by
        cases hresult : (s.workspace.declareFunction name source).1 with
        | ok u => rfl
        | error f =>
          rw [hresult] at hv
          contradiction
      exact (farewell_not_mem_lines (Workspace.checkName_of_declareFunction hok)).2
  | expression text =>
    apply Tells.finish .evaluating none (·.evaluate text)
    · exact fun w debug => w.evaluate_withDebug debug text
    · exact fun r _ => ordinary_outcomeNotices fun text v h => by contradiction

/-! ## Section 2: Events -/

omit [Engine ε] in
/-- The end of a session gives its last notice. -/
theorem exit_telling (s : Session ε) (debug : Bool) (notices : List Notice) :
    (s.telling debug notices).exit =
      ((s.mapContext Context.clearPending).enter .exited).telling debug (notices ++ [.confirmed farewell]) :=
  mapConsole_telling ((s.mapContext Context.clearPending).enter .exited) debug notices [.confirmed farewell]

/-- A line gives the notices of the input that it completes, if it completes one. -/
theorem handleLine_tells {P : Notice → Prop} (s : Session ε) (text : String)
    (h : ∀ input, completed? s.context.pending (.line text) = some input →
      (s.collected "" (keepLine s.reader.history text)).Tells P (·.dispatch input)) :
    s.Tells P (·.handleLine text) := by
  cases hinput : completed? s.context.pending (.line text) with
  | some input =>
    have hline : ∀ debug notices, (s.telling debug notices).handleLine text =
        ((s.collected "" (keepLine s.reader.history text)).telling debug notices).dispatch input :=
      fun debug notices => handleLine_of_completed hinput
    obtain ⟨o, hP, ho⟩ := h input hinput
    exact ⟨o, hP, fun debug notices => (hline debug notices).trans (ho debug notices)⟩
  | none =>
    have hline : ∀ debug notices, (s.telling debug notices).handleLine text =
        if Text.isBlankString text && !s.context.hasPending then some ((s.enter .idle).telling debug notices)
        else some ((s.collected (joinLine s.context.pending text) (keepLine s.reader.history text)).telling
          debug notices) :=
      fun debug notices => handleLine_of_uncompleted hinput
    -- nothing is told about a line that is ignored or collected
    by_cases hignored : (Text.isBlankString text && !s.context.hasPending) = true
    · exact Tells.silent s (s.enter .idle) rfl fun debug notices => (hline debug notices).trans (if_pos hignored)
    · exact Tells.silent s (s.collected (joinLine s.context.pending text) (keepLine s.reader.history text)) rfl
        fun debug notices => (hline debug notices).trans (if_neg hignored)

/-- An event with which the session does not end gives ordinary notices. -/
theorem receive_tells (s : Session ε) {e : ReadEvent} (hlast : isLast s.context.pending e = false)
    (hdebug : ∀ name args, completed? s.context.pending e = some (.command name args) →
      Command.ofName? name ≠ some .debug) : s.Tells Notice.Ordinary (·.receive e) := by
  cases e with
  | line text =>
    show s.Tells Notice.Ordinary (·.handleLine text)
    apply handleLine_tells
    intro input hinput
    -- The input does not end the session, so it is not the request to leave.
    have hexit : input ≠ .exit := by
      rintro rfl
      simp [isLast, hinput] at hlast
    exact dispatch_tells _ hexit fun name args heq => hdebug name args (heq ▸ hinput)
  | interrupted =>
    apply Tells.some s ((s.mapContext Context.clearPending).enter .idle) [.interrupted] rfl
    · intro n hn text
      rw [List.mem_singleton.mp hn]
      exact Notice.noConfusion
    · intro debug notices
      have htold := mapConsole_telling ((s.mapContext Context.clearPending).enter .idle) debug notices [.interrupted]
      exact congrArg some htold
  | endOfInput => contradiction
  | failed message => contradiction

/-- An event with which the session ends gives some ordinary notices and then the last one. -/
theorem receive_last (s : Session ε) {e : ReadEvent} (hlast : isLast s.context.pending e = true) :
    ∃ (s' : Session ε) (more : List Notice), s'.console = s.console ∧ (∀ n ∈ more, n.Ordinary) ∧
      ∀ debug notices, (s.telling debug notices).receive e =
        some (s'.telling debug (notices ++ (more ++ [.confirmed farewell]))) := by
  cases e with
  | line text =>
    have hcompleted : completed? s.context.pending (.line text) = some .exit := by simpa [isLast] using hlast
    refine ⟨((s.collected "" (keepLine s.reader.history text)).mapContext Context.clearPending).enter .exited, [],
      rfl, by simp, fun debug notices => ?_⟩
    have hline : (s.telling debug notices).handleLine text =
        ((s.collected "" (keepLine s.reader.history text)).telling debug notices).dispatch .exit :=
      handleLine_of_completed hcompleted
    exact hline.trans (congrArg some (exit_telling _ debug notices))
  | interrupted => contradiction
  | endOfInput =>
    exact ⟨(s.mapContext Context.clearPending).enter .exited, [], rfl, by simp,
      fun debug notices => congrArg some (exit_telling s debug notices)⟩
  | failed message =>
    refine ⟨(s.mapContext Context.clearPending).enter .exited, [.failed (.io message)], rfl, ?_, fun debug notices => ?_⟩
    · intro n hn text
      rw [List.mem_singleton.mp hn]
      exact Notice.noConfusion
    · have hfailed : (s.telling debug notices).mapConsole (·.error (Fault.io message).message) =
          s.telling debug (notices ++ [.failed (.io message)]) := by
        rw [← mapConsole_telling]
        -- a failure of input has no diagnostic
        cases debug <;> rfl
      show some ((s.telling debug notices).mapConsole (·.error (Fault.io message).message)).exit = _
      rw [hfailed, exit_telling, List.append_assoc]

/-! ## Section 3: Runs -/

/-- No input is the command that switches the debug flag. -/
def NoSwitch (read : List Input) : Prop :=
  ∀ name args, .command name args ∈ read → Command.ofName? name ≠ some .debug

/-- Whether the session ends with an event or not, its step is the same with the flag on and off. -/
theorem receive_uniform (s : Session ε) {e : ReadEvent} (hdebug : NoSwitch (completed? s.context.pending e).toList) :
    s.Tells (fun _ => True) (·.receive e) := by
  cases hlast : isLast s.context.pending e with
  | true =>
    obtain ⟨s', more, hconsole, _, hreceive⟩ := receive_last s hlast
    exact Tells.some s s' _ hconsole (fun _ _ => trivial) hreceive
  | false =>
    obtain ⟨o, hordinary, hreceive⟩ := receive_tells s hlast fun name args hcompleted =>
      hdebug name args (Option.mem_toList.mpr hcompleted)
    exact ⟨o, fun r hr => ⟨(hordinary r hr).1, fun _ _ => trivial⟩, hreceive⟩

/-- Whatever the flag and the notices so far, the loop leaves the same events unread and the same session but for the
flag, and gives the same notices. -/
def TellsAll (s : Session ε) (events : List ReadEvent) : Prop :=
  ∃ o : Option (List ReadEvent × Session ε × List Notice), (∀ r, o = some r → r.2.1.console = s.console) ∧
    ∀ debug notices, (s.telling debug notices).loop events =
      o.map fun r => (r.1, r.2.1.telling debug (notices ++ r.2.2))

/-- A session that has ended reads nothing. -/
theorem TellsAll.exited {s : Session ε} (hexited : s.phase = .exited) (events : List ReadEvent) :
    s.TellsAll events := by
  refine ⟨some (events, s, []), fun r hr => Option.some.inj hr ▸ rfl, fun debug notices => ?_⟩
  rw [Option.map_some, List.append_nil]
  cases events <;> exact if_pos hexited

/-- Behind the last event the input ends. -/
theorem TellsAll.nil {s : Session ε} (hgoes : s.phase ≠ .exited) : s.TellsAll [] := by
  refine ⟨some ([], (s.beginRead.mapContext Context.clearPending).enter .exited, [.confirmed farewell]),
    fun r hr => Option.some.inj hr ▸ rfl, fun debug notices => ?_⟩
  have hend : (s.telling debug notices).loop [] = some ([], (s.beginRead.telling debug notices).exit) := if_neg hgoes
  rw [hend, exit_telling]
  rfl

/-- An event is received, and the loop goes on behind it. -/
theorem TellsAll.cons {s : Session ε} (hgoes : s.phase ≠ .exited) {e : ReadEvent} {rest : List ReadEvent}
    (hreceive : s.beginRead.Tells (fun _ => True) (·.receive e))
    (hrest : ∀ (s₁ : Session ε) debug more,
      (s.beginRead.telling debug []).receive e = some (s₁.telling debug more) → s₁.TellsAll rest) :
    s.TellsAll (e :: rest) := by
  obtain ⟨o, hconsole, htold⟩ := hreceive
  have hstep : ∀ debug notices, (s.telling debug notices).loop (e :: rest) =
      ((s.beginRead.telling debug notices).receive e).bind fun s => s.loop rest := by
    intro debug notices
    have hbegin : (s.telling debug notices).beginRead = s.beginRead.telling debug notices := rfl
    rw [loop_cons (by rw [phase_telling]; exact hgoes), hbegin]
  dsimp only at htold
  cases o with
  | none =>
    -- an evaluation that has no end has none with the flag off either
    refine ⟨none, fun r hr => by contradiction, fun debug notices => ?_⟩
    rw [hstep, htold]
    rfl
  | some r =>
    obtain ⟨s₁, more⟩ := r
    obtain ⟨o, hbehind, hloop⟩ := hrest s₁ false more (htold false [])
    refine ⟨o.map fun r => (r.1, r.2.1, more ++ r.2.2), ?_, fun debug notices => ?_⟩
    · intro r hr
      obtain ⟨r', hr', rfl⟩ := Option.map_eq_some_iff.mp hr
      exact (hbehind r' hr').trans (hconsole _ rfl).1
    · -- the notices of the event come before those of the events behind it
      rw [hstep, htold]
      show (s₁.telling debug (notices ++ more)).loop rest = _
      rw [hloop, Option.map_map]
      simp only [Function.comp_def, List.append_assoc]

/-- The loop is the same with the flag on and off, by induction on the events. -/
theorem loop_tellsAll (events : List ReadEvent) (s : Session ε)
    (hdebug : s.phase ≠ .exited → NoSwitch (inputs s.context.pending events)) : s.TellsAll events := by
  -- on the events: the session behind an event has the rest of them to read, with the open block behind the event
  induction events generalizing s with
  | nil =>
    by_cases hexited : s.phase = .exited
    · exact .exited hexited _
    · exact .nil hexited
  | cons e rest ih =>
    by_cases hexited : s.phase = .exited
    · exact .exited hexited _
    · have hread := hdebug hexited
      apply TellsAll.cons hexited
      · exact receive_uniform _ fun name args hmem => hread name args (List.mem_append_left _ hmem)
      · intro s₁ debug more hbehind
        -- the flag has no part in the open block and the phase behind the event
        have hpending := pending_of_receive hbehind
        have hphase := phase_of_receive hbehind
        rw [pending_telling, pending_telling, pending_beginRead] at hpending
        rw [phase_telling, pending_telling, pending_beginRead] at hphase
        apply ih
        intro hgoes name args hmem
        have hlast : isLast s.context.pending e = false := by simpa [hphase] using hgoes
        have hread' : .command name args ∈ inputs s.context.pending (e :: rest) := by
          rw [hpending] at hmem
          simp only [inputs, hlast]
          exact List.mem_append_right _ hmem
        exact hread name args hread'

/-- Preparations are the same with the flag on and off. -/
theorem prepare_telling (s : Session ε) (debug : Bool) (p : Preparation) :
    (s.telling debug []).prepare p = (s.prepare p).telling debug [] := by
  cases p with
  | value name v =>
    simp only [prepare, setVariable, telling]
    rw [Workspace.setVariable_withDebug]
  | script name body =>
    simp only [prepare, registerScript, telling, Workspace.registerScript]
    rw [Workspace.declareFunction_withDebug]

private theorem setUp_eq_telling (engine : ε) (prompts : Prompts) (debug : Bool) (preparations : List Preparation) :
    setUp engine prompts debug preparations = (setUp engine prompts false preparations).telling debug [] := by
  -- preparations take the flag along, one after the other
  have hfold : ∀ (ps : List Preparation) (s : Session ε),
      ps.foldl prepare (s.telling debug []) = (ps.foldl prepare s).telling debug [] := by
    intro ps
    induction ps with
    | nil => exact fun s => rfl
    | cons p ps ih =>
      intro s
      rw [List.foldl_cons, prepare_telling, ih]
      rfl
  exact hfold preparations _

/-- Two ended runs that differ in nothing but the debug flag and what is shown of faults: in everything else they
leave the same session, and on the console of the second one only the diagnostics of faults are missing. -/
structure SameButReports (r r' : List ReadEvent × Session ε) : Prop where
  unread : r'.1 = r.1
  bindings : r'.2.context.bindings = r.2.context.bindings
  functions : r'.2.context.functions = r.2.context.functions
  pending : r'.2.context.pending = r.2.context.pending
  /-- The engine has all that scripts have written. -/
  engine : r'.2.workspace.engine = r.2.workspace.engine
  /-- The prompts shown, the candidates handed over and the history. -/
  reader : r'.2.reader = r.2.reader
  phase : r'.2.phase = r.2.phase
  console : ∃ notices : List Notice, r.2.console.events = notices.flatMap (Notice.shown true) ∧
    r'.2.console.events = notices.flatMap (Notice.shown false)

/-- What the user is told before anything is read. -/
def greeting : List Notice :=
  [.confirmed "DB REPL started. Type 'exit' to quit.", .confirmed "Type ':help' for available commands."]

omit [Engine ε] in
private theorem greet_telling (s : Session ε) (debug : Bool) :
    (s.telling debug []).greet = s.telling debug greeting := by
  show ((s.telling debug []).mapConsole (·.tell debug [.confirmed _])).mapConsole (·.tell debug [.confirmed _]) = _
  rw [mapConsole_telling, mapConsole_telling]
  rfl

/-- A run over events with which the debug flag is not switched is the same with the flag on and off, but for the
diagnostics of faults on the console. -/
theorem run_sameButReports (engine : ε) (prompts : Prompts) (preparations : List Preparation)
    (events : List ReadEvent) (hdebug : NoSwitch (inputs "" events)) :
    Option.Rel SameButReports ((setUp engine prompts true preparations).run events)
      ((setUp engine prompts false preparations).run events) := by
  have hfresh := fresh_setUp engine prompts false preparations
  have hpending : NoSwitch (inputs (setUp engine prompts false preparations).context.pending events) := by
    rw [hfresh.pending]
    exact hdebug
  obtain ⟨o, hconsole, hloop⟩ := loop_tellsAll events _ fun _ => hpending
  have hrun : ∀ debug, (setUp engine prompts debug preparations).run events =
      o.map fun r => (r.1, r.2.1.telling debug (greeting ++ r.2.2)) := by
    intro debug
    rw [run, setUp_eq_telling, greet_telling, hloop]
  rw [hrun, hrun]
  cases o with
  | none => exact .none
  | some r =>
    -- a fresh session has told nothing before, so the notices are all there is on the console
    have hempty : r.2.1.console = Console.empty := (hconsole r rfl).trans hfresh.console
    refine .some ⟨rfl, rfl, rfl, rfl, rfl, rfl, rfl, greeting ++ r.2.2, ?_, ?_⟩
    · exact congrArg (fun c => (c.tell true (greeting ++ r.2.2)).events) hempty
    · exact congrArg (fun c => (c.tell false (greeting ++ r.2.2)).events) hempty

/-- Two inputs fail, one of them a block in which the command that switches the flag is no command. -/
theorem run_sameButReports_failures :
    NoSwitch (inputs "" [.line "n = 1 / 0", .line "def f() \x7b", .line ":debug", .line "\x7d", .line ":vars"]) ∧
      Option.Rel SameButReports
        ((setUp ({ fuel := 30 } : Runtime) {} true []).run
          [.line "n = 1 / 0", .line "def f() \x7b", .line ":debug", .line "\x7d", .line ":vars"])
        ((setUp { fuel := 30 } {} false []).run
          [.line "n = 1 / 0", .line "def f() \x7b", .line ":debug", .line "\x7d", .line ":vars"]) ∧
      ((setUp ({ fuel := 30 } : Runtime) {} true []).run
        [.line "n = 1 / 0", .line "def f() \x7b", .line ":debug", .line "\x7d", .line ":vars"]).map
          (fun r => r.2.console.events.length) = some 8 ∧
      ((setUp ({ fuel := 30 } : Runtime) {} false []).run
        [.line "n = 1 / 0", .line "def f() \x7b", .line ":debug", .line "\x7d", .line ":vars"]).map
          (fun r => r.2.console.events.length) = some 6 := by
  -- The line `:debug` is part of a definition here, so no input is the switch.
  have hinputs : inputs "" [.line "n = 1 / 0", .line "def f() \x7b", .line ":debug", .line "\x7d", .line ":vars"] =
      [.assignment "n" "1 / 0", .functionDefinition "f" "def f() \x7b\n:debug\n\x7d", .command "vars" ""] := by
    decide +kernel
  have hnone : NoSwitch (inputs "" [.line "n = 1 / 0", .line "def f() \x7b", .line ":debug", .line "\x7d",
      .line ":vars"]) := by
    rw [hinputs]
    intro name args hmem
    obtain ⟨rfl, rfl⟩ : name = "vars" ∧ args = "" := by simpa using hmem
    decide
  exact ⟨hnone, run_sameButReports _ _ _ _ hnone, by decide +kernel, by decide +kernel⟩

end RowConsole.Session
