import RowConsole.Proofs.Session.BindingStore
import RowConsole.Proofs.Session.Events

/-!
# Notices

Everything that a session sends to its console is a notice, and the debug flag decides no more than whether the
notice of a fault is shown with its diagnostic. No operation of the workspace looks at the flag, and of the commands
only the one that switches it.

Main statement: `dispatchCommand_withDebug`.
-/

namespace RowConsole.Text

/-- The same for what has been read of a line and what is left of it. -/
private theorem linesFrom_of_not_mem {line cs : List Char} (h : '\n' ∉ cs) (hne : line.reverse ++ cs ≠ []) :
    linesFrom line cs = [line.reverse ++ cs] := by
  induction cs generalizing line with
  | nil =>
    have hline : line ≠ [] := by simpa using hne
    simp [linesFrom, hline]
  | cons c rest ih =>
    obtain ⟨hc, hrest⟩ := not_or.mp (List.mem_cons.not.mp h)
    have hnewline : (c == '\n') = false := by simpa using fun heq => hc heq.symm
    show (if (c == '\n') = true then _ else linesFrom (c :: line) rest) = _
    rw [hnewline, if_neg Bool.false_ne_true, ih hrest (by simp)]
    simp

/-- A text without a line feed is one line. -/
theorem lines_of_not_mem {s : String} (h : '\n' ∉ s.toList) (hne : s ≠ "") : lines s = [s] := by
  unfold lines
  rw [linesFrom_of_not_mem h (by simpa using hne)]
  simp

/-- An identifier has no character that can neither start nor continue one. -/
theorem not_mem_of_isIdentifier {name : String} {c : Char} (h : isIdentifier name = true)
    (hc : (c == '_' || isIdentifierContinue c) = false) : c ∉ name.toList := by
  rw [Bool.or_eq_false_iff] at hc
  intro hmem
  unfold isIdentifier at h
  -- the empty text is no identifier, so the first character is there
  cases htext : name.toList with
  | nil =>
    rw [htext] at hmem
    contradiction
  | cons first rest =>
    rw [htext] at h hmem
    obtain ⟨hfirst, hrest⟩ := (Bool.and_eq_true _ _).mp h
    -- The first character may start an identifier, and what may start one may continue one.
    rcases List.mem_cons.mp hmem with rfl | hmem
    · rcases (Bool.or_eq_true _ _).mp hfirst with hunderscore | hstart
      · exact absurd hunderscore (ne_true_of_eq_false hc.1)
      · exact absurd (isIdentifierContinue_of_start hstart) (ne_true_of_eq_false hc.2)
    · exact absurd (List.all_eq_true.mp hrest c hmem) (ne_true_of_eq_false hc.2)

/-- The characters of an identifier continue identifiers, also the first one. -/
theorem isIdentifierContinue_of_mem {name : String} {c : Char} (h : isIdentifier name = true) (hc : c ∈ name.toList) :
    isIdentifierContinue c = true := by
  by_contra hnot
  -- the underscore may start an identifier for a reason of its own, but it continues one, too
  have hunderscore : c ≠ '_' := by
    rintro rfl
    rw [isIdentifierContinue_ascii (by decide)] at hnot
    exact hnot (by decide)
  exact not_mem_of_isIdentifier h (by simp [hunderscore, hnot]) hc

end RowConsole.Text

namespace RowConsole.Session

open Script (ScriptResult Value)

/-! ## Section 1: Notices -/

/-- Something that a session tells its user. -/
inductive Notice where
  | said (text : String)
  | confirmed (text : String)
  | cleared
  | interrupted
  | failed (f : Fault)

/-- How a notice is shown: the diagnostic of a fault only in debug mode. -/
def Notice.shown (debug : Bool) : Notice → List ConsoleEvent
  | .said text => [.message .plain text]
  | .confirmed text => [.message .success text]
  | .cleared => [.clear]
  | .interrupted => [.message .error "Interrupted"]
  | .failed f =>
    .message .error f.message :: if debug then (f.diagnostic?.map (.message .error)).toList else []

namespace Console

/-- A console on which notices were shown. -/
def tell (c : Console) (debug : Bool) (notices : List Notice) : Console :=
  ⟨c.events ++ notices.flatMap (Notice.shown debug)⟩

@[simp] theorem tell_nil (c : Console) (debug : Bool) : c.tell debug [] = c := by
  simp [tell]

@[simp] theorem tell_tell (c : Console) (debug : Bool) (notices more : List Notice) :
    (c.tell debug notices).tell debug more = c.tell debug (notices ++ more) := by
  simp [tell]

/-- A line on the console is a notice of something said. -/
theorem line_eq_tell (c : Console) (debug : Bool) (text : String) : c.line text = c.tell debug [.said text] := rfl

/-- A report is a notice of a failure, with its diagnostic if the flag is set. -/
theorem report_eq_tell (c : Console) (debug : Bool) (f : Fault) : c.report f debug = c.tell debug [.failed f] := by
  unfold report tell
  cases debug with
  | false => rfl
  | true => cases hdiagnostic : f.diagnostic? <;> simp [hdiagnostic, error, send, Notice.shown]

/-- Lines in a row are said one by one. -/
private theorem eachLine_eq_tell (c : Console) (debug : Bool) (texts : List String) :
    c.eachLine texts = c.tell debug (texts.map .said) := by
  have hevents : (c.eachLine texts).events = (c.tell debug (texts.map .said)).events := by
    rw [events_eachLine, tell, List.flatMap_map]
    congr 1
    induction texts with
    | nil => rfl
    | cons text rest ih => exact congrArg (_ :: ·) ih
  exact congrArg Console.mk hevents

end Console

/-! ## Section 2: The Debug Flag -/

variable {ε : Type}

/-- A workspace with its debug flag set. -/
def Workspace.withDebug (w : Workspace ε) (debug : Bool) : Workspace ε :=
  { w with context := { w.context with debug := debug } }

/-- A session with its debug flag set that has given some more notices. -/
def telling (s : Session ε) (debug : Bool) (notices : List Notice) : Session ε :=
  { s with workspace := s.workspace.withDebug debug, console := s.console.tell debug notices }

theorem telling_self (s : Session ε) : s.telling s.context.debug [] = s := by
  unfold telling
  rw [Console.tell_nil]
  rfl

/-- More notices come behind those that were given. -/
theorem mapConsole_telling (s : Session ε) (debug : Bool) (notices more : List Notice) :
    (s.telling debug notices).mapConsole (·.tell debug more) = s.telling debug (notices ++ more) := by
  show ({ s with
    workspace := s.workspace.withDebug debug
    console := (s.console.tell debug notices).tell debug more } : Session ε) = _
  rw [Console.tell_tell]
  rfl

@[simp] theorem pending_telling (s : Session ε) (debug : Bool) (notices : List Notice) :
    (s.telling debug notices).context.pending = s.context.pending := rfl

@[simp] theorem phase_telling (s : Session ε) (debug : Bool) (notices : List Notice) :
    (s.telling debug notices).phase = s.phase := rfl

variable [Engine ε]

namespace Workspace

variable (w : Workspace ε) (debug : Bool)

/-- A run reads the engine and the bindings, and not the flag. -/
private theorem runAtomic_withDebug (code : String) :
    (w.withDebug debug).runAtomic code = (w.runAtomic code).map fun r => (r.1, r.2.withDebug debug) := by
  unfold runAtomic
  dsimp only [withDebug]
  cases Engine.evaluate w.engine code w.context.bindings with
  | none => rfl
  | some answer =>
    obtain ⟨_ | _, bindings, engine⟩ := answer <;> rfl

/-- What is made of the outcome of a run ignores the flag if it depends on no more than the outcome and the
bindings. -/
theorem map_withDebug {α : Type} (code : String) {g : ScriptResult Value × Workspace ε → α}
    (hg : ∀ r, g (r.1, r.2.withDebug debug) = g r) :
    ((w.withDebug debug).runAtomic code).map (fun r => (g r, r.2)) =
      ((w.runAtomic code).map fun r => (g r, r.2)).map fun r => (r.1, r.2.withDebug debug) := by
  -- both sides make something of one run, and it is compared where that run is known
  rw [runAtomic_withDebug, Option.map_map, Option.map_map]
  congr 1
  funext r
  exact congrArg (·, _) (hg r)

/-- The operations of the workspace are runs of which some value is made. -/
theorem evaluate_withDebug (code : String) :
    (w.withDebug debug).evaluate code = (w.evaluate code).map fun r => (r.1, r.2.withDebug debug) := by
  rw [evaluate_eq, evaluate_eq]
  exact map_withDebug w debug code fun _ => rfl

theorem declareVariable_withDebug (name expr : String) :
    (w.withDebug debug).declareVariable name expr =
      (w.declareVariable name expr).map fun r => (r.1, r.2.withDebug debug) := by
  cases hname : checkName name with
  | error e =>
    rw [declareVariable_of_refused _ hname, declareVariable_of_refused _ hname]
    rfl
  | ok u =>
    rw [declareVariable_eq _ hname, declareVariable_eq _ hname]
    exact map_withDebug w debug _ fun _ => rfl

theorem assign_withDebug (name expr : String) :
    (w.withDebug debug).assign name expr = (w.assign name expr).map fun r => (r.1, r.2.withDebug debug) := by
  cases hname : checkName name with
  | error e =>
    rw [assign_of_refused _ hname, assign_of_refused _ hname]
    rfl
  | ok u =>
    rw [assign_eq _ hname, assign_eq _ hname]
    exact map_withDebug w debug _ fun _ => rfl

/-- A function is compiled and bound without a run. -/
theorem declareFunction_withDebug (name source : String) :
    (w.withDebug debug).declareFunction name source =
      ((w.declareFunction name source).1, (w.declareFunction name source).2.withDebug debug) := by
  unfold declareFunction
  dsimp only [withDebug]
  cases checkName name with
  | error e => rfl
  | ok u =>
    dsimp only
    -- refused by the engine, or compiled and then refused or taken by the store
    obtain ⟨_ | handle, engine⟩ := Engine.compileFunction w.engine name source
    · rfl
    · dsimp only
      cases w.context.bindings.set name handle <;> rfl

omit [Engine ε] in
/-- A variable is bound or refused by its name. -/
theorem setVariable_withDebug (name : String) (v : Value) :
    (w.withDebug debug).setVariable name v =
      ((w.setVariable name v).1, (w.setVariable name v).2.withDebug debug) := by
  unfold setVariable
  dsimp only [withDebug]
  cases w.context.bindings.set name v <;> rfl

end Workspace

/-! ## Section 3: Commands -/

/-- A notice that is no confirmation. -/
def Notice.Unconfirmed (n : Notice) : Prop :=
  ∀ text, n ≠ .confirmed text

/-- The notices of a listing of names. -/
def listingNotices (note title : String) (names : List String) : List Notice :=
  if names.isEmpty then [.said note] else .said title :: names.map .said

/-- A listing says its names under a title, or that there are none. -/
private theorem listing_eq_tell (c : Console) (debug : Bool) (note title : String) (names : List String) :
    listing c note title names = c.tell debug (listingNotices note title names) := by
  unfold listing listingNotices
  split
  · rfl
  · rw [Console.eachLine_eq_tell _ debug, Console.line_eq_tell _ debug, Console.tell_tell]
    rfl

/-- A listing confirms nothing. -/
private theorem unconfirmed_listingNotices (note title : String) (names : List String) :
    ∀ n ∈ listingNotices note title names, n.Unconfirmed := by
  intro n hn text
  unfold listingNotices at hn
  split at hn
  · rw [List.mem_singleton.mp hn]
    exact Notice.noConfusion
  · rcases List.mem_cons.mp hn with rfl | hn
    · exact Notice.noConfusion
    · obtain ⟨name, _, rfl⟩ := List.mem_map.mp hn
      exact Notice.noConfusion

/-- Whatever the flag, a command leaves the context alone and answers with some notices, or with a fault. -/
structure Answers (w : Workspace ε) (command : Command) (args : String) (answer : Outcome (List Notice)) : Prop where
  unconfirmed : ∀ notices, answer = .ok notices → ∀ n ∈ notices, n.Unconfirmed
  execute : ∀ debug c, command.execute (w.withDebug debug) c args =
    answer.map fun notices => ((w.withDebug debug).context, c.tell debug notices)

/-- Every command but the one that switches the flag answers regardless of it. -/
private theorem exists_answers (w : Workspace ε) {command : Command} (hdebug : command ≠ .debug) (args : String) :
    ∃ answer, Answers w command args answer := by
  -- a command tells some notices, among them a single line in most cases, or it fails
  have htells : ∀ notices, (∀ n ∈ notices, n.Unconfirmed) →
      (∀ debug c, command.execute (w.withDebug debug) c args =
        .ok ((w.withDebug debug).context, c.tell debug notices)) → ∃ answer, Answers w command args answer := fun notices hunconfirmed h =>
    ⟨.ok notices, fun _ heq => Except.ok.inj heq ▸ hunconfirmed, h⟩
  have hsays : ∀ text, (∀ debug c, command.execute (w.withDebug debug) c args =
      .ok ((w.withDebug debug).context, c.line text)) → ∃ answer, Answers w command args answer := fun text =>
    htells [.said text] fun n hn _ => List.mem_singleton.mp hn ▸ Notice.noConfusion
  have hfails : ∀ f, (∀ debug c, command.execute (w.withDebug debug) c args = .error f) →
      ∃ answer, Answers w command args answer := fun f h =>
    ⟨.error f, fun _ heq => by contradiction, h⟩
  cases command with
  | help => exact hsays helpText fun _ _ => rfl
  | functions =>
    apply htells _ (unconfirmed_listingNotices _ _ _)
    exact fun debug c => congrArg (fun c => Except.ok (_, c)) (listing_eq_tell c debug _ _
      (w.context.functions.keys.map fun name => "  " ++ name ++ "()"))
  | vars =>
    apply htells _ (unconfirmed_listingNotices _ _ _)
    exact fun debug c => congrArg (fun c => Except.ok (_, c)) (listing_eq_tell c debug _ _
      (w.context.bindings.userNames.map fun name => "  " ++ name))
  | inspect =>
    -- the dump and the tables are made of the engine and the bindings
    have hinspect : ∀ debug, (w.withDebug debug).inspect = w.inspect := fun _ => rfl
    simp only [Command.execute, hinspect] at hsays hfails ⊢
    cases hwords : Text.words args with
    | nil =>
      apply hfails (.usage ":inspect <variable-name>")
      simp [hwords]
    | cons name rest =>
      cases hdump : w.inspect name with
      | error f =>
        apply hfails f
        simp [hwords, hdump]
      | ok dump =>
        cases dump with
        | none =>
          apply hsays ("Variable '" ++ name ++ "' is null")
          simp [hwords, hdump]
        | some dump =>
          apply hsays dump
          simp [hwords, hdump]
  | tables =>
    have htables : ∀ debug, (w.withDebug debug).tables = w.tables := fun _ => rfl
    simp only [Command.execute, htables] at htells hsays hfails ⊢
    cases hnames : w.tables with
    | error f =>
      apply hfails f
      simp [hnames]
    | ok names =>
      cases names with
      | none =>
        apply hsays "No database connection available"
        simp [hnames]
      | some names =>
        cases names with
        | nil =>
          apply hsays "No tables found"
          simp [hnames]
        | cons name names =>
          apply htells (((name :: names).map fun name => "  " ++ name).map .said)
          · intro n hn _
            obtain ⟨text, _, rfl⟩ := List.mem_map.mp hn
            exact Notice.noConfusion
          · intro debug c
            rw [← Console.eachLine_eq_tell]
            simp [hnames]
  | clear => exact htells [.cleared] (fun n hn _ => List.mem_singleton.mp hn ▸ Notice.noConfusion) fun _ _ => rfl
  | debug => contradiction

/-- The same for a command by its name: faults are among the notices. -/
theorem dispatchCommand_withDebug (w : Workspace ε) {name : String} (hdebug : Command.ofName? name ≠ some .debug)
    (args : String) :
    ∃ notices : List Notice, (∀ n ∈ notices, n.Unconfirmed) ∧ ∀ debug c,
      dispatchCommand (w.withDebug debug) c name args = ((w.withDebug debug).context, c.tell debug notices) := by
  unfold dispatchCommand
  cases hcommand : Command.ofName? name with
  | none =>
    refine ⟨[.failed (.unknownCommand (":" ++ name)), .said helpText], ?_, fun debug c => ?_⟩
    · intro n hn _
      rcases List.mem_pair.mp hn with rfl | rfl <;> exact Notice.noConfusion
    · dsimp only
      rw [Console.line_eq_tell _ debug]
      show (_, (c.report _ debug).tell debug _) = _
      rw [Console.report_eq_tell, Console.tell_tell]
      rfl
  | some command =>
    have hother : command ≠ .debug := fun h => hdebug (h ▸ hcommand)
    -- The command answers the same with and without the flag; only the report of a failure shows it.
    obtain ⟨answer, hunconfirmed, hexecute⟩ := exists_answers w hother args
    dsimp only
    simp only [hexecute]
    cases answer with
    | ok notices => exact ⟨notices, hunconfirmed notices rfl, fun _ _ => rfl⟩
    | error f =>
      refine ⟨[.failed f], ?_, fun debug c => congrArg (_, ·) (Console.report_eq_tell c debug f)⟩
      intro n hn _
      rw [List.mem_singleton.mp hn]
      exact Notice.noConfusion

/-! ## Section 4: Outcomes -/

/-- The notices of an outcome: the confirmation and the value, unless it is null, or the fault. -/
def outcomeNotices (confirmation : Option String) : Outcome Value → List Notice
  | .ok v => (confirmation.map .confirmed).toList ++ if v.isNull then [] else [.said v.display]
  | .error f => [.failed f]

omit [Engine ε] in
/-- An outcome is shown by its notices, and then the session is ready for more. -/
theorem print_eq (s : Session ε) (confirmation : Option String) (outcome : Outcome Value) :
    print s confirmation outcome =
      { s with
        console := s.console.tell s.context.debug (outcomeNotices confirmation outcome)
        phase := .idle } := by
  cases outcome with
  | error f =>
    rw [outcomeNotices, ← Console.report_eq_tell]
    rfl
  | ok v =>
    -- A null is not shown.
    have hvalue : ∀ t : Session ε, (if v.isNull then t else t.mapConsole (·.line v.display)) =
        { t with console := t.console.tell s.context.debug (if v.isNull then [] else [.said v.display]) } := by
      intro t
      cases v.isNull with
      | true => simp
      | false => rfl
    unfold print
    dsimp only
    rw [hvalue, outcomeNotices, ← Console.tell_tell]
    cases confirmation with
    | none => simp [enter]
    | some text => rfl

end RowConsole.Session
