import RowConsole.Proofs.Script.Observed.Interpreter

/-!
# The Trace of an Error

An observer keeps the calls that are active: a call is pushed when the body of its routine starts and popped when the
body has a result. A body that fails stays, and so does one that is left by a stray `break` or `continue`. So behind a
failure the active calls are those in which it arose, and they are what the failure has recorded on its way out.

Main statement: `runProgram_trace`.
-/

namespace RowConsole.Script

variable {γ : Type}

/-! ## Section 1: Active Calls -/

/-- Keeps the active calls, the innermost first. -/
def activeCalls : Observer (Watched γ (List CallSite)) :=
  { Observer.idle with
    body := fun routine p run => do
      see (⟨routine.displayName, p⟩ :: ·)
      let flow ← run
      -- a stray `break` or `continue` fails inside of the body
      see fun active => if flow.result.isOk then active.tail else active
      return flow }

variable [Globals γ]

/-- Keeping the active calls changes nothing else of a run. -/
private theorem activeCalls_transparent : activeCalls.Transparent (Comparison.unwatched (γ := γ)) where
  expr h := h
  stmt h := h
  target h := h
  call h := h
  body := by
    intro run run' routine p h
    have hleft := h.bind_idle fun flow =>
      Comparison.Follows.see_bind (fun active => if flow.result.isOk then active.tail else active)
        (Comparison.Follows.pure flow)
    exact hleft.see_bind _

/-! ## Section 2: What Is Recorded -/

/-- Inside of some active calls, a failure has recorded all that are active beyond them. -/
def callsBeyond (outer : List CallSite) : Ending (Watched γ (List CallSite)) where
  running w := w.seen = outer
  failed e w := w.seen = e.trace ++ outer
  assigned hw h := (Watched.seen_of_assign h).trans hw
  raised _ hw _ := hw
  located := by
    rintro ⟨cause, pos, trace⟩ w p hw
    cases pos <;> exact hw

/-- A call adds one to the active calls, and its failure records that one on its way out. -/
private theorem activeCalls_within : activeCalls.Within (callsBeyond (γ := γ)) where
  expr h := h
  stmt h := h
  target h := h
  call h := h
  body := by
    intro outer limit fuel routine p frame hrun m hm
    -- only what the body does to the active calls matters
    generalize runBlock _ _ routine.body = run at hrun
    -- inside of the body the call is active
    have hinside := hrun (⟨routine.displayName, p⟩ :: outer)
      { m with
        globals := { m.globals with seen := ⟨routine.displayName, p⟩ :: m.globals.seen }
        frame := frame
        callers := m.frame :: m.callers } (congrArg (_ :: ·) hm)
    rw [Observer.callOf, Run.mapFailure_apply, Run.bind_apply, Run.withFrame_apply]
    simp only [activeCalls, see_bind_apply]
    rw [Run.bind_apply]
    revert hinside
    generalize run _ = ended
    rcases ended with _ | ⟨⟨e | c⟩ | flow, m'⟩
    · exact id
    · -- a failure inside of the body leaves the call active, and then it records the call
      intro hfailed
      change m'.globals.seen = e.trace ++ ⟨routine.displayName, p⟩ :: outer at hfailed
      show m'.popFrame.globals.seen = (e.trace ++ [⟨routine.displayName, p⟩]) ++ outer
      rw [Machine.globals_popFrame, hfailed, List.append_assoc, List.singleton_append]
    · exact id
    · intro hactive
      change m'.globals.seen = ⟨routine.displayName, p⟩ :: outer at hactive
      simp only [Option.bind_some, see_bind_apply, hactive]
      cases flow with
      | next v | returned v => exact congrArg Watched.seen (Machine.globals_popFrame _)
      | broke | continued => exact congrArg Watched.seen (Machine.globals_popFrame _)

/-! ## Section 3: Programs -/

/-- If a program ends in an error, then the trace of the error consists of the calls that are active when the error
arises, the innermost first. -/
theorem runProgram_trace {limit fuel : Nat} {program : List Stmt} {m m' : Machine γ} {e : ScriptError}
    (hrun : runProgram limit fuel program m = some (.error (.script e), m')) :
    runObserved activeCalls limit fuel program (m.watched []) =
      some (.error (.script e), m'.watched e.trace) := by
  obtain ⟨active, hobserved⟩ := runObserved_of_runProgram activeCalls_transparent [] hrun
  have hended := activeCalls_within.program [] (fun _ hw => hw) limit fuel program (m.watched []) rfl
  rw [hobserved] at hended
  -- outside of all calls, nothing more is active than what the failure has recorded
  have hactive : active = e.trace := hended.trans (List.append_nil e.trace)
  rw [hobserved, hactive]

/-- Calls the entry of a map like a method. The entry maps a list by a closure, which calls a function that is left by a
stray `break`. -/
def strayBelowCallbacks : List Stmt :=
  [.function "inner" ["n"] [.breaks] ⟨1, 1⟩,
    .expr (.method
      (.map [("go", .closure ["x"]
        [.expr (.method (.list [.var "x" ⟨3, 4⟩]) "map"
          [.closure ["y"] [.expr (.call (.var "inner" ⟨4, 5⟩) [.var "y" ⟨4, 11⟩] ⟨4, 10⟩)] ⟨3, 10⟩] ⟨3, 6⟩)] ⟨2, 7⟩)])
      "go" [.int 1] ⟨5, 3⟩)]

/-- Three calls deep: a method that calls an entry, a `map` over a list, and a function in its closure. -/
theorem runProgram_trace_callbacks :
    let run : Run (OrderedMap Value) Value := runProgram 10 30 strayBelowCallbacks
    let e : ScriptError :=
      { cause := .strayLoopControl
        pos := some ⟨3, 6⟩
        trace := [⟨"inner", ⟨4, 10⟩⟩, ⟨"<closure>", ⟨3, 6⟩⟩, ⟨"<closure>", ⟨5, 3⟩⟩] }
    ∃ m', run (Machine.start [] 0) = some (.error (.script e), m') ∧
      runObserved activeCalls 10 30 strayBelowCallbacks ((Machine.start [] 0).watched []) =
        some (.error (.script e), m'.watched e.trace) := by
  intro run e
  have hfails : failureOf (run (Machine.start [] 0)) = some e := by decide +kernel
  obtain ⟨m', hrun⟩ := exists_of_failureOf hfails
  exact ⟨m', hrun, runProgram_trace hrun⟩

end RowConsole.Script
