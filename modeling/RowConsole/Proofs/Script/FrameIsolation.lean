import RowConsole.Proofs.Script.Construct

/-!
# Isolation of Frames

What a running script does to the frames of calls. Beside the interpreter stands a guarded one, which raises
an alarm wherever an expression, a statement, a target or the body of a call is reached with more frames than
the limit allows. That both agree, whatever the alarm does, says that the limit is never exceeded on the way.

Main statement: `frames_isolated`. The guarded interpreter agrees with the interpreter, every construct leaves
the number of frames and of the scopes in each of them as it was, and a call leaves the frames themselves.
-/

namespace RowConsole.Script

variable {γ α : Type}

/-! ## Section 1: Guards -/

/-- What is run in place of anything that is reached with too many frames. -/
abbrev Alarm (γ : Type) := (α : Type) → Run γ α

/-- The same run, with the alarm in its place where there are more frames than the limit. -/
def Run.guarded (alarm : Alarm γ) (limit : Nat) (run : Run γ α) : Run γ α := fun m =>
  if m.depth ≤ limit then run m else alarm α m

/-- A run of the guarded interpreter where the guard is on. -/
def guardAt (alarm : Alarm γ) (limit : Nat) (guard : Bool) (run : Run γ α) : Run γ α :=
  if guard then run.guarded alarm limit else run

/-- The guard changes nothing where an invariant bounds the number of frames. -/
theorem Mode.Holds.guardAt {limit : Nat} {alarm : Alarm γ} {I : Machine γ → Prop} {run : Bool → Run γ α}
    {Q : α → Prop} (hdepth : ∀ m, I m → m.depth ≤ limit) (h : Mode.agreement.Holds I run Q) :
    Mode.agreement.Holds I (fun guard => Script.guardAt alarm limit guard (run guard)) Q := by
  intro m hm
  have hsame : ∀ guard, Script.guardAt alarm limit guard (run guard) m = run guard m := by
    intro guard
    cases guard with
    | false => rfl
    | true => exact if_pos (hdepth m hm)
  simp only [hsame]
  exact h m hm

/-- Runs that are cut off agree. -/
theorem Mode.Holds.exhausted {I : Machine γ → Prop} {Q : α → Prop} :
    Mode.agreement.Holds I (fun _ => (Run.exhausted : Run γ α)) Q := by
  intro m hm
  exact ⟨rfl, fun _ h => nomatch h⟩

/-! ## Section 2: Frames under a Guard -/

/-- The numbers of scopes in the frames, the innermost frame first. -/
def Machine.scopeCounts (m : Machine γ) : List Nat :=
  (m.frame :: m.callers).map fun frame => frame.scopes.length

/-- The frames of the callers are given, and so is the number of scopes in the innermost frame. -/
structure Within (callers : List Frame) (scopes : Nat) (m : Machine γ) : Prop where
  callers_eq : m.callers = callers
  scopes_length : m.frame.scopes.length = scopes

/-- All frames are given. -/
structure Exactly (frame : Frame) (callers : List Frame) (m : Machine γ) : Prop where
  frame_eq : m.frame = frame
  callers_eq : m.callers = callers

/-- The current frame comes on top of the callers. -/
private theorem depth_le_of_within {callers : List Frame} {scopes limit : Nat} (h : callers.length < limit)
    (m : Machine γ) (hm : Within callers scopes m) : m.depth ≤ limit := by
  rw [Machine.depth, hm.callers_eq]
  exact h

/-- Bodies are judged in every frame that the limit allows. -/
def HoldsBodies (limit : Nat) (block : Bool → List Stmt → Run γ Flow) : Prop :=
  ∀ callers scopes, callers.length < limit → ∀ body,
    Mode.agreement.Holds (Within callers scopes) (fun guard => block guard body) (Flow.Meets .anything)

/-- A call leaves all frames as they are. -/
theorem holdsCalls_exactly {limit : Nat} {block : Bool → List Stmt → Run γ Flow}
    (hblock : HoldsBodies limit block) (frame : Frame) (callers : List Frame) (p : Pos) :
    Mode.agreement.HoldsCalls (Exactly frame callers) .anything fun guard =>
      callWith limit (block guard) p := by
  refine Mode.Holds.callWith (fun _ h => ⟨h.frame_eq, h.callers_eq⟩) p ?_
  intro routine captured args _ _ _
  refine Mode.Holds.callRoutine p fun m hm hdepth => ?_
  -- Inside, the frames around the body are all those that were there before the call.
  refine ⟨Within (frame :: callers) 2, hblock _ _ ?_ _, fun m hm => ?_, fun m hm => ?_⟩
  · rw [Machine.depth, hm.callers_eq] at hdepth
    exact hdepth
  · refine ⟨?_, rfl⟩
    show m.frame :: m.callers = frame :: callers
    rw [hm.frame_eq, hm.callers_eq]
  · have hcallers := hm.callers_eq
    unfold Machine.popFrame
    rw [hcallers]
    exact ⟨rfl, rfl⟩

/-- For each frame in which it may be made, a call leaves that frame. -/
private theorem holdsCalls_within {limit : Nat} {block : Bool → List Stmt → Run γ Flow}
    (hblock : HoldsBodies limit block) (callers : List Frame) (scopes : Nat) (p : Pos) :
    Mode.agreement.HoldsCalls (Within callers scopes) .anything fun guard =>
      callWith limit (block guard) p := by
  intro f args hf hargs
  refine Mode.Holds.of_each fun m hm => ⟨Exactly m.frame callers, ⟨rfl, hm.callers_eq⟩, fun m' hm' => ?_, ?_⟩
  · refine ⟨hm'.callers_eq, ?_⟩
    rw [hm'.frame_eq]
    exact hm.scopes_length
  · exact holdsCalls_exactly hblock m.frame callers p f args hf hargs

/-! ## Section 3: The Guarded Interpreter -/

variable [Globals γ]

mutual

/-- The value of an expression, evaluated with a guard at every construct. -/
def guardedEval (alarm : Alarm γ) (limit fuel : Nat) (e : Expr) : Run γ Value :=
  match fuel with
  | 0 => Run.exhausted
  | fuel + 1 =>
    (evalWith (guardedEval alarm limit fuel)
      (callWith limit fun body =>
        (runBlock (guardedExec alarm limit fuel) .null body).guarded alarm limit) e).guarded alarm limit
termination_by structural fuel

/-- Runs a statement with a guard at every construct. -/
def guardedExec (alarm : Alarm γ) (limit fuel : Nat) (s : Stmt) : Run γ Flow :=
  match fuel with
  | 0 => Run.exhausted
  | fuel + 1 =>
    (execWith (guardedEval alarm limit fuel) (guardedStore alarm limit fuel)
      (runScoped (guardedExec alarm limit fuel)) (runWhile fuel) s).guarded alarm limit
termination_by structural fuel

/-- Writes a value into the place that an expression names, with a guard at every construct. -/
def guardedStore (alarm : Alarm γ) (limit fuel : Nat) (target : Expr) (v : Value) (p : Pos) : Run γ Unit :=
  match fuel with
  | 0 => Run.exhausted
  | fuel + 1 =>
    (storeWith (guardedEval alarm limit fuel) (guardedStore alarm limit fuel) target v p).guarded alarm limit
termination_by structural fuel

end

/-- Calls a value as expressions do. -/
def call (limit fuel : Nat) (p : Pos) (f : Value) (args : List Value) : Run γ Value :=
  callWith limit (runBlock (exec limit fuel) .null) p f args

/-- Calls a value as guarded expressions do. -/
def guardedCall (alarm : Alarm γ) (limit fuel : Nat) (p : Pos) (f : Value) (args : List Value) : Run γ Value :=
  callWith limit (fun body => (runBlock (guardedExec alarm limit fuel) .null body).guarded alarm limit) p f args

/-! ## Section 4: Both Interpreters as One Family -/

def evalAt (alarm : Alarm γ) (limit fuel : Nat) (guard : Bool) : Expr → Run γ Value :=
  if guard then guardedEval alarm limit fuel else eval limit fuel

def execAt (alarm : Alarm γ) (limit fuel : Nat) (guard : Bool) : Stmt → Run γ Flow :=
  if guard then guardedExec alarm limit fuel else exec limit fuel

def storeAt (alarm : Alarm γ) (limit fuel : Nat) (guard : Bool) : Expr → Value → Pos → Run γ Unit :=
  if guard then guardedStore alarm limit fuel else store limit fuel

/-- The body of a call in either interpreter. -/
def blockAt (alarm : Alarm γ) (limit fuel : Nat) (guard : Bool) (body : List Stmt) : Run γ Flow :=
  guardAt alarm limit guard (runBlock (execAt alarm limit fuel guard) .null body)

variable {alarm : Alarm γ} {limit fuel : Nat} {guard : Bool}

/-- An expression of the guarded interpreter is one of the interpreter behind a test. -/
private theorem evalAt_succ (e : Expr) :
    evalAt alarm limit (fuel + 1) guard e = guardAt alarm limit guard
      (evalWith (evalAt alarm limit fuel guard) (callWith limit (blockAt alarm limit fuel guard)) e) := by
  cases guard <;> rfl

/-- A statement of the guarded interpreter is one of the interpreter behind a test. -/
private theorem execAt_succ (s : Stmt) :
    execAt alarm limit (fuel + 1) guard s = guardAt alarm limit guard
      (execWith (evalAt alarm limit fuel guard) (storeAt alarm limit fuel guard)
        (runScoped (execAt alarm limit fuel guard)) (runWhile fuel) s) := by
  cases guard <;> rfl

/-- A write of the guarded interpreter is one of the interpreter behind a test. -/
private theorem storeAt_succ (target : Expr) (v : Value) (p : Pos) :
    storeAt alarm limit (fuel + 1) guard target v p = guardAt alarm limit guard
      (storeWith (evalAt alarm limit fuel guard) (storeAt alarm limit fuel guard) target v p) := by
  cases guard <;> rfl

/-! ## Section 5: Isolation -/

/-- Rebinding a name leaves the number of scopes. -/
private theorem length_of_rebindScopes? {name : String} {v : Value} {scopes rebound : List Scope}
    (h : rebindScopes? name v scopes = some rebound) : rebound.length = scopes.length := by
  induction scopes generalizing rebound with
  | nil => contradiction
  | cons scope outer ih =>
    simp only [rebindScopes?] at h
    split at h
    · cases h
      rfl
    · obtain ⟨rest, hrest, rfl⟩ := Option.map_eq_some_iff.mp h
      rw [List.length_cons, ih hrest, List.length_cons]

/-- No step on the machine opens or closes a scope or a frame. -/
theorem stable_within (callers : List Frame) (scopes : Nat) :
    Stable Standard.anything (Within (γ := γ) callers scopes) where
  lookup _ _ := Value.meets_anything _
  locals _ _ _ := Value.meets_anything _
  assigned h _ _ := ⟨h.callers_eq, h.scopes_length⟩
  declared h _ hscopes := ⟨h.callers_eq, by rw [← h.scopes_length, hscopes]; rfl⟩
  rebound h _ hrebind := ⟨h.callers_eq, by rw [← h.scopes_length, ← length_of_rebindScopes? hrebind]⟩
  written _ h := ⟨h.callers_eq, h.scopes_length⟩
  counted h := ⟨h.callers_eq, h.scopes_length⟩

/-- Expressions, statements and targets are judged in every frame that the limit allows. -/
structure HoldsAll (alarm : Alarm γ) (limit fuel : Nat) (callers : List Frame) (scopes : Nat) : Prop where
  eval : ∀ e, Mode.agreement.Holds (Within callers scopes)
    (fun guard => evalAt alarm limit fuel guard e) (Value.Meets .anything)
  exec : ∀ s, Mode.agreement.Holds (Within callers scopes)
    (fun guard => execAt alarm limit fuel guard s) (Flow.Meets .anything)
  store : ∀ target v p, Mode.agreement.Holds (Within callers scopes)
    (fun guard => storeAt alarm limit fuel guard target v p) fun _ => True

/-- The body of a call is a block in a frame of its own. -/
theorem holdsBodies_blockAt
    (h : ∀ callers scopes, callers.length < limit → HoldsAll alarm limit fuel callers scopes) :
    HoldsBodies limit (blockAt alarm limit fuel) := by
  intro callers scopes hcallers body
  refine Mode.Holds.guardAt (depth_le_of_within hcallers) ?_
  exact Mode.Holds.runBlock (fun s _ => (h callers scopes hcallers).exec s) .null

/-- Without fuel both interpreters are cut off. -/
private theorem holdsAll_zero (callers : List Frame) (scopes : Nat) : HoldsAll alarm limit 0 callers scopes := by
  have heval : ∀ guard, evalAt alarm limit 0 guard = fun _ => Run.exhausted := by
    intro guard
    cases guard <;> rfl
  have hexec : ∀ guard, execAt alarm limit 0 guard = fun _ => Run.exhausted := by
    intro guard
    cases guard <;> rfl
  have hstore : ∀ guard, storeAt alarm limit 0 guard = fun _ _ _ => Run.exhausted := by
    intro guard
    cases guard <;> rfl
  constructor
  · simp only [heval]
    exact fun _ => Mode.Holds.exhausted
  · simp only [hexec]
    exact fun _ => Mode.Holds.exhausted
  · simp only [hstore]
    exact fun _ _ _ => Mode.Holds.exhausted

/-- One construct: the scopes that it opens are closed again, and its calls leave all frames. -/
theorem holdsAll_succ
    (h : ∀ callers scopes, callers.length < limit → HoldsAll alarm limit fuel callers scopes)
    (callers : List Frame) (scopes : Nat) (hcallers : callers.length < limit) :
    HoldsAll alarm limit (fuel + 1) callers scopes := by
  have hI := stable_within (γ := γ) callers scopes
  have hdepth : ∀ m : Machine γ, Within callers scopes m → m.depth ≤ limit := depth_le_of_within hcallers
  obtain ⟨heval, hexec, hstore⟩ := h callers scopes hcallers
  have hcalls := holdsCalls_within (holdsBodies_blockAt h) callers scopes
  -- A block runs with one scope more and the same callers, which the hypothesis covers as well.
  have hinner : ∀ scope body, Mode.agreement.Holds (Within callers scopes)
      (fun guard => runScoped (execAt alarm limit fuel guard) scope body) (Flow.Meets .anything) := by
    intro scope body
    refine Mode.Holds.runScoped (J := Within callers (scopes + 1)) ?_ (fun m hm => ?_) fun m hm => ?_
    · exact fun s _ => (h callers (scopes + 1) hcallers).exec s
    · exact ⟨hm.callers_eq, congrArg (· + 1) hm.scopes_length⟩
    · refine ⟨hm.callers_eq, ?_⟩
      rw [List.length_tail, hm.scopes_length]
      rfl
  -- The test at the entry holds by the invariant, so the guarded run goes on as the plain one.
  constructor
  · intro e
    simp only [evalAt_succ]
    refine Mode.Holds.guardAt hdepth ?_
    exact Mode.Holds.evalWith hI (fun e' _ => heval e') hcalls fun _ _ _ _ => trivial
  · intro s
    simp only [execAt_succ]
    refine Mode.Holds.guardAt hdepth ?_
    refine Mode.Holds.execWith hI (fun e _ => heval e) (fun e _ v p _ => hstore e v p)
      (fun scope body _ _ _ => hinner scope body) (fun cond body _ => ?_) fun _ _ _ _ _ => trivial
    exact Mode.Holds.runWhile Mode.Holds.exhausted ((heval cond).mono fun _ _ => trivial)
      (hinner [] body) .null
  · intro target v p
    simp only [storeAt_succ]
    refine Mode.Holds.guardAt hdepth ?_
    exact Mode.Holds.storeWith hI (Value.meets_anything v) p (fun e _ => heval e)
      fun e _ v p _ => hstore e v p

/-- By induction on the fuel, for all frames at once: the body of a call runs in another one. -/
theorem holdsAll (alarm : Alarm γ) (limit fuel : Nat) (callers : List Frame) (scopes : Nat)
    (hcallers : callers.length < limit) : HoldsAll alarm limit fuel callers scopes := by
  induction fuel generalizing callers scopes with
  | zero => exact holdsAll_zero callers scopes
  | succ fuel ih => exact holdsAll_succ ih callers scopes hcallers

/-- From a state within the limit on frames, the guarded interpreter does what the interpreter does, whatever
its alarm is; the scopes of every frame are as many after a construct as before it, and a call leaves all
frames as they are. -/
theorem frames_isolated (alarm : Alarm γ) (limit fuel : Nat) (m : Machine γ) (hdepth : m.depth ≤ limit) :
    (∀ e, guardedEval alarm limit fuel e m = eval limit fuel e m ∧
      ∀ r m', eval limit fuel e m = some (r, m') → m'.scopeCounts = m.scopeCounts) ∧
    (∀ s, guardedExec alarm limit fuel s m = exec limit fuel s m ∧
      ∀ r m', exec limit fuel s m = some (r, m') → m'.scopeCounts = m.scopeCounts) ∧
    (∀ p f args, guardedCall alarm limit fuel p f args m = call limit fuel p f args m ∧
      ∀ r m', call limit fuel p f args m = some (r, m') → m'.frame = m.frame ∧ m'.callers = m.callers) := by
  have hwithin : Within m.callers m.frame.scopes.length m := ⟨rfl, rfl⟩
  have hall := holdsAll alarm limit fuel m.callers m.frame.scopes.length hdepth
  -- The invariant fixes the callers and the number of scopes, which is all that is counted.
  have hcounts : ∀ m' : Machine γ, Within m.callers m.frame.scopes.length m' →
      m'.scopeCounts = m.scopeCounts := by
    intro m' hm'
    simp only [Machine.scopeCounts, List.map_cons, hm'.callers_eq, hm'.scopes_length]
  refine ⟨fun e => ?_, fun s => ?_, fun p f args => ?_⟩
  · obtain ⟨hsame, hafter⟩ := hall.eval e m hwithin
    exact ⟨hsame, fun r m' h => hcounts m' (hafter (r, m') h).1⟩
  · obtain ⟨hsame, hafter⟩ := hall.exec s m hwithin
    exact ⟨hsame, fun r m' h => hcounts m' (hafter (r, m') h).1⟩
  · have hbodies := holdsBodies_blockAt fun callers scopes => holdsAll alarm limit fuel callers scopes
    have hargs : ∀ a ∈ args, a.Meets Standard.anything := fun a _ => a.meets_anything
    obtain ⟨hsame, hafter⟩ :=
      holdsCalls_exactly hbodies m.frame m.callers p f args f.meets_anything hargs m ⟨rfl, rfl⟩
    refine ⟨hsame, fun r m' h => ?_⟩
    obtain ⟨hframe, hcallers⟩ := (hafter (r, m') h).1
    exact ⟨hframe, hcallers⟩

/-- A closure that calls its argument with itself, after it has declared a local: it fails at the limit. -/
def selfCaller : Value :=
  .function ⟨none, ["f"], [.declare "local" none ⟨1, 1⟩,
    .returns (some (.call (.var "f" ⟨1, 1⟩) [.var "f" ⟨1, 1⟩] ⟨1, 1⟩))]⟩ 0 []

/-- The limit is reached here, and the frames are those from before the call. -/
theorem frames_isolated_selfCaller :
    let m : Machine (OrderedMap Value) :=
      { Machine.start [] 1 with frame := ⟨[[("x", .int 1)]], false⟩, callers := [⟨[], true⟩] }
    m.depth ≤ 4 ∧
      (call 4 20 ⟨1, 1⟩ selfCaller [selfCaller] m).map (fun o => o.1.isOk) = some false ∧
      ∀ r m', call 4 20 ⟨1, 1⟩ selfCaller [selfCaller] m = some (r, m') →
        m'.frame = m.frame ∧ m'.callers = m.callers := by
  intro m
  have hdepth : m.depth ≤ 4 := by decide
  refine ⟨hdepth, by decide +kernel, ?_⟩
  obtain ⟨_, _, hcalls⟩ := frames_isolated (fun _ => Run.exhausted) 4 20 m hdepth
  exact (hcalls ⟨1, 1⟩ selfCaller [selfCaller]).2

end RowConsole.Script
