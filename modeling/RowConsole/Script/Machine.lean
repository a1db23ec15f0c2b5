import RowConsole.Script.Value

/-!
# The Machine

The state that a running script changes, and the steps on it that do not depend on what the script says:
looking names up, binding them, opening scopes and frames, and writing output.

The names of the top level are kept by a store of their own, seen through the class `Globals`. A frame holds
the scopes of one call, the innermost first; the frame of the top level lies below all others and is never
removed.
-/

namespace RowConsole.Script

/-! ## Section 1: State -/

/-- A store of names at the top level. It may refuse a name, for a reason told to the user; a name that it
takes is bound to the value given, and no other name is touched. -/
class Globals (γ : Type) where
  /-- The value bound to a name. -/
  lookup : γ → String → Option Value
  /-- Binds or rebinds a name. -/
  assign : γ → String → Value → Except String γ
  /-- What is bound after a name has been taken. -/
  lookup_assign : ∀ {g g' : γ} {name : String} {v : Value}, assign g name v = .ok g' →
    ∀ other, lookup g' other = if other = name then some v else lookup g other

/-- A plain map takes every name. -/
instance : Globals (OrderedMap Value) where
  lookup := OrderedMap.get?
  assign m name v := .ok (OrderedMap.insert m name v)
  lookup_assign := by
    intro m m' name v h other
    cases h
    exact OrderedMap.get?_insert m name other v

/-- The names bound in one block. -/
abbrev Scope := OrderedMap Value

/-- The scopes of one call, the innermost first. -/
structure Frame where
  scopes : List Scope
  /-- Whether declarations go to the globals. -/
  topLevel : Bool

/-- Where a script writes to. -/
structure Output where
  /-- What has been taken so far. -/
  text : String := ""
  /-- How much of a text is taken behind what has been taken already, and why it is not all well with the
  rest. -/
  accept : String → String → String × Option String := fun _ text => (text, none)

/-- The output behind a text, and why the text was refused, if it was. -/
def Output.write (o : Output) (text : String) : Option String × Output :=
  let (taken, refused) := o.accept o.text text
  (refused, { o with text := o.text ++ taken })

/-- What a running script changes. -/
structure Machine (γ : Type) where
  globals : γ
  /-- What the script has written, and where it writes on. -/
  output : Output
  /-- The frame of the innermost call. -/
  frame : Frame
  /-- The frames of the calls around it, the innermost first. -/
  callers : List Frame
  /-- The serial number of the next function value. -/
  serial : Nat

/-- The machine at the start of a program. -/
def Machine.start {γ : Type} (globals : γ) (serial : Nat) (output : Output := {}) : Machine γ :=
  { globals := globals, output := output, frame := ⟨[], true⟩, callers := [], serial := serial }

/-- The number of frames. -/
def Machine.depth {γ : Type} (m : Machine γ) : Nat :=
  m.callers.length + 1

/-! ## Section 2: Runs -/

/-- A run on the machine: it ends with a result, with an error of the script or with a crash of the program,
and in each case with a new state; or it ends in nothing, when it is cut off before it has come to an end. -/
abbrev Run (γ : Type) (α : Type) := ExceptT Failure (StateT (Machine γ) Option) α

namespace Run

variable {γ α : Type}

/-- A run that is cut off. -/
def exhausted : Run γ α :=
  fun _ => none

/-- Fails for a cause, with no position yet. -/
def fail (cause : Cause) : Run γ α :=
  throw (.script { cause := cause })

/-- Fails for a cause at a position. -/
def failAt (cause : Cause) (p : Pos) : Run γ α :=
  throw (.script { cause := cause, pos := some p })

/-- The same run with its failure changed. -/
def mapFailure (f : Failure → Failure) (run : Run γ α) : Run γ α := fun m =>
  match run m with
  | some (.error e, m) => some (.error (f e), m)
  | other => other

/-- The same run, its failure at a position unless it has one. -/
def located (p : Pos) (run : Run γ α) : Run γ α :=
  run.mapFailure (·.located p)

/-- A result of an operation on values as a run. -/
def ofResult : Attempt α → Run γ α
  | .ok a => return a
  | .error e => throw e

/-- A result of an operation on values as a run, its failure at a position. -/
def ofResultAt (p : Pos) (r : Attempt α) : Run γ α :=
  located p (ofResult r)

end Run

/-! ## Section 3: Names -/

/-- The value of a name in the innermost of some scopes that binds it. -/
def lookupScopes (name : String) (scopes : List Scope) : Option Value :=
  scopes.findSome? fun scope => OrderedMap.get? scope name

/-- The scopes with a name rebound in the innermost one that binds it. -/
def rebindScopes? (name : String) (v : Value) : List Scope → Option (List Scope)
  | [] => none
  | scope :: outer =>
    if OrderedMap.contains scope name then some (OrderedMap.insert scope name v :: outer)
    else (rebindScopes? name v outer).map (scope :: ·)

/-- All names visible in some scopes with their values, those of outer scopes first. -/
def flattenScopes (scopes : List Scope) : OrderedMap Value :=
  scopes.reverse.foldl OrderedMap.merge []

section Names

variable {γ : Type} [Globals γ]

/-- What a name stands for: a local, else a global, else a builtin function. -/
def Machine.lookup (m : Machine γ) (name : String) : Option Value :=
  match lookupScopes name m.frame.scopes with
  | some v => some v
  | none =>
    match Globals.lookup m.globals name with
    | some v => some v
    | none => (Builtin.ofName? name).map .builtin

/-- Binds a global. -/
def assignGlobal (name : String) (v : Value) : Run γ Unit := do
  let m ← get
  match Globals.assign m.globals name v with
  | .ok globals => set { m with globals := globals }
  | .error reason => Run.fail (.rejectedName reason)

/-- Declares a name: in the innermost scope of a call, or at the top level as a global. -/
def declareName (name : String) (v : Value) : Run γ Unit := do
  let m ← get
  match m.frame.topLevel, m.frame.scopes with
  | false, scope :: outer =>
    set { m with frame := { m.frame with scopes := OrderedMap.insert scope name v :: outer } }
  | _, _ => assignGlobal name v

/-- Assigns to a name: to the innermost local of that name, or else as a global. -/
def assignName (name : String) (v : Value) : Run γ Unit := do
  let m ← get
  match rebindScopes? name v m.frame.scopes with
  | some scopes => set { m with frame := { m.frame with scopes := scopes } }
  | none => assignGlobal name v

end Names

/-! ## Section 4: Scopes, Frames and Output -/

section Frames

variable {γ α : Type}

/-- Runs inside one more scope, which is closed whatever the outcome. -/
def withScope (scope : Scope) (run : Run γ α) : Run γ α := fun m =>
  match run { m with frame := { m.frame with scopes := scope :: m.frame.scopes } } with
  | some (r, m) => some (r, { m with frame := { m.frame with scopes := m.frame.scopes.tail } })
  | none => none

/-- Removes the innermost frame. -/
def Machine.popFrame (m : Machine γ) : Machine γ :=
  match m.callers with
  | [] => m
  | caller :: callers => { m with frame := caller, callers := callers }

/-- Runs inside one more frame, which is removed whatever the outcome. -/
def withFrame (frame : Frame) (run : Run γ α) : Run γ α := fun m =>
  match run { m with frame := frame, callers := m.frame :: m.callers } with
  | some (r, m) => some (r, m.popFrame)
  | none => none

/-- Writes output, which may be refused. What was taken of it stays written. -/
def write (text : String) : Run γ Unit := do
  let m ← get
  let (refused, output) := m.output.write text
  set { m with output := output }
  match refused with
  | some reason => Run.fail (.output reason)
  | none => return

/-- A new function value, with a serial number of its own. -/
def newFunction (routine : Routine) (captured : OrderedMap Value) : Run γ Value := do
  let m ← get
  set { m with serial := m.serial + 1 }
  return .function routine m.serial captured

end Frames

end RowConsole.Script
