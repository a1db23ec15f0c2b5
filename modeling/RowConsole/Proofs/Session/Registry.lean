import RowConsole.Proofs.Script.BareBody
import RowConsole.Proofs.Session.BindingStore

/-!
# The Registry of Functions

The registry and the binding store are two stores that are kept in step. An entry of the registry holds a named
function without locals of its own, together with the source that it was compiled from, and its name stays bound,
although what is bound to it may be changed by a script.

Main statement: `Context.Reachable.registry`, by a step for operations and one for interactions and by induction on
how a context is reached.
-/

namespace RowConsole.Session

open Script (Routine Runtime ScriptResult Value compileRoutine)

/-! ## Section 1: Compiled Functions -/

/-- A routine that is compiled under a name has that name. -/
theorem name_of_compileRoutine {name source : String} {routine : Routine}
    (h : compileRoutine name source = .ok routine) : routine.name = some name := by
  obtain ⟨params, stmts, at_, _, rfl⟩ := Script.compileRoutine_eq_ok_iff.mp h
  rfl

/-- The runtime makes a function without locals of the routine that it compiles. -/
theorem compileFunction_eq_ok_iff {rt : Runtime} {name source : String} {handle : Value} :
    (rt.compileFunction name source).1 = .ok handle ↔
      ∃ routine, compileRoutine name source = .ok routine ∧ handle = .function routine rt.serial [] := by
  unfold Runtime.compileFunction
  generalize compileRoutine name source = compiled
  cases compiled with
  | error e => simp
  | ok routine => simp [eq_comm]

/-! ## Section 2: Registered Functions -/

/-- What holds of an entry of the registry: it has the name of its key, its handle is what its source compiles to,
and its name is bound. -/
structure Context.Registers (ctx : Context) (key : String) (f : RegisteredFunction) : Prop where
  name : f.name = key
  handle : ∃ routine serial, f.handle = .function routine serial [] ∧ compileRoutine key f.source = .ok routine
  bound : ctx.bindings.contains key = true

/-- All entries of the registry are sound. -/
def Context.Registered (ctx : Context) : Prop :=
  ∀ key f, (key, f) ∈ ctx.functions → ctx.Registers key f

private theorem Bindings.contains_iff {b : Bindings} {name : String} : b.contains name = true ↔ name ∈ b.names := by
  have hlookup : (b.values.lookup name).isSome = true ↔ name ∈ b.values.map Prod.fst := by
    simp [List.lookup_isSome_iff]
  exact hlookup

theorem Bindings.Grows.contains {b b' : Bindings} (h : b.Grows b') {name : String} (hname : b.contains name = true) :
    b'.contains name = true :=
  Bindings.contains_iff.mpr (h.names.subset (Bindings.contains_iff.mp hname))

namespace Context.Registered

variable {ctx ctx' : Context}

theorem new : Context.new.Registered := by
  intro key f hmem
  contradiction

/-- Names stay bound while the bindings grow. -/
theorem of_grows (h : ctx.Registered) (hbindings : ctx.bindings.Grows ctx'.bindings)
    (hfunctions : ctx'.functions = ctx.functions) : ctx'.Registered := by
  intro key f hmem
  rw [hfunctions] at hmem
  obtain ⟨hname, hhandle, hbound⟩ := h key f hmem
  exact ⟨hname, hhandle, hbindings.contains hbound⟩

theorem of_sameStore (h : ctx.Registered) (hsame : ctx.SameStore ctx') : ctx'.Registered :=
  h.of_grows (Context.Grows.of_sameStore hsame).bindings hsame.functions

end Context.Registered

/-! ## Section 3: Operations and Interactions -/

section Steps

variable {w w' : Workspace Runtime} {name source : String}

/-- A definition that succeeds binds a function and registers the same function under its source. -/
theorem Workspace.declareFunction_ok (h : w.declareFunction name source = (.ok (), w')) :
    ∃ routine bindings, compileRoutine name source = .ok routine ∧
      w.context.bindings.set name (.function routine w.engine.serial []) = .ok bindings ∧
      w'.context.bindings = bindings ∧
      w'.context.functions =
        w.context.functions.register ⟨name, source, .function routine w.engine.serial []⟩ := by
  rcases Workspace.declareFunction_cases w name source with ⟨handle, bindings, hcompile, hset, heq⟩ | ⟨_, _, heq⟩
  · obtain ⟨routine, hroutine, rfl⟩ := compileFunction_eq_ok_iff.mp hcompile
    obtain ⟨_, rfl⟩ := Prod.mk.inj (heq.symm.trans h)
    exact ⟨routine, bindings, hroutine, hset, rfl, rfl⟩
  · have hfault := (Prod.mk.inj (heq.symm.trans h)).1
    contradiction

/-- Right after a definition the name is bound to the handle in the registry. -/
theorem Workspace.handle_of_declareFunction (h : w.declareFunction name source = (.ok (), w')) :
    ∃ f, OrderedMap.get? w'.context.functions name = some f ∧ w'.context.bindings.get? name = some f.handle := by
  obtain ⟨routine, bindings, _, hset, hbindings, hfunctions⟩ := Workspace.declareFunction_ok h
  rw [hbindings, hfunctions, Bindings.values_of_set hset]
  exact ⟨_, OrderedMap.get?_insert_self _ _ _, OrderedMap.get?_insert_self _ _ _⟩

/-- A definition, whether it succeeds or not, leaves the registry sound. -/
theorem Context.Registered.declareFunction (hw : w.context.Registered) {r : Outcome Unit}
    (h : w.declareFunction name source = (r, w')) : w'.context.Registered := by
  cases r with
  | error e => exact Workspace.declareFunction_error h ▸ hw
  | ok u =>
    obtain ⟨routine, bindings, hroutine, hset, hbindings, hfunctions⟩ := Workspace.declareFunction_ok h
    have hgrows : w.context.bindings.Grows w'.context.bindings := hbindings ▸ Bindings.Grows.set hset
    intro key f hmem
    rw [hfunctions] at hmem
    rcases OrderedMap.eq_or_mem_of_mem_insert hmem with heq | hold
    · -- the entry that was written
      obtain ⟨rfl, rfl⟩ := Prod.mk.inj heq
      refine ⟨rfl, ⟨routine, _, rfl, hroutine⟩, ?_⟩
      rw [hbindings, Bindings.values_of_set hset]
      show (OrderedMap.get? _ _).isSome = true
      rw [OrderedMap.get?_insert_self]
      rfl
    · obtain ⟨hname, hhandle, hbound⟩ := hw key f hold
      exact ⟨hname, hhandle, hgrows.contains hbound⟩

/-- What is run or bound otherwise leaves the registry as it is. -/
theorem functions_of_runAtomic {code : String} {α : Type} {g : ScriptResult Value × Workspace Runtime → α} {a : α}
    (h : (w.runAtomic code).map (fun r => (g r, r.2)) = some (a, w')) :
    w'.context.functions = w.context.functions := by
  obtain ⟨⟨r, w₁⟩, hrun, heq⟩ := Option.map_eq_some_iff.mp h
  cases heq
  obtain ⟨_, _, _, ⟨_, _, rfl⟩ | ⟨_, _, rfl⟩⟩ := Workspace.runAtomic_cases hrun <;> rfl

/-- What is bound from outside leaves the registry as it is. -/
theorem functions_of_setVariable {v : Value} {r : Outcome Unit} (h : w.setVariable name v = (r, w')) :
    w'.context.functions = w.context.functions := by
  rcases Workspace.setVariable_cases w name v with ⟨bindings, _, heq⟩ | ⟨_, _, heq⟩
  · cases heq.symm.trans h
    rfl
  · cases heq.symm.trans h
    rfl

/-- An operation defines a function, or it leaves the registry as it is. -/
theorem Operation.functions_cases {op : Operation} {r : Outcome Unit} (h : op.run w = some (r, w')) :
    w'.context.functions = w.context.functions ∨ ∃ name source, w.declareFunction name source = (r, w') := by
  -- what is run changes the bindings only, also where it assigns over the name of a function
  cases op with
  | evaluate code =>
    left
    obtain ⟨⟨r, w₁⟩, hrun, heq⟩ := Option.map_eq_some_iff.mp h
    cases heq
    rw [Workspace.evaluate_eq] at hrun
    exact functions_of_runAtomic hrun
  | declareVariable name expr =>
    left
    obtain ⟨⟨r, w₁⟩, hrun, heq⟩ := Option.map_eq_some_iff.mp h
    cases heq
    cases hname : checkName name with
    | error e =>
      rw [Workspace.declareVariable_of_refused w hname] at hrun
      cases hrun
      rfl
    | ok u =>
      rw [Workspace.declareVariable_eq w hname] at hrun
      exact functions_of_runAtomic hrun
  | assign name expr =>
    left
    obtain ⟨⟨r, w₁⟩, hrun, heq⟩ := Option.map_eq_some_iff.mp h
    cases heq
    cases hname : checkName name with
    | error e =>
      rw [Workspace.assign_of_refused w hname] at hrun
      cases hrun
      rfl
    | ok u =>
      rw [Workspace.assign_eq w hname] at hrun
      exact functions_of_runAtomic hrun
  | declareFunction name source => exact Or.inr ⟨name, source, Option.some.inj h⟩
  | registerScript name body => exact Or.inr ⟨name, Workspace.scriptSource name body, Option.some.inj h⟩
  | setVariable name v => exact Or.inl (functions_of_setVariable (Option.some.inj h))

/-- One operation leaves the registry sound. -/
theorem Context.Registered.operation (hw : w.context.Registered) {op : Operation} {r : Outcome Unit}
    (h : op.run w = some (r, w')) : w'.context.Registered := by
  rcases Operation.functions_cases h with hsame | ⟨name, source, hdeclare⟩
  · exact hw.of_grows (Operation.grows h).bindings hsame
  · exact hw.declareFunction hdeclare

/-- One interaction leaves the registry sound. -/
theorem Context.Registered.interaction {s s' : Session Runtime} {i : Interaction} (hs : s.context.Registered)
    (h : s.interact i = some s') : s'.context.Registered := by
  rcases interact_cases h with hsame | ⟨op, r, w, w', hw, hrun, hs'⟩
  · exact hs.of_sameStore hsame
  · -- the interaction does to both stores what one operation does
    exact ((hs.of_sameStore hw).operation hrun).of_sameStore hs'

end Steps

/-! ## Section 4: Reachable Contexts -/

/-- The contexts to which operations and interactions lead from a new one, in any order and number. -/
inductive Context.Reachable : Context → Prop where
  | new : Reachable Context.new
  | operation {w w' : Workspace Runtime} {op : Operation} {r : Outcome Unit} :
    Reachable w.context → op.run w = some (r, w') → Reachable w'.context
  | interaction {s s' : Session Runtime} {i : Interaction} :
    Reachable s.context → s.interact i = some s' → Reachable s'.context

theorem Context.Reachable.interactAll {s s' : Session Runtime} {is : List Interaction} (hs : s.context.Reachable)
    (h : s.interactAll is = some s') : s'.context.Reachable := by
  induction is generalizing s with
  | nil =>
    cases h
    exact hs
  | cons i rest ih =>
    simp only [Session.interactAll] at h
    split at h
    · contradiction
    · next s₁ hi => exact ih (hs.interaction hi) h

/-- What is reached has grown from a new context. -/
theorem Context.Reachable.grows {ctx : Context} (h : ctx.Reachable) : Context.new.Grows ctx := by
  induction h with
  | new => exact Context.Grows.refl _
  | operation _ hrun ih => exact ih.trans (Operation.grows hrun)
  | interaction _ hrun ih => exact ih.trans (interact_grows hrun)

/-- The registry is sound wherever operations and interactions lead. -/
theorem Context.Reachable.registered {ctx : Context} (h : ctx.Reachable) : ctx.Registered := by
  induction h with
  | new => exact Context.Registered.new
  | operation _ hrun ih => exact ih.operation hrun
  | interaction _ hrun ih => exact ih.interaction hrun

/-- In every reachable context each entry of the registry has the name of its key, its handle is a named function
without locals of its own, its source compiles to that function again, and its name is bound. Right after a
definition, typed or registered, the name is bound to the handle in the registry. -/
theorem Context.Reachable.registry {ctx : Context} (h : ctx.Reachable) :
    (∀ key f, (key, f) ∈ ctx.functions →
      f.name = key ∧
      (∃ (routine : Routine) (serial : Nat), f.handle = .function routine serial [] ∧ routine.name = some key ∧
        ∀ rt : Runtime, (rt.compileFunction key f.source).1 = .ok (.function routine rt.serial [])) ∧
      ctx.bindings.contains key = true) ∧
    ∀ (rt : Runtime) (key : String),
      (∀ source w', Workspace.declareFunction ⟨rt, ctx⟩ key source = (.ok (), w') →
        ∃ f, OrderedMap.get? w'.context.functions key = some f ∧ w'.context.bindings.get? key = some f.handle) ∧
      ∀ body w', Workspace.registerScript ⟨rt, ctx⟩ key body = (.ok (), w') →
        ∃ f, OrderedMap.get? w'.context.functions key = some f ∧ w'.context.bindings.get? key = some f.handle := by
  constructor
  · intro key f hmem
    -- The invariant of reachable contexts has all of this but for the engine that compiles.
    obtain ⟨hname, ⟨routine, serial, hhandle, hroutine⟩, hbound⟩ := h.registered key f hmem
    refine ⟨hname, ⟨routine, serial, hhandle, name_of_compileRoutine hroutine, fun rt => ?_⟩, hbound⟩
    exact compileFunction_eq_ok_iff.mpr ⟨routine, hroutine, rfl⟩
  · intro rt key
    exact ⟨fun source w' hdeclare => Workspace.handle_of_declareFunction hdeclare,
      fun body w' hregister => Workspace.handle_of_declareFunction hregister⟩

/-- A function that is typed, defined anew with a parameter and then assigned over, one that is registered from a bare
body, and a definition that fails: two entries are left, and the name that was assigned over is still bound. -/
theorem Context.Reachable.registry_redefined :
    let s₀ : Session Runtime := Session.new { fuel := 30 } {}
    let is : List Interaction :=
      [.line "def f() \x7b 1 \x7d", .registerScript "g" "f() + 1", .line "def f(n) \x7b n \x7d", .line "def g( \x7b \x7d",
        .evaluation "f = 5"]
    ∃ s f, s₀.interactAll is = some s ∧ OrderedMap.keys s.context.functions = ["f", "g"] ∧
      OrderedMap.get? s.context.functions "f" = some f ∧ f.source = "def f(n) \x7b n \x7d" ∧
      s.context.Reachable ∧ f.name = "f" ∧
      (∃ (routine : Routine) (serial : Nat), f.handle = .function routine serial [] ∧ routine.name = some "f" ∧
        ∀ rt : Runtime, (rt.compileFunction "f" f.source).1 = .ok (.function routine rt.serial [])) ∧
      s.context.bindings.contains "f" = true := by
  intro s₀ is
  -- The last definition of `f` that compiled is the one that is registered; binding `f` by code leaves it there.
  have hrun : (s₀.interactAll is).map (fun s =>
      (OrderedMap.keys s.context.functions, (OrderedMap.get? s.context.functions "f").map RegisteredFunction.source)) =
      some (["f", "g"], some "def f(n) \x7b n \x7d") := by decide +kernel
  obtain ⟨s, h, hfunctions⟩ := Option.map_eq_some_iff.mp hrun
  obtain ⟨hkeys, hsource⟩ := Prod.mk.inj hfunctions
  obtain ⟨f, hf, hsource⟩ := Option.map_eq_some_iff.mp hsource
  have hreachable : s.context.Reachable := Context.Reachable.new.interactAll (s := s₀) h
  obtain ⟨hname, hhandle, hbound⟩ := hreachable.registry.1 "f" f (OrderedMap.mem_of_get? hf)
  exact ⟨s, f, h, hkeys, hf, hsource, hreachable, hname, hhandle, hbound⟩

end RowConsole.Session
