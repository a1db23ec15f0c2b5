import RowConsole.Proofs.Script.Variables

/-!
# Closures

A closure keeps the locals that are in sight where it is made, with the values they have there. Its body starts in a
frame of its own, with the parameters over a copy of these locals: neither what has become of the variables since then,
nor the frame from which it is called, nor its earlier calls make a difference to what a name stands for.

Main statements: `closure_environment`, and `distinct_of_runBlock`, that each scope binds a name once wherever a program
gets.
-/

namespace RowConsole.Script

/-! ## Section 1: What Is Captured -/

/-- Each scope of a frame binds a name once, as a map does. -/
def Frame.Distinct (frame : Frame) : Prop :=
  ∀ scope ∈ frame.scopes, (OrderedMap.keys scope).Nodup

private theorem flattenScopes_cons (scope : Scope) (outer : List Scope) :
    flattenScopes (scope :: outer) = OrderedMap.merge (flattenScopes outer) scope := by
  simp [flattenScopes]

/-- A name is bound in the flattened scopes as it is found in them. -/
theorem get?_flattenScopes {scopes : List Scope} (h : ∀ scope ∈ scopes, (OrderedMap.keys scope).Nodup) (name : String) :
    OrderedMap.get? (flattenScopes scopes) name = lookupScopes name scopes := by
  induction scopes with
  | nil => rfl
  | cons scope outer ih =>
    obtain ⟨hscope, houter⟩ := List.forall_mem_cons.mp h
    rw [flattenScopes_cons, OrderedMap.get?_merge hscope, ih houter, lookupScopes, lookupScopes, List.findSome?_cons]
    cases OrderedMap.get? scope name <;> rfl

private theorem nodup_keys_flattenScopes (scopes : List Scope) : (OrderedMap.keys (flattenScopes scopes)).Nodup := by
  induction scopes with
  | nil => exact List.nodup_nil
  | cons scope outer ih =>
    rw [flattenScopes_cons]
    exact OrderedMap.nodup_keys_merge ih scope

/-! ## Section 2: Parameters -/

/-- Whether a call of a routine binds a name: a parameter, or `it` if a closure has none. -/
def Routine.binds (routine : Routine) (name : String) : Prop :=
  name ∈ routine.params ∨ routine.isClosure = true ∧ routine.params = [] ∧ name = "it"

private theorem isSome_get?_bindParams (params : List String) (args : List Value) (scope : Scope) (name : String) :
    (OrderedMap.get? (bindParams params args scope) name).isSome = true ↔
      name ∈ params ∨ (OrderedMap.get? scope name).isSome = true := by
  induction params generalizing args scope with
  | nil => simp [bindParams]
  | cons param params ih =>
    rw [bindParams, ih, OrderedMap.get?_insert]
    by_cases hname : name = param <;> simp [hname]

/-- The scope of a call binds the parameters and nothing else. -/
theorem isSome_get?_paramScope (routine : Routine) (args : List Value) (name : String) :
    (OrderedMap.get? (paramScope routine args) name).isSome = true ↔ routine.binds name := by
  rw [paramScope, isSome_get?_bindParams, Routine.binds]
  apply or_congr_right
  have hit : (OrderedMap.get? [("it", args.head?.getD Value.null)] name).isSome = true ↔ name = "it" := by
    rw [OrderedMap.get?_cons]
    split <;> simp_all [OrderedMap.get?]
  by_cases himplicit : (routine.isClosure && routine.params.isEmpty) = true
  · rw [if_pos himplicit, hit]
    simp_all
  · rw [if_neg himplicit]
    simp_all [OrderedMap.get?]

private theorem get?_paramScope_of_not_binds {routine : Routine} {name : String} (h : ¬ routine.binds name)
    (args : List Value) :
    OrderedMap.get? (paramScope routine args) name = none := by
  rw [← Option.not_isSome_iff_eq_none, isSome_get?_paramScope]
  exact h

private theorem nodup_keys_bindParams (params : List String) (args : List Value) {scope : Scope}
    (h : (OrderedMap.keys scope).Nodup) : (OrderedMap.keys (bindParams params args scope)).Nodup := by
  induction params generalizing args scope with
  | nil => exact h
  | cons param params ih => exact ih args.tail (OrderedMap.nodup_keys_insert h param _)

/-- The scopes in which a body starts are maps if what is captured is one. -/
theorem distinct_bodyFrame (routine : Routine) {captured : OrderedMap Value} (args : List Value)
    (h : (OrderedMap.keys captured).Nodup) : (bodyFrame routine captured args).Distinct := by
  have hparams : (OrderedMap.keys (paramScope routine args)).Nodup := by
    apply nodup_keys_bindParams
    split <;> simp [OrderedMap.keys]
  simpa [Frame.Distinct, bodyFrame] using ⟨hparams, h⟩

/-! ## Section 3: Statements -/

section Statements

variable {γ : Type} [Globals γ] {limit fuel : Nat}

omit [Globals γ] in
private theorem distinct_rebindScopes? {scopes rebound : List Scope} {name : String} {v : Value}
    (h : ∀ scope ∈ scopes, (OrderedMap.keys scope).Nodup) (hrebind : rebindScopes? name v scopes = some rebound) :
    ∀ scope ∈ rebound, (OrderedMap.keys scope).Nodup := by
  rw [rebindScopes?_eq] at hrebind
  obtain ⟨depth, _, hset⟩ := Option.bind_eq_some_iff.mp hrebind
  obtain ⟨found, hfound, rfl⟩ := Option.map_eq_some_iff.mp hset
  intro scope hscope
  rcases List.mem_or_eq_of_mem_set hscope with hkept | rfl
  · exact h scope hkept
  · exact OrderedMap.nodup_keys_insert (h found (List.mem_of_getElem? hfound)) name v

/-- A name that is written in a scope is written once. -/
theorem stable_distinct : Stable Standard.anything fun m : Machine γ => m.frame.Distinct where
  lookup _ _ := Value.meets_anything _
  locals _ _ _ := Value.meets_anything _
  assigned h _ _ := h
  declared := by
    intro m name v scope outer h _ hscopes
    rw [Frame.Distinct, hscopes] at h
    obtain ⟨hscope, houter⟩ := List.forall_mem_cons.mp h
    exact List.forall_mem_cons.mpr ⟨OrderedMap.nodup_keys_insert hscope name v, houter⟩
  rebound h _ hrebind := distinct_rebindScopes? h hrebind
  written _ h := h
  counted h := h

private theorem holds_eval_distinct (e : Expr) :
    Mode.whenever.Holds (fun m : Machine γ => m.frame.Distinct) (fun _ => eval limit fuel e)
      (Value.Meets .anything) := by
  refine Mode.Holds.of_each fun m hm => ⟨Exactly m.frame m.callers, ⟨rfl, rfl⟩, fun m' hm' => ?_, ?_⟩
  · rw [hm'.frame_eq]
    exact hm
  · exact (holds_eval_exactly m.frame m.callers e).mono fun v _ => v.meets_anything

private theorem holds_store_distinct (target : Expr) (v : Value) (p : Pos) :
    Mode.whenever.Holds (fun m : Machine γ => m.frame.Distinct) (fun _ => store limit fuel target v p)
      fun _ => True := by
  induction fuel generalizing target v p with
  | zero => exact whenever_exhausted
  | succ fuel ih =>
    exact Mode.Holds.storeWith stable_distinct v.meets_anything p (fun e _ => holds_eval_distinct e)
      fun e _ v p _ => ih e v p

private theorem holds_exec_distinct (s : Stmt) :
    Mode.whenever.Holds (fun m : Machine γ => m.frame.Distinct) (fun _ => exec limit fuel s)
      (Flow.Meets .anything) := by
  induction fuel generalizing s with
  | zero => exact whenever_exhausted
  | succ fuel ih =>
    -- a block binds nothing when it is opened, and the body of a loop one name
    have hinner : ∀ scope body, (OrderedMap.keys scope).Nodup →
        Mode.whenever.Holds (fun m : Machine γ => m.frame.Distinct)
          (fun _ => runScoped (exec limit fuel) scope body) (Flow.Meets .anything) := by
      intro scope body hscope
      apply Mode.Holds.runScoped fun s _ => ih s
      · exact fun m hm => List.forall_mem_cons.mpr ⟨hscope, hm⟩
      · exact fun m hm outer houter => hm outer (List.mem_of_mem_tail houter)
    apply Mode.Holds.execWith stable_distinct
    · exact fun e _ => holds_eval_distinct e
    · exact fun e _ v p _ => holds_store_distinct e v p
    · exact fun scope body _ hscope _ => hinner scope body hscope
    · intro cond body _
      refine Mode.Holds.runWhile whenever_exhausted ?_ (hinner [] body List.nodup_nil) .null
      exact (holds_eval_distinct cond).mono fun _ _ => trivial
    · exact fun _ _ _ _ _ => trivial

/-- Statements leave maps where they have found maps, whatever they call. The top level starts without any scopes, and
the body of a closure with two that are maps, so that a closure is made among maps wherever that is. -/
theorem distinct_of_runBlock {last : Value} {body : List Stmt} {m m' : Machine γ} {r : Attempt Flow}
    (h : m.frame.Distinct) (hrun : runBlock (exec limit fuel) last body m = some (r, m')) : m'.frame.Distinct := by
  have hblock : Mode.whenever.Holds (fun m : Machine γ => m.frame.Distinct)
      (fun _ => runBlock (exec limit fuel) last body) (Flow.Meets .anything) :=
    Mode.Holds.runBlock (fun s _ => holds_exec_distinct s) last.meets_anything
  exact (hblock m h (r, m') hrun).1

end Statements

/-! ## Section 4: Calls -/

section Calls

variable {γ : Type}

/-- The machine on which the body of a routine starts. -/
def Machine.entered (m : Machine γ) (routine : Routine) (captured : OrderedMap Value) (args : List Value) : Machine γ :=
  { m with frame := bodyFrame routine captured args, callers := m.frame :: m.callers }

/-- What a call makes of the outcome of the body. -/
def Routine.returned (routine : Routine) (p : Pos) (r : Attempt Flow) : Attempt Value :=
  (r.bind Flow.result).mapError (·.inCall routine.displayName p)

/-- A routine is called with as many arguments as it has parameters, a closure with any number. -/
theorem callRoutine_apply {limit : Nat} {block : List Stmt → Run γ Flow} {routine : Routine}
    {captured : OrderedMap Value} {args : List Value} {p : Pos} {m : Machine γ} (hclosure : routine.isClosure = true)
    (hdepth : m.depth < limit) :
    callRoutine limit block routine captured args p m =
      (block routine.body (m.entered routine captured args)).map fun o => (routine.returned p o.1, o.2.popFrame) := by
  have hroom : ¬ limit ≤ m.depth := Nat.not_le_of_lt hdepth
  have hrun : callRoutine limit block routine captured args p m =
      (Run.mapFailure (fun e => e.inCall routine.displayName p) (do
        let flow ← withFrame (bodyFrame routine captured args) (block routine.body)
        Run.ofResult flow.result)) m := by
    show (if limit ≤ m.depth then _ else if _ then _ else _ : Run γ Value) m = _
    -- only named functions insist on the number of their arguments
    rw [if_neg hroom, hclosure]
    rfl
  rw [hrun, Run.mapFailure_apply, Run.bind_apply, Run.withFrame_apply]
  show (((block routine.body (m.entered routine captured args)).bind _).bind _).bind _ = _
  cases block routine.body (m.entered routine captured args) with
  | none => rfl
  | some o =>
    obtain ⟨r, m'⟩ := o
    cases r with
    | error e => rfl
    | ok flow => cases flow <;> rfl

private theorem callRoutine_tooDeep {limit : Nat} {block : List Stmt → Run γ Flow} {routine : Routine}
    {captured : OrderedMap Value} {args : List Value} {p : Pos} {m : Machine γ} (hdepth : limit ≤ m.depth) :
    callRoutine limit block routine captured args p m =
      some (failureAt (.callTooDeep limit) p, m) := by
  show (if limit ≤ m.depth then _ else _ : Run γ Value) m = _
  rw [if_pos hdepth]
  rfl

variable [Globals γ]

/-- In the body of a routine, a name is a parameter, or else captured, or else a global or a builtin function. -/
theorem lookup_entered (m : Machine γ) (routine : Routine) (captured : OrderedMap Value) (args : List Value)
    (name : String) :
    (m.entered routine captured args).lookup name =
      (((OrderedMap.get? (paramScope routine args) name).or (OrderedMap.get? captured name)).or
        (Globals.lookup m.globals name)).or ((Builtin.ofName? name).map .builtin) := by
  have hscopes : lookupScopes name (m.entered routine captured args).frame.scopes =
      (OrderedMap.get? (paramScope routine args) name).or (OrderedMap.get? captured name) := by
    simp only [lookupScopes, Machine.entered, bodyFrame, List.findSome?_cons, List.findSome?_nil]
    cases OrderedMap.get? (paramScope routine args) name <;> cases OrderedMap.get? captured name <;> rfl
  have hglobals : (m.entered routine captured args).globals = m.globals := rfl
  rw [Machine.lookup, hscopes, hglobals]
  cases (OrderedMap.get? (paramScope routine args) name).or (OrderedMap.get? captured name) with
  | some v => rfl
  | none => cases Globals.lookup m.globals name <;> rfl

end Calls

/-! ## Section 5: The Environment of a Closure -/

variable {γ : Type} [Globals γ]

/-- A closure captures the locals in sight, and no other name, with the values that they have where it is made. Every
call of it, on whatever machine, runs its body from a machine on which a captured name has the value that was captured,
unless it is a parameter, and a name that is neither is a global of the calling machine or a builtin function. -/
theorem closure_environment (m : Machine γ) (hdistinct : m.frame.Distinct) (params : List String) (body : List Stmt)
    (q : Pos) :
    let routine : Routine := ⟨none, params, body⟩
    ∃ captured : OrderedMap Value,
      (∀ limit fuel, eval limit (fuel + 1) (.closure params body q) m =
        some (.ok (.function routine m.serial captured), { m with serial := m.serial + 1 })) ∧
      (∀ name, OrderedMap.get? captured name = lookupScopes name m.frame.scopes) ∧
      (∀ name v, OrderedMap.get? captured name = some v → m.lookup name = some v) ∧
      ∀ (later : Machine γ) (args : List Value),
        (∀ limit fuel p, call limit fuel p (.function routine m.serial captured) args later =
          if limit ≤ later.depth then some (failureAt (.callTooDeep limit) p, later)
          else (runBlock (exec limit fuel) .null body (later.entered routine captured args)).map fun o =>
            (routine.returned p o.1, o.2.popFrame)) ∧
        (∀ name v, OrderedMap.get? captured name = some v → ¬ routine.binds name →
          (later.entered routine captured args).lookup name = some v) ∧
        (∀ name, OrderedMap.get? captured name = none → ¬ routine.binds name →
          (later.entered routine captured args).lookup name =
            (Globals.lookup later.globals name).or ((Builtin.ofName? name).map .builtin)) ∧
        (later.entered routine captured args).frame.Distinct := by
  intro routine
  -- Capturing flattens the scopes, which keeps what each name finds in them.
  have hcaptured : ∀ name, OrderedMap.get? (flattenScopes m.frame.scopes) name = lookupScopes name m.frame.scopes :=
    get?_flattenScopes hdistinct
  refine ⟨flattenScopes m.frame.scopes, fun limit fuel => rfl, hcaptured, ?_, fun later args => ⟨?_, ?_, ?_, ?_⟩⟩
  · intro name v hv
    rw [hcaptured] at hv
    rw [Machine.lookup, hv]
  · intro limit fuel p
    split
    · next hdeep => exact callRoutine_tooDeep hdeep
    · next hroom => exact callRoutine_apply rfl (Nat.lt_of_not_le hroom)
  · intro name v hv hfree
    rw [lookup_entered, get?_paramScope_of_not_binds hfree, hv]
    rfl
  · intro name hnone hfree
    rw [lookup_entered, get?_paramScope_of_not_binds hfree, hnone]
    rfl
  · exact distinct_bodyFrame routine args (nodup_keys_flattenScopes _)

/-- A closure that is made inside a loop of a function, where `x` is bound twice and a global is hidden, and that is
called at the top level when all of these names stand for something else. -/
theorem closure_environment_shadowed :
    let body : List Stmt :=
      [.assign (.var "x" ⟨3, 9⟩) .add (.var "n" ⟨3, 14⟩) ⟨3, 11⟩,
        .expr (.list [.var "x" ⟨4, 2⟩, .var "y" ⟨4, 5⟩, .var "z" ⟨4, 8⟩])]
    let routine : Routine := ⟨none, ["n"], body⟩
    let m : Machine (OrderedMap Value) :=
      { globals := [("x", .int 0), ("z", .int 3)], output := {}, serial := 7
        frame := ⟨[[("x", .int 1)], [("x", .int 9), ("y", .int 2), ("n", .int 5)]], false⟩, callers := [⟨[], true⟩] }
    let later : Machine (OrderedMap Value) :=
      { Machine.start [("x", .null), ("y", .null), ("z", .int 30)] 8 with output := { text := "done" } }
    m.frame.Distinct ∧ ∃ captured : OrderedMap Value,
      eval 100 1 (.closure ["n"] body ⟨3, 1⟩) m =
        some (.ok (.function routine 7 captured), { m with serial := 8 }) ∧
      OrderedMap.get? captured "x" = some (.int 1) ∧
      (later.entered routine captured [.int 10]).lookup "y" = some (.int 2) ∧
      (later.entered routine captured [.int 10]).lookup "z" = some (.int 30) ∧
      call 100 20 ⟨9, 1⟩ (.function routine 7 captured) [.int 10] later =
        some (.ok (.list [.int 11, .int 2, .int 30]), later) := by
  intro body routine m later
  have hdistinct : m.frame.Distinct := by
    unfold Frame.Distinct
    decide
  obtain ⟨captured, heval, hcaptured, _, hcalls⟩ := closure_environment m hdistinct ["n"] body ⟨3, 1⟩
  obtain ⟨hcall, hkept, hcurrent, _⟩ := hcalls later [.int 10]
  have hfree : ∀ name, name ≠ "n" → ¬ routine.binds name := by
    rintro name hname (hparam | ⟨_, hnone, _⟩)
    · exact hname (List.mem_singleton.mp hparam)
    · contradiction
  refine ⟨hdistinct, captured, heval 100 0, (hcaptured "x").trans rfl, ?_, ?_, ?_⟩
  · exact hkept "y" (.int 2) ((hcaptured "y").trans rfl) (hfree "y" (by decide))
  · exact hcurrent "z" ((hcaptured "z").trans rfl) (hfree "z" (by decide))
  · -- the closure that was made is this one
    obtain rfl : captured = [("x", .int 1), ("y", .int 2), ("n", .int 5)] := by
      have hvalue := heval 100 0
      cases hvalue
      rfl
    rw [hcall]
    rfl

end RowConsole.Script
