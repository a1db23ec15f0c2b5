import RowConsole.Proofs.Script.Assignment.Once
import RowConsole.Proofs.Script.FrameIsolation

/-!
# Variables

A variable is a place that holds the value of a name: a scope of some frame, or the globals. Which of them a name
stands for is settled by the scopes of the innermost frame, the innermost first. A write changes one variable and no
other one; an expression, whatever it calls, changes no variable but globals.

Main statement: `exec_readBack`, what a name stands for behind a declaration or an assignment that has succeeded.
-/

namespace RowConsole.Script

/-! ## Section 1: Variables -/

/-- A place that holds the value of a name: a scope, found by its frame and its depth in it, or the globals. -/
inductive Variable where
  | inScope (frame depth : Nat) (name : String)
  | global (name : String)
  deriving DecidableEq

variable {γ : Type} [Globals γ]

/-- The value that a variable holds, if it is bound. Frames are counted from the innermost one. -/
def Machine.valueAt (m : Machine γ) : Variable → Option Value
  | .inScope frame depth name =>
    (m.frame :: m.callers)[frame]?.bind fun f => f.scopes[depth]?.bind fun scope => OrderedMap.get? scope name
  | .global name => Globals.lookup m.globals name

/-- The variable that a name stands for: the innermost local of that name, or else the global. -/
def Machine.resolve (m : Machine γ) (name : String) : Variable :=
  match m.frame.scopes.findIdx? (OrderedMap.contains · name) with
  | some depth => .inScope 0 depth name
  | none => .global name

/-- The variable that a declaration of a name binds: a local of a call, or a global in the frame of the top level. -/
def Machine.declared (m : Machine γ) (name : String) : Variable :=
  if m.frame.topLevel || m.frame.scopes.isEmpty then .global name else .inScope 0 0 name

section Resolving

variable {m m' : Machine γ} {name : String}

private theorem findIdx?_contains_iff {depth : Nat} :
    m.frame.scopes.findIdx? (OrderedMap.contains · name) = some depth ↔
      (m.valueAt (.inScope 0 depth name)).isSome = true ∧
        ∀ outer < depth, (m.valueAt (.inScope 0 outer name)).isSome = false := by
  have hcontains : ∀ i (hi : i < m.frame.scopes.length),
      (m.valueAt (.inScope 0 i name)).isSome = OrderedMap.contains m.frame.scopes[i] name := by
    intro i hi
    simp [Machine.valueAt, OrderedMap.contains, hi]
  rw [List.findIdx?_eq_some_iff_getElem]
  constructor
  · rintro ⟨hdepth, hfound, hbefore⟩
    refine ⟨by rw [hcontains depth hdepth, hfound], fun i hi => ?_⟩
    rw [hcontains i (Nat.lt_trans hi hdepth)]
    simpa using hbefore i hi
  · rintro ⟨hfound, hbefore⟩
    -- where there is no scope, nothing is bound
    have hdepth : depth < m.frame.scopes.length := by
      refine Nat.lt_of_not_le fun hout => ?_
      simp [Machine.valueAt, hout] at hfound
    refine ⟨hdepth, by rw [← hcontains depth hdepth, hfound], fun i hi => ?_⟩
    rw [← hcontains i (Nat.lt_trans hi hdepth), hbefore i hi]
    simp

/-- A name stands for the same variable on machines on which it is bound in the same scopes. -/
theorem resolve_congr
    (h : ∀ depth, (m'.valueAt (.inScope 0 depth name)).isSome = (m.valueAt (.inScope 0 depth name)).isSome) :
    m'.resolve name = m.resolve name := by
  have hfind : m'.frame.scopes.findIdx? (OrderedMap.contains · name) =
      m.frame.scopes.findIdx? (OrderedMap.contains · name) := by
    ext depth
    simp only [findIdx?_contains_iff, h]
  rw [Machine.resolve, Machine.resolve, hfind]

/-- A name stands for a local only if that is bound. -/
theorem isSome_valueAt_resolve {frame depth : Nat} {other : String} (h : m.resolve name = .inScope frame depth other) :
    (m.valueAt (m.resolve name)).isSome = true := by
  rw [Machine.resolve] at h ⊢
  split at h
  · next found hfound =>
    exact (findIdx?_contains_iff.mp hfound).1
  · contradiction

omit [Globals γ] in
theorem resolve_ne {other : String} (h : other ≠ name) : m.resolve other ≠ m'.resolve name := by
  intro heq
  rw [Machine.resolve, Machine.resolve] at heq
  split at heq <;> split at heq <;> simp_all

omit [Globals γ] in
/-- Looking a name up in some scopes is reading it in the first one that binds it. -/
theorem lookupScopes_eq (name : String) (scopes : List Scope) :
    lookupScopes name scopes =
      (scopes.findIdx? (OrderedMap.contains · name)).bind fun depth =>
        scopes[depth]?.bind fun scope => OrderedMap.get? scope name := by
  induction scopes with
  | nil => rfl
  | cons scope outer ih =>
    rw [lookupScopes, List.findSome?_cons, List.findIdx?_cons, OrderedMap.contains]
    cases hfound : OrderedMap.get? scope name with
    | some v => simp [hfound]
    | none =>
      rw [lookupScopes] at ih
      simp only [ih, Option.isSome_none, Bool.false_eq_true, ↓reduceIte, Option.bind_map, Function.comp_def,
        List.getElem?_cons_succ]

private theorem resolve_of_lookupScopes_none (h : lookupScopes name m.frame.scopes = none) :
    m.resolve name = .global name := by
  cases hfind : m.frame.scopes.findIdx? (OrderedMap.contains · name) with
  | none => rw [Machine.resolve, hfind]
  | some depth =>
    -- a scope that binds the name has a value for it
    obtain ⟨hbound, _⟩ := findIdx?_contains_iff.mp hfind
    rw [lookupScopes_eq, hfind] at h
    have hvalue : m.valueAt (.inScope 0 depth name) = none := h
    rw [hvalue] at hbound
    contradiction

private theorem resolve_of_lookupScopes_some {v : Value} (h : lookupScopes name m.frame.scopes = some v) :
    ∃ depth, m.resolve name = .inScope 0 depth name ∧ m.valueAt (.inScope 0 depth name) = some v := by
  rw [lookupScopes_eq] at h
  obtain ⟨depth, hfind, hvalue⟩ := Option.bind_eq_some_iff.mp h
  refine ⟨depth, ?_, hvalue⟩
  rw [Machine.resolve, hfind]

/-- A name is looked up in the variable that it stands for; only a global that is not bound gives way to a builtin
function. -/
theorem Machine.lookup_eq (m : Machine γ) (name : String) :
    m.lookup name = (m.valueAt (m.resolve name)).or ((Builtin.ofName? name).map .builtin) := by
  rw [Machine.lookup]
  cases hlocal : lookupScopes name m.frame.scopes with
  | some v =>
    obtain ⟨depth, hresolve, hvalue⟩ := resolve_of_lookupScopes_some hlocal
    simp [hresolve, hvalue]
  | none =>
    rw [resolve_of_lookupScopes_none hlocal, Machine.valueAt]
    cases Globals.lookup m.globals name <;> rfl

private theorem lookup_of_valueAt {v : Value} (h : m.valueAt (m.resolve name) = some v) : m.lookup name = some v := by
  simp [Machine.lookup_eq, h]

end Resolving

/-! ## Section 2: Writes -/

/-- One variable holds a value, which need not be the one from before, and all other variables hold what they held;
nothing is written to the output, and no frame or function is made. -/
structure Machine.Writes (m : Machine γ) (target : Variable) (v : Value) (m' : Machine γ) : Prop where
  written : m'.valueAt target = some v
  kept : ∀ other, other ≠ target → m'.valueAt other = m.valueAt other
  output_eq : m'.output = m.output
  serial_eq : m'.serial = m.serial
  callers_eq : m'.callers = m.callers
  topLevel_eq : m'.frame.topLevel = m.frame.topLevel

namespace Machine.Writes

variable {m m' : Machine γ} {target : Variable} {v : Value}

/-- A write to a variable that is bound already, or to a global, leaves what all names stand for. -/
theorem resolve_eq (h : m.Writes target v m')
    (hbound : ∀ frame depth name, target = .inScope frame depth name → (m.valueAt target).isSome = true) (name : String) :
    m'.resolve name = m.resolve name := by
  apply resolve_congr
  intro depth
  by_cases htarget : .inScope 0 depth name = target
  · rw [htarget, h.written, hbound 0 depth name htarget.symm]
    rfl
  · rw [h.kept _ htarget]

/-- A write into the innermost scope makes its name stand for what was written. -/
theorem resolve_innermost {name : String} (h : m.Writes (.inScope 0 0 name) v m') :
    m'.resolve name = .inScope 0 0 name := by
  have hfind : m'.frame.scopes.findIdx? (OrderedMap.contains · name) = some 0 := by
    rw [findIdx?_contains_iff, h.written]
    simp
  rw [Machine.resolve, hfind]

/-- A write into a scope of the innermost frame. -/
theorem of_scope {depth : Nat} (hdepth : depth < m.frame.scopes.length) (name : String) (v : Value) :
    m.Writes (.inScope 0 depth name) v
      { m with frame :=
        { m.frame with scopes := m.frame.scopes.set depth (OrderedMap.insert m.frame.scopes[depth] name v) } } := by
  refine ⟨?_, ?_, rfl, rfl, rfl, rfl⟩
  · simp [Machine.valueAt, hdepth]
  · intro other hother
    -- Globals and other frames are left alone; within the frame the scope and then the name tell the places apart.
    cases other with
    | global other => rfl
    | inScope frame place other =>
      cases frame with
      | succ frame => rfl
      | zero =>
        by_cases hplace : depth = place
        · subst hplace
          have hname : other ≠ name := fun heq => hother (heq ▸ rfl)
          simp [Machine.valueAt, hdepth, OrderedMap.get?_insert_of_ne _ _ hname]
        · simp [Machine.valueAt, List.getElem?_set_ne hplace]

private theorem of_assign {globals : γ} {name : String} (h : Globals.assign m.globals name v = .ok globals) :
    m.Writes (.global name) v { m with globals := globals } := by
  refine ⟨?_, ?_, rfl, rfl, rfl, rfl⟩
  · simp [Machine.valueAt, Globals.lookup_assign h]
  · intro other hother
    cases other with
    | inScope frame depth other => rfl
    | global other =>
      have hname : other ≠ name := fun heq => hother (heq ▸ rfl)
      simp [Machine.valueAt, Globals.lookup_assign h, hname]

end Machine.Writes

/-- A step either writes a variable or fails, and then it leaves the machine as it is. -/
def Run.WritesOrFails (run : Run γ Unit) (target : Variable) (v : Value) (m : Machine γ) : Prop :=
  (∃ m', run m = some (.ok (), m') ∧ m.Writes target v m') ∨ ∃ e, run m = some (.error (.script e), m)

section Steps

variable (name : String) (v : Value) (m : Machine γ)

private theorem assignGlobal_writes : (assignGlobal name v).WritesOrFails (.global name) v m := by
  cases hassign : Globals.assign m.globals name v with
  | ok globals =>
    refine .inl ⟨{ m with globals := globals }, ?_, .of_assign hassign⟩
    rw [assignGlobal, Run.get_apply, hassign]
    rfl
  | error reason =>
    refine .inr ⟨{ cause := .rejectedName reason }, ?_⟩
    rw [assignGlobal, Run.get_apply, hassign]
    rfl

omit [Globals γ] in
/-- Rebinding a name replaces it in the first scope that binds it. -/
theorem rebindScopes?_eq (scopes : List Scope) :
    rebindScopes? name v scopes =
      (scopes.findIdx? (OrderedMap.contains · name)).bind fun depth =>
        scopes[depth]?.map fun scope => scopes.set depth (OrderedMap.insert scope name v) := by
  induction scopes with
  | nil => rfl
  | cons scope outer ih =>
    rw [rebindScopes?, List.findIdx?_cons]
    cases OrderedMap.contains scope name with
    | true => simp
    | false =>
      simp only [Bool.false_eq_true, ↓reduceIte, ih, Option.map_bind, Function.comp_def, Option.map_map, Option.bind_map,
        List.set_cons_succ, List.getElem?_cons_succ]

/-- An assignment writes the variable that the name stands for. -/
theorem assignName_writes : (assignName name v).WritesOrFails (m.resolve name) v m := by
  rw [Run.WritesOrFails, assignName, Run.get_apply, rebindScopes?_eq, Machine.resolve]
  cases hfind : m.frame.scopes.findIdx? (OrderedMap.contains · name) with
  | none => exact assignGlobal_writes name v m
  | some depth =>
    obtain ⟨hdepth, _⟩ := List.findIdx?_eq_some_iff_getElem.mp hfind
    have hscope : m.frame.scopes[depth]? = some m.frame.scopes[depth] := List.getElem?_eq_getElem hdepth
    simp only [Option.bind_some, hscope, Option.map_some]
    exact .inl ⟨_, rfl, .of_scope hdepth name v⟩

/-- A declaration writes the variable that it is a declaration of. -/
theorem declareName_writes : (declareName name v).WritesOrFails (m.declared name) v m := by
  obtain ⟨globals, output, ⟨scopes, topLevel⟩, callers, serial⟩ := m
  rw [Machine.declared]
  cases topLevel with
  | true => exact assignGlobal_writes name v _
  | false =>
    cases scopes with
    | nil => exact assignGlobal_writes name v _
    | cons scope outer => exact .inl ⟨_, rfl, .of_scope (Nat.succ_pos _) name v⟩

end Steps

/-! ## Section 3: Expressions -/

section Expressions

variable {limit fuel : Nat}

omit [Globals γ] in
/-- What is judged of two calls that agree is judged of either one. -/
theorem holdsCalls_of_agreement {I : Machine γ → Prop} {std : Standard} {call : Bool → Caller γ}
    (h : Mode.agreement.HoldsCalls I std call) : Mode.whenever.HoldsCalls I std fun _ => call false :=
  fun f args hf hargs m hm => (h f args hf hargs m hm).2

/-- Calls leave all frames as they are, from wherever they are made. -/
theorem calls_exactly (limit fuel : Nat) (frame : Frame) (callers : List Frame) (p : Pos) :
    Mode.whenever.HoldsCalls (Exactly (γ := γ) frame callers) .anything fun _ =>
      callWith limit (runBlock (exec limit fuel) .null) p := by
  have hbodies : HoldsBodies (γ := γ) limit (blockAt (fun _ => Run.exhausted) limit fuel) :=
    holdsBodies_blockAt (holdsAll _ limit fuel)
  exact holdsCalls_of_agreement (holdsCalls_exactly hbodies frame callers p)

/-- An expression leaves all frames as they are: only what it calls runs statements, and that in frames of its own. -/
theorem holds_eval_exactly (frame : Frame) (callers : List Frame) (e : Expr) :
    Mode.whenever.Holds (Exactly (γ := γ) frame callers) (fun _ => eval limit fuel e) fun _ => True := by
  induction fuel generalizing e with
  | zero => exact whenever_exhausted
  | succ fuel ih =>
    have hcalls := calls_exactly (γ := γ) limit fuel frame callers
    have hargs : ∀ args : List Expr, Mode.whenever.Holds (Exactly (γ := γ) frame callers)
        (fun _ => args.mapM (eval limit fuel)) fun _ => True := fun args =>
      (Mode.Holds.mapM (Q := fun _ => True) fun arg _ => ih arg).mono fun _ _ => trivial
    have hcall : ∀ p f values, Mode.whenever.Holds (Exactly (γ := γ) frame callers)
        (fun _ => callWith limit (runBlock (exec limit fuel) .null) p f values) fun _ => True := fun p f values =>
      (hcalls p f values f.meets_anything fun v _ => v.meets_anything).mono fun _ _ => trivial
    by_cases hsimple : e.isSimple = true
    · exact holds_evalWith_of_isSimple hsimple fun part _ => ih part
    · cases e with
      | call callee args p =>
        have hother : Mode.whenever.Holds (Exactly (γ := γ) frame callers) (fun _ => do
            let f ← eval limit fuel callee
            let values ← args.mapM (eval limit fuel)
            callWith limit (runBlock (exec limit fuel) .null) p f values) fun _ => True :=
          (ih callee).bind fun f _ => (hargs args).bind fun values _ => hcall p f values
        cases callee with
        | var name q =>
          -- a function that is called by its name is looked up without a failure of its own
          refine Mode.Holds.get.bind fun m _ => ?_
          cases m.lookup name with
          | none => exact Mode.Holds.failAt _ p
          | some f => exact (hargs args).bind fun values _ => hcall p f values
        | _ => exact hother
      | method receiver name args p =>
        refine (ih receiver).bind fun v _ => (hargs args).bind fun values _ => ?_
        exact (Mode.Holds.callMethod (hcalls p) p v.meets_anything name fun v _ => v.meets_anything).mono
          fun _ _ => trivial
      | closure params body p =>
        refine Mode.Holds.get.bind fun m _ => ?_
        -- a new function takes a serial number, and that is all
        intro m' hm' o ho
        cases ho
        exact ⟨⟨hm'.frame_eq, hm'.callers_eq⟩, fun _ _ => trivial⟩
      | _ => exact absurd rfl hsimple

private theorem frames_of_eval {e : Expr} {m m' : Machine γ} {r : Attempt Value}
    (h : eval limit fuel e m = some (r, m')) : m'.frame = m.frame ∧ m'.callers = m.callers := by
  obtain ⟨hframes, _⟩ := holds_eval_exactly m.frame m.callers e m ⟨rfl, rfl⟩ _ h
  exact ⟨hframes.frame_eq, hframes.callers_eq⟩

end Expressions

/-! ## Section 4: Reading What Was Written -/

namespace Run

variable {m m' : Machine γ} {target : Variable} {v : Value}

omit [Globals γ] in
theorem located_eq_ok {α : Type} {run : Run γ α} {p : Pos} {a : α} :
    run.located p m = some (.ok a, m') ↔ run m = some (.ok a, m') := by
  rw [located, mapFailure_apply]
  cases h : run m with
  | none => simp
  | some o =>
    obtain ⟨r, m₁⟩ := o
    cases r <;> simp

theorem WritesOrFails.of_ok {run : Run γ Unit} (h : run.WritesOrFails target v m) (hrun : run m = some (.ok (), m')) :
    m.Writes target v m' := by
  rcases h with ⟨m₁, hok, hwrites⟩ | ⟨e, herror⟩
  · rw [hok] at hrun
    cases hrun
    exact hwrites
  · rw [herror] at hrun
    cases hrun

end Run

/-- What hides the variable that a declaration of a name binds. At the top level a declaration binds a global, also
where a local of that name is in sight, as the variable of a loop is inside its body. -/
def Machine.hiding (m : Machine γ) (name : String) : Option Value :=
  if m.frame.topLevel then lookupScopes name m.frame.scopes else none

namespace Machine.Writes

variable {m m' : Machine γ} {name : String} {v : Value}

/-- A name that was assigned is read back. -/
theorem lookup_resolve (h : m.Writes (m.resolve name) v m') : m'.lookup name = some v := by
  have hresolve : m'.resolve name = m.resolve name := h.resolve_eq (fun _ _ _ => isSome_valueAt_resolve) name
  apply lookup_of_valueAt
  rw [hresolve, h.written]

/-- A name that was declared is read back, unless it is hidden. -/
theorem lookup_declared (h : m.Writes (m.declared name) v m') : m'.lookup name = some ((m.hiding name).getD v) := by
  rw [Machine.declared] at h
  split at h
  · next hglobal =>
    have hresolve : m'.resolve name = m.resolve name := h.resolve_eq (fun _ _ _ heq => nomatch heq) name
    apply lookup_of_valueAt
    rw [hresolve, Machine.hiding]
    cases hlocal : lookupScopes name m.frame.scopes with
    | none =>
      rw [resolve_of_lookupScopes_none hlocal, h.written]
      simp
    | some w =>
      -- the local is still there: only the global was written
      obtain ⟨depth, hlocals, hvalue⟩ := resolve_of_lookupScopes_some hlocal
      rw [hlocals, h.kept _ (by simp), hvalue]
      cases hscopes : m.frame.scopes <;> simp_all [lookupScopes]
  · next hlocal =>
    have htop : m.frame.topLevel = false := by simp_all
    apply lookup_of_valueAt
    rw [h.resolve_innermost, h.written, Machine.hiding, htop]
    rfl

end Machine.Writes

section Statements

variable {limit fuel : Nat} {m m' : Machine γ} {name : String} {flow : Flow}

/-- The value that an assignment writes: a compound one makes it of the old value and the one on its right. -/
def assignedValue (limit fuel : Nat) (target : Expr) (right : Value) (p : Pos) : AssignOp → Run γ Value
  | .set => return right
  | .add => do Run.ofResultAt p (applyBinary .add (← eval limit fuel target) right)
  | .sub => do Run.ofResultAt p (applyBinary .sub (← eval limit fuel target) right)

private theorem exec_declare_eq (init : Option Expr) (p : Pos) :
    exec (γ := γ) limit (fuel + 1) (.declare name init p) =
      (do
        let v ← init.elim (pure .null) (eval limit fuel)
        (declareName name v).located p
        return .next v) := by
  cases init <;> rfl

theorem exec_assign_eq (target : Expr) (op : AssignOp) (e : Expr) (p : Pos) :
    exec (γ := γ) limit (fuel + 1) (.assign target op e p) =
      (do
        let right ← eval limit fuel e
        let v ← assignedValue limit fuel target right p op
        store limit fuel target v p
        return .next v) := by
  cases op <;> simp [exec, execWith, assignedValue]

private theorem frame_of_assignedValue {target : Expr} {right v : Value} {p : Pos} {op : AssignOp}
    (h : assignedValue limit fuel target right p op m = some (.ok v, m')) : m'.frame = m.frame := by
  have hcompound : ∀ bop : BinaryOp,
      (do Run.ofResultAt p (applyBinary bop (← eval limit fuel target) right) : Run γ Value) m = some (.ok v, m') →
        m'.frame = m.frame := by
    intro bop h
    obtain ⟨old, m₁, heval, hresult⟩ := Run.bind_eq_ok.mp h
    obtain ⟨_, rfl⟩ := Run.ofResultAt_eq_ok.mp hresult
    exact (frames_of_eval heval).1
  cases op with
  | set =>
    cases h
    rfl
  | add => exact hcompound .add h
  | sub => exact hcompound .sub h

theorem declare_readBack {init : Option Expr} {p : Pos}
    (h : exec limit fuel (.declare name init p) m = some (.ok flow, m')) :
    ∃ v, flow = .next v ∧ m'.valueAt (m.declared name) = some v ∧
      m'.lookup name = some ((m.hiding name).getD v) := by
  cases fuel with
  | zero => cases h
  | succ fuel =>
    rw [exec_declare_eq] at h
    obtain ⟨v, m₁, hinit, h⟩ := Run.bind_eq_ok.mp h
    obtain ⟨_, m₂, hdeclare, h⟩ := Run.bind_eq_ok.mp h
    cases h
    -- the expression may have written globals, but what is declared, and what hides it, is settled by the frame
    have hframe : m₁.frame = m.frame := by
      cases init with
      | none =>
        cases hinit
        rfl
      | some e => exact (frames_of_eval hinit).1
    have hdeclared : m₁.declared name = m.declared name := by rw [Machine.declared, Machine.declared, hframe]
    have hhiding : m₁.hiding name = m.hiding name := by rw [Machine.hiding, Machine.hiding, hframe]
    have hwrites := (declareName_writes name v m₁).of_ok (Run.located_eq_ok.mp hdeclare)
    refine ⟨v, rfl, ?_, ?_⟩
    · rw [← hdeclared, hwrites.written]
    · rw [← hhiding, hwrites.lookup_declared]

theorem assign_readBack {q p : Pos} {op : AssignOp} {e : Expr}
    (h : exec limit fuel (.assign (.var name q) op e p) m = some (.ok flow, m')) :
    ∃ v, flow = .next v ∧ m'.valueAt (m.resolve name) = some v ∧ m'.lookup name = some v := by
  cases fuel with
  | zero => cases h
  | succ fuel =>
    rw [exec_assign_eq] at h
    obtain ⟨right, m₁, hright, h⟩ := Run.bind_eq_ok.mp h
    obtain ⟨v, m₂, hvalue, h⟩ := Run.bind_eq_ok.mp h
    obtain ⟨_, m₃, hstore, h⟩ := Run.bind_eq_ok.mp h
    cases h
    have hframe : m₂.frame = m.frame := (frame_of_assignedValue hvalue).trans (frames_of_eval hright).1
    have hresolve : m₂.resolve name = m.resolve name := by rw [Machine.resolve, Machine.resolve, hframe]
    -- what was cut off has written nothing
    cases fuel with
    | zero => cases hstore
    | succ fuel =>
      rw [store_of_root rfl] at hstore
      have hwrites := (assignName_writes name v m₂).of_ok (Run.located_eq_ok.mp hstore)
      refine ⟨v, rfl, ?_, hwrites.lookup_resolve⟩
      rw [← hresolve, hwrites.written]

end Statements

/-- Behind a declaration or an assignment of a name that has succeeded, the name is evaluated to the value of the
statement, wherever it stands and whatever its expression has called. The exception is a declaration of a name that is
hidden: it binds a global to that value, and the name is evaluated to the local, as before. -/
theorem exec_readBack (limit fuel : Nat) (m m' : Machine γ) (name : String) (flow : Flow) :
    (∀ init p, exec limit fuel (.declare name init p) m = some (.ok flow, m') →
      ∃ v, flow = .next v ∧ m'.valueAt (m.declared name) = some v ∧
        ∀ bound q, eval limit (bound + 1) (.var name q) m' = some (.ok ((m.hiding name).getD v), m')) ∧
    ∀ target op e p, exec limit fuel (.assign (.var name target) op e p) m = some (.ok flow, m') →
      ∃ v, flow = .next v ∧ m'.valueAt (m.resolve name) = some v ∧
        ∀ bound q, eval limit (bound + 1) (.var name q) m' = some (.ok v, m') := by
  constructor
  · intro init p h
    obtain ⟨v, rfl, hbound, hread⟩ := declare_readBack h
    exact ⟨v, rfl, hbound, fun _ q => eval_var hread q⟩
  · intro target op e p h
    obtain ⟨v, rfl, hbound, hread⟩ := assign_readBack h
    exact ⟨v, rfl, hbound, fun _ q => eval_var hread q⟩

/-- Inside a loop in a function: the name is declared anew in the scope of the loop, or assigned in the scope around it,
and the call that its value comes from has written the global of that name. -/
theorem exec_readBack_shadowed :
    let f : Routine := ⟨some "f", [], [.assign (.var "x" ⟨1, 11⟩) .set (.int 7) ⟨1, 13⟩, .expr (.int 3)]⟩
    let m (x : Value) (inner outer : Scope) : Machine (OrderedMap Value) :=
      { globals := [("x", x), ("f", .function f 0 [])], output := {}, serial := 1
        frame := ⟨[inner, outer], false⟩, callers := [⟨[], true⟩] }
    let e : Expr := .call (.var "f" ⟨2, 9⟩) [] ⟨2, 10⟩
    (exec 100 20 (.declare "x" (some e) ⟨2, 1⟩) (m .null [("i", .int 1)] [("x", .int 5)]) =
        some (.ok (.next (.int 3)), m (.int 7) [("i", .int 1), ("x", .int 3)] [("x", .int 5)]) ∧
      eval 100 1 (.var "x" ⟨3, 1⟩) (m (.int 7) [("i", .int 1), ("x", .int 3)] [("x", .int 5)]) =
        some (.ok (.int 3), m (.int 7) [("i", .int 1), ("x", .int 3)] [("x", .int 5)])) ∧
    (exec 100 20 (.assign (.var "x" ⟨2, 1⟩) .set e ⟨2, 3⟩) (m .null [("i", .int 1)] [("x", .int 5)]) =
        some (.ok (.next (.int 3)), m (.int 7) [("i", .int 1)] [("x", .int 3)]) ∧
      eval 100 1 (.var "x" ⟨3, 1⟩) (m (.int 7) [("i", .int 1)] [("x", .int 3)]) =
        some (.ok (.int 3), m (.int 7) [("i", .int 1)] [("x", .int 3)])) := by
  intro f m e
  -- The function sets the global `x`, the statement the local one, in the scope that it is declared or found in.
  have hdeclare : exec 100 20 (.declare "x" (some e) ⟨2, 1⟩) (m .null [("i", .int 1)] [("x", .int 5)]) =
      some (.ok (.next (.int 3)), m (.int 7) [("i", .int 1), ("x", .int 3)] [("x", .int 5)]) := by rfl
  have hassign : exec 100 20 (.assign (.var "x" ⟨2, 1⟩) .set e ⟨2, 3⟩) (m .null [("i", .int 1)] [("x", .int 5)]) =
      some (.ok (.next (.int 3)), m (.int 7) [("i", .int 1)] [("x", .int 3)]) := by rfl
  obtain ⟨v, hv, _, hread⟩ := (exec_readBack 100 20 _ _ "x" _).1 (some e) ⟨2, 1⟩ hdeclare
  obtain ⟨w, hw, _, hreread⟩ := (exec_readBack 100 20 _ _ "x" _).2 ⟨2, 1⟩ .set e ⟨2, 3⟩ hassign
  cases hv
  cases hw
  exact ⟨⟨hdeclare, hread 0 ⟨3, 1⟩⟩, hassign, hreread 0 ⟨3, 1⟩⟩

/-- In the body of a loop at the top level, the variable of the loop hides the global that is declared: the name is
still evaluated to the element that is visited. -/
theorem exec_declare_hidden :
    let m (globals : OrderedMap Value) : Machine (OrderedMap Value) :=
      { Machine.start globals 1 with frame := ⟨[[("x", .int 1)]], true⟩ }
    let print : Expr := .call (.var "println" ⟨2, 2⟩) [.var "x" ⟨2, 10⟩] ⟨2, 9⟩
    let program : List Stmt :=
      [.forLoop "x" (.list [.int 1]) [.declare "x" (some (.int 2)) ⟨1, 18⟩, .expr print] ⟨1, 1⟩]
    exec 100 20 (.declare "x" (some (.int 2)) ⟨1, 18⟩) (m []) = some (.ok (.next (.int 2)), m [("x", .int 2)]) ∧
      eval 100 20 (.var "x" ⟨2, 10⟩) (m [("x", .int 2)]) = some (.ok (.int 1), m [("x", .int 2)]) ∧
      runProgram 100 20 program (Machine.start [] 1) =
        some (.ok .null, { Machine.start ([("x", .int 2)] : OrderedMap Value) 1 with output := { text := "1\n" } }) := by
  exact ⟨rfl, rfl, rfl⟩

end RowConsole.Script
