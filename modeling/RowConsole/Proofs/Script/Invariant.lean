import RowConsole.Proofs.Script.Contents
import RowConsole.Proofs.Script.Construct

/-!
# Invariants of Runs

A property of machines that every step keeps is kept by whole runs, whatever program runs and whether it ends
in a value or in a failure. A run that is cut off says nothing.

Main statements: `runProgram_keeps`, for a property of machines, and `runProgram_keeps_globals`, for a property
of the globals: it is enough that a name taken by the store keeps it.
-/

namespace RowConsole.Script

variable {γ : Type} {std : Standard}

/-! ## Section 1: Outcomes if There Are Any -/

/-- If the computation has an outcome, it has the property. -/
def Mode.whenever : Mode Unit where
  judges x φ := ∀ b, x () = some b → φ b
  judges_some h b hb := Option.some.inj hb ▸ h
  judges_bind := by
    intro β β' x k φ ψ hx hk c hc
    obtain ⟨b, hb, hcb⟩ := Option.bind_eq_some_iff.mp hc
    exact hk b (hx b hb) c hcb

/-- A run that is cut off has no outcome to judge. -/
theorem whenever_exhausted {α : Type} {I : Machine γ → Prop} {Q : α → Prop} :
    Mode.whenever.Holds I (fun _ => (Run.exhausted : Run γ α)) Q := by
  intro m _ b hb
  contradiction

variable [Globals γ]

/-- An invariant that holds through blocks and calls as well: scopes and frames may be opened with values that
meet the standard, and closed again. -/
structure Invariant (std : Standard) (I : Machine γ → Prop) : Prop extends Stable std I where
  openScope : ∀ {m scope}, I m → EntriesMeet std scope →
    I { m with frame := { m.frame with scopes := scope :: m.frame.scopes } }
  closeScope : ∀ {m}, I m → I { m with frame := { m.frame with scopes := m.frame.scopes.tail } }
  pushFrame : ∀ {m frame}, I m → (∀ scope ∈ frame.scopes, EntriesMeet std scope) →
    I { m with frame := frame, callers := m.frame :: m.callers }
  popFrame : ∀ {m}, I m → I m.popFrame

/-- That all values in a machine meet a standard is such an invariant. -/
theorem invariant_meets (std : Standard) : Invariant std (Machine.Meets (γ := γ) std) where
  lookup h hv := h.lookup hv
  locals h := flattenScopes_meets h.scopes
  assigned h hv hassign := ((stable_meetsAt std _).assigned ⟨rfl, h⟩ hv hassign).meets
  declared h hv hscopes := ((stable_meetsAt std _).declared ⟨rfl, h⟩ hv hscopes).meets
  rebound h hv hrebind := ((stable_meetsAt std _).rebound ⟨rfl, h⟩ hv hrebind).meets
  written _ h := ⟨h.globals, h.scopes, h.callers⟩
  counted h := ⟨h.globals, h.scopes, h.callers⟩
  openScope h hscope := (MeetsAt.openScope ⟨rfl, h⟩ hscope).meets
  closeScope h := (MeetsAt.closeScope ⟨rfl, h⟩).meets
  pushFrame h hframe := (MeetsAt.pushFrame ⟨rfl, h⟩ hframe).meets
  -- Leaving a call makes the frame of the caller the current one, and that met the standard all along.
  popFrame := by
    intro m h
    unfold Machine.popFrame
    cases hcallers : m.callers with
    | nil => exact h
    | cons caller callers =>
      have hall := h.callers
      rw [hcallers] at hall
      obtain ⟨hcaller, hrest⟩ := List.forall_mem_cons.mp hall
      exact ⟨h.globals, hcaller, hrest⟩

/-! ## Section 2: One Construct -/

variable {I : Machine γ → Prop} {limit fuel : Nat}

/-- Expressions, statements and targets keep an invariant. -/
structure KeepsAll (std : Standard) (I : Machine γ → Prop) (limit fuel : Nat) : Prop where
  eval : ∀ e, Mode.whenever.Holds I (fun _ => eval limit fuel e) (Value.Meets std)
  exec : ∀ s, Mode.whenever.Holds I (fun _ => exec limit fuel s) (Flow.Meets std)
  store : ∀ target v p, v.Meets std →
    Mode.whenever.Holds I (fun _ => store limit fuel target v p) fun _ => True

/-- A block keeps what its statements keep. -/
theorem KeepsAll.block (h : KeepsAll std I limit fuel) (body : List Stmt) :
    Mode.whenever.Holds I (fun _ => runBlock (Script.exec limit fuel) .null body) (Flow.Meets std) :=
  Mode.Holds.runBlock (fun s _ => h.exec s) .null

/-- Calls of values that meet a standard are judged by the bodies of routines that do. -/
theorem Mode.Holds.calls {ι : Type} {M : Mode ι} (hI : Invariant std I) {block : ι → List Stmt → Run γ Flow}
    (hblock : ∀ routine, std.routine routine → M.Holds I (fun i => block i routine.body) (Flow.Meets std)) (p : Pos) :
    M.HoldsCalls I std fun i => Script.callWith limit (block i) p := by
  apply Mode.Holds.callWith hI.written
  intro routine captured args hroutine hcaptured hargs
  apply Mode.Holds.callRoutine
  intro m _ _
  -- The frame of the body holds the arguments and what the closure has captured.
  have hframe : ∀ scope ∈ (bodyFrame routine captured args).scopes, EntriesMeet std scope := by
    intro scope hscope
    simp only [bodyFrame, List.mem_cons, List.not_mem_nil, or_false] at hscope
    rcases hscope with rfl | rfl
    · exact paramScope_meets routine hargs
    · exact hcaptured
  exact ⟨I, hblock routine hroutine, fun m hm => hI.pushFrame hm hframe, fun m hm => hI.popFrame hm⟩

/-- A call keeps what the body keeps. -/
theorem KeepsAll.calls (hI : Invariant std I) (h : KeepsAll std I limit fuel) (p : Pos) :
    Mode.whenever.HoldsCalls I std fun _ => callWith limit (runBlock (Script.exec limit fuel) .null) p :=
  Mode.Holds.calls hI (fun routine _ => h.block routine.body) p

/-- Without fuel nothing is run. -/
private theorem keepsAll_zero : KeepsAll std I limit 0 where
  eval _ := whenever_exhausted
  exec _ := whenever_exhausted
  store _ _ _ _ := whenever_exhausted

/-- One construct keeps what the constructs in it keep. -/
theorem KeepsAll.succ (hroutine : ∀ r, std.routine r) (hI : Invariant std I)
    (h : KeepsAll std I limit fuel) : KeepsAll std I limit (fuel + 1) where
  eval e := by
    apply Mode.Holds.evalWith hI.toStable
    · exact fun e' _ => h.eval e'
    · exact fun p => h.calls hI p
    · exact fun params body p _ => hroutine _
  exec s := by
    -- Blocks run in a scope of their own, which is opened and closed within the invariant.
    have hinner : ∀ scope body, EntriesMeet std scope → Mode.whenever.Holds I
        (fun _ => runScoped (Script.exec limit fuel) scope body) (Flow.Meets std) := by
      intro scope body hscope
      apply Mode.Holds.runScoped (fun s' _ => h.exec s')
      · exact fun m hm => hI.openScope hm hscope
      · exact fun m hm => hI.closeScope hm
    apply Mode.Holds.execWith hI.toStable
    · exact fun e _ => h.eval e
    · exact fun e _ v p hv => h.store e v p hv
    · exact fun scope body hscope _ _ => hinner scope body hscope
    · intro cond body _
      have hcond := (h.eval cond).mono fun _ _ => trivial
      exact Mode.Holds.runWhile whenever_exhausted hcond (hinner [] body entriesMeet_nil) .null
    · exact fun name params body p _ => hroutine _
  store target v p hv := by
    apply Mode.Holds.storeWith hI.toStable hv p
    · exact fun e _ => h.eval e
    · exact fun e _ v p hv => h.store e v p hv

/-! ## Section 3: Whole Runs -/

/-- Every construct keeps an invariant, whatever the fuel is. -/
theorem keepsAll (hroutine : ∀ r, std.routine r) (hI : Invariant std I) (limit fuel : Nat) :
    KeepsAll std I limit fuel := by
  induction fuel with
  | zero => exact keepsAll_zero
  | succ fuel ih => exact ih.succ hroutine hI

/-- An invariant holds behind every run of a program that started with it. -/
theorem runProgram_keeps (hroutine : ∀ r, std.routine r) (hI : Invariant std I) {program : List Stmt}
    {m m' : Machine γ} {r : Attempt Value} (hm : I m)
    (hrun : runProgram limit fuel program m = some (r, m')) : I m' ∧ ResultMeets std r := by
  have hprogram : Mode.whenever.Holds I (fun _ => runProgram limit fuel program) (Value.Meets std) :=
    ((keepsAll hroutine hI limit fuel).block program).bind fun flow hflow =>
      Mode.Holds.ofResult (Flow.result_meets hflow)
  exact hprogram m hm (r, m') hrun

/-- A property of the globals that taken names keep is an invariant: nothing else writes globals. -/
theorem invariant_globals {P : γ → Prop}
    (hassign : ∀ {g g' name v}, P g → Globals.assign g name v = .ok g' → P g') :
    Invariant Standard.anything fun m : Machine γ => P m.globals where
  lookup _ _ := Value.meets_anything _
  locals _ _ _ := Value.meets_anything _
  assigned hm _ h := hassign hm h
  declared hm _ _ := hm
  rebound hm _ _ := hm
  written _ hm := hm
  counted hm := hm
  openScope hm _ := hm
  closeScope hm := hm
  pushFrame hm _ := hm
  popFrame := by
    intro m hm
    unfold Machine.popFrame
    split <;> exact hm

/-- A property of the globals is kept if each taken name keeps it. -/
theorem runProgram_keeps_globals {P : γ → Prop}
    (hassign : ∀ {g g' name v}, P g → Globals.assign g name v = .ok g' → P g') {program : List Stmt}
    {m m' : Machine γ} {r : Attempt Value} (hm : P m.globals)
    (hrun : runProgram limit fuel program m = some (r, m')) : P m'.globals :=
  (runProgram_keeps (fun _ => trivial) (invariant_globals hassign) hm hrun).1

end RowConsole.Script
