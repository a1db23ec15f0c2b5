import RowConsole.Proofs.Script.Methods

/-!
# What Machines Hold

The values in the globals and in the scopes of all frames. Main statements: if they meet a standard, then so
does every name that is looked up, and the steps on the machine keep it so; scopes and frames may be opened
and closed.
-/

namespace RowConsole.Script

/-! ## Section 1: Names -/

variable {γ : Type} [Globals γ] {std : Standard}

/-- All values that a machine holds meet a standard. -/
structure Machine.Meets (std : Standard) (m : Machine γ) : Prop where
  globals : ∀ name v, Globals.lookup m.globals name = some v → v.Meets std
  scopes : ∀ scope ∈ m.frame.scopes, EntriesMeet std scope
  callers : ∀ frame ∈ m.callers, ∀ scope ∈ frame.scopes, EntriesMeet std scope

/-- The innermost scope that binds a name gives the value, and every scope meets the standard. -/
private theorem lookupScopes_meets {scopes : List Scope} (h : ∀ scope ∈ scopes, EntriesMeet std scope) {name : String}
    {v : Value} (hv : lookupScopes name scopes = some v) : v.Meets std := by
  obtain ⟨scope, hscope, hfound⟩ := List.exists_of_findSome?_eq_some hv
  exact (h scope hscope).lookup hfound

/-- Scopes are merged from the outermost on, and each merge keeps the standard. -/
theorem flattenScopes_meets {scopes : List Scope} (h : ∀ scope ∈ scopes, EntriesMeet std scope) :
    EntriesMeet std (flattenScopes scopes) := by
  -- on the scopes still to be merged, with any flat scope that meets the standard so far
  have hfold : ∀ (outermost : List Scope) (flat : OrderedMap Value), EntriesMeet std flat →
      (∀ scope ∈ outermost, EntriesMeet std scope) →
      EntriesMeet std (outermost.foldl OrderedMap.merge flat) := by
    intro outermost
    induction outermost with
    | nil => exact fun flat hflat _ => hflat
    | cons scope rest ih =>
      intro flat hflat hscopes
      obtain ⟨hscope, hrest⟩ := List.forall_mem_cons.mp hscopes
      exact ih _ (hflat.merge hscope) hrest
  exact hfold _ [] entriesMeet_nil fun scope hscope => h scope (List.mem_reverse.mp hscope)

/-- Only the innermost scope that binds the name is changed, at that name. -/
private theorem rebindScopes?_meets {scopes rebound : List Scope} (h : ∀ scope ∈ scopes, EntriesMeet std scope)
    {name : String} {v : Value} (hv : v.Meets std) (hrebind : rebindScopes? name v scopes = some rebound) :
    ∀ scope ∈ rebound, EntriesMeet std scope := by
  induction scopes generalizing rebound with
  | nil => contradiction
  | cons scope outer ih =>
    obtain ⟨hscope, houter⟩ := List.forall_mem_cons.mp h
    simp only [rebindScopes?] at hrebind
    -- the name is bound in this scope, or the search goes on in the outer ones
    split at hrebind
    · cases hrebind
      exact List.forall_mem_cons.mpr ⟨hscope.insert name hv, houter⟩
    · obtain ⟨rest, hrest, rfl⟩ := Option.map_eq_some_iff.mp hrebind
      exact List.forall_mem_cons.mpr ⟨hscope, ih houter hrest⟩

/-- A name is a local variable, a global one or a builtin function. -/
theorem Machine.Meets.lookup {m : Machine γ} (h : m.Meets std) {name : String} {v : Value}
    (hv : m.lookup name = some v) : v.Meets std := by
  -- in the order in which the names are searched: scopes, globals, builtin functions
  unfold Machine.lookup at hv
  split at hv
  · next hlocal =>
    cases hv
    exact lookupScopes_meets h.scopes hlocal
  · split at hv
    · next hglobal =>
      cases hv
      exact h.globals name _ hglobal
    · obtain ⟨b, _, rfl⟩ := Option.map_eq_some_iff.mp hv
      exact .builtin b

/-! ## Section 2: Steps -/

/-- All values meet a standard, and the number of frames is given. -/
structure MeetsAt (std : Standard) (depth : Nat) (m : Machine γ) : Prop where
  depth_eq : m.depth = depth
  meets : m.Meets std

/-- Values that meet a standard may be written anywhere. -/
theorem stable_meetsAt (std : Standard) (depth : Nat) : Stable std (MeetsAt (γ := γ) std depth) where
  lookup h hv := h.meets.lookup hv
  locals h := flattenScopes_meets h.meets.scopes
  -- A global reads back what was assigned last, or what it held before.
  assigned := by
    intro m name v globals h hv hassign
    refine ⟨h.depth_eq, fun other w hw => ?_, h.meets.scopes, h.meets.callers⟩
    rw [Globals.lookup_assign hassign other] at hw
    split at hw
    · cases hw
      exact hv
    · exact h.meets.globals other w hw
  declared := by
    intro m name v scope outer h hv hscopes
    have hall := h.meets.scopes
    rw [hscopes] at hall
    obtain ⟨hscope, houter⟩ := List.forall_mem_cons.mp hall
    refine ⟨h.depth_eq, h.meets.globals, ?_, h.meets.callers⟩
    exact List.forall_mem_cons.mpr ⟨hscope.insert name hv, houter⟩
  rebound := by
    intro m name v scopes h hv hrebind
    exact ⟨h.depth_eq, h.meets.globals, rebindScopes?_meets h.meets.scopes hv hrebind, h.meets.callers⟩
  written _ h := ⟨h.depth_eq, h.meets.globals, h.meets.scopes, h.meets.callers⟩
  counted h := ⟨h.depth_eq, h.meets.globals, h.meets.scopes, h.meets.callers⟩

/-- A scope of good values may be opened. -/
theorem MeetsAt.openScope {depth : Nat} {m : Machine γ} (h : MeetsAt std depth m) {scope : Scope}
    (hscope : EntriesMeet std scope) :
    MeetsAt std depth { m with frame := { m.frame with scopes := scope :: m.frame.scopes } } :=
  ⟨h.depth_eq, h.meets.globals, List.forall_mem_cons.mpr ⟨hscope, h.meets.scopes⟩, h.meets.callers⟩

/-- Any scope may be closed. -/
theorem MeetsAt.closeScope {depth : Nat} {m : Machine γ} (h : MeetsAt std depth m) :
    MeetsAt std depth { m with frame := { m.frame with scopes := m.frame.scopes.tail } } :=
  ⟨h.depth_eq, h.meets.globals, fun scope hscope => h.meets.scopes scope (List.mem_of_mem_tail hscope),
    h.meets.callers⟩

/-- A call pushes a frame of good values on the callers. -/
theorem MeetsAt.pushFrame {depth : Nat} {m : Machine γ} (h : MeetsAt std depth m) {frame : Frame}
    (hframe : ∀ scope ∈ frame.scopes, EntriesMeet std scope) :
    MeetsAt std (depth + 1) { m with frame := frame, callers := m.frame :: m.callers } :=
  ⟨congrArg (· + 1) h.depth_eq, h.meets.globals, hframe,
    List.forall_mem_cons.mpr ⟨h.meets.scopes, h.meets.callers⟩⟩

/-- The end of a call gives the frame of the caller back, which is there if more than one frame was counted. -/
theorem MeetsAt.popFrame {depth : Nat} {m : Machine γ} (h : MeetsAt std (depth + 1) m) (hdepth : 0 < depth) :
    MeetsAt std depth m.popFrame := by
  obtain ⟨hcount, hglobals, _, hcallers⟩ := h
  unfold Machine.popFrame
  -- without callers only one frame would have been counted
  cases hframes : m.callers with
  | nil =>
    simp only [Machine.depth, hframes, List.length_nil] at hcount
    omega
  | cons caller callers =>
    rw [hframes] at hcallers
    obtain ⟨hcaller, hrest⟩ := List.forall_mem_cons.mp hcallers
    refine ⟨?_, hglobals, hcaller, hrest⟩
    simp only [Machine.depth, hframes, List.length_cons] at hcount ⊢
    omega

end RowConsole.Script
