import Mathlib.Data.List.Destutter
import RowConsole.Proofs.Script.Invariant
import RowConsole.Proofs.Session.Interaction

/-!
# The Binding Store over a Session

A store grows from one step of a session to the next: names are only ever appended, each of them is one that
may be bound, and what is bound to a reserved name stays. Every way to write the store goes through the same
check of the name, also the assignments of a running script, and what a failed operation had written is taken
back.

Main statement: `store_of_interactAll`, what holds of the bindings, of the listings of names and of the
completions behind any interactions with a new session.
-/

namespace RowConsole.Session

open Script (Attempt Globals Handle Runtime Value)

/-! ## Section 1: Names That May Be Bound -/

private theorem isReserved_iff {name : String} : isReserved name = true ↔ ∃ handle : Handle, handle.name = name := by
  simp only [isReserved, List.any_eq_true, beq_iff_eq]
  constructor
  · rintro ⟨handle, _, h⟩
    exact ⟨handle, h⟩
  · rintro ⟨handle, h⟩
    exact ⟨handle, by cases handle <;> decide, h⟩

/-- The user may bind identifiers that are neither keywords nor reserved. -/
theorem checkName_eq_ok_iff {name : String} :
    checkName name = .ok () ↔
      Text.isIdentifier name = true ∧ Script.isKeyword name = false ∧ isReserved name = false := by
  unfold checkName
  cases Text.isIdentifier name <;> cases Script.isKeyword name <;> cases isReserved name <;> simp

theorem Bindings.set_eq_ok {b b' : Bindings} {name : String} {v : Value} (h : b.set name v = .ok b') :
    checkName name = .ok () ∧ b' = ⟨b.values.insert name v⟩ := by
  refine ⟨?_, Bindings.values_of_set h⟩
  cases hname : checkName name with
  | ok u => rfl
  | error e =>
    unfold set at h
    rw [hname] at h
    contradiction

/-! ## Section 2: Growing Stores -/

/-- How bindings change: names are appended, those that may be bound, and reserved names keep their value. -/
structure Bindings.Grows (b b' : Bindings) : Prop where
  names : b.names <+: b'.names
  allowed : ∀ name ∈ b'.names, name ∈ b.names ∨ checkName name = .ok ()
  reserved : ∀ name, isReserved name = true → b'.get? name = b.get? name

namespace Bindings.Grows

variable {b b' b'' : Bindings}

/-- A context has grown from itself. -/
protected theorem refl (b : Bindings) : b.Grows b :=
  ⟨List.prefix_refl _, fun _ h => Or.inl h, fun _ _ => rfl⟩

/-- Growing twice is growing. -/
protected theorem trans (h : b.Grows b') (h' : b'.Grows b'') : b.Grows b'' where
  names := h.names.trans h'.names
  allowed name hname := by
    rcases h'.allowed name hname with hname | hok
    · exact h.allowed name hname
    · exact Or.inr hok
  reserved name hname := (h'.reserved name hname).trans (h.reserved name hname)

/-- A name that is taken grows the store. -/
theorem set {name : String} {v : Value} (h : b.set name v = .ok b') : b.Grows b' := by
  obtain ⟨hok, rfl⟩ := Bindings.set_eq_ok h
  have hkeys : Bindings.names ⟨b.values.insert name v⟩ = if name ∈ b.names then b.names else b.names ++ [name] :=
    OrderedMap.keys_insert b.values name v
  refine ⟨?_, fun other hother => ?_, fun other hother => ?_⟩
  · rw [hkeys]
    split
    · exact List.prefix_refl _
    · exact List.prefix_append _ _
  · rw [hkeys] at hother
    split at hother
    · exact Or.inl hother
    · rcases List.mem_append.mp hother with hother | hother
      · exact Or.inl hother
      · rw [List.mem_singleton.mp hother]
        exact Or.inr hok
  · -- the name written is not reserved, so it is another one
    have hne : other ≠ name := by
      rintro rfl
      have := (checkName_eq_ok_iff.mp hok).2.2
      rw [hother] at this
      contradiction
    exact OrderedMap.get?_insert_of_ne b.values v hne

/-- A script grows the store: it writes names only by assigning them, and the store checks each of them. -/
theorem of_run {rt rt' : Runtime} {code : String} {r : Attempt Value}
    (h : rt.run code b = some (r, b', rt')) : b.Grows b' := by
  unfold Runtime.run at h
  split at h
  · cases h
    exact Grows.refl b
  · next program hparse =>
    split at h
    · contradiction
    · next result m hrun =>
      cases h
      -- The program writes to the bindings by assignments only, and each of those grows them.
      refine Script.runProgram_keeps_globals (P := b.Grows) ?_ (Grows.refl b) hrun
      intro g g' name v hg hassign
      simp only [Globals.assign] at hassign
      split at hassign
      · next hset =>
        cases hassign
        exact hg.trans (Grows.set hset)
      · contradiction

end Bindings.Grows

/-- How contexts change: the bindings grow, and the names of new functions may be bound. -/
structure Context.Grows (ctx ctx' : Context) : Prop where
  bindings : ctx.bindings.Grows ctx'.bindings
  functions : ∀ name ∈ ctx'.functions.keys, name ∈ ctx.functions.keys ∨ checkName name = .ok ()

namespace Context.Grows

variable {ctx ctx' ctx'' : Context}

/-- A context has grown from itself. -/
protected theorem refl (ctx : Context) : ctx.Grows ctx :=
  ⟨Bindings.Grows.refl _, fun _ h => Or.inl h⟩

/-- Growing twice is growing. -/
protected theorem trans (h : ctx.Grows ctx') (h' : ctx'.Grows ctx'') : ctx.Grows ctx'' where
  bindings := h.bindings.trans h'.bindings
  functions name hname := by
    rcases h'.functions name hname with hname | hok
    · exact h.functions name hname
    · exact Or.inr hok

/-- A context with the same store has grown. -/
theorem of_sameStore (h : ctx.SameStore ctx') : ctx.Grows ctx' := by
  obtain ⟨hbindings, hfunctions⟩ := h
  refine ⟨?_, fun name hname => Or.inl (hfunctions ▸ hname)⟩
  rw [hbindings]
  exact Bindings.Grows.refl _

/-- A context whose bindings have grown has grown, if its functions are the same. -/
private theorem of_bindings (hbindings : ctx.bindings.Grows ctx'.bindings)
    (hfunctions : ctx'.functions = ctx.functions) :
    ctx.Grows ctx' :=
  ⟨hbindings, fun _ hname => Or.inl (hfunctions ▸ hname)⟩

end Context.Grows

/-! ## Section 3: Operations and Interactions -/

/-- Every operation grows the context. -/
theorem Operation.grows {w w' : Workspace Runtime} {op : Operation} {r : Outcome Unit}
    (h : op.run w = some (r, w')) : w.context.Grows w'.context := by
  generalize hctx : w'.context = ctx
  cases hctx ▸ Operation.changes h with
  | nothing => exact Context.Grows.refl _
  | runs heval => exact Context.Grows.of_bindings (Bindings.Grows.of_run (evaluate_eq_some.mp heval)) rfl
  | binds hset => exact Context.Grows.of_bindings (Bindings.Grows.set hset) rfl
  | defines hset =>
    -- the function is registered under the name that it is bound to, which has passed the check
    refine ⟨Bindings.Grows.set hset, fun other hother => ?_⟩
    rw [Functions.register, OrderedMap.keys_insert] at hother
    split at hother
    · exact Or.inl hother
    · rcases List.mem_append.mp hother with hother | hother
      · exact Or.inl hother
      · rw [List.mem_singleton.mp hother]
        exact Or.inr (Bindings.set_eq_ok hset).1

/-- One interaction grows the context. -/
theorem interact_grows {s s' : Session Runtime} {i : Interaction} (h : s.interact i = some s') :
    s.context.Grows s'.context := by
  rcases interact_cases h with hsame | ⟨op, r, w, w', hw, hrun, hs'⟩
  · exact Context.Grows.of_sameStore hsame
  · exact ((Context.Grows.of_sameStore hw).trans (Operation.grows hrun)).trans (Context.Grows.of_sameStore hs')

/-- Any number of interactions grow the context: by induction on them. -/
theorem interactAll_grows {s s' : Session Runtime} {is : List Interaction} (h : s.interactAll is = some s') :
    s.context.Grows s'.context := by
  -- Each interaction starts where the one before it has ended.
  induction is generalizing s with
  | nil =>
    cases h
    exact Context.Grows.refl _
  | cons i rest ih =>
    simp only [interactAll] at h
    split at h
    · contradiction
    · next s₁ hi => exact (interact_grows hi).trans (ih h)

/-! ## Section 4: Stores behind a New Session -/

/-- What holds of every context that has grown from a new one. -/
structure Context.Sound (ctx : Context) : Prop where
  handles : ∀ handle : Handle, ctx.bindings.get? handle.name = some (.handle handle)
  names : ∀ name ∈ ctx.bindings.names, isReserved name = true ∨ checkName name = .ok ()
  functions : ∀ name ∈ ctx.functions.keys, checkName name = .ok ()

/-- In a new context only reserved names are bound. -/
theorem isReserved_of_mem_new {name : String} (h : name ∈ Context.new.bindings.names) : isReserved name = true := by
  have hall : ∀ name ∈ Context.new.bindings.names, isReserved name = true := by decide
  exact hall name h

/-- What a new context has, one that has grown from it has as well. -/
theorem Context.Grows.sound {ctx : Context} (h : Context.new.Grows ctx) : ctx.Sound where
  handles handle := by
    rw [h.bindings.reserved handle.name (isReserved_iff.mpr ⟨handle, rfl⟩)]
    cases handle <;> rfl
  names name hname := by
    rcases h.bindings.allowed name hname with hname | hok
    · exact Or.inl (isReserved_of_mem_new hname)
    · exact Or.inr hok
  functions name hname := by
    rcases h.functions name hname with hname | hok
    · contradiction
    · exact hok

/-- A name that passed the check is not the name of a handle. -/
theorem ne_name_of_checkName {name : String} (h : checkName name = .ok ()) (handle : Handle) :
    handle.name ≠ name := by
  intro heq
  have hfalse := (checkName_eq_ok_iff.mp h).2.2
  rw [isReserved_iff.mpr ⟨handle, heq⟩] at hfalse
  contradiction

/-- Leaving out repetitions goes along the list with the last item that was kept. -/
private theorem eraseReps_loop {α : Type} [BEq α] [LawfulBEq α] [DecidableEq α] (last : α) (l acc : List α) :
    List.eraseRepsBy.loop (· == ·) last l acc = acc.reverse ++ l.destutter' (· ≠ ·) last := by
  induction l generalizing last acc with
  | nil => simp [List.eraseRepsBy.loop]
  | cons y rest ih =>
    by_cases h : last = y
    · simp [List.eraseRepsBy.loop, h, ih]
    · have hother : (last == y) = false := beq_eq_false_iff_ne.mpr h
      simp [List.eraseRepsBy.loop, h, hother, ih]

/-- An item is left out where it repeats the one before. -/
theorem eraseReps_eq_destutter {α : Type} [BEq α] [LawfulBEq α] [DecidableEq α] (l : List α) :
    l.eraseReps = l.destutter (· ≠ ·) := by
  cases l with
  | nil => rfl
  | cons y rest => exact eraseReps_loop y rest []

/-- What is sorted and then freed of repetitions is strictly ascending, and nothing is lost. -/
theorem eraseReps_mergeSort (names : List String) :
    ((names.mergeSort fun a b => decide (a ≤ b)).eraseReps).Pairwise (· < ·) ∧
      ∀ name, name ∈ (names.mergeSort fun a b => decide (a ≤ b)).eraseReps ↔ name ∈ names := by
  have hsorted : (names.mergeSort fun a b => decide (a ≤ b)).Pairwise (· ≤ ·) := by
    have hpairwise := @List.pairwise_mergeSort String (fun a b => decide (a ≤ b))
      (fun a b c hab hbc => decide_eq_true (String.le_trans (of_decide_eq_true hab) (of_decide_eq_true hbc)))
      (fun a b => by simpa using String.le_total a b) names
    exact hpairwise.imp of_decide_eq_true
  have hantisymm : Std.Antisymm (fun a b : String => a ≤ b) := ⟨fun _ _ => String.le_antisymm⟩
  rw [eraseReps_eq_destutter, hsorted.destutter_eq_dedup]
  refine ⟨?_, fun name => List.mem_dedup.trans List.mem_mergeSort⟩
  have hboth := (hsorted.sublist (List.dedup_sublist _)).and (List.nodup_dedup _)
  exact hboth.imp fun ⟨hle, hne⟩ => String.not_le.mp fun hge => hne (String.le_antisymm hle hge)

namespace Context.Sound

variable {ctx : Context}

/-- The names that the user is shown are not reserved. -/
private theorem not_mem_userNames (ctx : Context) (handle : Handle) : handle.name ∉ ctx.bindings.userNames := by
  intro h
  have hshown := (List.mem_filter.mp h).2
  rw [isReserved_iff.mpr ⟨handle, rfl⟩] at hshown
  contradiction

/-- No function has the name of a handle. -/
private theorem not_mem_functions (h : ctx.Sound) (handle : Handle) : handle.name ∉ ctx.functions.keys :=
  fun hmem => ne_name_of_checkName (h.functions _ hmem) handle rfl

/-- Candidates are commands, the exit words, functions and the names that the user is shown. -/
theorem not_mem_candidates (h : ctx.Sound) (handle : Handle) : handle.name ∉ candidates ctx := by
  intro hmem
  have hmem := ((eraseReps_mergeSort _).2 _).mp hmem
  rcases List.mem_append.mp hmem with hmem | hmem
  -- The commands and the exit words are other names.
  · rcases List.mem_append.mp hmem with hmem | hmem
    · revert hmem
      cases handle <;> decide
    · exact h.not_mem_functions handle hmem
  · exact not_mem_userNames ctx handle hmem

end Context.Sound

/-! ## Section 5: Listings -/

/-- Every text is a message by itself. -/
theorem events_eachLine (c : Console) (texts : List String) :
    (c.eachLine texts).events = c.events ++ texts.map (.message .plain) := by
  induction texts generalizing c with
  | nil => exact (List.append_nil _).symm
  | cons text rest ih =>
    show ((c.line text).eachLine rest).events = _
    rw [ih]
    simp [Console.line, Console.send]

/-- What a listing puts on an empty console: the note, the title and the names. -/
theorem mem_events_listing {note title : String} {names : List String} {e : ConsoleEvent}
    (h : e ∈ (listing Console.empty note title names).events) :
    e = .message .plain note ∨ e = .message .plain title ∨ ∃ name ∈ names, e = .message .plain name := by
  unfold listing at h
  split at h
  · exact Or.inl (List.mem_singleton.mp h)
  · rw [events_eachLine] at h
    rcases List.mem_append.mp h with h | h
    · exact Or.inr (Or.inl (List.mem_singleton.mp h))
    · obtain ⟨name, hname, rfl⟩ := List.mem_map.mp h
      exact Or.inr (Or.inr ⟨name, hname, rfl⟩)

/-- A name that is not listed has no line, unless its line is the note or the title. -/
theorem not_mem_events_listing {note title name : String} {names : List String} {shown : String → String}
    (hshown : ∀ other, shown name = shown other → name = other) (hnote : shown name ≠ note)
    (htitle : shown name ≠ title) (h : name ∉ names) :
    .message .plain (shown name) ∉ (listing Console.empty note title (names.map shown)).events := by
  intro hmem
  rcases mem_events_listing hmem with heq | heq | ⟨line, hline, heq⟩
  · exact hnote (by simpa using heq)
  · exact htitle (by simpa using heq)
  · obtain ⟨other, hother, rfl⟩ := List.mem_map.mp hline
    obtain rfl := hshown other (by simpa using heq)
    exact h hother

/-- The listing of the variables has no line for a handle. -/
theorem not_mem_events_vars (w : Workspace Runtime) (args : String) (handle : Handle) :
    .message .plain ("  " ++ handle.name) ∉ (dispatchCommand w Console.empty "vars" args).2.events := by
  have hlisting : (dispatchCommand w Console.empty "vars" args).2 =
      listing Console.empty "No variables registered" "Defined variables:"
        (w.context.bindings.userNames.map fun name => "  " ++ name) := rfl
  rw [hlisting]
  apply not_mem_events_listing
  · simp
  · cases handle <;> decide
  · cases handle <;> decide
  · exact Context.Sound.not_mem_userNames w.context handle

/-- The listing of the functions has no line for a handle. -/
theorem not_mem_events_functions {w : Workspace Runtime} (h : w.context.Sound) (args : String)
    (handle : Handle) :
    .message .plain ("  " ++ handle.name ++ "()") ∉
      (dispatchCommand w Console.empty "functions" args).2.events := by
  have hlisting : (dispatchCommand w Console.empty "functions" args).2 =
      listing Console.empty "No functions registered" "Registered functions:"
        (w.context.functions.keys.map fun name => "  " ++ name ++ "()") := rfl
  rw [hlisting]
  apply not_mem_events_listing
  · simp
  · cases handle <;> decide
  · cases handle <;> decide
  · exact h.not_mem_functions handle

/-! ## Section 6: Sessions -/

/-- Behind any interactions with a new session the handles have their own names, every other name in the store
is one that may be bound, the next interaction only appends names, and no listing and no completion offers the
name of a handle. -/
theorem store_of_interactAll {s₀ s : Session Runtime} (hnew : s₀.context = Context.new)
    {is : List Interaction} (h : s₀.interactAll is = some s) :
    (∀ handle : Handle, s.context.bindings.get? handle.name = some (.handle handle)) ∧
    (∀ name ∈ s.context.bindings.names, (∃ handle : Handle, handle.name = name) ∨
      (Text.isIdentifier name = true ∧ Script.isKeyword name = false ∧ isReserved name = false)) ∧
    (∀ i s', s.interact i = some s' → s.context.bindings.names <+: s'.context.bindings.names) ∧
    (∀ handle : Handle,
      (∀ args, .message .plain ("  " ++ handle.name) ∉
        (dispatchCommand s.workspace Console.empty "vars" args).2.events) ∧
      (∀ args, .message .plain ("  " ++ handle.name ++ "()") ∉
        (dispatchCommand s.workspace Console.empty "functions" args).2.events) ∧
      handle.name ∉ candidates s.context) := by
  -- Soundness holds of a new context and is kept by growing; the three first parts are its fields.
  have hsound : s.context.Sound := (hnew ▸ interactAll_grows h).sound
  refine ⟨hsound.handles, ?_, ?_, ?_⟩
  · intro name hname
    rcases hsound.names name hname with hreserved | hok
    · exact Or.inl (isReserved_iff.mp hreserved)
    · exact Or.inr (checkName_eq_ok_iff.mp hok)
  · intro i s' hi
    exact (interact_grows hi).bindings.names
  · intro handle
    exact ⟨fun args => not_mem_events_vars s.workspace args handle,
      fun args => not_mem_events_functions hsound args handle, hsound.not_mem_candidates handle⟩

/-- A block over two lines defines a function that binds a name; attempts on the handles fail, one of them in a
script that has bound a name by then, and an open block is interrupted. -/
theorem store_of_interactAll_attempts :
    let s₀ : Session Runtime := Session.new { fuel := 30 } {}
    let is : List Interaction :=
      [.line "def f() \x7b", .line "x = 1 \x7d", .line "f()", .line "repl = 2", .evaluation "y = 3; terminal = y",
        .line "while (x) \x7b", .interrupt, .setVariable "z" .null, .registerScript "reader" "1",
        .registerScript "g" "1"]
    ∃ s, s₀.interactAll is = some s ∧
      s.context.bindings.names = ["repl", "terminal", "reader", "f", "x", "z", "g"] ∧
      ∀ handle : Handle, s.context.bindings.get? handle.name = some (.handle handle) := by
  intro s₀ is
  have hrun : (s₀.interactAll is).map (·.context.bindings.names) =
      some ["repl", "terminal", "reader", "f", "x", "z", "g"] := by decide +kernel
  obtain ⟨s, h, hnames⟩ := Option.map_eq_some_iff.mp hrun
  exact ⟨s, h, hnames, (store_of_interactAll rfl h).1⟩

end RowConsole.Session
