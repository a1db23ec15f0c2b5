import RowConsole.Proofs.Script.Methods
import RowConsole.Proofs.Script.Syntax

/-!
# Constructs under a Judgement

One rule for each construct of the language: what is judged of the procedures for its parts is judged of the
construct. Main statements: the rules for calls, expressions, statements, blocks and targets.
-/

namespace RowConsole.Script

variable {ι γ : Type} {M : Mode ι} {std : Standard} {I : Machine γ → Prop}

/-! ## Section 1: Calls -/

private theorem bindParams_meets {params : List String} {args : List Value} {scope : Scope}
    (hargs : ∀ a ∈ args, a.Meets std) (hscope : EntriesMeet std scope) :
    EntriesMeet std (bindParams params args scope) := by
  induction params generalizing args scope with
  | nil => exact hscope
  | cons p params ih =>
    refine ih (fun a ha => hargs a (List.mem_of_mem_tail ha)) ?_
    exact hscope.insert p (head?_getD_meets hargs)

/-- What a call binds meets the standard of its arguments. -/
theorem paramScope_meets (routine : Routine) {args : List Value} (hargs : ∀ a ∈ args, a.Meets std) :
    EntriesMeet std (paramScope routine args) := by
  refine bindParams_meets hargs ?_
  split
  · intro entry hentry
    rw [List.mem_singleton.mp hentry]
    exact head?_getD_meets hargs
  · exact entriesMeet_nil

theorem Flow.result_meets {flow : Flow} (h : flow.Meets std) : ResultMeets std flow.result := by
  cases flow with
  | next v => exact resultMeets_ok h
  | returned v => exact resultMeets_ok h
  | broke => exact resultMeets_failure _
  | continued => exact resultMeets_failure _

/-- The frame in which the body of a routine runs. -/
def bodyFrame (routine : Routine) (captured : OrderedMap Value) (args : List Value) : Frame :=
  ⟨[paramScope routine args, captured], false⟩

namespace Mode.Holds

theorem write (hwritten : ∀ {m : Machine γ} output, I m → I { m with output := output })
    (text : String) : M.Holds I (fun _ => Script.write text) fun _ => True := by
  unfold Script.write
  refine Holds.get.bind fun m hm => ?_
  refine (Holds.set (hwritten _ hm) (Q := fun _ => True) trivial).bind fun _ _ => ?_
  split
  · exact fail _
  · exact Holds.pure trivial

/-- A call of a routine is judged by its body, under an invariant for the frame of the body. -/
theorem callRoutine {limit : Nat} {block : ι → List Stmt → Run γ Flow} {routine : Routine}
    {captured : OrderedMap Value} {args : List Value} (p : Pos)
    (hbody : ∀ m, I m → m.depth < limit →
      ∃ J : Machine γ → Prop, M.Holds J (fun i => block i routine.body) (Flow.Meets std) ∧
        (∀ m, I m → J { m with frame := bodyFrame routine captured args, callers := m.frame :: m.callers }) ∧
        ∀ m, J m → I m.popFrame) :
    M.Holds I (fun i => Script.callRoutine limit (block i) routine captured args p) (Value.Meets std) := by
  unfold Script.callRoutine
  refine Holds.get.bind fun m hm => ?_
  split
  · exact failAt _ p
  · next hdepth =>
    split
    · exact failAt _ p
    · obtain ⟨J, hblock, hin, hout⟩ := hbody m hm (Nat.lt_of_not_le hdepth)
      refine mapFailure _ ((hblock.withFrame hin hout).bind fun flow hflow => ?_)
      exact Holds.ofResult (Flow.result_meets hflow)

/-- A call of a value is judged by the calls of routines. -/
theorem callWith (hwritten : ∀ {m : Machine γ} output, I m → I { m with output := output })
    {limit : Nat} {block : ι → List Stmt → Run γ Flow} (p : Pos)
    (hroutine : ∀ routine captured args, std.routine routine → EntriesMeet std captured →
      (∀ a ∈ args, a.Meets std) →
      M.Holds I (fun i => Script.callRoutine limit (block i) routine captured args p) (Value.Meets std)) :
    M.HoldsCalls I std fun i => Script.callWith limit (block i) p := by
  intro f args hf hargs
  show M.Holds I (fun i => Script.callWith limit (block i) p f args) (Value.Meets std)
  unfold Script.callWith
  split
  · next b =>
    refine (Holds.ofResultAt (Q := fun made => made.1.Meets std) p ?_).bind fun made hmade => ?_
    · exact fun made hmade => builtin_meets hmade
    · obtain ⟨v, written⟩ := made
      cases written with
      | none => exact Holds.pure hmade
      | some text => exact ((write hwritten text).located p).bind fun _ _ => Holds.pure hmade
  · next routine serial captured =>
    cases hf with
    | function hr hcaptured => exact hroutine routine captured args hr hcaptured hargs
  · exact failAt _ p

end Mode.Holds

/-! ## Section 2: Expressions and Statements -/

namespace Mode.Holds

/-- The statements of a block in one more scope. -/
theorem runScoped {J : Machine γ → Prop} {exec : ι → Stmt → Run γ Flow} {scope : Scope} {body : List Stmt}
    (hexec : ∀ s ∈ body, M.Holds J (fun i => exec i s) (Flow.Meets std))
    (hin : ∀ m, I m → J { m with frame := { m.frame with scopes := scope :: m.frame.scopes } })
    (hout : ∀ m, J m → I { m with frame := { m.frame with scopes := m.frame.scopes.tail } }) :
    M.Holds I (fun i => Script.runScoped (exec i) scope body) (Flow.Meets std) :=
  withScope (runBlock hexec .null) hin hout

variable [Globals γ]

/-- An expression is judged by its parts and by calls. -/
theorem evalWith (hI : Stable std I) {eval : ι → Expr → Run γ Value} {call : ι → Pos → Caller γ} {e : Expr}
    (heval : ∀ e' ∈ e.parts, M.Holds I (fun i => eval i e') (Value.Meets std))
    (hcall : ∀ p, M.HoldsCalls I std fun i => call i p)
    (hclosure : ∀ params body p, e = .closure params body p → std.routine ⟨none, params, body⟩) :
    M.Holds I (fun i => Script.evalWith (eval i) (call i) e) (Value.Meets std) := by
  unfold Script.evalWith
  -- The cases come in the order of the definition: literals first, then collections, names, operators and calls.
  split
  · exact Holds.pure .null
  · exact Holds.pure (.bool _)
  · exact Holds.pure (.int _)
  · exact Holds.pure (.float _)
  · exact Holds.pure (.str _)
  · exact (Holds.mapM heval).bind fun items hitems => Holds.pure (.list hitems)
  · next entries =>
    refine (Holds.mapM (Q := fun entry : String × Value => entry.2.Meets std) fun entry hentry => ?_).bind
      fun made hmade => Holds.pure (.map (std.keys_ofEntries made) (EntriesMeet.ofEntries hmade))
    -- Keys are texts; only the values are evaluated.
    refine (heval entry.2 (List.mem_map_of_mem hentry)).bind fun v hv => ?_
    exact Holds.pure hv
  · next name p =>
    refine Holds.get.bind fun m hm => ?_
    split
    · next hfound => exact Holds.pure (hI.lookup hm hfound)
    · exact failAt _ p
  · next operand p =>
    refine (heval operand (by simp [Expr.parts])).bind fun v _ => ?_
    exact Holds.ofResultAt p (applyUnary_meets _ v)
  · next left right p =>
    refine (heval left (by simp [Expr.parts])).bind fun v hv => ?_
    refine (heval right (by simp [Expr.parts])).bind fun w hw => ?_
    exact Holds.ofResultAt p (applyBinary_meets _ hv hw)
  · -- The right operand of `and` runs only if the left one is truthy, and that of `or` only if it is not.
    next left right =>
    refine (heval left (by simp [Expr.parts])).bind fun v _ => ?_
    split
    · exact (heval right (by simp [Expr.parts])).bind fun _ _ => Holds.pure (.bool _)
    · exact Holds.pure (.bool _)
  · next left right =>
    refine (heval left (by simp [Expr.parts])).bind fun v _ => ?_
    split
    · exact Holds.pure (.bool _)
    · exact (heval right (by simp [Expr.parts])).bind fun _ _ => Holds.pure (.bool _)
  · next object name p =>
    refine (heval object (by simp [Expr.parts])).bind fun v hv => ?_
    exact Holds.ofResultAt p (member_meets name hv)
  · next object place p =>
    refine (heval object (by simp [Expr.parts])).bind fun v hv => ?_
    refine (heval place (by simp [Expr.parts])).bind fun w _ => ?_
    exact Holds.ofResultAt p (elementAt_meets hv w)
  · -- A name in front of arguments is looked up before the arguments are evaluated.
    next name q args p =>
    refine Holds.get.bind fun m hm => ?_
    split
    · exact failAt _ p
    · next f hfound =>
      refine (Holds.mapM fun e he => heval e (List.mem_cons_of_mem _ he)).bind fun values hvalues => ?_
      exact hcall p f values (hI.lookup hm hfound) hvalues
  · next callee args p _ =>
    refine (heval callee (List.mem_cons_self ..)).bind fun f hf => ?_
    refine (Holds.mapM fun e he => heval e (List.mem_cons_of_mem _ he)).bind fun values hvalues => ?_
    exact hcall p f values hf hvalues
  · next receiver name args p =>
    refine (heval receiver (List.mem_cons_self ..)).bind fun v hv => ?_
    refine (Holds.mapM fun e he => heval e (List.mem_cons_of_mem _ he)).bind fun values hvalues => ?_
    exact callMethod (hcall p) p hv name hvalues
  · -- The closure captures what is bound where it is written.
    next params body p =>
    refine Holds.get.bind fun m hm => ?_
    exact newFunction hI (hclosure params body p rfl) (hI.locals hm)

/-- A statement is judged by its expressions, its targets, its blocks and its loop on a condition. -/
theorem execWith (hI : Stable std I) {eval : ι → Expr → Run γ Value}
    {store : ι → Expr → Value → Pos → Run γ Unit} {inner : ι → Scope → List Stmt → Run γ Flow}
    {loop : ι → Run γ Value → Run γ Flow → Run γ Flow} {s : Stmt}
    (heval : ∀ e ∈ s.parts, M.Holds I (fun i => eval i e) (Value.Meets std))
    (hstore : ∀ e ∈ s.parts, ∀ v p, v.Meets std → M.Holds I (fun i => store i e v p) fun _ => True)
    (hinner : ∀ scope body, EntriesMeet std scope → (OrderedMap.keys scope).Nodup → body ⊆ s.body →
      M.Holds I (fun i => inner i scope body) (Flow.Meets std))
    (hloop : ∀ cond body, s = .whileLoop cond body →
      M.Holds I (fun i => loop i (eval i cond) (inner i [] body)) (Flow.Meets std))
    (hfunction : ∀ name params body p, s = .function name params body p →
      std.routine ⟨some name, params, body⟩) :
    M.Holds I (fun i => Script.execWith (eval i) (store i) (inner i) (loop i) s) (Flow.Meets std) := by
  unfold Script.execWith
  split
  · next e => exact (heval e (List.mem_cons_self ..)).bind fun v hv => Holds.pure hv
  · next name init p =>
    -- With or without an initial value, a declaration binds what it is given.
    have hdeclared : ∀ v, v.Meets std → M.Holds I (fun _ => do
        (Script.declareName name v).located p
        return Flow.next v) (Flow.Meets std) := fun v hv =>
      ((declareName hI name hv).located p).bind fun _ _ => Holds.pure hv
    cases init with
    | none => exact (Holds.pure .null).bind hdeclared
    | some e => exact (heval e (by simp [Stmt.parts])).bind hdeclared
  · next target op e p =>
    have hright := heval e (by simp [Stmt.parts])
    have htarget := heval target (by simp [Stmt.parts])
    -- The compound signs combine the old value with the new one, and store the outcome like the plain one.
    have hstored : ∀ v, v.Meets std → M.Holds I (fun i => do
        store i target v p
        return Flow.next v) (Flow.Meets std) := fun v hv =>
      (hstore target (by simp [Stmt.parts]) v p hv).bind fun _ _ => Holds.pure hv
    refine hright.bind fun right hr => ?_
    cases op with
    | set => exact (Holds.pure hr).bind hstored
    | add =>
      refine htarget.bind fun v hv => ?_
      exact (Holds.ofResultAt p (applyBinary_meets _ hv hr)).bind hstored
    | sub =>
      refine htarget.bind fun v hv => ?_
      exact (Holds.ofResultAt p (applyBinary_meets _ hv hr)).bind hstored
  · next name params body p =>
    refine (newFunction hI (hfunction name params body p rfl) entriesMeet_nil).bind fun f hf => ?_
    exact ((declareName hI name hf).located p).bind fun _ _ => Holds.pure .null
  · next cond thenBody elseBody =>
    refine (heval cond (List.mem_cons_self ..)).bind fun v _ => ?_
    split
    · exact hinner [] thenBody entriesMeet_nil List.nodup_nil (by simp [Stmt.body])
    · split
      · next body => exact hinner [] body entriesMeet_nil List.nodup_nil (by simp [Stmt.body])
      · exact Holds.pure .null
  · next cond body => exact hloop cond body rfl
  · next name items body p =>
    refine (heval items (List.mem_cons_self ..)).bind fun v hv => ?_
    refine (Holds.ofResultAt p fun _ => elements_meet hv).bind fun visited hvisited => ?_
    refine runFor (fun item hitem => hinner _ body ?_ (by simp [OrderedMap.keys]) (List.Subset.refl _)) .null
    -- The scope of a body has one entry, the loop variable, which is bound to an element.
    intro entry hentry
    rw [List.mem_singleton.mp hentry]
    exact hvisited item hitem
  · exact Holds.pure .null
  · next e => exact (heval e (by simp [Stmt.parts])).bind fun v hv => Holds.pure hv
  · exact Holds.pure trivial
  · exact Holds.pure trivial

/-- A write to a place is judged by the containers around the place. -/
theorem storeWith (hI : Stable std I) {eval : ι → Expr → Run γ Value}
    {store : ι → Expr → Value → Pos → Run γ Unit} {target : Expr} {v : Value} (hv : v.Meets std) (p : Pos)
    (heval : ∀ e ∈ target.parts, M.Holds I (fun i => eval i e) (Value.Meets std))
    (hstore : ∀ e ∈ target.parts, ∀ v p, v.Meets std →
      M.Holds I (fun i => store i e v p) fun _ => True) :
    M.Holds I (fun i => Script.storeWith (eval i) (store i) target v p) fun _ => True := by
  unfold Script.storeWith
  -- A place within a container is stored by storing the container with that place changed.
  split
  · next name q => exact (assignName hI name hv).located p
  · next object name q =>
    have hobject : object ∈ (Expr.member object name q).parts := by simp [Expr.parts]
    refine (heval object hobject).bind fun container hcontainer => ?_
    refine (Holds.ofResultAt q (setMember_meets hcontainer name hv)).bind fun updated hupdated => ?_
    exact hstore object hobject updated p hupdated
  · next object place q =>
    have hobject : object ∈ (Expr.index object place q).parts := by simp [Expr.parts]
    refine (heval object hobject).bind fun container hcontainer => ?_
    refine (heval place (by simp [Expr.parts])).bind fun index _ => ?_
    refine (Holds.ofResultAt q (setElement_meets hcontainer index hv)).bind fun updated hupdated => ?_
    exact hstore object hobject updated p hupdated
  · exact failAt _ p

end Mode.Holds

end RowConsole.Script
