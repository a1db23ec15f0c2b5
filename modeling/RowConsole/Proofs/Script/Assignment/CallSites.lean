import Mathlib.Data.List.Flatten
import RowConsole.Proofs.Script.Compared.Evaluation
import RowConsole.Proofs.Script.Invariant

/-!
# The Calls of an Assignment

Beside the interpreter stands one that notes where the calls stand that a statement makes itself, and not those that are
made inside of them. It does what the interpreter does. What it notes for an assignment can be read off the statement:
the calls of the value come first, those of the target once more where its old value is read, and then, for each
container around the place, the calls of the container and of the index into it.

Main statements: `exec_eq_execNoting` and `notes_assign`.
-/

namespace RowConsole.Script

variable {γ α β δ : Type}

/-! ## Section 1: Noting -/

/-- A store of globals, and the positions of the calls that were noted. -/
structure Noted (γ : Type) where
  store : γ
  sites : List Pos

/-- Notes some positions. -/
def note (sites : List Pos) : Run (Noted γ) Unit :=
  modify fun m => { m with globals := { m.globals with sites := m.globals.sites ++ sites } }

/-- A run notes no more than some sites, in their order, and if it succeeds no less than others. -/
def Notes (run : Run (Noted γ) α) (least most : List Pos) : Prop :=
  ∀ m r m', run m = some (r, m') →
    ∃ made, m'.globals.sites = m.globals.sites ++ made ∧ made.Sublist most ∧ ∀ a, r = .ok a → least.Sublist made

/-- Whatever was noted before, a run notes nothing. -/
def Silent (run : Run (Noted γ) α) : Prop :=
  ∀ sites, Mode.whenever.Holds (fun m : Machine (Noted γ) => m.globals.sites = sites) (fun _ => run) fun _ => True

namespace Notes

variable {least least' most most' : List Pos}

private theorem of_silent {run : Run (Noted γ) α} (h : Silent run) : Notes run [] [] := by
  intro m r m' hrun
  obtain ⟨hsites, _⟩ := h m.globals.sites m rfl (r, m') hrun
  exact ⟨[], by rw [List.append_nil]; exact hsites, .slnil, fun _ _ => .slnil⟩

protected theorem pure (a : α) : Notes (pure a : Run (Noted γ) α) [] [] :=
  of_silent fun _ => Mode.Holds.pure trivial

theorem ofResultAt (p : Pos) (r : Attempt α) : Notes (Run.ofResultAt p r : Run (Noted γ) α) [] [] :=
  of_silent fun _ => Mode.Holds.ofResultAt p fun _ _ => trivial

/-- A run that fails has nothing that it has to note. -/
theorem failAt (cause : Cause) (p : Pos) : Notes (Run.failAt cause p : Run (Noted γ) α) least most := by
  intro m r m' hrun
  cases hrun
  exact ⟨[], (List.append_nil _).symm, List.nil_sublist _, fun a ha => by contradiction⟩

theorem newFunction (routine : Routine) (captured : OrderedMap Value) :
    Notes (Script.newFunction routine captured : Run (Noted γ) Value) [] [] := by
  intro m r m' hrun
  cases hrun
  exact ⟨[], (List.append_nil _).symm, .slnil, fun _ _ => .slnil⟩

theorem exhausted : Notes (Run.exhausted : Run (Noted γ) α) least most := by
  intro m r m' hrun
  contradiction

theorem note (sites : List Pos) : Notes (Script.note sites : Run (Noted γ) Unit) sites sites := by
  intro m r m' hrun
  cases hrun
  exact ⟨sites, rfl, List.Sublist.refl _, fun _ _ => List.Sublist.refl _⟩

theorem mono {run : Run (Noted γ) α} (h : Notes run least most) (hleast : least'.Sublist least)
    (hmost : most.Sublist most') : Notes run least' most' := by
  intro m r m' hrun
  obtain ⟨made, hsites, hmade, hleast'⟩ := h m r m' hrun
  exact ⟨made, hsites, hmade.trans hmost, fun a ha => hleast.trans (hleast' a ha)⟩

/-- What the first run notes comes first. -/
protected theorem bind {run : Run (Noted γ) α} {next : α → Run (Noted γ) β} (h : Notes run least most)
    (hnext : ∀ a, Notes (next a) least' most') : Notes (run >>= next) (least ++ least') (most ++ most') := by
  intro m r m' hrun
  rw [Run.bind_apply] at hrun
  obtain ⟨⟨r₁, m₁⟩, hfirst, hrest⟩ := Option.bind_eq_some_iff.mp hrun
  obtain ⟨made, hsites, hmade, hleast⟩ := h m r₁ m₁ hfirst
  cases r₁ with
  | error e =>
    cases hrest
    exact ⟨made, hsites, hmade.trans (List.sublist_append_left _ _), fun a ha => by contradiction⟩
  | ok a =>
    obtain ⟨made', hsites', hmade', hleast'⟩ := hnext a m₁ r m' hrest
    refine ⟨made ++ made', ?_, hmade.append hmade', fun b hb => (hleast a rfl).append (hleast' b hb)⟩
    rw [hsites', hsites, List.append_assoc]

/-- Nothing is noted behind a run. -/
theorem bind_nil {run : Run (Noted γ) α} {next : α → Run (Noted γ) β} (h : Notes run least most)
    (hnext : ∀ a, Notes (next a) [] []) : Notes (run >>= next) least most := by
  have hbind := h.bind hnext
  rwa [List.append_nil, List.append_nil] at hbind

/-- Reading the machine notes nothing. -/
theorem get_bind {next : Machine (Noted γ) → Run (Noted γ) α} (h : ∀ m, Notes (next m) least most) :
    Notes (MonadState.get >>= next) least most := by
  intro m r m' hrun
  rw [Run.bind_apply] at hrun
  exact h m m r m' hrun

/-- Runs for the items of a list note what each of them notes. -/
theorem mapM {run : δ → Run (Noted γ) α} {least most : δ → List Pos} {items : List δ}
    (h : ∀ item ∈ items, Notes (run item) (least item) (most item)) :
    Notes (items.mapM run) (items.flatMap least) (items.flatMap most) := by
  induction items with
  | nil =>
    rw [List.mapM_nil]
    exact Notes.pure []
  | cons item rest ih =>
    rw [List.mapM_cons, List.flatMap_cons, List.flatMap_cons]
    apply (h item List.mem_cons_self).bind
    intro a
    exact (ih fun item hitem => h item (List.mem_cons_of_mem _ hitem)).bind_nil fun made => Notes.pure (a :: made)

end Notes

/-! ## Section 2: An Interpreter That Notes -/

section Interpreter

variable [Globals γ]

/-- What is noted has no part in what is bound. -/
instance : Globals (Noted γ) where
  lookup n := Globals.lookup n.store
  assign n name v := (Globals.assign n.store name v).map fun store => { n with store := store }
  lookup_assign := by
    intro n n' name v h
    cases hassign : Globals.assign n.store name v with
    | error reason =>
      rw [hassign] at h
      contradiction
    | ok store =>
      rw [hassign] at h
      cases h
      exact Globals.lookup_assign hassign

/-- Where an expression stands if it is a call. -/
def Expr.callSite : Expr → List Pos
  | .call _ _ p | .method _ _ _ p => [p]
  | _ => []

/-- The value of an expression, with the calls in it noted as they are reached. -/
def evalNoting (limit : Nat) : Nat → Expr → Run (Noted γ) Value
  | 0, _ => Run.exhausted
  | fuel + 1, e => do
    note e.callSite
    evalWith (evalNoting limit fuel) (callWith limit (runBlock (exec limit fuel) .null)) e

/-- Writes a value into the place that an expression names, with the calls in it noted. -/
def storeNoting (limit : Nat) : Nat → Expr → Value → Pos → Run (Noted γ) Unit
  | 0, _, _, _ => Run.exhausted
  | fuel + 1, target, v, p => storeWith (evalNoting limit fuel) (storeNoting limit fuel) target v p

/-- Runs a statement, with the calls in its own expressions noted. -/
def execNoting (limit : Nat) : Nat → Stmt → Run (Noted γ) Flow
  | 0, _ => Run.exhausted
  | fuel + 1, s =>
    execWith (evalNoting limit fuel) (storeNoting limit fuel) (runScoped (exec limit fuel)) (runWhile fuel) s

end Interpreter

/-! ## Section 3: Forgetting the Notes -/

/-- The same machine with nothing noted. -/
def Machine.unnoted (m : Machine γ) : Machine (Noted γ) :=
  m.withStore ⟨m.globals, []⟩

/-- The same machine without what was noted. -/
def Machine.forget (m : Machine (Noted γ)) : Machine γ :=
  m.withStore m.globals.store

variable [Globals γ]

/-- A store with notes belongs to the one that it is without them. -/
def Comparison.forgetting : Comparison (Noted γ) γ where
  paired n g := n.store = g
  excused _ := False
  lookup_eq := by
    rintro n g rfl name
    rfl
  assigned := by
    rintro n g rfl name v
    cases hassign : Globals.assign n.store name v with
    | ok store =>
      refine .inl ⟨{ n with store := store }, store, ?_, rfl, rfl⟩
      show (Globals.assign n.store name v).map _ = _
      rw [hassign]
      rfl
    | error reason =>
      refine .inr ⟨reason, ?_, .inr rfl⟩
      show (Globals.assign n.store name v).map _ = _
      rw [hassign]
      rfl

namespace Comparison.Follows

variable (limit fuel : Nat)

/-- What was noted before makes no difference. -/
theorem note_bind (sites : List Pos) {run : Run (Noted γ) α} {run' : Run γ α}
    (h : Comparison.forgetting.Follows run run') :
    Comparison.forgetting.Follows (do note sites; run) run' := by
  intro m g hg
  rw [Run.bind_apply]
  exact h { m with globals := { m.globals with sites := m.globals.sites ++ sites } } g hg

/-- Up to some fuel, the interpreter itself does the same on a store with notes and on one without them. -/
theorem forgettingUpTo : (Comparison.forgetting (γ := γ)).FollowsUpTo limit limit fuel :=
  followsUpTo (Nat.le_refl limit) (fun h => absurd h (Nat.lt_irrefl limit)) fuel

private theorem evalNoting (e : Expr) :
    Comparison.forgetting.Follows (Script.evalNoting limit fuel e) (Script.eval (γ := γ) limit fuel e) := by
  induction fuel generalizing e with
  | zero => exact Follows.exhausted
  | succ fuel ih =>
    -- what a call runs is not noted, and follows the interpreter itself
    have hblock := forgetting.congruence.runBlock (forgettingUpTo (γ := γ) limit fuel).exec .null
    apply note_bind
    apply forgetting.congruence.evalWith ih
    exact fun p => callWith (Nat.le_refl limit) (fun h => absurd h (Nat.lt_irrefl limit)) hblock p

private theorem storeNoting (target : Expr) (v : Value) (p : Pos) :
    Comparison.forgetting.Follows (Script.storeNoting limit fuel target v p)
      (Script.store (γ := γ) limit fuel target v p) := by
  induction fuel generalizing target v p with
  | zero => exact Follows.exhausted
  | succ fuel ih => exact forgetting.congruence.storeWith (evalNoting limit fuel) ih target v p

theorem execNoting (s : Stmt) :
    Comparison.forgetting.Follows (Script.execNoting limit fuel s) (Script.exec (γ := γ) limit fuel s) := by
  cases fuel with
  | zero => exact Follows.exhausted
  | succ fuel =>
    apply forgetting.congruence.execWith (evalNoting limit fuel) (storeNoting limit fuel)
    · exact forgetting.congruence.runScoped (forgettingUpTo limit fuel).exec
    · exact forgetting.congruence.runWhile fuel

end Comparison.Follows

/-- A statement does the same whether its calls are noted or not. -/
theorem exec_eq_execNoting (limit fuel : Nat) (s : Stmt) (m : Machine γ) :
    exec limit fuel s m = (execNoting limit fuel s m.unnoted).map fun o => (o.1, o.2.forget) := by
  have hsame := Comparison.Follows.execNoting limit fuel s m.unnoted m.globals rfl
  -- the store without notes may be put in the place of the one with them
  have hmachine : m.unnoted.withStore m.globals = m := rfl
  rw [hmachine] at hsame
  generalize execNoting limit fuel s m.unnoted = noted at hsame
  generalize exec limit fuel s m = run at hsame
  cases hsame with
  | cutOff => rfl
  | excused hexcused => exact hexcused.elim
  | same hg =>
    cases hg
    rfl

/-! ## Section 4: Call Sites -/

/-- The container around the place that a target names. -/
def Expr.container? : Expr → Option Expr
  | .member object _ _ | .index object _ _ => some object
  | _ => none

mutual

/-- The calls in an expression, each once and in the order in which they are reached; either those that are surely
reached, or those that may be. What stands in the body of a closure is not reached. -/
def Expr.callSites (sure : Bool) : Expr → List Pos
  | .list items => callSitesAll sure items
  | .map entries => callSitesEntries sure entries
  | .unary _ operand _ => operand.callSites sure
  | .binary _ left right _ => left.callSites sure ++ right.callSites sure
  | .and left right | .or left right => left.callSites sure ++ if sure then [] else right.callSites sure
  | .member object _ _ => object.callSites sure
  | .index object place _ => object.callSites sure ++ place.callSites sure
  | .call callee args p => p :: (callee.callSites sure ++ callSitesAll sure args)
  | .method receiver _ args p => p :: (receiver.callSites sure ++ callSitesAll sure args)
  | _ => []

/-- The calls in the expressions of a list. -/
def callSitesAll (sure : Bool) : List Expr → List Pos
  | [] => []
  | e :: rest => e.callSites sure ++ callSitesAll sure rest

/-- The calls in the expressions of the entries of a map. -/
def callSitesEntries (sure : Bool) : List (String × Expr) → List Pos
  | [] => []
  | (_, e) :: rest => e.callSites sure ++ callSitesEntries sure rest

end

private theorem callSitesAll_eq (sure : Bool) (es : List Expr) : callSitesAll sure es = es.flatMap
    (Expr.callSites sure) := by
  induction es with
  | nil => rfl
  | cons e rest ih => rw [callSitesAll, ih, List.flatMap_cons]

private theorem callSitesEntries_eq (sure : Bool) (entries : List (String × Expr)) :
    callSitesEntries sure entries = entries.flatMap fun entry => entry.2.callSites sure := by
  induction entries with
  | nil => rfl
  | cons entry rest ih => rw [callSitesEntries, ih, List.flatMap_cons]

/-- What is surely reached may be reached. -/
theorem callSites_sublist (e : Expr) : (e.callSites true).Sublist (e.callSites false) := by
  have hall : ∀ e : Expr, (∀ e' ∈ e.parts, (e'.callSites true).Sublist (e'.callSites false)) →
      (e.callSites true).Sublist (e.callSites false) := by
    intro e h
    cases e with
    | list items =>
      rw [Expr.callSites, Expr.callSites, callSitesAll_eq, callSitesAll_eq]
      exact List.Sublist.flatMap_right _ h
    | map entries =>
      rw [Expr.callSites, Expr.callSites, callSitesEntries_eq, callSitesEntries_eq]
      exact List.Sublist.flatMap_right _ fun entry hentry => h entry.2 (List.mem_map_of_mem hentry)
    | unary op operand p => exact h operand (by simp [Expr.parts])
    | binary op left right p => exact (h left (by simp [Expr.parts])).append (h right (by simp [Expr.parts]))
    | and left right | or left right =>
      exact (h left (by simp [Expr.parts])).append (List.nil_sublist _)
    | member object name p => exact h object (by simp [Expr.parts])
    | index object place p => exact (h object (by simp [Expr.parts])).append (h place (by simp [Expr.parts]))
    | call callee args p | method callee _ args p =>
      -- the call itself stands in front of those in its parts
      obtain ⟨hcallee, hargs⟩ := List.forall_mem_cons.mp h
      rw [Expr.callSites, Expr.callSites, callSitesAll_eq, callSitesAll_eq]
      exact (hcallee.append (List.Sublist.flatMap_right _ hargs)).cons_cons p
    | _ => exact .slnil
  exact (Syntax.induction (Q := fun _ => True) (fun e h _ => hall e h) fun _ _ _ => trivial).1 e

/-- The calls that a write to a place makes: for each container around the place those in the container and in the index
into it, from the inside to the outside. -/
def Expr.writeSites (sure : Bool) : Expr → List Pos
  | .member object _ _ => object.callSites sure ++ object.writeSites sure
  | .index object place _ => object.callSites sure ++ (place.callSites sure ++ object.writeSites sure)
  | _ => []

/-- The calls of a target whose old value is read. -/
def AssignOp.readSites (sure : Bool) (target : Expr) : AssignOp → List Pos
  | .set => []
  | .add | .sub => target.callSites sure

/-- The calls that an assignment makes. -/
def assignSites (sure : Bool) (target : Expr) (op : AssignOp) (e : Expr) : List Pos :=
  e.callSites sure ++ (op.readSites sure target ++ target.writeSites sure)

/-- Where nothing is called, nothing is called to write either. -/
theorem sites_eq_nil {e : Expr} (h : e.callSites false = []) (sure : Bool) :
    e.callSites sure = [] ∧ e.writeSites sure = [] := by
  -- The sites that are sure are among those that are possible, and there are none.
  have hsites : ∀ e : Expr, e.callSites false = [] → e.callSites sure = [] := by
    intro e he
    cases sure with
    | false => exact he
    | true => exact List.sublist_nil.mp (he ▸ callSites_sublist e)
  -- Writing runs the parts of the target again, so its sites are those of the parts.
  have hwrites : ∀ e : Expr, e.callSites false = [] → e.writeSites sure = [] := by
    intro e
    induction e using Expr.writeSites.induct with
    | case1 object name p ih =>
      intro he
      rw [Expr.writeSites, hsites object he, ih he, List.append_nil]
    | case2 object place p ih =>
      intro he
      obtain ⟨hobject, hplace⟩ := List.append_eq_nil_iff.mp he
      rw [Expr.writeSites, hsites object hobject, hsites place hplace, ih hobject]
      rfl
    | case3 e hmember hindex => exact fun _ => Expr.writeSites.eq_3 sure e hmember hindex
  exact ⟨hsites e h, hwrites e h⟩

/-! ## Section 5: What Constructs Note -/

/-- Calls note nothing. -/
def SilentCalls (call : Caller (Noted γ)) : Prop :=
  ∀ sites, Mode.whenever.HoldsCalls (fun m : Machine (Noted γ) => m.globals.sites = sites) .anything fun _ => call

/-- What was noted stays noted, whatever runs. -/
theorem invariant_sites (sites : List Pos) :
    Invariant Standard.anything fun m : Machine (Noted γ) => m.globals.sites = sites := by
  apply invariant_globals (P := fun n : Noted γ => n.sites = sites)
  intro n n' name v hn hassign
  have hmap : (Globals.assign n.store name v).map (fun store => ({ n with store := store } : Noted γ)) = .ok n' := hassign
  cases htaken : Globals.assign n.store name v with
  | error reason =>
    rw [htaken] at hmap
    contradiction
  | ok store =>
    rw [htaken] at hmap
    cases hmap
    exact hn

private theorem silentCalls_callWith (limit fuel : Nat) (p : Pos) :
    SilentCalls (γ := γ) (callWith limit (runBlock (exec limit fuel) .null) p) := fun sites =>
  (keepsAll (fun _ => trivial) (invariant_sites sites) limit fuel).calls (invariant_sites sites) p

namespace Notes

theorem assignName (name : String) (v : Value) (p : Pos) :
    Notes ((Script.assignName name v : Run (Noted γ) Unit).located p) [] [] := by
  apply of_silent
  intro sites
  exact (Mode.Holds.assignName (invariant_sites sites).toStable name v.meets_anything).located p

variable {eval : Expr → Run (Noted γ) Value} {call : Pos → Caller (Noted γ)}

omit [Globals γ] in
theorem calls (hcall : ∀ p, SilentCalls (call p)) (p : Pos) (f : Value) (args : List Value) :
    Notes (call p f args) [] [] := by
  apply of_silent
  intro sites
  exact (hcall p sites f args f.meets_anything fun v _ => v.meets_anything).mono fun _ _ => trivial

omit [Globals γ] in
theorem callMethod (hcall : ∀ p, SilentCalls (call p)) (p : Pos) (receiver : Value) (name : String)
    (args : List Value) : Notes (Script.callMethod (call p) p receiver name args) [] [] := by
  apply of_silent
  intro sites
  have hargs : ∀ v ∈ args, v.Meets .anything := fun v _ => v.meets_anything
  exact (Mode.Holds.callMethod (hcall p sites) p receiver.meets_anything name hargs).mono fun _ _ => trivial

/-- An expression notes its own call and those of its parts. -/
theorem evalWith (heval : ∀ e, Notes (eval e) (e.callSites true) (e.callSites false))
    (hcall : ∀ p, SilentCalls (call p)) (e : Expr) :
    Notes (do Script.note e.callSite; Script.evalWith eval call e) (e.callSites true) (e.callSites false) := by
  have hargs : ∀ args : List Expr, Notes (args.mapM eval) (callSitesAll true args) (callSitesAll false args) := by
    intro args
    rw [callSitesAll_eq, callSitesAll_eq]
    exact mapM fun e _ => heval e
  -- the call of the expression itself comes first, if it is one
  have hfirst : ∀ {least most}, Notes (Script.evalWith eval call e) least most →
      Notes (do Script.note e.callSite; Script.evalWith eval call e) (e.callSite ++ least) (e.callSite ++ most) :=
    fun h => (note e.callSite).bind fun _ => h
  cases e with
  | list items => exact hfirst ((hargs items).bind_nil fun values => Notes.pure (Value.list values))
  | map entries =>
    have hentries : Notes (entries.mapM fun entry => do return (entry.1, ← eval entry.2))
        (callSitesEntries true entries) (callSitesEntries false entries) := by
      rw [callSitesEntries_eq, callSitesEntries_eq]
      exact mapM fun entry _ => (heval entry.2).bind_nil fun v => Notes.pure (entry.1, v)
    exact hfirst (hentries.bind_nil fun made => Notes.pure (Value.map (OrderedMap.ofEntries made)))
  | var name p =>
    apply hfirst
    apply get_bind
    intro m
    cases m.lookup name with
    | none => exact failAt _ p
    | some v => exact Notes.pure v
  | unary op operand p => exact hfirst ((heval operand).bind_nil fun v => ofResultAt p (applyUnary op v))
  | binary op left right p =>
    apply hfirst
    apply (heval left).bind
    intro v
    exact (heval right).bind_nil fun w => ofResultAt p (applyBinary op v w)
  | and left right =>
    -- the right operand may be reached
    apply hfirst
    apply (heval left).bind
    intro v
    split
    · exact ((heval right).bind_nil fun w => Notes.pure (Value.bool w.truthy)).mono (List.nil_sublist _) (.refl _)
    · exact (Notes.pure (Value.bool false)).mono (.refl _) (List.nil_sublist _)
  | or left right =>
    apply hfirst
    apply (heval left).bind
    intro v
    split
    · exact (Notes.pure (Value.bool true)).mono (.refl _) (List.nil_sublist _)
    · exact ((heval right).bind_nil fun w => Notes.pure (Value.bool w.truthy)).mono (List.nil_sublist _) (.refl _)
  | member object name p => exact hfirst ((heval object).bind_nil fun v => ofResultAt p (member name v))
  | index object place p =>
    apply hfirst
    apply (heval object).bind
    intro v
    exact (heval place).bind_nil fun w => ofResultAt p (elementAt v w)
  | call callee args p =>
    have hother : Notes
        (do
          let f ← eval callee
          let args ← args.mapM eval
          call p f args)
        (callee.callSites true ++ callSitesAll true args) (callee.callSites false ++ callSitesAll false args) := by
      apply (heval callee).bind
      intro f
      exact (hargs args).bind_nil fun values => calls hcall p f values
    cases callee with
    | var name q =>
      -- a name that is called is looked up before its arguments are evaluated
      apply hfirst
      apply get_bind
      intro m
      cases m.lookup name with
      | none => exact failAt _ p
      | some f => exact (hargs args).bind_nil fun values => calls hcall p f values
    | _ => exact hfirst hother
  | method receiver name args p =>
    apply hfirst
    apply (heval receiver).bind
    intro v
    exact (hargs args).bind_nil fun values => callMethod hcall p v name values
  | closure params body p => exact hfirst (get_bind fun m => newFunction ⟨none, params, body⟩ _)
  | _ => exact hfirst (Notes.pure _)

/-- A write to a place notes the calls of the containers around it. -/
theorem storeWith {store : Expr → Value → Pos → Run (Noted γ) Unit}
    (heval : ∀ e, Notes (eval e) (e.callSites true) (e.callSites false))
    (hstore : ∀ e v p, Notes (store e v p) (e.writeSites true) (e.writeSites false)) (target : Expr) (v : Value)
    (p : Pos) : Notes (Script.storeWith eval store target v p) (target.writeSites true) (target.writeSites false) := by
  cases target with
  | var name q => exact assignName name v p
  | member object name q =>
    apply (heval object).bind
    intro container
    exact (ofResultAt q (setMember container name v)).bind fun updated => hstore object updated p
  | index object place q =>
    apply (heval object).bind
    intro container
    apply (heval place).bind
    intro index
    exact (ofResultAt q (setElement container index v)).bind fun updated => hstore object updated p
  | _ => exact failAt _ p

/-- An assignment notes the calls of the value, those of the target if its old value is read, and those of the write. -/
theorem assignWith {store : Expr → Value → Pos → Run (Noted γ) Unit}
    (heval : ∀ e, Notes (eval e) (e.callSites true) (e.callSites false))
    (hstore : ∀ e v p, Notes (store e v p) (e.writeSites true) (e.writeSites false))
    (inner : Scope → List Stmt → Run (Noted γ) Flow)
    (loop : Run (Noted γ) Value → Run (Noted γ) Flow → Run (Noted γ) Flow) (target : Expr) (op : AssignOp) (e : Expr)
    (p : Pos) :
    Notes (Script.execWith eval store inner loop (.assign target op e p)) (assignSites true target op e)
      (assignSites false target op e) := by
  -- All three signs end in a store, and the statement adds nothing behind it.
  have hstored : ∀ v, Notes (do store target v p; return Flow.next v) (target.writeSites true)
      (target.writeSites false) := fun v => (hstore target v p).bind_nil fun _ => Notes.pure (Flow.next v)
  apply (heval e).bind
  intro right
  cases op with
  | set => exact (Notes.pure right).bind hstored
  | add =>
    apply (heval target).bind
    intro v
    exact (ofResultAt p (applyBinary .add v right)).bind hstored
  | sub =>
    apply (heval target).bind
    intro v
    exact (ofResultAt p (applyBinary .sub v right)).bind hstored

end Notes

/-! ## Section 6: Assignments -/

private theorem notes_eval (limit fuel : Nat) (e : Expr) :
    Notes (evalNoting (γ := γ) limit fuel e) (e.callSites true) (e.callSites false) := by
  induction fuel generalizing e with
  | zero => exact Notes.exhausted
  | succ fuel ih => exact Notes.evalWith ih (silentCalls_callWith limit fuel) e

private theorem notes_store (limit fuel : Nat) (target : Expr) (v : Value) (p : Pos) :
    Notes (storeNoting (γ := γ) limit fuel target v p) (target.writeSites true) (target.writeSites false) := by
  induction fuel generalizing target v p with
  | zero => exact Notes.exhausted
  | succ fuel ih => exact Notes.storeWith (notes_eval limit fuel) ih target v p

/-- A plain assignment into a container that makes no call reaches the calls of its value and those of its target, each
once. -/
theorem assignSites_set {target : Expr} (htarget : target.isTarget = true)
    (hcontainer : ∀ container, target.container? = some container → container.callSites false = []) (sure : Bool)
    (e : Expr) : assignSites sure target .set e = e.callSites sure ++ target.callSites sure := by
  have hwrite : target.writeSites sure = target.callSites sure := by
    cases target with
    | var => rfl
    | member object name p =>
      obtain ⟨hsites, hwrites⟩ := sites_eq_nil (hcontainer object rfl) sure
      rw [Expr.writeSites, Expr.callSites, hsites, hwrites]
      rfl
    | index object place p =>
      obtain ⟨hsites, hwrites⟩ := sites_eq_nil (hcontainer object rfl) sure
      rw [Expr.writeSites, Expr.callSites, hsites, hwrites, List.append_nil]
    | _ => contradiction
  rw [assignSites, hwrite]
  rfl

/-- The calls that an assignment makes are those that can be read off it. -/
theorem notes_assign (limit fuel : Nat) (target : Expr) (op : AssignOp) (e : Expr) (p : Pos) :
    Notes (execNoting (γ := γ) limit fuel (.assign target op e p)) (assignSites true target op e)
      (assignSites false target op e) := by
  cases fuel with
  | zero => exact Notes.exhausted
  | succ fuel =>
    rw [execNoting]
    exact Notes.assignWith (notes_eval limit fuel) (notes_store limit fuel) _ _ target op e p

end RowConsole.Script
