import RowConsole.Proofs.Script.Assignment.Slots
import RowConsole.Proofs.Script.Literal.Evaluated
import RowConsole.Proofs.Script.Variables

/-!
# Assignments along Paths

A path is a variable followed by property names and literal indices. To evaluate it is to read along it from the value
of the variable; to assign to it is to write along it and to rebind the variable. Assigned to, a path is a lens: it reads
back what was written, and whatever leaves it on the way reads what it has read before.

Main statement: `exec_assign_path`.
-/

namespace RowConsole.Script

variable {γ : Type} [Globals γ] {α β : Type} {limit : Nat} {m m' : Machine γ}

/-! ## Section 1: Settled Runs -/

/-- From some bound on the recursion on, a run has an outcome, always the same one. -/
def Settles (run : Nat → Run γ α) (m : Machine γ) (o : Attempt α × Machine γ) : Prop :=
  ∃ bound, ∀ fuel, bound ≤ fuel → run fuel m = some o

namespace Settles

variable {run : Nat → Run γ α} {next : Nat → α → Run γ β}

omit [Globals γ] in
theorem of_eq {o : Attempt α × Machine γ} (h : ∀ fuel, run fuel m = some o) : Settles run m o :=
  ⟨0, fun fuel _ => h fuel⟩

omit [Globals γ] in
theorem of_succ {o : Attempt α × Machine γ} (h : Settles (fun fuel => run (fuel + 1)) m o) : Settles run m o := by
  obtain ⟨bound, hbound⟩ := h
  refine ⟨bound + 1, fun fuel hfuel => ?_⟩
  obtain ⟨rest, rfl⟩ := Nat.exists_eq_add_of_le' (Nat.le_trans (Nat.le_add_left 1 bound) hfuel)
  exact hbound rest (Nat.le_of_add_le_add_right hfuel)

omit [Globals γ] in
/-- A sequence whose first run succeeds goes on with the second one. -/
theorem bind_ok {a : α} {o : Attempt β × Machine γ} (h : Settles run m (.ok a, m'))
    (hnext : Settles (fun fuel => next fuel a) m' o) : Settles (fun fuel => run fuel >>= next fuel) m o := by
  obtain ⟨bound, hrun⟩ := h
  obtain ⟨bound', hnext⟩ := hnext
  refine ⟨max bound bound', fun fuel hfuel => ?_⟩
  dsimp only
  rw [Run.bind_of_ok (hrun fuel (Nat.le_trans (Nat.le_max_left _ _) hfuel))]
  exact hnext fuel (Nat.le_trans (Nat.le_max_right _ _) hfuel)

omit [Globals γ] in
/-- A sequence whose first run fails fails with it. -/
theorem bind_error {e : Failure} (h : Settles run m (.error e, m')) :
    Settles (fun fuel => run fuel >>= next fuel) m (.error e, m') := by
  obtain ⟨bound, hrun⟩ := h
  refine ⟨bound, fun fuel hfuel => ?_⟩
  dsimp only
  exact Run.bind_of_error (hrun fuel hfuel)

omit [Globals γ] in
/-- A run settles on one outcome only. -/
theorem unique {o o' : Attempt α × Machine γ} (h : Settles run m o) (h' : Settles run m o') : o = o' := by
  obtain ⟨bound, hrun⟩ := h
  obtain ⟨bound', hrun'⟩ := h'
  have hsame := (hrun _ (Nat.le_max_left bound bound')).symm.trans (hrun' _ (Nat.le_max_right bound bound'))
  exact Option.some.inj hsame

end Settles

/-- An expression without calls and new functions has a value or fails, and changes nothing. -/
theorem settles_of_isQuiet {e : Expr} (h : e.isQuiet = true) (limit : Nat) (m : Machine γ) :
    ∃ r, Settles (fun fuel => eval limit fuel e) m (r, m) := by
  have hquiet : ∀ e : Expr, e.isQuiet = true →
      Mode.eventually.Holds (· = m) (fun fuel => eval limit fuel e) fun _ => True := by
    -- by induction on the syntax: the parts of a quiet expression are quiet
    refine (Syntax.induction (Q := fun _ => True) ?_ fun _ _ _ => trivial).1
    intro e ih _ he
    obtain ⟨hsimple, hparts, _⟩ := Expr.every_iff.mp he
    intro m₁ hm₁
    apply Mode.eventually_of_succ
    exact holds_evalWith_of_isSimple hsimple (fun part hpart => ih part hpart (hparts part hpart)) m₁ hm₁
  obtain ⟨⟨r, m₁⟩, hbound, rfl, _⟩ := hquiet e h m rfl
  exact ⟨r, hbound⟩

/-! ## Section 2: Paths -/

/-- A variable, with the position of its name, and the steps behind it. -/
structure Path where
  name : String
  pos : Pos
  steps : List Step

/-- A path with one more step at its end. -/
def Path.step (path : Path) (s : Step) : Path :=
  { path with steps := path.steps ++ [s] }

/-- The expressions that are a variable followed by property names and literal indices, with the paths that they are. A
literal is an expression that has the same value on all machines. -/
inductive Leads : Path → Expr → Prop where
  | var (name : String) (p : Pos) : Leads ⟨name, p, []⟩ (.var name p)
  | member {path : Path} {object : Expr} (h : Leads path object) (name : String) (p : Pos) :
    Leads (path.step (.member name p)) (.member object name p)
  | index {path : Path} {object index : Expr} {depth : Nat} {i : Value} (h : Leads path object)
    (hindex : Denotes depth i index) (p : Pos) : Leads (path.step (.element i p)) (.index object index p)

/-- The value of the variable of a path. -/
def Machine.rootOf (m : Machine γ) (path : Path) : Attempt Value :=
  match m.lookup path.name with
  | some u => .ok u
  | none => failureAt (.noVariable path.name) path.pos

/-- The value at the end of a path. -/
def Machine.readPath (m : Machine γ) (path : Path) : Attempt Value := do
  readAlong (← m.rootOf path) path.steps

/-- The value that the variable of a path is to have when another one is written at the end of the path. A variable that
is written as a whole need not have been bound. -/
def Machine.writtenPath (m : Machine γ) (path : Path) (v : Value) : Attempt Value :=
  match path.steps with
  | [] => .ok v
  | _ :: _ => do writeAlong (← m.rootOf path) path.steps v

section Steps

variable {path : Path} {s : Step} {v : Value}

private theorem readPath_step : m.readPath (path.step s) = (do s.readAt (← m.readPath path)) := by
  have hroot : m.rootOf (path.step s) = m.rootOf path := rfl
  rw [Machine.readPath, Machine.readPath, hroot, Path.step]
  cases m.rootOf path with
  | error e => rfl
  | ok u => exact readAlong_append path.steps s

private theorem writtenPath_of_ok {u : Value} (h : m.rootOf path = .ok u) (v : Value) :
    m.writtenPath path v = writeAlong u path.steps v := by
  rw [Machine.writtenPath, h]
  cases path.steps <;> rfl

private theorem writtenPath_step :
    m.writtenPath (path.step s) v =
      (do
        let container ← m.readPath path
        let updated ← s.writeAt container v
        m.writtenPath path updated) := by
  have hroot : m.rootOf (path.step s) = m.rootOf path := rfl
  cases h : m.rootOf path with
  | error e =>
    -- the longer path has a step, so its variable is read, which fails on both sides
    rw [Machine.readPath, h, Machine.writtenPath, hroot, h, Path.step]
    cases path.steps <;> rfl
  | ok u =>
    simp only [writtenPath_of_ok h, writtenPath_of_ok (hroot.trans h), Machine.readPath, h]
    exact writeAlong_append path.steps s

end Steps

/-! ## Section 3: Evaluation and Assignment -/

private theorem Denotes.settles {depth : Nat} {v : Value} {e : Expr} (h : Denotes depth v e) (limit : Nat)
    (m : Machine γ) :
    Settles (fun fuel => eval limit fuel e) m (.ok v, m) :=
  ⟨depth + 2, fun fuel hfuel => h limit fuel m hfuel⟩

/-- A path is evaluated to what is read along it. -/
theorem Leads.settles_eval {path : Path} {e : Expr} (h : Leads path e) (limit : Nat) (m : Machine γ) :
    Settles (fun fuel => eval limit fuel e) m (m.readPath path, m) := by
  -- On the way to a place nothing is written, so the machine is the same at the end.
  induction h with
  | var name p =>
    apply Settles.of_succ
    apply Settles.of_eq
    intro fuel
    rw [eval, evalWith, Run.get_apply, Machine.readPath, Machine.rootOf]
    cases m.lookup name <;> rfl
  | @member path object _ name p ih =>
    apply Settles.of_succ
    rw [readPath_step]
    show Settles (fun fuel => eval limit fuel object >>= fun v => Run.ofResultAt p (Script.member name v)) m _
    cases hread : m.readPath path with
    | error e =>
      rw [hread] at ih
      exact ih.bind_error
    | ok c =>
      rw [hread] at ih
      exact ih.bind_ok (Settles.of_eq fun _ => Run.ofResultAt_apply p _ m)
  | @index path object index depth i _ hindex p ih =>
    apply Settles.of_succ
    rw [readPath_step]
    show Settles (fun fuel => eval limit fuel object >>= fun c => eval limit fuel index >>= fun i =>
      Run.ofResultAt p (elementAt c i)) m _
    cases hread : m.readPath path with
    | error e =>
      rw [hread] at ih
      exact ih.bind_error
    | ok c =>
      rw [hread] at ih
      exact ih.bind_ok ((hindex.settles limit m).bind_ok (Settles.of_eq fun _ => Run.ofResultAt_apply p _ m))

/-- Rebinds the variable of a path as it has to be when a value is written at the end of the path. -/
def writePath (path : Path) (v : Value) (p : Pos) : Run γ Unit := do
  let u ← Run.ofResult ((← get).writtenPath path v)
  (assignName path.name u).located p

/-- What is written at the end of a longer path is written into the container at the end of the shorter one. -/
theorem writePath_step (path : Path) (s : Step) (v : Value) (p : Pos) (m : Machine γ) :
    writePath (path.step s) v p m =
      match m.readPath path with
      | .error e => some (.error e, m)
      | .ok container =>
        match s.writeAt container v with
        | .error e => some (.error e, m)
        | .ok updated => writePath path updated p m := by
  -- The written root is computed first; one step of the path is one step of that.
  have hrun : writePath (path.step s) v p m =
      (do
        let u ← Run.ofResult (m.writtenPath (path.step s) v)
        (assignName path.name u).located p : Run γ Unit) m := rfl
  rw [hrun, writtenPath_step]
  cases m.readPath path with
  | error e => rfl
  | ok container =>
    cases hwrite : s.writeAt container v with
    | error e =>
      simp only [hwrite, bind, Except.bind]
      rfl
    | ok updated =>
      simp only [hwrite, bind, Except.bind]
      rfl

/-- To store into a part of a container is to write the part and to store the container. -/
theorem settles_store_part {path : Path} {object : Expr} {s : Step} {container v : Value} {p : Pos}
    {o : Attempt Unit × Machine γ} (hread : m.readPath path = .ok container)
    (hstore : ∀ {v : Value} {o : Attempt Unit × Machine γ}, writePath path v p m = some o →
      Settles (fun fuel => store limit fuel object v p) m o)
    (ho : writePath (path.step s) v p m = some o) :
    Settles (fun fuel => Run.ofResultAt s.pos (s.write container v) >>= fun updated => store limit fuel object updated p)
      m o := by
  have hwritten : Settles (fun _ => Run.ofResultAt s.pos (s.write container v)) m (s.writeAt container v, m) :=
    Settles.of_eq fun _ => Run.ofResultAt_apply s.pos _ m
  rw [writePath_step, hread] at ho
  cases hwrite : s.writeAt container v with
  | error e =>
    simp only [hwrite, Option.some.injEq] at ho hwritten
    exact ho ▸ hwritten.bind_error
  | ok updated =>
    simp only [hwrite] at ho hwritten
    exact hwritten.bind_ok (hstore ho)

/-- Storing into a path is writing along it. -/
theorem Leads.settles_store {path : Path} {e : Expr} (h : Leads path e) {v : Value} {p : Pos}
    {o : Attempt Unit × Machine γ} (ho : writePath path v p m = some o) :
    Settles (fun fuel => store limit fuel e v p) m o := by
  -- A step of the path is peeled off per container, for whatever is written into it.
  induction h generalizing v o with
  | var name q =>
    apply Settles.of_succ
    exact Settles.of_eq fun _ => ho
  | @member path object h name q ih =>
    apply Settles.of_succ
    have hobject := h.settles_eval limit m
    show Settles (fun fuel => eval limit fuel object >>= fun c =>
      Run.ofResultAt q (setMember c name v) >>= fun updated => store limit fuel object updated p) m o
    cases hread : m.readPath path with
    | error e =>
      rw [writePath_step, hread] at ho
      rw [hread] at hobject
      exact Option.some.inj ho ▸ hobject.bind_error
    | ok c =>
      rw [hread] at hobject
      exact hobject.bind_ok (settles_store_part hread ih ho)
  | @index path object index depth i h hindex q ih =>
    apply Settles.of_succ
    have hobject := h.settles_eval limit m
    show Settles (fun fuel => eval limit fuel object >>= fun c => eval limit fuel index >>= fun i =>
      Run.ofResultAt q (setElement c i v) >>= fun updated => store limit fuel object updated p) m o
    cases hread : m.readPath path with
    | error e =>
      rw [writePath_step, hread] at ho
      rw [hread] at hobject
      exact Option.some.inj ho ▸ hobject.bind_error
    | ok c =>
      rw [hread] at hobject
      exact hobject.bind_ok ((hindex.settles limit m).bind_ok (settles_store_part hread ih ho))

/-- An assignment to a path writes the value of its right-hand side along the path. -/
theorem Leads.settles_assign {path : Path} {target e : Expr} (h : Leads path target) {v : Value} {p : Pos}
    {r : Attempt Unit} (he : Settles (fun fuel => eval limit fuel e) m (.ok v, m))
    (hwrite : writePath path v p m = some (r, m')) :
    Settles (fun fuel => exec limit fuel (.assign target .set e p)) m (r.map fun _ => .next v, m') := by
  apply Settles.of_succ
  show Settles (fun fuel => eval limit fuel e >>= fun right => store limit fuel target right p >>= fun _ =>
    return Flow.next right) m _
  apply he.bind_ok
  have hstore : Settles (fun fuel => store limit fuel target v p) m (r, m') := h.settles_store hwrite
  cases r with
  | error e => exact hstore.bind_error
  | ok _ => exact hstore.bind_ok (Settles.of_eq fun _ => rfl)

/-! ## Section 4: The Laws of a Lens -/

omit [Globals γ] in
theorem Run.WritesOrFails.located [Globals γ] {run : Run γ Unit} {target : Variable} {v : Value}
    (h : run.WritesOrFails target v m) (p : Pos) : (run.located p).WritesOrFails target v m := by
  rcases h with ⟨m', hrun, hwrites⟩ | ⟨e, hrun⟩
  · exact .inl ⟨m', Run.located_eq_ok.mpr hrun, hwrites⟩
  · refine .inr ⟨e.located p, ?_⟩
    rw [Run.located, Run.mapFailure_apply, hrun]
    rfl

private theorem survives_writtenPath (m : Machine γ) (path : Path) (v : Value) : Survives (m.writtenPath path v) := by
  unfold Machine.writtenPath
  split
  · exact survives_ok v
  · apply survives_bind
    · unfold Machine.rootOf
      split <;> simp
    · exact fun u => survives_writeAlong u path.steps v

/-- To write along a path is to write its variable, or to end in an error and to change nothing. -/
theorem writePath_cases (path : Path) (v : Value) (p : Pos) (m : Machine γ) :
    (∃ u m', m.writtenPath path v = .ok u ∧ writePath path v p m = some (.ok (), m') ∧
      m.Writes (m.resolve path.name) u m') ∨
    ∃ e, writePath path v p m = some (.error (.script e), m) := by
  have hrun : writePath path v p m =
      (do
        let u ← Run.ofResult (m.writtenPath path v)
        (assignName path.name u).located p : Run γ Unit) m := rfl
  cases hwritten : m.writtenPath path v with
  | error e =>
    obtain ⟨e, rfl⟩ := (survives_writtenPath m path v).eq_script hwritten
    rw [hrun, hwritten]
    exact .inr ⟨e, rfl⟩
  | ok u =>
    have hassign : writePath path v p m = (assignName path.name u).located p m := by
      rw [hrun, hwritten]
      rfl
    rw [hassign]
    -- Only the assignment of the root can change the machine, or fail.
    rcases (assignName_writes path.name u m).located p with ⟨m', hassigned, hwrites⟩ | hfails
    · exact .inl ⟨u, m', rfl, hassigned, hwrites⟩
    · exact .inr hfails

/-- Whether a path has left another one before the end of that one: it starts with another name, or it takes another
slot of some container on the way, without counting from the end of lists. -/
def Machine.Leaves (m : Machine γ) (path other : Path) : Prop :=
  other.name ≠ path.name ∨
    other.name = path.name ∧ (∀ s ∈ other.steps, s.Forward) ∧
      ∃ u, m.lookup path.name = some u ∧ Diverges u path.steps other.steps

section Laws

variable {path other : Path} {u v : Value}

/-- The value at the end of a path that starts with a name that is bound. -/
theorem readPath_of_lookup (h : m.lookup path.name = some u) : m.readPath path = readAlong u path.steps := by
  rw [Machine.readPath, Machine.rootOf, h]
  rfl

private theorem writtenPath_eq_ok (h : m.writtenPath path v = .ok u) :
    path.steps = [] ∧ u = v ∨ ∃ old, m.lookup path.name = some old ∧ writeAlong old path.steps v = .ok u := by
  cases hroot : m.lookup path.name with
  | some old =>
    have hold : m.rootOf path = .ok old := by rw [Machine.rootOf, hroot]
    exact .inr ⟨old, rfl, (writtenPath_of_ok hold v).symm.trans h⟩
  | none =>
    rw [Machine.writtenPath, Machine.rootOf, hroot] at h
    cases hsteps : path.steps with
    | nil =>
      rw [hsteps] at h
      cases h
      exact .inl ⟨rfl, rfl⟩
    | cons s rest =>
      rw [hsteps] at h
      cases h

/-- A name that stands for another variable is looked up as before. -/
theorem Machine.Writes.lookup_ne {name y : String} (h : m.Writes (m.resolve name) u m') (hne : y ≠ name) :
    m'.lookup y = m.lookup y := by
  have hresolve : m'.resolve y = m.resolve y := h.resolve_eq (fun _ _ _ => isSome_valueAt_resolve) y
  rw [Machine.lookup_eq, Machine.lookup_eq, hresolve, h.kept _ (resolve_ne hne)]

/-- A path reads back what was written along it. -/
theorem readPath_written (hwritten : m.writtenPath path v = .ok u) (h : m.Writes (m.resolve path.name) u m') :
    m'.readPath path = .ok v := by
  rw [readPath_of_lookup h.lookup_resolve]
  rcases writtenPath_eq_ok hwritten with ⟨hsteps, rfl⟩ | ⟨old, _, hwrite⟩
  · rw [hsteps]
    rfl
  · exact readAlong_writeAlong hwrite

/-- A path that has left the one that was written reads what it has read before. -/
theorem readPath_left (hwritten : m.writtenPath path v = .ok u) (h : m.Writes (m.resolve path.name) u m')
    (hleaves : m.Leaves path other) : m'.readPath other = m.readPath other := by
  rcases hleaves with hname | ⟨hname, hforward, old, hold, hdiverges⟩
  · rw [Machine.readPath, Machine.readPath, Machine.rootOf, Machine.rootOf, h.lookup_ne hname]
  · have hwrite : writeAlong old path.steps v = .ok u := by
      rcases writtenPath_eq_ok hwritten with ⟨hsteps, _⟩ | ⟨old', hold', hwrite⟩
      · -- nothing leaves a path that ends with its variable
        rw [hsteps] at hdiverges
        cases hdiverges
      · rw [hold] at hold'
        cases hold'
        exact hwrite
    have hbefore : m.lookup other.name = some old := hname ▸ hold
    have hbehind : m'.lookup other.name = some u := hname ▸ h.lookup_resolve
    rw [readPath_of_lookup hbefore, readPath_of_lookup hbehind]
    exact readAlong_of_diverges hdiverges hforward hwrite

end Laws

/-- An assignment of the value of an expression without calls, such as a literal or a variable, to a variable or to
what stands behind it at the end of any number of property names and literal indices. It fails and changes nothing, and
breaks down only where the value does; or it succeeds: then the path is evaluated to the value that was assigned, the
only variable that was written is the one that the path starts with, and every path that leaves it is evaluated to what
it was evaluated to before. -/
theorem exec_assign_path (limit : Nat) (m : Machine γ) {path : Path} {target e : Expr} (htarget : Leads path target)
    (hquiet : e.isQuiet = true) (p : Pos) :
    (∃ failure, Settles (fun fuel => exec limit fuel (.assign target .set e p)) m (.error failure, m) ∧
        ∀ c, failure = .crash c → Settles (fun fuel => eval limit fuel e) m (.error failure, m)) ∨
      ∃ v u m',
        Settles (fun fuel => eval limit fuel e) m (.ok v, m) ∧
        Settles (fun fuel => exec limit fuel (.assign target .set e p)) m (.ok (.next v), m') ∧
        Settles (fun fuel => eval limit fuel target) m' (.ok v, m') ∧
        m.Writes (m.resolve path.name) u m' ∧
        ∀ other q, Leads other q → m.Leaves path other →
          ∃ r, Settles (fun fuel => eval limit fuel q) m (r, m) ∧ Settles (fun fuel => eval limit fuel q) m' (r, m') := by
  obtain ⟨r, hright⟩ := settles_of_isQuiet hquiet limit m
  cases r with
  | error failure =>
    left
    exact ⟨failure, Settles.of_succ hright.bind_error, fun _ _ => hright⟩
  | ok v =>
    rcases writePath_cases path v p m with ⟨u, m', hwritten, hwrite, hwrites⟩ | ⟨failure, hwrite⟩
    · right
      -- The path reads back what was written along it.
      have hread : m'.readPath path = .ok v := readPath_written hwritten hwrites
      refine ⟨v, u, m', hright, htarget.settles_assign hright hwrite, ?_, hwrites, fun other q hq hleaves => ?_⟩
      · exact hread ▸ htarget.settles_eval limit m'
      · refine ⟨m.readPath other, hq.settles_eval limit m, ?_⟩
        rw [← readPath_left hwritten hwrites hleaves]
        exact hq.settles_eval limit m'
    · -- what fails behind the value is an error
      exact .inl ⟨.script failure, htarget.settles_assign hright hwrite, nofun⟩

/-- The last item of a list in a map that a function keeps in an outer scope, written through an index that counts from
the end, while a global has the same name. The item before it is left alone. -/
theorem exec_assign_path_nested :
    let items : Expr := .member (.var "a" ⟨2, 1⟩) "items" ⟨2, 2⟩
    let target : Expr := .member (.index items (.unary .neg (.int 1) ⟨2, 9⟩) ⟨2, 8⟩) "k" ⟨2, 12⟩
    let path : Path := ⟨"a", ⟨2, 1⟩, [.member "items" ⟨2, 2⟩, .element (.int (-1)) ⟨2, 8⟩, .member "k" ⟨2, 12⟩]⟩
    let sibling : Expr := .index items (.int 0) ⟨2, 8⟩
    let other : Path := ⟨"a", ⟨2, 1⟩, [.member "items" ⟨2, 2⟩, .element (.int 0) ⟨2, 8⟩]⟩
    let e : Expr := .var "b" ⟨2, 17⟩
    let m (k : Value) : Machine (OrderedMap Value) :=
      { globals := [("a", .null), ("b", .str "z")], output := {}, serial := 1
        frame := ⟨[[], [("a", .map [("items", .list [.int 1, .map [("k", k)]])])]], false⟩, callers := [⟨[], true⟩] }
    Leads path target ∧ e.isQuiet = true ∧ Leads other sibling ∧ (m (.int 2)).Leaves path other ∧
      Settles (fun fuel => exec 100 fuel (.assign target .set e ⟨2, 15⟩)) (m (.int 2))
        (.ok (.next (.str "z")), m (.str "z")) ∧
      Settles (fun fuel => eval 100 fuel target) (m (.str "z")) (.ok (.str "z"), m (.str "z")) ∧
      Settles (fun fuel => eval 100 fuel sibling) (m (.str "z")) (.ok (.int 1), m (.str "z")) := by
  intro items target path sibling other e m
  have hitems : Leads ⟨"a", ⟨2, 1⟩, [.member "items" ⟨2, 2⟩]⟩ items := .member (.var "a" ⟨2, 1⟩) "items" ⟨2, 2⟩
  have hlast : Denotes 0 (.int (-1)) (.unary .neg (.int 1) ⟨2, 9⟩) :=
    Denotes.negative (by decide : Int64.minValue < -1) (by decide) ⟨2, 9⟩
  have hfirst : Denotes 0 (.int 0) (.int 0) := Denotes.leaf fun _ _ => rfl
  have htarget : Leads path target := (hitems.index hlast ⟨2, 8⟩).member "k" ⟨2, 12⟩
  have hsibling : Leads other sibling := hitems.index hfirst ⟨2, 8⟩
  have hright : Settles (fun fuel => eval 100 fuel e) (m (.int 2)) (.ok (.str "z"), m (.int 2)) :=
    Settles.of_succ (Settles.of_eq fun _ => rfl)
  have hwrite : writePath path (.str "z") ⟨2, 15⟩ (m (.int 2)) = some (.ok (), m (.str "z")) := rfl
  have hrun := htarget.settles_assign hright hwrite
  have hquiet : e.isQuiet = true := rfl
  rcases exec_assign_path 100 (m (.int 2)) htarget hquiet ⟨2, 15⟩ with
    ⟨failure, hfails, _⟩ | ⟨v, u, m', _, hassigned, hread, _, hothers⟩
  · cases hfails.unique hrun
  · cases hassigned.unique hrun
    -- the paths have parted at the items of the list
    have hleaves : (m (.int 2)).Leaves path other := by
      refine .inr ⟨rfl, ?_, _, rfl, .deeper rfl rfl (.here _ _ rfl rfl (by decide))⟩
      simp [other, Step.Forward]
    obtain ⟨r, hbefore, hbehind⟩ := hothers _ _ hsibling hleaves
    have hold : Settles (fun fuel => eval 100 fuel sibling) (m (.int 2)) (.ok (.int 1), m (.int 2)) :=
      hsibling.settles_eval 100 (m (.int 2))
    cases hbefore.unique hold
    exact ⟨htarget, hquiet, hsibling, hleaves, hrun, hread, hbehind⟩

end RowConsole.Script
