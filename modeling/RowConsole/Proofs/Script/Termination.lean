import RowConsole.Proofs.Script.Construct
import RowConsole.Proofs.Script.Contents

/-!
# Termination

Programs without loops on a condition. Such a loop may run for ever; all else comes to an end: every call uses
up one of the frames that are left, every other construct goes on to its parts, and a loop over elements or a
method that calls a function visits a list that is fixed when it starts. Functions are values, so the globals
must hold no such loop either, not even inside of lists, maps and the locals that closures keep.

Main statement: `terminates_of_whileFree`, every run of such a program ends with a value or an error, or with a breakdown
of the whole program.
-/

namespace RowConsole.Script

/-! ## Section 1: Programs without Loops on a Condition -/

/-- Whether no statement in a program is a loop on a condition, at any nesting. -/
def whileFree (program : List Stmt) : Bool :=
  everyStmt (fun _ => true) (fun s => !s.isWhile) program

/-- The standard of values whose functions hold no loop on a condition. -/
def Standard.whileFree : Standard where
  routine r := Script.whileFree r.body = true
  keys _ := True
  keys_nil := trivial
  keys_snoc _ _ := trivial

private theorem Expr.whileFree_iff {e : Expr} :
    e.every (fun _ => true) (fun s => !s.isWhile) = true ↔
      (∀ e' ∈ e.parts, e'.every (fun _ => true) (fun s => !s.isWhile) = true) ∧
        Script.whileFree e.body = true := by
  rw [Expr.every_iff, Script.whileFree, everyStmt_iff]
  exact ⟨fun h => h.2, fun h => ⟨rfl, h⟩⟩

private theorem Stmt.whileFree_iff {s : Stmt} :
    s.every (fun _ => true) (fun s => !s.isWhile) = true ↔
      s.isWhile = false ∧ (∀ e ∈ s.parts, e.every (fun _ => true) (fun s => !s.isWhile) = true) ∧
        Script.whileFree s.body = true := by
  rw [Stmt.every_iff, Script.whileFree, everyStmt_iff, Bool.not_eq_true']

/-! ## Section 2: Coming to an End -/

variable {γ : Type} [Globals γ] {limit depth : Nat}

/-- The machine has a given number of frames, and no function in it holds a loop on a condition. -/
abbrev WhileFreeAt (depth : Nat) : Machine γ → Prop :=
  MeetsAt .whileFree depth

/-- From every machine with a given number of frames, a family of runs comes to an end if its bound is large
enough. -/
abbrev Ends {α : Type} (depth : Nat) (run : Nat → Run γ α) (Q : α → Prop) : Prop :=
  Mode.eventually.Holds (WhileFreeAt depth) run Q

theorem Ends.of_succ {α : Type} {run : Nat → Run γ α} {Q : α → Prop}
    (h : Ends depth (fun fuel => run (fuel + 1)) Q) : Ends depth run Q := fun m hm =>
  Mode.eventually_of_succ (h m hm)

/-- The bodies of functions come to an end with one frame more. -/
def BodiesEnd (γ : Type) [Globals γ] (limit depth : Nat) : Prop :=
  depth < limit → ∀ body, whileFree body = true →
    Ends (γ := γ) (depth + 1) (fun fuel => runBlock (exec limit fuel) .null body) (Flow.Meets .whileFree)

private theorem calls_end (hdepth : 0 < depth) (hbodies : BodiesEnd γ limit depth) (p : Pos) :
    Mode.eventually.HoldsCalls (WhileFreeAt (γ := γ) depth) .whileFree fun fuel =>
      callWith limit (runBlock (exec limit fuel) .null) p := by
  refine Mode.Holds.callWith (stable_meetsAt _ depth).written p ?_
  intro routine captured args hroutine hcaptured hargs
  refine Mode.Holds.callRoutine p fun m hm hlimit => ?_
  rw [hm.depth_eq] at hlimit
  refine ⟨WhileFreeAt (depth + 1), hbodies hlimit routine.body hroutine, fun m hm => ?_, fun m hm => ?_⟩
  · refine hm.pushFrame (List.forall_mem_cons.mpr ⟨paramScope_meets routine hargs, ?_⟩)
    exact List.forall_mem_cons.mpr ⟨hcaptured, by simp⟩
  · exact hm.popFrame hdepth

/-- Constructs come to an end if bodies do: by induction on the syntax, since all but calls go on to parts. -/
theorem constructs_end (hdepth : 0 < depth) (hbodies : BodiesEnd γ limit depth) :
    (∀ e : Expr, e.every (fun _ => true) (fun s => !s.isWhile) = true →
      Ends (γ := γ) depth (fun fuel => eval limit fuel e) (Value.Meets .whileFree) ∧
      ∀ v p, v.Meets .whileFree → Ends (γ := γ) depth (fun fuel => store limit fuel e v p) fun _ => True) ∧
    ∀ s : Stmt, s.every (fun _ => true) (fun s => !s.isWhile) = true →
      Ends (γ := γ) depth (fun fuel => exec limit fuel s) (Flow.Meets .whileFree) := by
  have hI := stable_meetsAt (γ := γ) .whileFree depth
  -- Without `while`, each construct runs its parts and its body only, so the induction is on the syntax, not on fuel.
  apply Syntax.induction
  · intro e ihparts ihbody hfree
    obtain ⟨hparts, hbody⟩ := Expr.whileFree_iff.mp hfree
    constructor
    · refine Ends.of_succ ?_
      simp only [eval]
      refine Mode.Holds.evalWith hI (fun e' he' => (ihparts e' he' (hparts e' he')).1)
        (calls_end hdepth hbodies) ?_
      rintro params body p rfl
      exact hbody
    · intro v p hv
      refine Ends.of_succ ?_
      simp only [store]
      exact Mode.Holds.storeWith hI hv p (fun e' he' => (ihparts e' he' (hparts e' he')).1)
        fun e' he' => (ihparts e' he' (hparts e' he')).2
  · intro s ihparts ihbody hfree
    obtain ⟨hwhile, hparts, hbody⟩ := Stmt.whileFree_iff.mp hfree
    rw [whileFree, everyStmt_iff] at hbody
    refine Ends.of_succ ?_
    simp only [exec]
    refine Mode.Holds.execWith hI (fun e he => (ihparts e he (hparts e he)).1)
      (fun e he => (ihparts e he (hparts e he)).2) ?_ ?_ ?_
    · intro scope body hscope _ hsub
      refine Mode.Holds.runScoped (fun s' hs' => ihbody s' (hsub hs') (hbody s' (hsub hs'))) ?_ ?_
      · exact fun m hm => hm.openScope hscope
      · exact fun m hm => hm.closeScope
    · -- This is where the hypothesis is used: a `while` is excluded.
      rintro cond body rfl
      contradiction
    · rintro name params body p rfl
      exact everyStmt_iff.mpr hbody

/-- Bodies come to an end at every depth: by induction on the number of frames that are left. -/
theorem bodies_end (left : Nat) : ∀ depth, 0 < depth → limit ≤ depth + left → BodiesEnd γ limit depth := by
  induction left with
  | zero =>
    intro depth _ hleft hlimit
    omega
  | succ left ih =>
    intro depth hdepth hleft _ body hbody
    have hdeeper : BodiesEnd γ limit (depth + 1) := ih (depth + 1) (Nat.succ_pos _) (by omega)
    rw [whileFree, everyStmt_iff] at hbody
    refine Mode.Holds.runBlock (fun s hs => ?_) .null
    exact (constructs_end (Nat.succ_pos _) hdeeper).2 s (hbody s hs)

/-- A program without loops on a condition comes to an end, if no function in the globals holds such a loop: from some
bound on the recursion on, its run has a value or an error, or it breaks down, and always in the same way. This is so
wherever the program writes to. -/
theorem terminates_of_whileFree (limit serial : Nat) (output : Output) (globals : γ) (program : List Stmt)
    (hprogram : whileFree program = true)
    (hglobals : ∀ name v, Globals.lookup globals name = some v → v.Meets .whileFree) :
    ∃ r m bound, ∀ fuel, bound ≤ fuel →
      runProgram limit fuel program (Machine.start globals serial output) = some (r, m) := by
  have hbodies : BodiesEnd γ limit 1 := bodies_end limit 1 Nat.one_pos (Nat.le_add_left limit 1)
  have hblock : Ends (γ := γ) 1 (fun fuel => runBlock (exec limit fuel) .null program)
      (Flow.Meets .whileFree) := by
    rw [whileFree, everyStmt_iff] at hprogram
    refine Mode.Holds.runBlock (fun s hs => ?_) .null
    exact (constructs_end Nat.one_pos hbodies).2 s (hprogram s hs)
  have hrun : Ends (γ := γ) 1 (fun fuel => runProgram limit fuel program) (Value.Meets .whileFree) :=
    hblock.bind fun flow hflow => Mode.Holds.ofResult (Flow.result_meets hflow)
  have hstart : WhileFreeAt 1 (Machine.start globals serial output) :=
    ⟨rfl, hglobals, by simp [Machine.start], by simp [Machine.start]⟩
  obtain ⟨⟨r, m⟩, ⟨bound, hbound⟩, _⟩ := hrun _ hstart
  exact ⟨r, m, bound, hbound⟩

/-- Maps a list by a closure that calls the function around it again; only the limit on frames ends it. -/
def descent : List Stmt :=
  [.function "descend" ["n"]
      [.returns (some (.method (.var "items" ⟨1, 1⟩) "map"
        [.closure ["x"] [.expr (.call (.var "descend" ⟨1, 1⟩) [.var "x" ⟨1, 1⟩] ⟨1, 1⟩)] ⟨1, 1⟩] ⟨1, 1⟩))] ⟨1, 1⟩,
    .forLoop "start" (.var "items" ⟨2, 1⟩) [.expr (.call (.var "descend" ⟨2, 1⟩) [.var "start" ⟨2, 1⟩] ⟨2, 1⟩)]
      ⟨2, 1⟩]

/-- A number and a closure with a local of its own. -/
def descentItems : OrderedMap Value :=
  [("items", .list [.int 1, .function ⟨none, [], [.expr (.var "it" ⟨1, 1⟩)]⟩ 0 [("x", .null)]])]

theorem terminates_of_whileFree_descent :
    whileFree descent = true ∧
      (∀ name v, Globals.lookup descentItems name = some v → v.Meets .whileFree) ∧
      ∃ r m bound, ∀ fuel, bound ≤ fuel →
        runProgram 5 fuel descent (Machine.start descentItems 1) = some (r, m) := by
  have hprogram : whileFree descent = true := by decide +kernel
  have hbody : whileFree [.expr (.var "it" ⟨1, 1⟩)] = true := by decide +kernel
  have hentries : EntriesMeet .whileFree descentItems := by
    intro entry hentry
    rw [List.mem_singleton.mp hentry]
    refine .list (List.forall_mem_cons.mpr ⟨.int 1, List.forall_mem_cons.mpr ⟨?_, by simp⟩⟩)
    exact .function hbody (List.forall_mem_cons.mpr ⟨.null, by simp⟩)
  have hitems : ∀ name v, Globals.lookup descentItems name = some v → v.Meets .whileFree :=
    fun name v hv => hentries.lookup hv
  exact ⟨hprogram, hitems, terminates_of_whileFree 5 1 {} descentItems descent hprogram hitems⟩

/-- The least integer divided by minus one. -/
def leastDivision : List Stmt :=
  let least := .binary .sub (.unary .neg (.int Int64.maxValue) ⟨1, 2⟩) (.int 1) ⟨1, 23⟩
  [.expr (.binary .div least (.unary .neg (.int 1) ⟨1, 30⟩) ⟨1, 28⟩)]

/-- Not every such program has a value or an error: a division whose quotient does not fit breaks down, because its
remainder is asked for first. -/
theorem terminates_of_whileFree_leastDivision :
    whileFree leastDivision = true ∧
      (∀ name v, Globals.lookup ([] : OrderedMap Value) name = some v → v.Meets .whileFree) ∧
      ∀ fuel, 5 ≤ fuel → runProgram 100 fuel leastDivision (Machine.start ([] : OrderedMap Value) 0) =
        some (crash .remainderOverflow, Machine.start [] 0) := by
  refine ⟨by decide +kernel, nofun, fun fuel hfuel => ?_⟩
  obtain ⟨fuel, rfl⟩ := Nat.exists_eq_add_of_le' hfuel
  rfl

end RowConsole.Script
