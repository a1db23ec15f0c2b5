import RowConsole.Proofs.Script.Assignment.CallSites

/-!
# Targets That Are Evaluated Once

To read and to write the same place, a target has to be evaluated once: to the place that it names, with the values of
the containers around it as they were found. An assignment evaluates the containers again when it writes them back, and
the whole target before that if it reads the old value. What it does is nevertheless the same where the operands of the
target change nothing, and for a plain assignment into a container that is kept by a variable.

Main statement: `exec_assign`.
-/

namespace RowConsole.Script

variable {γ α : Type} [Globals γ]

/-! ## Section 1: Places -/

/-- A place that a target names, with the values of the containers around it as they were found. -/
inductive Place where
  | name (name : String)
  | member (around : Place) (container : Value) (key : String) (pos : Pos)
  | element (around : Place) (container index : Value) (pos : Pos)
  | temporary

/-- Writes a value into a place: the containers around it are rebuilt as they were found, from the inside to the
outside. -/
def Place.write (p : Pos) : Place → Value → Run γ Unit
  | .name x, v => (assignName x v).located p
  | .member around container key q, v => do
    let updated ← Run.ofResultAt q (setMember container key v)
    around.write p updated
  | .element around container index q, v => do
    let updated ← Run.ofResultAt q (setElement container index v)
    around.write p updated
  | .temporary, _ => Run.failAt .temporaryTarget p

/-- The place that an expression without a container names. -/
def Expr.root : Expr → Place
  | .var name _ => .name name
  | _ => .temporary

/-- Evaluates a target, once, to the place that it names and the value there. -/
def readPlace (limit : Nat) : Nat → Expr → Run γ (Place × Value)
  | 0, _ => Run.exhausted
  | fuel + 1, .member object name q => do
    let (around, container) ← readPlace limit fuel object
    let v ← Run.ofResultAt q (member name container)
    return (.member around container name q, v)
  | fuel + 1, .index object index q => do
    let (around, container) ← readPlace limit fuel object
    let index ← eval limit fuel index
    let v ← Run.ofResultAt q (elementAt container index)
    return (.element around container index q, v)
  | fuel + 1, e => do
    let v ← eval limit (fuel + 1) e
    return (e.root, v)

/-- Evaluates a target, once, to the place that it names, whatever stands there. -/
def findPlace (limit : Nat) : Nat → Expr → Run γ Place
  | 0, _ => Run.exhausted
  | fuel + 1, .member object name q => do
    let (around, container) ← readPlace limit fuel object
    return .member around container name q
  | fuel + 1, .index object index q => do
    let (around, container) ← readPlace limit fuel object
    let index ← eval limit fuel index
    return .element around container index q
  | _ + 1, e => return e.root

/-- The place that an assignment writes and the value that it writes, which may be made of the old value. -/
def assigned (limit fuel : Nat) (target : Expr) (op : AssignOp) (right : Value) (p : Pos) : Run γ (Place × Value) :=
  match op with
  | .set => do return (← findPlace limit fuel target, right)
  | .add => do
    let (place, old) ← readPlace limit fuel target
    return (place, ← Run.ofResultAt p (applyBinary .add old right))
  | .sub => do
    let (place, old) ← readPlace limit fuel target
    return (place, ← Run.ofResultAt p (applyBinary .sub old right))

/-- An assignment that evaluates its target once. -/
def assignOnce (limit : Nat) : Nat → Expr → AssignOp → Expr → Pos → Run γ Flow
  | 0, _, _, _, _ => Run.exhausted
  | fuel + 1, target, op, e, p => do
    let right ← eval limit fuel e
    let (place, v) ← assigned limit fuel target op right p
    place.write p v
    return .next v

/-! ## Section 2: Steady Operands -/

/-- The expressions that are evaluated to find the place that a target names. -/
def Expr.operands : Expr → List Expr
  | .var _ _ => []
  | .member object _ _ => object.operands
  | .index object place _ => object.operands ++ [place]
  | e => [e]

/-- An expression that leaves a machine as it is when it is evaluated. -/
def Steady (limit : Nat) (m : Machine γ) (e : Expr) : Prop :=
  ∀ fuel v m', eval limit fuel e m = some (.ok v, m') → m' = m

/-- Whether an expression neither calls a function itself nor makes one. -/
def Expr.isSimple : Expr → Bool
  | .call _ _ _ | .method _ _ _ _ | .closure _ _ _ => false
  | _ => true

/-- Whether there are no calls and no new functions in an expression. -/
def Expr.isQuiet (e : Expr) : Bool :=
  e.every Expr.isSimple fun _ => true

/-- Such an expression keeps whatever its parts keep. -/
theorem holds_evalWith_of_isSimple {ι : Type} {M : Mode ι} {I : Machine γ → Prop} {eval : ι → Expr → Run γ Value}
    {call : ι → Pos → Caller γ} {e : Expr} (h : e.isSimple = true)
    (heval : ∀ part ∈ e.parts, M.Holds I (fun i => eval i part) fun _ => True) :
    M.Holds I (fun i => evalWith (eval i) (call i) e) fun _ => True := by
  have hpure : ∀ v : Value, M.Holds I (fun _ => (pure v : Run γ Value)) fun _ => True := fun _ => Mode.Holds.pure trivial
  have hresult : ∀ (p : Pos) (r : Attempt Value), M.Holds I (fun _ => Run.ofResultAt p r) fun _ => True :=
    fun p r => Mode.Holds.ofResultAt p fun _ _ => trivial
  -- A simple expression runs its parts and no call, so `call` may be anything.
  cases e with
  | list items => exact (Mode.Holds.mapM heval).bind fun values _ => hpure (.list values)
  | map entries =>
    have hentries : M.Holds I
        (fun i => entries.mapM fun entry => do return (entry.1, ← eval i entry.2)) fun made => ∀ b ∈ made, True := by
      apply Mode.Holds.mapM
      intro entry hentry
      exact (heval entry.2 (List.mem_map_of_mem hentry)).bind fun v _ => Mode.Holds.pure trivial
    exact hentries.bind fun made _ => hpure (.map (OrderedMap.ofEntries made))
  | var name p =>
    apply Mode.Holds.get.bind
    intro m _
    cases m.lookup name with
    | none => exact Mode.Holds.failAt _ p
    | some v => exact hpure v
  | unary op operand p => exact (heval operand (by simp [Expr.parts])).bind fun v _ => hresult p (applyUnary op v)
  | binary op left right p =>
    apply (heval left (by simp [Expr.parts])).bind
    intro v _
    exact (heval right (by simp [Expr.parts])).bind fun w _ => hresult p (applyBinary op v w)
  | and left right =>
    apply (heval left (by simp [Expr.parts])).bind
    intro v _
    split
    · exact (heval right (by simp [Expr.parts])).bind fun w _ => hpure (.bool w.truthy)
    · exact hpure (.bool false)
  | or left right =>
    apply (heval left (by simp [Expr.parts])).bind
    intro v _
    split
    · exact hpure (.bool true)
    · exact (heval right (by simp [Expr.parts])).bind fun w _ => hpure (.bool w.truthy)
  | member object name p => exact (heval object (by simp [Expr.parts])).bind fun v _ => hresult p (member name v)
  | index object place p =>
    apply (heval object (by simp [Expr.parts])).bind
    intro v _
    exact (heval place (by simp [Expr.parts])).bind fun w _ => hresult p (elementAt v w)
  | call | method | closure => contradiction
  | _ => exact hpure _

/-- Only calls and new functions change anything: without them an expression is steady. -/
theorem steady_of_isQuiet {e : Expr} (h : e.isQuiet = true) (limit : Nat) (m : Machine γ) : Steady limit m e := by
  have hquiet : ∀ fuel, ∀ e : Expr, e.isQuiet = true →
      Mode.whenever.Holds (· = m) (fun _ => eval limit fuel e) fun _ => True := by
    intro fuel
    induction fuel with
    | zero => exact fun _ _ => whenever_exhausted
    | succ fuel ih =>
      intro e he
      obtain ⟨hsimple, hparts, _⟩ := Expr.every_iff.mp he
      exact holds_evalWith_of_isSimple hsimple fun part hpart => ih part (hparts part hpart)
  intro fuel v m' heval
  exact (hquiet fuel e h m rfl _ heval).1

/-! ## Section 3: Places Written Back -/

/-- To read the place that an expression names is to evaluate the expression. -/
theorem eval_eq_readPlace (limit fuel : Nat) (e : Expr) :
    (eval limit fuel e : Run γ Value) = (do return (← readPlace limit fuel e).2) := by
  -- `readPlace` follows `eval` on the containers of a place and keeps what it found on the way.
  induction fuel generalizing e with
  | zero => rfl
  | succ fuel ih =>
    cases e with
    | member object name q =>
      have heval : (eval limit (fuel + 1) (.member object name q) : Run γ Value) =
          (do Run.ofResultAt q (member name (← eval limit fuel object))) := rfl
      rw [heval, ih object, readPlace]
      simp only [bind_assoc, pure_bind, bind_pure]
    | index object place q =>
      have heval : (eval limit (fuel + 1) (.index object place q) : Run γ Value) =
          (do
            let container ← eval limit fuel object
            let index ← eval limit fuel place
            Run.ofResultAt q (elementAt container index)) := rfl
      rw [heval, ih object, readPlace]
      simp only [bind_assoc, pure_bind, bind_pure]
    | _ =>
      rw [readPlace]
      · simp only [bind_assoc, pure_bind, bind_pure]
      all_goals simp

namespace Run

variable {β : Type} {m m' : Machine γ}

omit [Globals γ] in
theorem bind_eq_ok {run : Run γ α} {next : α → Run γ β} {b : β} :
    (run >>= next) m = some (.ok b, m') ↔ ∃ a m₁, run m = some (.ok a, m₁) ∧ next a m₁ = some (.ok b, m') := by
  rw [bind_apply]
  constructor
  · intro h
    obtain ⟨⟨r, m₁⟩, hrun, hnext⟩ := Option.bind_eq_some_iff.mp h
    cases r with
    | ok a => exact ⟨a, m₁, hrun, hnext⟩
    | error e => cases hnext
  · rintro ⟨a, m₁, hrun, hnext⟩
    rw [hrun]
    exact hnext

omit [Globals γ] in
/-- A result of an operation on values leaves the machine as it is. -/
theorem ofResultAt_eq_ok {p : Pos} {r : Attempt α} {a : α} :
    (Run.ofResultAt p r : Run γ α) m = some (.ok a, m') ↔ r = .ok a ∧ m' = m := by
  cases r with
  | ok b =>
    have hpure : (Run.ofResultAt p (.ok b) : Run γ α) m = some (.ok b, m) := rfl
    rw [hpure]
    constructor
    · rintro ⟨⟩
      exact ⟨rfl, rfl⟩
    · rintro ⟨⟨⟩, rfl⟩
      rfl
  | error e =>
    have hthrow : (Run.ofResultAt p (.error e) : Run γ α) m = some (.error (e.located p), m) := rfl
    rw [hthrow]
    constructor
    · rintro ⟨⟩
    · rintro ⟨⟨⟩, _⟩

omit [Globals γ] in
/-- Runs that go on alike behind every success of the first one do the same. -/
theorem bind_congr {run : Run γ α} {next next' : α → Run γ β}
    (h : ∀ a m₁, run m = some (.ok a, m₁) → next a m₁ = next' a m₁) : (run >>= next) m = (run >>= next') m := by
  rw [bind_apply, bind_apply]
  cases hrun : run m with
  | none => rfl
  | some o =>
    obtain ⟨r, m₁⟩ := o
    cases r with
    | ok a => exact h a m₁ hrun
    | error e => rfl

omit [Globals γ] in
private theorem bind_congr_left {run run' : Run γ α} {next : α → Run γ β} (h : run m = run' m) :
    (run >>= next) m = (run' >>= next) m := by
  rw [bind_apply, bind_apply, h]

end Run

section Roots

variable {limit fuel : Nat} {target : Expr} {m m' : Machine γ}

private theorem eval_of_readPlace {place : Place} {v : Value}
    (h : readPlace limit fuel target m = some (.ok (place, v), m')) :
    eval limit fuel target m = some (.ok v, m') := by
  rw [eval_eq_readPlace, Run.bind_of_ok h]
  rfl

private theorem readPlace_of_root (h : target.container? = none) :
    readPlace (γ := γ) limit (fuel + 1) target = (do return (target.root, ← eval limit (fuel + 1) target)) := by
  cases target with
  | member | index => contradiction
  | _ => rfl

private theorem store_member (object : Expr) (name : String) (q : Pos) (v : Value) (p : Pos) :
    store (γ := γ) limit (fuel + 1) (.member object name q) v p =
      (do
        let container ← eval limit fuel object
        let updated ← Run.ofResultAt q (setMember container name v)
        store limit fuel object updated p) :=
  rfl

theorem store_index (object place : Expr) (q : Pos) (v : Value) (p : Pos) :
    store (γ := γ) limit (fuel + 1) (.index object place q) v p =
      (do
        let container ← eval limit fuel object
        let index ← eval limit fuel place
        let updated ← Run.ofResultAt q (setElement container index v)
        store limit fuel object updated p) :=
  rfl

theorem store_of_root (h : target.container? = none) (v : Value) (p : Pos) :
    store (γ := γ) limit (fuel + 1) target v p = target.root.write p v := by
  cases target with
  | member | index => contradiction
  | _ => rfl

/-- What stands in no container is an operand itself, unless it is a variable. -/
theorem steady_of_root (h : target.container? = none) (hsteady : ∀ operand ∈ target.operands, Steady limit m operand) :
    Steady limit m target := by
  cases target with
  | member | index => contradiction
  | var name p => exact steady_of_isQuiet rfl limit m
  | _ => exact hsteady _ List.mem_cons_self

/-- Where its operands are steady, a target that was read is written back as the place that was found. -/
theorem store_of_readPlace {place : Place} {old : Value}
    (hsteady : ∀ operand ∈ target.operands, Steady limit m operand)
    (h : readPlace limit fuel target m = some (.ok (place, old), m')) :
    m' = m ∧ ∀ v p, store limit fuel target v p m = place.write p v m := by
  -- on the fuel: the containers are read before they are written back, and so are theirs
  induction fuel generalizing target m' place old with
  | zero => cases h
  | succ fuel ih =>
    have hroot : target.container? = none →
        m' = m ∧ ∀ v p, store limit (fuel + 1) target v p m = place.write p v m := by
      intro hcontainer
      rw [readPlace_of_root hcontainer] at h
      obtain ⟨v, m₁, heval, hpure⟩ := Run.bind_eq_ok.mp h
      cases hpure
      exact ⟨steady_of_root hcontainer hsteady _ _ _ heval, fun v p => by rw [store_of_root hcontainer]⟩
    cases target with
    | member object name q =>
      rw [readPlace] at h
      obtain ⟨⟨around, container⟩, m₁, hobject, hrest⟩ := Run.bind_eq_ok.mp h
      obtain ⟨v, m₂, hmember, hpure⟩ := Run.bind_eq_ok.mp hrest
      obtain ⟨_, rfl⟩ := Run.ofResultAt_eq_ok.mp hmember
      have hobjects : ∀ operand ∈ object.operands, Steady limit m operand := hsteady
      obtain ⟨rfl, hwrite⟩ := ih hobjects hobject
      cases hpure
      refine ⟨rfl, fun v p => ?_⟩
      -- the machine is still the one in which the container was read, so it is read again as it was
      rw [store_member, Run.bind_of_ok (eval_of_readPlace hobject), Place.write]
      apply Run.bind_congr
      intro updated m₁ hset
      obtain ⟨_, rfl⟩ := Run.ofResultAt_eq_ok.mp hset
      exact hwrite updated p
    | index object place q =>
      obtain ⟨hobjects, hplace⟩ := List.forall_mem_append.mp hsteady
      rw [readPlace] at h
      obtain ⟨⟨around, container⟩, m₁, hobject, hrest⟩ := Run.bind_eq_ok.mp h
      obtain ⟨index, m₂, hindex, hrest⟩ := Run.bind_eq_ok.mp hrest
      obtain ⟨v, m₃, helement, hpure⟩ := Run.bind_eq_ok.mp hrest
      obtain ⟨_, rfl⟩ := Run.ofResultAt_eq_ok.mp helement
      obtain ⟨rfl, hwrite⟩ := ih hobjects hobject
      -- the index is evaluated behind the container, which has changed nothing
      obtain rfl := hplace place List.mem_cons_self _ _ _ hindex
      cases hpure
      refine ⟨rfl, fun v p => ?_⟩
      rw [store_index, Run.bind_of_ok (eval_of_readPlace hobject), Run.bind_of_ok hindex, Place.write]
      apply Run.bind_congr
      intro updated m₁ hset
      obtain ⟨_, rfl⟩ := Run.ofResultAt_eq_ok.mp hset
      exact hwrite updated p
    | _ => exact hroot rfl

/-- To write to a target is to find its place and to write there, if the container around the place is written back as it
was found from all machines of a kind to which finding it and evaluating the index lead. -/
theorem store_eq_findPlace {P : Machine γ → Prop}
    (hcontainer : ∀ object, target.container? = some object → ∀ {fuel place old m₁},
      readPlace limit fuel object m = some (.ok (place, old), m₁) →
        P m₁ ∧ ∀ m₂, P m₂ → ∀ v p, store limit fuel object v p m₂ = place.write p v m₂)
    (hindex : ∀ object index q, target = .index object index q → ∀ {fuel m₁ v m₂}, P m₁ →
      eval limit fuel index m₁ = some (.ok v, m₂) → P m₂) (v : Value) (p : Pos) :
    store limit fuel target v p m = (do (← findPlace limit fuel target).write p v : Run γ Unit) m := by
  cases fuel with
  | zero => rfl
  | succ fuel =>
    cases target with
    | member object name q =>
      rw [store_member, findPlace, eval_eq_readPlace]
      simp only [bind_assoc, pure_bind, Place.write]
      -- Both read the container first; storing it again is writing to the place that it was read from.
      apply Run.bind_congr
      rintro ⟨around, container⟩ m₁ hobject
      obtain ⟨hm₁, hwrite⟩ := hcontainer object rfl hobject
      apply Run.bind_congr
      intro updated m₂ hset
      obtain ⟨_, rfl⟩ := Run.ofResultAt_eq_ok.mp hset
      exact hwrite m₂ hm₁ updated p
    | index object place q =>
      rw [store_index, findPlace, eval_eq_readPlace limit fuel object]
      simp only [bind_assoc, pure_bind, Place.write]
      apply Run.bind_congr
      rintro ⟨around, container⟩ m₁ hobject
      obtain ⟨hm₁, hwrite⟩ := hcontainer object rfl hobject
      apply Run.bind_congr
      intro index m₂ hplace
      have hm₂ := hindex object place q rfl hm₁ hplace
      apply Run.bind_congr
      intro updated m₃ hset
      obtain ⟨_, rfl⟩ := Run.ofResultAt_eq_ok.mp hset
      exact hwrite m₃ hm₂ updated p
    | _ => rfl

private theorem store_eq_findPlace_of_steady (hsteady : ∀ operand ∈ target.operands, Steady limit m operand) (v : Value)
    (p : Pos) : store limit fuel target v p m = (do (← findPlace limit fuel target).write p v : Run γ Unit) m := by
  apply store_eq_findPlace (P := (· = m))
  · intro object hobject fuel place old m₁ hread
    have hsteady' : ∀ operand ∈ object.operands, Steady limit m operand := by
      intro operand hoperand
      cases target with
      | member => cases hobject; exact hsteady operand hoperand
      | index => cases hobject; exact hsteady operand (List.mem_append_left _ hoperand)
      | _ => contradiction
    obtain ⟨rfl, hwrite⟩ := store_of_readPlace hsteady' hread
    exact ⟨rfl, fun m₂ hm₂ => hm₂ ▸ hwrite⟩
  · rintro object index q rfl fuel m₁ v m₂ rfl heval
    exact hsteady index (List.mem_append_right _ List.mem_cons_self) _ _ _ heval

/-- Whether the container around the place that a target names is kept by a variable, if there is one. -/
def Expr.isShallow (target : Expr) : Bool :=
  match target.container? with
  | some (.var _ _) | none => true
  | _ => false

private theorem store_eq_findPlace_of_isShallow (h : target.isShallow = true) (v : Value) (p : Pos) :
    store limit fuel target v p m = (do (← findPlace limit fuel target).write p v : Run γ Unit) m := by
  apply store_eq_findPlace (P := fun _ => True)
  · intro object hobject fuel place old m₁ hread
    refine ⟨trivial, fun m₂ _ v p => ?_⟩
    unfold Expr.isShallow at h
    rw [hobject] at h
    cases object with
    | var name q =>
      -- a variable is written without being read again, whatever it stands for by then
      cases fuel with
      | zero => cases hread
      | succ fuel =>
        rw [readPlace_of_root rfl] at hread
        obtain ⟨_, _, _, hpure⟩ := Run.bind_eq_ok.mp hread
        cases hpure
        rfl
    | _ => contradiction
  · exact fun _ _ _ _ _ _ _ _ _ _ => trivial

/-! ## Section 4: Assignments -/

/-- The operands of a target are steady wherever the evaluation of an expression leads. -/
def SteadyBehind (limit : Nat) (m : Machine γ) (e target : Expr) : Prop :=
  ∀ fuel v m', eval limit fuel e m = some (.ok v, m') → ∀ operand ∈ target.operands, Steady limit m' operand

/-- An assignment evaluates its target as if once if its operands are steady, or if it is a plain one into a container
that is kept by a variable. -/
theorem exec_eq_assignOnce {op : AssignOp} {e : Expr} {p : Pos}
    (h : SteadyBehind limit m e target ∨ op = .set ∧ target.isShallow = true) :
    exec limit fuel (.assign target op e p) m = assignOnce limit fuel target op e p m := by
  cases fuel with
  | zero => rfl
  | succ fuel =>
    -- a compound assignment reads the old value from the place that it writes
    have hcompound : ∀ (bop : BinaryOp), SteadyBehind limit m e target →
        (do
          let right ← eval limit fuel e
          let v ← Run.ofResultAt p (applyBinary bop (← eval limit fuel target) right)
          store limit fuel target v p
          return Flow.next v : Run γ Flow) m =
        (do
          let right ← eval limit fuel e
          let (place, old) ← readPlace limit fuel target
          let v ← Run.ofResultAt p (applyBinary bop old right)
          place.write p v
          return Flow.next v : Run γ Flow) m := by
      intro bop hsteady
      apply Run.bind_congr
      intro right m₁ he
      rw [eval_eq_readPlace limit fuel target]
      simp only [bind_assoc, pure_bind]
      apply Run.bind_congr
      rintro ⟨place, old⟩ m₂ hread
      obtain ⟨rfl, hwrite⟩ := store_of_readPlace (hsteady fuel right m₁ he) hread
      apply Run.bind_congr
      intro v m₃ hv
      obtain ⟨_, rfl⟩ := Run.ofResultAt_eq_ok.mp hv
      exact Run.bind_congr_left (hwrite v p)
    rw [assignOnce]
    cases op with
    | set =>
      have hexec : exec limit (fuel + 1) (.assign target .set e p) =
          (do
            let right ← eval limit fuel e
            store limit fuel target right p
            return Flow.next right : Run γ Flow) := rfl
      rw [hexec]
      simp only [assigned, bind_assoc, pure_bind]
      apply Run.bind_congr
      intro right m₁ he
      have hstore : store limit fuel target right p m₁ =
          (do (← findPlace limit fuel target).write p right : Run γ Unit) m₁ := by
        rcases h with hsteady | ⟨_, hshallow⟩
        · exact store_eq_findPlace_of_steady (hsteady fuel right m₁ he) right p
        · exact store_eq_findPlace_of_isShallow hshallow right p
      rw [Run.bind_congr_left hstore]
      simp only [bind_assoc]
    | add =>
      -- only the steadiness of the operands speaks about a compound assignment
      have hsteady := h.resolve_right fun hset => by simp at hset
      simp only [assigned, bind_assoc, pure_bind]
      exact hcompound .add hsteady
    | sub =>
      have hsteady := h.resolve_right fun hset => by simp at hset
      simp only [assigned, bind_assoc, pure_bind]
      exact hcompound .sub hsteady

end Roots

/-- An assignment does what the interpreter that notes calls does, and what is noted are the calls that can be read off
it: those of its target once more where the old value is read, and those of the containers once more for each container
around them. So all calls of the target are made once by a plain assignment into a container that makes none. The
target is evaluated as if once if its operands change nothing, or by a plain assignment into a container that is kept
by a variable: the place that is written is then the one that was found, and the one that was read. -/
theorem exec_assign (limit fuel : Nat) (target : Expr) (op : AssignOp) (e : Expr) (p : Pos) (m : Machine γ) :
    let noted := execNoting limit fuel (.assign target op e p) m.unnoted
    exec limit fuel (.assign target op e p) m = noted.map (fun o => (o.1, o.2.forget)) ∧
      (∀ r m', noted = some (r, m') → m'.globals.sites.Sublist (assignSites false target op e) ∧
        ∀ flow, r = .ok flow → (assignSites true target op e).Sublist m'.globals.sites) ∧
      (op = .set → target.isTarget = true →
        (∀ container, target.container? = some container → container.callSites false = []) →
        ∀ sure, assignSites sure target op e = e.callSites sure ++ target.callSites sure) ∧
      (SteadyBehind limit m e target ∨ op = .set ∧ target.isShallow = true →
        exec limit fuel (.assign target op e p) m = assignOnce limit fuel target op e p m) := by
  refine ⟨exec_eq_execNoting limit fuel _ m, fun r m' hrun => ?_, ?_, exec_eq_assignOnce⟩
  · obtain ⟨made, hsites, hmost, hleast⟩ := notes_assign limit fuel target op e p _ r m' hrun
    -- nothing was noted before
    have hmade : m'.globals.sites = made := hsites
    exact ⟨hmade ▸ hmost, hmade ▸ hleast⟩
  · rintro rfl htarget hcontainer sure
    exact assignSites_set htarget hcontainer sure e

/-- What an assignment has bound, if it has succeeded. -/
def boundAfter (o : Option (Attempt Flow × Machine (OrderedMap Value))) : Option (List (String × String)) :=
  match o with
  | some (.ok _, m) => some (m.globals.map fun entry => (entry.1, entry.2.repr))
  | _ => none

/-- A call that changes a variable: as the value of a compound assignment whose target has that variable and a literal
for its operands, and as the index of a plain assignment into a list that is kept by a variable. -/
theorem exec_assign_once :
    let f : Routine := ⟨some "f", [], [.assign (.var "i" ⟨1, 11⟩) .set (.int 0) ⟨1, 13⟩, .expr (.int 1)]⟩
    let m : Machine (OrderedMap Value) := .start
      [("i", .int 1), ("f", .function f 0 []), ("a", .list [.list [.int 1], .list [.int 2]])] 1
    let e : Expr := .call (.var "f" ⟨2, 12⟩) [] ⟨2, 13⟩
    let deep : Expr := .index (.index (.var "a" ⟨2, 1⟩) (.var "i" ⟨2, 3⟩) ⟨2, 2⟩) (.int 0) ⟨2, 5⟩
    let shallow : Expr := .index (.var "a" ⟨2, 1⟩) e ⟨2, 2⟩
    SteadyBehind 100 m e deep ∧
      exec 100 20 (.assign deep .add e ⟨2, 9⟩) m = assignOnce 100 20 deep .add e ⟨2, 9⟩ m ∧
      boundAfter (assignOnce 100 20 deep .add e ⟨2, 9⟩ m) =
        some [("i", "0"), ("f", "<function f()>"), ("a", "[[2], [2]]")] ∧
      assignSites false shallow .set (.int 9) = [] ++ [⟨2, 13⟩] ∧
      exec 100 20 (.assign shallow .set (.int 9) ⟨2, 9⟩) m = assignOnce 100 20 shallow .set (.int 9) ⟨2, 9⟩ m := by
  intro f m e deep shallow
  -- The indices of `deep` are a name and a literal, and those run nothing.
  have hquiet : ∀ operand ∈ deep.operands, operand.isQuiet = true :=
    List.forall_mem_cons.mpr ⟨rfl, List.forall_mem_singleton.mpr rfl⟩
  have hsteady : SteadyBehind 100 m e deep := fun _ _ m' _ operand hoperand =>
    steady_of_isQuiet (hquiet operand hoperand) 100 m'
  obtain ⟨_, _, _, hdeep⟩ := exec_assign 100 20 deep .add e ⟨2, 9⟩ m
  obtain ⟨_, _, hsites, hshallow⟩ := exec_assign 100 20 shallow .set (.int 9) ⟨2, 9⟩ m
  have hcontainer : ∀ container, shallow.container? = some container → container.callSites false = [] := by
    rintro container ⟨⟩
    rfl
  exact ⟨hsteady, hdeep (.inl hsteady), by decide +kernel, hsites rfl rfl hcontainer false, hshallow (.inr ⟨rfl, rfl⟩)⟩

/-- A call in the index of the container around a place is made twice, and what it changes has the element that was
updated written over another one: the second one becomes a copy of the first. -/
theorem exec_assign_twice :
    let f : Routine := ⟨some "f", [],
      [.assign (.var "n" ⟨2, 11⟩) .add (.int 1) ⟨2, 13⟩,
        .expr (.binary .sub (.var "n" ⟨3, 2⟩) (.int 1) ⟨3, 4⟩)]⟩
    let m : Machine (OrderedMap Value) := .start
      [("n", .int 0), ("f", .function f 0 []), ("a", .list [.list [.int 1], .list [.int 2]])] 1
    let target : Expr :=
      .index (.index (.var "a" ⟨5, 1⟩) (.call (.var "f" ⟨5, 3⟩) [] ⟨5, 4⟩) ⟨5, 2⟩) (.int 0) ⟨5, 7⟩
    target.isTarget = true ∧ (Expr.int 9).callSites false = [] ∧ target.callSites false = [⟨5, 4⟩] ∧
      (execNoting 100 20 (.assign target .set (.int 9) ⟨5, 11⟩) m.unnoted).map (fun o => o.2.globals.sites) =
        some [⟨5, 4⟩, ⟨5, 4⟩] ∧
      boundAfter (exec 100 20 (.assign target .set (.int 9) ⟨5, 11⟩) m) =
        some [("n", "2"), ("f", "<function f()>"), ("a", "[[1], [9]]")] ∧
      boundAfter (assignOnce 100 20 target .set (.int 9) ⟨5, 11⟩ m) =
        some [("n", "1"), ("f", "<function f()>"), ("a", "[[9], [2]]")] := by
  decide +kernel

end RowConsole.Script
