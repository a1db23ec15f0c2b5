import RowConsole.Proofs.Script.Compared.Runs

/-!
# Programs on Two Stores

Expressions, statements and writes on the second store follow those on the first one, since to follow is a congruence.
The second run may use more frames than the first one, if a first run that has used up its frames is excused.

Main statement: `Comparison.Follows.runProgram`.
-/

namespace RowConsole.Script

variable {γ γ' : Type} [Globals γ] [Globals γ'] {C : Comparison γ γ'}

/-! ## Section 1: Calls -/

namespace Comparison.Follows

variable {limit limit' : Nat} {block : List Stmt → Run γ Flow} {block' : List Stmt → Run γ' Flow}

/-- Calls of routines follow if their bodies do and a call that is too deep in the first run is so in the second
one or is excused. -/
theorem callRoutine (hle : limit ≤ limit') (hdeep : limit < limit' → C.excused (.callTooDeep limit))
    (hblock : ∀ body, C.Follows (block body) (block' body)) (routine : Routine) (captured : OrderedMap Value)
    (args : List Value) (p : Pos) :
    C.Follows (Script.callRoutine limit block routine captured args p)
      (Script.callRoutine limit' block' routine captured args p) := by
  have hbody : C.Follows
      (do
        let flow ← Script.withFrame ⟨[paramScope routine args, captured], false⟩ (block routine.body)
        Run.ofResult flow.result)
      (do
        let flow ← Script.withFrame ⟨[paramScope routine args, captured], false⟩ (block' routine.body)
        Run.ofResult flow.result) :=
    ((hblock routine.body).withFrame _).bind fun flow => ofResult flow.result
  apply get_bind
  intro m g _
  -- both machines have the same number of frames
  show C.Follows (if limit ≤ m.depth then _ else _) (if limit' ≤ m.depth then _ else _)
  by_cases hfirst : limit ≤ m.depth
  · -- with more frames at its disposal, the second run may go on where the first one has failed
    rw [if_pos hfirst]
    rcases Nat.lt_or_ge limit limit' with hlt | hge
    · exact of_excused (hdeep hlt) _
    · obtain rfl : limit = limit' := Nat.le_antisymm hle hge
      rw [if_pos hfirst]
      exact failAt _ p
  · have hsecond : ¬ limit' ≤ m.depth := fun h => hfirst (Nat.le_trans hle h)
    rw [if_neg hfirst, if_neg hsecond]
    split
    · exact failAt _ p
    · exact hbody.inCall routine.displayName p

/-- Calls of values follow if the bodies of routines do. -/
theorem callWith (hle : limit ≤ limit') (hdeep : limit < limit' → C.excused (.callTooDeep limit))
    (hblock : ∀ body, C.Follows (block body) (block' body)) (p : Pos) :
    C.FollowsCalls (Script.callWith limit block p) (Script.callWith limit' block' p) :=
  fun _ args => C.congruence.callWith fun routine _ captured _ =>
    callRoutine hle hdeep hblock routine captured args p

end Comparison.Follows

/-! ## Section 2: Programs -/

/-- Up to some fuel, expressions, statements and writes follow. -/
structure Comparison.FollowsUpTo (C : Comparison γ γ') (limit limit' fuel : Nat) : Prop where
  eval : ∀ e, C.Follows (Script.eval limit fuel e) (Script.eval limit' fuel e)
  exec : ∀ s, C.Follows (Script.exec limit fuel s) (Script.exec limit' fuel s)
  store : ∀ target v p, C.Follows (Script.store limit fuel target v p) (Script.store limit' fuel target v p)

namespace Comparison

variable {limit limit' : Nat}

theorem followsUpTo (hle : limit ≤ limit') (hdeep : limit < limit' → C.excused (.callTooDeep limit)) (fuel : Nat) :
    C.FollowsUpTo limit limit' fuel := by
  -- on the fuel: each construct is made of constructs that are evaluated with less of it
  induction fuel with
  | zero => exact ⟨fun _ => Follows.exhausted, fun _ => Follows.exhausted, fun _ _ _ => Follows.exhausted⟩
  | succ fuel ih =>
    have hblock := C.congruence.runBlock ih.exec .null
    constructor
    · exact C.congruence.evalWith ih.eval fun p => Follows.callWith hle hdeep hblock p
    · exact C.congruence.execWith ih.eval ih.store (C.congruence.runScoped ih.exec) (C.congruence.runWhile fuel)
    · exact C.congruence.storeWith ih.eval ih.store

/-- A program on the second store follows the program on the first one. -/
theorem Follows.runProgram (hle : limit ≤ limit') (hdeep : limit < limit' → C.excused (.callTooDeep limit))
    (fuel : Nat) (program : List Stmt) :
    C.Follows (Script.runProgram limit fuel program) (Script.runProgram limit' fuel program) := by
  apply Follows.bind (C.congruence.runBlock (followsUpTo hle hdeep fuel).exec .null program)
  intro flow
  exact Follows.ofResult flow.result

end Comparison

end RowConsole.Script
