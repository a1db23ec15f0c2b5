import RowConsole.Proofs.Script.Composition
import RowConsole.Proofs.Script.Judgement
import RowConsole.Proofs.Script.Literal.Spelled
import RowConsole.Proofs.Script.RoundTrip
import RowConsole.Script.Runtime

/-!
# Values That Are Read Back from Their Text

The tokens of a value are read as an expression, and the expression stands for the value: on whatever machine it is
evaluated, the value is what comes out, and the machine is left as it was.

Main statement: `run_repr`.
-/

namespace RowConsole.Script

/-! ## Section 1: Expressions That Stand for Values -/

/-- An expression has a value on every machine and changes nothing; the recursion is bounded by the nesting. -/
def Denotes (depth : Nat) (v : Value) (e : Expr) : Prop :=
  ∀ {γ : Type} [Globals γ] (limit fuel : Nat) (m : Machine γ), depth + 2 ≤ fuel →
    eval limit fuel e m = some (.ok v, m)

/-- Steps that change nothing, one after another, change nothing. -/
theorem Run.mapM_apply {γ α β : Type} {run : α → Run γ β} {m : Machine γ} {bs : List β} {as : List α}
    (h : List.Forall₂ (fun b a => run a m = some (.ok b, m)) bs as) : as.mapM run m = some (.ok bs, m) := by
  induction h with
  | nil => rfl
  | @cons b a bs as hab _ ih =>
    rw [List.mapM_cons, Run.bind_apply, hab]
    show (as.mapM run >>= fun bs => pure (b :: bs)) m = _
    rw [Run.bind_apply, ih]
    rfl

namespace Denotes

variable {depth : Nat}

theorem leaf {v : Value} {e : Expr}
    (h : ∀ {γ : Type} [Globals γ] (run : Expr → Run γ Value) (call : Pos → Caller γ),
      evalWith run call e = return v) : Denotes depth v e := by
  intro γ _ limit fuel m hfuel
  obtain ⟨fuel, rfl⟩ : ∃ n, fuel = n + 1 := Nat.exists_eq_add_of_le' (Nat.le_trans (Nat.le_add_left 1 _) hfuel)
  rw [eval, h]
  rfl

/-- A negative number is the negation of a number. -/
theorem negative {n : Int64} (hmin : Int64.minValue < n) (hneg : n < 0) (p : Pos) :
    Denotes depth (.int n) (.unary .neg (.int (-n)) p) := by
  intro γ _ limit fuel m hfuel
  obtain ⟨fuel, rfl⟩ : ∃ k, fuel = k + 2 := Nat.exists_eq_add_of_le' (Nat.le_trans (Nat.le_add_left 2 _) hfuel)
  have hvalue : applyUnary .neg (.int (-n)) = .ok (.int n) := by
    obtain ⟨hvalue, _⟩ := neg_int hmin hneg
    show checked (-(-n).toInt) = _
    rw [hvalue, Int.neg_neg, checked, toInt64?_toInt]
  have hoperand : eval limit (fuel + 1) (.int (-n)) m = some (.ok (.int (-n)), m) := rfl
  rw [eval_unary hoperand, hvalue]
  rfl

theorem list {items : List Value} {es : List Expr} (h : List.Forall₂ (Denotes depth) items es) :
    Denotes (depth + 1) (.list items) (.list es) := by
  intro γ _ limit fuel m hfuel
  obtain ⟨fuel, rfl⟩ : ∃ n, fuel = n + 1 := Nat.exists_eq_add_of_le' (Nat.le_trans (Nat.le_add_left 1 _) hfuel)
  have hitems : es.mapM (eval limit fuel) m = some (.ok items, m) :=
    Run.mapM_apply (h.imp fun v e he => he limit fuel m (Nat.le_of_succ_le_succ hfuel))
  rw [eval, evalWith, Run.bind_apply, hitems]
  rfl

theorem map {entries : List (String × Value)} {es : List (String × Expr)} (hkeys : (OrderedMap.keys entries).Nodup)
    (h : List.Forall₂ (fun entry e => e.1 = entry.1 ∧ Denotes depth entry.2 e.2) entries es) :
    Denotes (depth + 1) (.map entries) (.map es) := by
  intro γ _ limit fuel m hfuel
  obtain ⟨fuel, rfl⟩ : ∃ n, fuel = n + 1 := Nat.exists_eq_add_of_le' (Nat.le_trans (Nat.le_add_left 1 _) hfuel)
  have hentries : (es.mapM fun e => do return (e.1, ← eval limit fuel e.2) : Run γ _) m = some (.ok entries, m) := by
    refine Run.mapM_apply (h.imp fun entry e he => ?_)
    obtain ⟨hkey, he⟩ := he
    rw [Run.bind_apply, he limit fuel m (Nat.le_of_succ_le_succ hfuel), hkey]
    rfl
  rw [eval, evalWith]
  show ((es.mapM fun e => do return (e.1, ← eval limit fuel e.2)) >>= fun read =>
    (return .map (OrderedMap.ofEntries read) : Run γ Value)) m = _
  rw [Run.bind_apply, hentries]
  show some (Except.ok (Value.map (OrderedMap.ofEntries entries)), m) = _
  rw [OrderedMap.ofEntries_eq_self hkeys]

end Denotes

/-! ## Section 2: Reading and Running -/

variable {depth : Nat} {v : Value}

private theorem deepest_le {ι : Type} {nesting : ι → Nat} {is : List ι} {bound : Nat}
    (h : ∀ i ∈ is, nesting i ≤ bound) :
    Grammar.deepest nesting is ≤ bound + 1 := by
  induction is with
  | nil => exact Nat.zero_le _
  | cons i is ih =>
    have hi := h i List.mem_cons_self
    exact Nat.max_le.mpr ⟨Nat.succ_le_succ hi, ih fun j hj => h j (List.mem_cons_of_mem _ hj)⟩

open Grammar (Piece) in
/-- The tokens of a value are read as an expression that has this value. -/
theorem piece_spell (h : v.Spelled depth) :
    ∃ nesting, nesting ≤ depth + 1 ∧ Piece (Denotes depth v) v.spell unaryRank nesting false := by
  -- on the value: the readers of a collection need a bound on the nesting of each of its parts
  induction h with
  | null => exact ⟨0, Nat.zero_le _, Piece.leaf rfl rfl (fun _ => Denotes.leaf fun _ _ => rfl) fun _ _ _ _ => rfl⟩
  | bool b =>
    refine ⟨0, Nat.zero_le _, ?_⟩
    cases b <;> exact Piece.leaf rfl rfl (fun _ => Denotes.leaf fun _ _ => rfl) fun _ _ _ _ => rfl
  | @int depth n hmin =>
    rw [Value.spell]
    split
    · next hneg =>
      have hoperand : Piece (· = .int (-n)) [.int (-n)] unaryRank 0 false :=
        Piece.leaf rfl rfl (fun _ => rfl) fun _ _ _ _ => rfl
      refine ⟨1, Nat.le_add_left 1 depth, hoperand.unary_operator .neg fun e p he => ?_⟩
      exact he ▸ Denotes.negative hmin hneg p
    · exact ⟨0, Nat.zero_le _, Piece.leaf rfl rfl (fun _ => Denotes.leaf fun _ _ => rfl) fun _ _ _ _ => rfl⟩
  | str _ _ =>
    exact ⟨0, Nat.zero_le _, Piece.leaf rfl rfl (fun _ => Denotes.leaf fun _ _ => rfl) fun _ _ _ _ => rfl⟩
  | @list depth items _ ih =>
    choose! nesting hnesting hpiece using ih
    refine ⟨_, deepest_le hnesting, ?_⟩
    rw [Value.spell, spellItems_eq_map]
    exact Piece.list (fun v hv => (hpiece v hv).loose) fun es hes => Denotes.list hes
  | @map depth entries hkeys _ _ ih =>
    choose! nesting hnesting hpiece using ih
    cases entries with
    | nil => exact ⟨0, Nat.zero_le _, Piece.emptyMap (Denotes.map hkeys .nil)⟩
    | cons entry entries =>
      refine ⟨_, deepest_le hnesting, ?_⟩
      rw [Value.spell, spellFields_eq_map]
      · exact Piece.map keyIdent Prod.fst (fun _ _ => rfl) (fun e he => (hpiece e he).loose) fun es hes =>
          Denotes.map hkeys hes
      · simp

/-- The text of a value is a program of one expression, which has this value. -/
theorem parse_repr (h : v.Spelled depth) (hdepth : depth + 2 ≤ Grammar.maxNesting) :
    ∃ e, parse v.repr = .ok [.expr e] ∧ Denotes depth v e := by
  obtain ⟨nesting, hnesting, hpiece⟩ := piece_spell h
  have hend : EndsWord [] := fun _ hc => nomatch hc
  have hglyphs : (locate .start v.repr.toList).map Glyph.char = v.repr.toList ++ [] := by
    rw [map_char_locate, List.append_nil]
  obtain ⟨ts, tail, hts, htail, hscan⟩ := cuts_repr h (Pos.start.after v.repr.toList) hend hglyphs
  obtain rfl : tail = [] := List.map_eq_nil_iff.mp htail
  have htokens : tokenize v.repr = .ok (ts ++ [endOf v.repr.toList]) := by
    rw [tokenize, tokenizeChars_eq, hscan, scanAll_done rfl]
    rfl
  have hkinds : (ts ++ [endOf v.repr.toList]).map Token.kind = v.spell ++ [.eof] := by
    rw [List.map_append, hts]
    rfl
  rcases parseTokens_of_returns hkinds fun _ hc => Grammar.program_expr hpiece hc with
    ⟨_, program, hparse, e, he, rfl⟩ | ⟨hdeep, _⟩
  · exact ⟨e, parse_of_tokenize htokens hparse, he⟩
  -- it would have to be nested too deeply
  · omega

/-- A program of one expression that has a value. -/
theorem Denotes.runProgram {e : Expr} (h : Denotes depth v e) {γ : Type} [Globals γ] {limit fuel : Nat} (m : Machine γ)
    (hfuel : depth + 3 ≤ fuel) : Script.runProgram limit fuel [.expr e] m = some (.ok v, m) := by
  obtain ⟨fuel, rfl⟩ : ∃ n, fuel = n + 1 := Nat.exists_eq_add_of_le' (Nat.le_trans (Nat.le_add_left 1 _) hfuel)
  have hexec : exec limit (fuel + 1) (.expr e) m = some (.ok (.next v), m) := by
    rw [exec, execWith, Run.bind_apply, h limit fuel m (Nat.le_of_succ_le_succ hfuel)]
    rfl
  rw [Script.runProgram, runBlock, Run.bind_apply, Run.bind_apply, hexec]
  rfl

/-- A value whose text is a literal is what its text evaluates to, whatever is bound and however few calls may be
inside one another. Nothing is bound and nothing is written. -/
theorem Runtime.run_repr {γ : Type} [Globals γ] {v : Value} (h : v.Spelled 100) (rt : Runtime) (globals : γ) :
    Runtime.run { rt with fuel := ampleFuel } v.repr globals =
      some (.ok v, globals, { rt with fuel := ampleFuel }) := by
  obtain ⟨e, hparse, he⟩ := parse_repr h (by decide)
  have hfuel : 100 + 3 ≤ ampleFuel := by decide
  have hrun : runProgram rt.maxDepth ampleFuel [.expr e] (Machine.start globals rt.serial rt.output) =
      some (.ok v, Machine.start globals rt.serial rt.output) :=
    he.runProgram _ hfuel
  rw [Runtime.run, hparse]
  dsimp only
  rw [hrun]
  rfl

/-- A map that holds a list with a negative number and an empty map. -/
def nestedLiteral : Value :=
  .map [("left", .list [.int (-7), .str "a, b", .null]), ("right", .map [])]

private theorem spelled_nestedLiteral : nestedLiteral.Spelled 100 := by
  refine .map (by decide) (by decide +kernel) fun entry hentry => ?_
  simp only [List.mem_cons, List.not_mem_nil, or_false] at hentry
  rcases hentry with rfl | rfl
  · refine .list fun v hv => ?_
    simp only [List.mem_cons, List.not_mem_nil, or_false] at hv
    rcases hv with rfl | rfl | rfl
    · exact .int (by decide)
    · exact .str (by decide) (by decide)
    · exact .null
  · exact .map (by decide) (by simp) (by simp)

theorem Runtime.run_repr_nestedLiteral :
    nestedLiteral.repr = "[left:[-7, 'a, b', null], right:[:]]" ∧
      Runtime.run { maxDepth := 0 } nestedLiteral.repr ([("left", .null)] : OrderedMap Value) =
        some (.ok nestedLiteral, [("left", .null)], { maxDepth := 0 }) := by
  have hrun := Runtime.run_repr spelled_nestedLiteral { maxDepth := 0 } ([("left", .null)] : OrderedMap Value)
  exact ⟨by decide +kernel, hrun⟩

end RowConsole.Script
