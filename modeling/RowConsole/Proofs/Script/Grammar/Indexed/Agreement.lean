import RowConsole.Proofs.Script.Grammar.Indexed.Machine
import RowConsole.Proofs.Script.Grammar.Reading
import RowConsole.Proofs.Script.Grammar.Seam

/-!
# Agreement of Index and Cursor

The procedures that read through an index do what those do that read from a cursor, on every token list that is
closed by the end of the input, from every index up to its length and for every value of the counter. In
particular they never ask for a token that does not exist and never close a construct that is not open; and the
counter has its first value again whenever something was read.

Whether two readings agree is found from their parts: there is one rule for sequences, one for choices and one
for each elementary reading, and the procedures follow by induction on the bound on their recursion.

Main statement: `mirrors_run`.
-/

namespace RowConsole.Script.Grammar.Indexed

variable {α β : Type} {tokens : List Token} {s s' : Place} {c c' : Cursor}

/-! ## Section 1: Places and Cursors -/

/-- An index and a cursor stand at the same token of a closed list. -/
structure Stands (tokens : List Token) (index : Nat) (c : Cursor) : Prop where
  drop : tokens.drop (min index (tokens.length - 1)) = c.token :: c.rest
  closed : c.Closed

namespace Stands

variable {index : Nat}

/-- The current token is the one at the index. -/
private theorem getElem? (h : Stands tokens index c) : tokens[min index (tokens.length - 1)]? = some c.token := by
  rw [← Nat.add_zero (min index _), ← List.getElem?_drop, h.drop]
  rfl

/-- An index stands at one cursor only. -/
theorem unique (h : Stands tokens index c) (h' : Stands tokens index c') : c = c' := by
  obtain ⟨t, rest⟩ := c
  obtain ⟨t', rest'⟩ := c'
  obtain ⟨rfl, rfl⟩ := List.cons.inj (h.drop.symm.trans h'.drop)
  rfl

/-- The tokens from the current one on are those from the index on. -/
theorem size_eq (h : Stands tokens index c) : min index (tokens.length - 1) + c.size + 1 = tokens.length := by
  have hlength := congrArg List.length h.drop
  simp only [List.length_drop, List.length_cons] at hlength
  unfold Cursor.size
  omega

/-- The next index stands at the next token, or still at the last one. -/
theorem succ (h : Stands tokens index c) : Stands tokens (index + 1) c.advance := by
  refine ⟨?_, h.closed.advance⟩
  have hsize := h.size_eq
  obtain ⟨t, rest⟩ := c
  cases rest with
  | nil =>
    -- at the last token, where the index is already as large as it counts
    have hmin : min (index + 1) (tokens.length - 1) = min index (tokens.length - 1) := by
      simp only [Cursor.size, List.length_nil] at hsize
      omega
    rw [hmin]
    exact h.drop
  | cons next rest =>
    have hmin : min (index + 1) (tokens.length - 1) = min index (tokens.length - 1) + 1 := by
      simp only [Cursor.size, List.length_cons] at hsize
      omega
    rw [hmin, ← List.tail_drop, h.drop]
    rfl

/-- Going on by one token is going on by one index, up to the end of the list. -/
theorem behind (h : Stands tokens s.index c) : Stands tokens (s.behind tokens.length).index c.advance := by
  unfold Place.behind
  dsimp only
  split
  · exact h.succ
  · -- behind the list the last token stays the current one
    have hsize := h.size_eq
    obtain ⟨t, rest⟩ := c
    cases rest with
    | nil => exact h
    | cons next rest =>
      simp only [Cursor.size, List.length_cons] at hsize
      omega

end Stands

/-- An index never goes back. -/
private theorem Place.le_behind (s : Place) (length : Nat) : s.index ≤ (s.behind length).index := by
  unfold Place.behind
  dsimp only
  split <;> omega

/-- An index never goes beyond the length of the list. -/
private theorem Place.behind_le {length : Nat} (h : s.index ≤ length) : (s.behind length).index ≤ length := by
  unfold Place.behind
  dsimp only
  split <;> omega

/-- In a closed list there is a cursor for every index. -/
theorem exists_stands (ts : List Token) {last : Token} (hlast : last.kind = .eof) (index : Nat) :
    ∃ c, Stands (ts ++ [last]) index c := by
  have hlength : (ts ++ [last]).length - 1 = ts.length := by simp
  have hle : min index ts.length ≤ ts.length := Nat.min_le_right _ _
  cases hdrop : (ts ++ [last]).drop (min index ts.length) with
  | nil =>
    have := congrArg List.length hdrop
    simp only [List.length_drop, List.length_append, List.length_cons, List.length_nil] at this
    omega
  | cons t rest =>
    refine ⟨⟨t, rest⟩, ⟨by rw [hlength, hdrop], ?_⟩⟩
    -- Whatever is dropped, the last token stays the last one.
    rw [List.drop_append_of_le_length hle] at hdrop
    have hgetLast := congrArg List.getLast? hdrop
    simp only [List.getLast?_append, List.getLast?_cons, Option.some_or, Option.some.injEq] at hgetLast
    rw [Cursor.Closed, List.getLastD_eq_getLast?, ← hgetLast]
    exact hlast

/-- What a reading makes of the counter. Every value that it is given is at least the first one and at most
one above the limit, and one lies above the limit exactly if `beyond` holds. -/
def Place.Leads (s s' : Place) (beyond : Prop) : Prop :=
  ∃ values, s'.depths = values ++ s.depths ∧ s'.depth ∈ s.depth :: values ∧
    (∀ n ∈ values, s.depth ≤ n ∧ n ≤ max s.depth maxNesting + 1) ∧
    ((∃ n ∈ values, maxNesting < n) ↔ beyond)

namespace Place.Leads

variable {s₁ : Place} {beyond : Prop}

/-- A counter that is left alone has no new values. -/
private theorem stays (hdepth : s'.depth = s.depth) (hdepths : s'.depths = s.depths) : s.Leads s' False :=
  ⟨[], hdepths, by simp [hdepth], by simp, by simp⟩

/-- The values of the counter along a sequence are those along its parts. -/
protected theorem trans (h : s.Leads s₁ False) (hdepth : s₁.depth = s.depth) (h' : s₁.Leads s' beyond) :
    s.Leads s' beyond := by
  -- The later values come in front of the earlier ones, and the first part ends at the value it started with.
  obtain ⟨values, hdepths, _, hbounds, hnone⟩ := h
  obtain ⟨values', hdepths', hcurrent', hbounds', hiff⟩ := h'
  rw [hdepth] at hcurrent' hbounds'
  refine ⟨values' ++ values, by rw [hdepths', hdepths, List.append_assoc], ?_, ?_, ?_⟩
  · rcases List.mem_cons.mp hcurrent' with heq | hmem
    · simp [heq]
    · simp [hmem]
  · intro n hn
    rcases List.mem_append.mp hn with hn | hn
    · exact hbounds' n hn
    · exact hbounds n hn
  · simp only [List.mem_append, or_and_right, exists_or, hnone, or_false, hiff]

/-- The counter ends where it started or above. -/
theorem depth_le (h : s.Leads s' beyond) : s.depth ≤ s'.depth := by
  obtain ⟨values, _, hcurrent, hbounds, _⟩ := h
  rcases List.mem_cons.mp hcurrent with heq | hmem
  · exact Nat.le_of_eq heq.symm
  · exact (hbounds _ hmem).1

/-- From the start of a list on, all values of the counter are known. -/
theorem of_start (h : Place.start.Leads s' beyond) :
    (∀ n ∈ s'.depths, n ≤ maxNesting + 1) ∧ ((∃ n ∈ s'.depths, maxNesting < n) ↔ beyond) := by
  obtain ⟨values, hdepths, _, hbounds, hiff⟩ := h
  obtain rfl : s'.depths = values := hdepths.trans (List.append_nil values)
  refine ⟨fun n hn => ?_, hiff⟩
  have hvalue := (hbounds n hn).2
  simp only [Place.start, Nat.zero_max] at hvalue
  exact hvalue

/-- Going up by one within the limit, and on from there. -/
theorem opened (hdepth : s.depth + 1 ≤ maxNesting) (h : (s.setDepth (s.depth + 1)).Leads s' beyond) :
    s.Leads s' beyond := by
  obtain ⟨values, hdepths, hcurrent, hbounds, hiff⟩ := h
  -- The value that is gone up to is the first of the new ones, and it lies within the limit.
  refine ⟨values ++ [s.depth + 1], by simp [hdepths, Place.setDepth], ?_, ?_, ?_⟩
  · rcases List.mem_cons.mp hcurrent with heq | hmem
    · simp [heq, Place.setDepth]
    · simp [hmem]
  · intro n hn
    rcases List.mem_append.mp hn with hn | hn
    · have hvalue := hbounds n hn
      simp only [Place.setDepth] at hvalue
      omega
    · obtain rfl := List.mem_singleton.mp hn
      omega
  · have hwithin : ¬ maxNesting < s.depth + 1 := Nat.not_lt.mpr hdepth
    simp only [List.mem_append, List.mem_singleton, or_and_right, exists_or, exists_eq_left, hiff, hwithin,
      or_false]

/-- Going down by one from above the first value. -/
theorem closed (h : s.Leads s' beyond) (habove : s.depth + 1 ≤ s'.depth) :
    s.Leads (s'.setDepth (s'.depth - 1)) beyond := by
  obtain ⟨values, hdepths, hcurrent, hbounds, hiff⟩ := h
  -- A counter that stands above its first value has been set since.
  have hmem : s'.depth ∈ values := by
    rcases List.mem_cons.mp hcurrent with heq | hmem
    · omega
    · exact hmem
  have hvalue := hbounds _ hmem
  refine ⟨(s'.depth - 1) :: values, by simp [hdepths, Place.setDepth], by simp [Place.setDepth], ?_, ?_⟩
  · intro n hn
    rcases List.mem_cons.mp hn with rfl | hn
    · omega
    · exact hbounds n hn
  · rw [← hiff]
    constructor
    · rintro ⟨n, hn, hlt⟩
      rcases List.mem_cons.mp hn with rfl | hn
      · -- the value before was larger still
        exact ⟨s'.depth, hmem, by omega⟩
      · exact ⟨n, hn, hlt⟩
    · rintro ⟨n, hn, hlt⟩
      exact ⟨n, List.mem_cons_of_mem _ hn, hlt⟩

/-- Going up by one and beyond the limit. -/
theorem tooDeep (hdepth : maxNesting < s.depth + 1) (hbeyond : beyond) :
    s.Leads (s.setDepth (s.depth + 1)) beyond := by
  refine ⟨[s.depth + 1], rfl, by simp [Place.setDepth], ?_, by simp [hdepth, hbeyond]⟩
  intro n hn
  obtain rfl := List.mem_singleton.mp hn
  omega

end Place.Leads

/-! ## Section 2: Readings That Agree -/

/-- How a reading that started at a place ends, compared with one from a cursor. -/
inductive Outcome (tokens : List Token) (s : Place) :
    Except Stop (α × Cursor) → Except Halt α × Place → Prop where
  | read {a : α} {c : Cursor} {s' : Place} (hstands : Stands tokens s'.index c)
      (hbound : s'.index ≤ tokens.length) (hindex : s.index ≤ s'.index) (hdepth : s'.depth = s.depth)
      (hleads : s.Leads s' False) : Outcome tokens s (.ok (a, c)) (.ok a, s')
  | failed {e : ScriptError} {s' : Place} (hbound : s'.index ≤ tokens.length) (hkind : e.kind = .malformed)
      (hleads : s.Leads s' (e.cause = .nestedTooDeeply)) :
      Outcome tokens s (.error (.failed e)) (.error (.failed e), s')
  | exhausted {s' : Place} (hbound : s'.index ≤ tokens.length) (hleads : s.Leads s' False) :
      Outcome tokens s (.error .exhausted) (.error .exhausted, s')

namespace Outcome

variable {o : Except Stop (α × Cursor)} {r : Except Halt α × Place}

/-- Something was read and only the index was moved. -/
theorem moved {index : Nat} (hstands : Stands tokens index c) (hbound : index ≤ tokens.length)
    (hindex : s.index ≤ index) (a : α) :
    Outcome tokens s (.ok (a, c)) (.ok a, { s with index := index }) :=
  .read hstands hbound hindex rfl (Place.Leads.stays rfl rfl)

/-- A reading that goes on where another one ended. -/
protected theorem trans {m : Place} (hindex : s.index ≤ m.index) (hdepth : m.depth = s.depth)
    (hleads : s.Leads m False) (h : Outcome tokens m o r) : Outcome tokens s o r := by
  cases h with
  | read hstands hbound hindex' hdepth' hleads' =>
    exact .read hstands hbound (Nat.le_trans hindex hindex') (hdepth'.trans hdepth) (hleads.trans hdepth hleads')
  | failed hbound hkind hleads' => exact .failed hbound hkind (hleads.trans hdepth hleads')
  | exhausted hbound hleads' => exact .exhausted hbound (hleads.trans hdepth hleads')

/-- A reading that goes on where only the index was moved to. -/
theorem from_ {index : Nat} (hindex : s.index ≤ index) (h : Outcome tokens { s with index := index } o r) :
    Outcome tokens s o r :=
  Outcome.trans (m := { s with index := index }) hindex rfl (Place.Leads.stays rfl rfl) h

end Outcome

/-- A reading does what one from a cursor does, wherever the counter stands at `depth`. -/
class Mirrors (depth : Nat) (q : Reading α) (p : Parser α) : Prop where
  mirrors : ∀ {tokens : List Token} {s : Place} {c : Cursor}, s.depth = depth → s.index ≤ tokens.length →
    Stands tokens s.index c → Outcome tokens s (p c) (q tokens s)

/-- A question about the tokens ahead is answered as from a cursor, and nothing is moved. -/
class Answers (q : Reading Bool) (test : Cursor → Bool) : Prop where
  answers : ∀ {tokens : List Token} {s : Place} {c : Cursor}, Stands tokens s.index c →
    q tokens s = (.ok (test c), s)

/-- A sequence of readings: the second one starts where the first one ended, unless that stopped. -/
theorem bind_apply (q : Reading α) (k : α → Reading β) (tokens : List Token) (s : Place) :
    (q >>= k) tokens s = match q tokens s with
      | (.ok a, s') => k a tokens s'
      | (.error halt, s') => (.error halt, s') := by
  show (match q tokens s with | (r, s') => ExceptT.bindCont (fun a => k a tokens) r s') = _
  rcases q tokens s with ⟨r, s'⟩
  cases r <;> rfl

/-- A reading that asks for the token list. -/
theorem read_bind_apply (k : List Token → Reading α) (tokens : List Token) (s : Place) :
    (read >>= k) tokens s = k tokens tokens s :=
  rfl

/-- A reading that asks for its place. -/
theorem get_bind_apply (k : Place → Reading α) (tokens : List Token) (s : Place) :
    (get >>= k) tokens s = k s tokens s :=
  rfl

section Rules

variable {depth : Nat}

section Sequences

variable {q q' : Reading α} {p p' : Parser α}

instance Mirrors.bind {k : α → Reading β} {f : α → Parser β} [hp : Mirrors depth q p]
    [hk : ∀ a, Mirrors depth (k a) (f a)] : Mirrors depth (q >>= k) (p >>= f) where
  mirrors {tokens s c} hdepth hbound hstands := by
    have hfirst := hp.mirrors hdepth hbound hstands
    rw [Grammar.bind_apply, bind_apply]
    generalize p c = o at hfirst
    generalize q tokens s = r at hfirst
    cases hfirst with
    | read hstands' hbound' hindex' hdepth' hleads' =>
      -- the counter has its first value again, so the second readings are compared at the same depth
      exact ((hk _).mirrors (hdepth'.trans hdepth) hbound' hstands').trans hindex' hdepth' hleads'
    | failed hbound' hkind hleads' => exact .failed hbound' hkind hleads'
    | exhausted hbound' hleads' => exact .exhausted hbound' hleads'

instance Mirrors.ite {P : Prop} [Decidable P] [h : Mirrors depth q p] [h' : Mirrors depth q' p'] :
    Mirrors depth (if P then q else q') (if P then p else p') := by
  split
  · exact h
  · exact h'

instance Mirrors.question {ask : Reading Bool} {test : Cursor → Bool} [ha : Answers ask test]
    [h : Mirrors depth q p] [h' : Mirrors depth q' p'] :
    Mirrors depth (ask >>= fun answer => if answer = true then q else q')
      (MonadState.get >>= fun c => if test c = true then p else p') where
  mirrors {tokens s c} hdepth hbound hstands := by
    -- The question moves nothing, so both sides go on from where they were.
    rw [bind_apply, ha.answers hstands]
    show Outcome tokens s ((if test c = true then p else p') c) _
    exact Mirrors.ite.mirrors hdepth hbound hstands

end Sequences

section Readers

variable {kind : TokenKind} {expected : String}

instance Mirrors.pure (a : α) : Mirrors depth (Pure.pure a : Reading α) (Pure.pure a) where
  mirrors _ hbound hstands := .moved hstands hbound (Nat.le_refl _) a

instance Mirrors.exhausted :
    Mirrors depth (MonadExceptOf.throw Halt.exhausted : Reading α) (MonadExceptOf.throw Stop.exhausted) where
  mirrors _ hbound _ := .exhausted hbound (Place.Leads.stays rfl rfl)

/-- Failing is the same if the cause is one of reading and not the depth, which is noticed elsewhere. -/
theorem mirrors_failWith {cause : Cause} (hkind : cause.kind = .malformed) (hcause : cause ≠ .nestedTooDeeply)
    (p : Pos) : Mirrors depth (failWith cause p : Reading α) (Grammar.failWith cause p) where
  mirrors _ hbound _ :=
    .failed hbound hkind ((Place.Leads.stays rfl rfl).trans rfl ⟨[], rfl, by simp, by simp, by simp [hcause]⟩)

instance Mirrors.invalidTarget (p : Pos) :
    Mirrors depth (failWith .invalidTarget p : Reading α) (Grammar.failWith .invalidTarget p) :=
  mirrors_failWith rfl (by simp) p

instance Mirrors.duplicateParameter (name : String) (p : Pos) :
    Mirrors depth (failWith (.duplicateParameter name) p : Reading α)
      (Grammar.failWith (.duplicateParameter name) p) :=
  mirrors_failWith rfl (by simp) p

instance Mirrors.unexpectedToken (found : TokenKind) (p : Pos) :
    Mirrors depth (failWith (.unexpectedToken expected found) p : Reading α)
      (Grammar.failWith (.unexpectedToken expected found) p) :=
  mirrors_failWith rfl (by simp) p

/-- The token at an index is the one of the cursor there. -/
private theorem tokenAt_apply {index : Nat} (h : Stands tokens index c) : tokenAt index tokens s =
    (.ok c.token, s) := by
  unfold tokenAt
  rw [read_bind_apply, h.getElem?]
  rfl

/-- The current token is the one of the cursor. -/
private theorem token_apply (h : Stands tokens s.index c) : token tokens s = (.ok c.token, s) :=
  tokenAt_apply h

/-- The kind of a token ahead is that of the cursor there. -/
private theorem peekAt_apply {offset : Nat} (h : Stands tokens (s.index + offset) c) :
    peekAt offset tokens s = (.ok c.kind, s) := by
  show (tokenAt (s.index + offset) >>= fun t => Pure.pure t.kind) tokens s = _
  rw [bind_apply, tokenAt_apply h]
  rfl

/-- The current kind is that of the cursor. -/
theorem peek_apply (h : Stands tokens s.index c) : peek tokens s = (.ok c.kind, s) := by
  unfold peek
  rw [bind_apply, token_apply h]
  rfl

/-- The current place is that of the cursor. -/
private theorem position_apply (h : Stands tokens s.index c) : position tokens s = (.ok c.token.pos, s) := by
  unfold position
  rw [bind_apply, token_apply h]
  rfl

/-- Taking a token goes on by one index. -/
private theorem advance_apply (h : Stands tokens s.index c) :
    advance tokens s = (.ok c.token, s.behind tokens.length) := by
  unfold advance
  rw [bind_apply, token_apply h]
  rfl

instance Mirrors.peek : Mirrors depth Indexed.peek Grammar.peek where
  mirrors _ hbound hstands := by
    rw [peek_apply hstands]
    exact .moved hstands hbound (Nat.le_refl _) _

instance Mirrors.position : Mirrors depth Indexed.position Grammar.position where
  mirrors _ hbound hstands := by
    rw [position_apply hstands]
    exact .moved hstands hbound (Nat.le_refl _) _

instance Mirrors.advance : Mirrors depth Indexed.advance Grammar.advance where
  mirrors {tokens s c} _ hbound hstands := by
    rw [advance_apply hstands]
    exact .moved hstands.behind (Place.behind_le hbound) (s.le_behind _) _

instance Mirrors.unexpected : Mirrors depth (Indexed.unexpected expected : Reading α) (Grammar.unexpected expected) := by
  unfold Indexed.unexpected Grammar.unexpected
  infer_instance

instance Mirrors.eat : Mirrors depth (Indexed.eat kind) (Grammar.eat kind) := by
  unfold Indexed.eat Grammar.eat
  infer_instance

instance Mirrors.expect : Mirrors depth (Indexed.expect kind expected) (Grammar.expect kind expected) := by
  unfold Indexed.expect Grammar.expect
  infer_instance

instance Mirrors.expectIdent : Mirrors depth Indexed.expectIdent Grammar.expectIdent := by
  unfold Indexed.expectIdent Grammar.expectIdent
  refine @Mirrors.bind _ _ _ _ _ _ _ _ fun kind => ?_
  cases kind <;> infer_instance

instance Mirrors.expectKey : Mirrors depth Indexed.expectKey Grammar.expectKey := by
  unfold Indexed.expectKey Grammar.expectKey
  refine @Mirrors.bind _ _ _ _ _ _ _ _ fun t => ?_
  cases t.kind <;> infer_instance

instance Mirrors.skipDeclarator : Mirrors depth Indexed.skipDeclarator Grammar.skipDeclarator := by
  unfold Indexed.skipDeclarator Grammar.skipDeclarator
  infer_instance

end Readers

section Loops

variable {bound : Nat}

/-- Skipping ends within the bound, because the end of the input is not skipped. -/
theorem skipWhile_outcome {skips : TokenKind → Bool} (hend : skips .eof = false)
    (hbound : s.index ≤ tokens.length) (hstands : Stands tokens s.index c) (hsize : c.size < bound) :
    Outcome tokens s (.ok ((), skipFrom skips c.token c.rest)) (skipWhile skips bound tokens s) := by
  induction bound generalizing s c with
  | zero => omega
  | succ bound ih =>
    unfold skipWhile
    rw [bind_apply, peek_apply hstands]
    dsimp only
    cases hskips : skips c.kind with
    | false =>
      rw [skipFrom_of_not hskips]
      exact .moved hstands hbound (Nat.le_refl _) ()
    | true =>
      -- the end of the input is not skipped, so there is one token less behind this one
      have hkind : c.kind ≠ .eof := by
        intro heof
        rw [heof, hend] at hskips
        contradiction
      have hless := Cursor.size_advance hstands.closed hkind
      rw [skipFrom_of_skips hskips]
      show Outcome tokens s _ ((Indexed.advance >>= fun _ => skipWhile skips bound) tokens s)
      rw [bind_apply, advance_apply hstands]
      exact .from_ (s.le_behind _) (ih (Place.behind_le hbound) hstands.behind (by omega))

private theorem skip_outcome {skips : TokenKind → Bool} (hend : skips .eof = false) (hbound : s.index ≤ tokens.length)
    (hstands : Stands tokens s.index c) :
    Outcome tokens s (.ok ((), skipFrom skips c.token c.rest)) (skip skips tokens s) := by
  have hsize := hstands.size_eq
  exact skipWhile_outcome hend hbound hstands (by omega)

instance Mirrors.skipNewlines : Mirrors depth Indexed.skipNewlines Grammar.skipNewlines where
  mirrors _ hbound hstands := skip_outcome rfl hbound hstands

instance Mirrors.skipSeparators : Mirrors depth Indexed.skipSeparators Grammar.skipSeparators where
  mirrors _ hbound hstands := skip_outcome rfl hbound hstands

/-- Looking ahead for the first token that is no line feed ends within the bound as well. -/
theorem offsetBehindNewlines_apply {offset : Nat} (hstands : Stands tokens (s.index + offset) c)
    (hsize : c.size < bound) : ∃ offset', offset ≤ offset' ∧ (offset < offset' ↔ c.kind = .newline) ∧
      Stands tokens (s.index + offset') (skipFrom (· = .newline) c.token c.rest) ∧
      offsetBehindNewlines bound offset tokens s = (.ok offset', s) := by
  induction bound generalizing offset c with
  | zero => omega
  | succ bound ih =>
    unfold offsetBehindNewlines
    rw [bind_apply, peekAt_apply hstands]
    dsimp only
    by_cases hkind : c.kind = .newline
    · have hless := Cursor.size_advance hstands.closed (by simp [hkind])
      have hnext : Stands tokens (s.index + (offset + 1)) c.advance := hstands.succ
      obtain ⟨offset', hle, _, hstands', happly⟩ := ih hnext (by omega)
      rw [skipFrom_of_skips (by simpa using hkind)]
      rw [if_pos hkind]
      exact ⟨offset', by omega, by simp only [hkind, iff_true]; omega, hstands', happly⟩
    · rw [if_neg hkind, skipFrom_of_not (by simpa using hkind)]
      exact ⟨offset, Nat.le_refl _, by simp [hkind], hstands, rfl⟩

instance Answers.continuesChain : Answers Indexed.continuesChain Grammar.continuesChain where
  answers {tokens s c} hstands := by
    have hhere : Stands tokens (s.index + 0) c := hstands
    have hsize : c.size < tokens.length + 1 := by
      have heq := hstands.size_eq
      omega
    obtain ⟨offset, _, hiff, hstands', happly⟩ := offsetBehindNewlines_apply hhere hsize
    have hnewline : decide (0 < offset) = decide (c.kind = .newline) := decide_eq_decide.mpr hiff
    unfold Indexed.continuesChain
    rw [read_bind_apply, bind_apply, happly]
    dsimp only
    rw [bind_apply, peekAt_apply hstands']
    dsimp only
    rw [hnewline]
    rfl

instance Answers.isCommandCall : Answers Indexed.isCommandCall Grammar.isCommandCall where
  answers {tokens s c} hstands := by
    have hnext : c.kind ≠ .eof → tokens[s.index + 1]? = c.rest.head? := by
      intro hkind
      have hsize := hstands.size_eq
      have hless := Cursor.size_advance hstands.closed hkind
      -- the current token is not the last one, so the index is its place
      have hmin : min s.index (tokens.length - 1) = s.index := by omega
      have hdrop := hstands.drop
      rw [hmin] at hdrop
      rw [← List.head?_drop, ← List.tail_drop, hdrop]
      rfl
    unfold Indexed.isCommandCall
    rw [bind_apply, peek_apply hstands]
    dsimp only
    rw [bind_apply, position_apply hstands]
    dsimp only
    rw [read_bind_apply, get_bind_apply]
    unfold Grammar.isCommandCall
    cases hkind : c.kind with
    | ident name =>
      rw [hnext (by simp [hkind])]
      cases c.rest <;> rfl
    | _ => rfl

instance Answers.isMapKey : Answers Indexed.isMapKey Grammar.isMapKey where
  answers {tokens s c} hstands := by
    have hcolon : (peekAt 1 >>= fun kind => Pure.pure (decide (kind = .symbol .colon)) : Reading Bool) tokens s =
        (.ok (decide (c.nextKind = .symbol .colon)), s) := by
      rw [bind_apply, peekAt_apply hstands.succ]
      rfl
    unfold Indexed.isMapKey Grammar.isMapKey
    rw [bind_apply, peek_apply hstands]
    cases c.kind with
    | ident name => exact hcolon
    | str text => exact hcolon
    | _ => rfl

instance Mirrors.skipToChain : Mirrors depth Indexed.skipToChain Grammar.skipToChain := by
  unfold Indexed.skipToChain Grammar.skipToChain
  infer_instance

private theorem eat_apply_eq {kind : TokenKind} (hstands : Stands tokens s.index c) (hkind : c.kind = kind) :
    Indexed.eat kind tokens s = (.ok true, s.behind tokens.length) := by
  unfold Indexed.eat
  rw [bind_apply, peek_apply hstands]
  dsimp only
  rw [if_pos hkind, bind_apply, advance_apply hstands]
  rfl

private theorem eat_apply_ne {kind : TokenKind} (hstands : Stands tokens s.index c) (hkind : c.kind ≠ kind) :
    Indexed.eat kind tokens s = (.ok false, s) := by
  unfold Indexed.eat
  rw [bind_apply, peek_apply hstands]
  dsimp only
  rw [if_neg hkind]
  rfl

/-- Names separated by commas are taken as far as they go. -/
theorem closureNames_apply (names : List String) (hbound : s.index ≤ tokens.length)
    (hstands : Stands tokens s.index c) (hsize : c.size < bound) : ∃ more index c',
      s.index ≤ index ∧ index ≤ tokens.length ∧ Stands tokens index c' ∧
      identifiers (c.token :: c.rest) = (more, c'.token :: c'.rest) ∧
      closureNames bound names tokens s = (.ok (names ++ more), { s with index := index }) := by
  induction bound generalizing s c names with
  | zero => omega
  | succ bound ih =>
    unfold closureNames
    rw [bind_apply, peek_apply hstands]
    dsimp only
    have hclosed := hstands.closed
    have hbehind := hstands.behind
    have hbound' := Place.behind_le hbound
    have hle := s.le_behind tokens.length
    cases hkind : c.kind with
    | ident name =>
      -- a name is not the end of the input: a token follows, and the loop goes on if it is a comma
      obtain ⟨⟨_, p⟩, rest⟩ := c
      obtain rfl := hkind
      have hless := Cursor.size_advance hclosed (by simp [Cursor.kind])
      cases rest with
      | nil => exact absurd hclosed (by simp [Cursor.Closed])
      | cons next rest =>
        dsimp only
        rw [bind_apply, advance_apply hstands]
        dsimp only
        rw [bind_apply]
        by_cases hcomma : next.kind = .symbol .comma
        · obtain ⟨_, p'⟩ := next
          obtain rfl := hcomma
          have hless' := Cursor.size_advance hbehind.closed (by simp [Cursor.kind, Cursor.advance])
          rw [eat_apply_eq hbehind (show Cursor.kind ⟨⟨.symbol .comma, p'⟩, rest⟩ = .symbol .comma from rfl)]
          cases rest with
          | nil => exact absurd hclosed (by simp [Cursor.Closed])
          | cons after rest =>
            obtain ⟨more, index, c', hindex, hindex', hstands', hmore, happly⟩ :=
              ih (names ++ [name]) (Place.behind_le hbound') hbehind.behind (by omega)
            have hle' := (s.behind tokens.length).le_behind tokens.length
            have hcons : identifiers (⟨.ident name, p⟩ :: ⟨.symbol .comma, p'⟩ :: after :: rest) =
                (name :: more, c'.token :: c'.rest) := by
              rw [identifiers.eq_1]
              exact congrArg (fun read => (name :: read.1, read.2)) hmore
            refine ⟨name :: more, index, c', by omega, hindex', hstands', hcons, ?_⟩
            rw [List.append_assoc] at happly
            exact happly
        · rw [eat_apply_ne hbehind hcomma]
          exact ⟨[name], _, ⟨next, rest⟩, hle, hbound', hbehind, Seam.identifiers_of_not_comma name p hcomma, rfl⟩
    | _ =>
      have hother : ∀ name, c.kind ≠ .ident name := by simp [hkind]
      refine ⟨[], s.index, c, Nat.le_refl _, hbound, hstands, Seam.identifiers_of_not_ident hother, ?_⟩
      rw [List.append_nil]
      rfl

/-- Behind the names of parameters either an arrow is taken or nothing was taken at all. -/
theorem arrowBehind_apply {names : List String} {index : Nat} (hbound : s.index ≤ tokens.length)
    (hstands : Stands tokens s.index c) (harrow : c.kind ≠ .symbol .arrow) (hindex : s.index ≤ index)
    (hindex' : index ≤ tokens.length) (hstands' : Stands tokens index c')
    (hnames : identifiers (c.token :: c.rest) = (names, c'.token :: c'.rest)) :
    ∃ index', s.index ≤ index' ∧ index' ≤ tokens.length ∧ Stands tokens index' (Grammar.closureParams c).2 ∧
      arrowBehind s.index names tokens { s with index := index } =
        (.ok (Grammar.closureParams c).1, { s with index := index' }) := by
  unfold arrowBehind
  by_cases hempty : names.isEmpty = true
  · -- without names an arrow would be the one in front of which there are none
    have hparams : Grammar.closureParams c = ([], c) := by
      by_cases harrow' : c'.kind = .symbol .arrow
      · rw [Seam.closureParams_of_arrow harrow hnames harrow', if_pos hempty]
      · exact Seam.closureParams_of_not_arrow harrow hnames harrow'
    rw [hparams, if_pos hempty]
    exact ⟨s.index, Nat.le_refl _, hbound, hstands, rfl⟩
  · rw [if_neg hempty, bind_apply]
    generalize hs : ({ s with index := index } : Place) = m
    have hm : m.index = index := hs ▸ rfl
    rw [← hm] at hstands' hindex hindex'
    by_cases harrow' : c'.kind = .symbol .arrow
    · rw [eat_apply_eq hstands' harrow', Seam.closureParams_of_arrow harrow hnames harrow', if_neg hempty]
      refine ⟨(m.behind tokens.length).index, Nat.le_trans hindex (m.le_behind _), Place.behind_le hindex',
        hstands'.behind, ?_⟩
      subst hs
      rfl
    · rw [eat_apply_ne hstands' harrow', Seam.closureParams_of_not_arrow harrow hnames harrow']
      refine ⟨s.index, Nat.le_refl _, hbound, hstands, ?_⟩
      subst hs
      rfl

private theorem closureParams_apply (hbound : s.index ≤ tokens.length) (hstands : Stands tokens s.index c) :
    ∃ index, s.index ≤ index ∧ index ≤ tokens.length ∧ Stands tokens index (Grammar.closureParams c).2 ∧
      Indexed.closureParams tokens s = (.ok (Grammar.closureParams c).1, { s with index := index }) := by
  unfold Indexed.closureParams
  rw [get_bind_apply, bind_apply]
  by_cases harrow : c.kind = .symbol .arrow
  · rw [eat_apply_eq hstands harrow]
    unfold Grammar.closureParams
    rw [if_pos harrow]
    exact ⟨_, s.le_behind _, Place.behind_le hbound, hstands.behind, rfl⟩
  · have hsize : c.size < tokens.length + 1 := by
      have heq := hstands.size_eq
      omega
    obtain ⟨names, index, c', hindex, hindex', hstands', hnames, happly⟩ :=
      closureNames_apply [] hbound hstands hsize
    rw [eat_apply_ne hstands harrow]
    dsimp only
    rw [if_neg Bool.false_ne_true, read_bind_apply, bind_apply, happly]
    exact arrowBehind_apply hbound hstands harrow hindex hindex' hstands' hnames

instance Mirrors.behindParams {k : List String → Reading α} {f : List String → Parser α}
    [h : ∀ names, Mirrors depth (k names) (f names)] :
    Mirrors depth (Indexed.closureParams >>= k) (Grammar.behindParams f) where
  mirrors {tokens s c} hdepth hbound hstands := by
    obtain ⟨index, hindex, hindex', hstands', happly⟩ := closureParams_apply hbound hstands
    rw [bind_apply, happly]
    show Outcome tokens s (f (Grammar.closureParams c).1 (Grammar.closureParams c).2) _
    exact .from_ hindex ((h _).mirrors hdepth hindex' hstands')

end Loops

section Constructs

private theorem tryCatch_apply (q : Reading α) (handle : Halt → Reading α) (tokens : List Token) (s : Place) :
    (tryCatch q handle : Reading α) tokens s = match q tokens s with
      | (.ok a, s') => (.ok a, s')
      | (.error halt, s') => handle halt tokens s' := by
  show (match q tokens s with | (r, s') => (_ : StateM Place (Except Halt α)) s') = _
  rcases q tokens s with ⟨r, s'⟩
  cases r <;> rfl

private theorem enter_apply (hdepth : s.depth + 1 ≤ maxNesting) :
    enter tokens s = (.ok (), s.setDepth (s.depth + 1)) := by
  show (if maxNesting < s.depth + 1 then _ else (Pure.pure () : Reading Unit)) tokens (s.setDepth (s.depth + 1)) = _
  rw [if_neg (Nat.not_lt.mpr hdepth)]
  rfl

private theorem enter_apply_tooDeep (hstands : Stands tokens s.index c) (hdepth : maxNesting < s.depth + 1) :
    enter tokens s = (.error (.failed { cause := .nestedTooDeeply, pos := some c.token.pos }),
      s.setDepth (s.depth + 1)) := by
  show (if maxNesting < s.depth + 1 then position >>= fun p => failWith .nestedTooDeeply p
    else (Pure.pure () : Reading Unit)) tokens (s.setDepth (s.depth + 1)) = _
  have hstands' : Stands tokens (s.setDepth (s.depth + 1)).index c := hstands
  rw [if_pos hdepth, bind_apply, position_apply hstands']
  rfl

private theorem leave_apply (hdepth : 0 < s.depth) : leave tokens s = (.ok (), s.setDepth (s.depth - 1)) := by
  obtain ⟨index, depth, depths⟩ := s
  cases depth with
  | zero => exact absurd hdepth (Nat.lt_irrefl 0)
  | succ depth => rfl

private theorem grammar_enter_apply (hdepth : depth + 1 ≤ maxNesting) (c : Cursor) :
    Grammar.enter depth c = .ok (depth + 1, c) := by
  unfold Grammar.enter
  rw [if_neg (Nat.not_lt.mpr hdepth)]
  rfl

private theorem grammar_enter_apply_tooDeep (hdepth : maxNesting < depth + 1) (c : Cursor) :
    Grammar.enter depth c =
      .error (.failed { cause := .nestedTooDeeply, pos := some c.token.pos }) := by
  unfold Grammar.enter
  rw [if_pos hdepth]
  rfl

variable {q : Reading α} {f : Nat → Parser α}

/-- Behind what was read inside of a construct the construct is closed. -/
theorem leave_outcome {a : α} (hwithin : s.depth + 1 ≤ maxNesting) (hstands : Stands tokens s'.index c)
    (hbound : s'.index ≤ tokens.length) (hindex : s.index ≤ s'.index)
    (hdepth : s'.depth = s.depth + 1) (hleads : (s.setDepth (s.depth + 1)).Leads s' False) :
    Outcome tokens s (.ok (a, c)) ((leave >>= fun _ => Pure.pure a : Reading α) tokens s') := by
  rw [bind_apply, leave_apply (by omega)]
  refine .read hstands hbound hindex ?_ ((hleads.opened hwithin).closed (by omega))
  simp [Place.setDepth, hdepth]

/-- Opening a construct fails on both sides beyond the limit. Within it, what is done inside is to agree with
what is read there from a cursor, where that agrees with a reading one construct further in. -/
theorem Mirrors.opening {body : Reading α} (h : ∀ depth, Mirrors depth q (f depth))
    (hbody : ∀ {tokens : List Token} {s : Place} {o : Except Stop (α × Cursor)}, s.depth + 1 ≤ maxNesting →
      Outcome tokens (s.setDepth (s.depth + 1)) o (q tokens (s.setDepth (s.depth + 1))) →
      Outcome tokens s o (body tokens (s.setDepth (s.depth + 1)))) :
    Mirrors depth (enter >>= fun _ => body) (Grammar.enter depth >>= f) where
  mirrors {tokens s c} hdepth hbound hstands := by
    subst hdepth
    rw [Grammar.bind_apply, bind_apply]
    by_cases hdeep : maxNesting < s.depth + 1
    · rw [grammar_enter_apply_tooDeep hdeep, enter_apply_tooDeep hstands hdeep]
      exact .failed hbound rfl (Place.Leads.tooDeep hdeep rfl)
    · have hwithin := Nat.not_lt.mp hdeep
      rw [grammar_enter_apply hwithin, enter_apply hwithin]
      exact hbody hwithin ((h (s.depth + 1)).mirrors (s := s.setDepth (s.depth + 1)) rfl hbound hstands)

instance Mirrors.enclosed [h : ∀ depth, Mirrors depth q (f depth)] :
    Mirrors depth (Indexed.enclosed q) (Grammar.enter depth >>= f) := by
  refine Mirrors.opening h fun {tokens s o} hwithin hinner => ?_
  rw [bind_apply]
  generalize q tokens (s.setDepth (s.depth + 1)) = r at hinner
  cases hinner with
  | read hstands hbound hindex hdepth hleads => exact leave_outcome hwithin hstands hbound hindex hdepth hleads
  | failed hbound hkind hleads => exact .failed hbound hkind (hleads.opened hwithin)
  | exhausted hbound hleads => exact .exhausted hbound (hleads.opened hwithin)

instance Mirrors.enclosedAlways [h : ∀ depth, Mirrors depth q (f depth)] :
    Mirrors depth (Indexed.enclosedAlways q) (Grammar.enter depth >>= f) := by
  refine Mirrors.opening h fun {tokens s o} hwithin hinner => ?_
  rw [bind_apply, tryCatch_apply]
  generalize q tokens (s.setDepth (s.depth + 1)) = r at hinner
  cases hinner with
  | read hstands hbound hindex hdepth hleads => exact leave_outcome hwithin hstands hbound hindex hdepth hleads
  | failed hbound hkind hleads =>
    -- other constructs inside may be left open, so the counter may end above
    have hopen : s.depth + 1 ≤ _ := hleads.depth_le
    dsimp only
    rw [bind_apply, leave_apply (by omega)]
    exact .failed hbound hkind ((hleads.opened hwithin).closed hopen)
  | exhausted hbound hleads =>
    have hopen : s.depth + 1 ≤ _ := hleads.depth_le
    dsimp only
    rw [bind_apply, leave_apply (by omega)]
    exact .exhausted hbound ((hleads.opened hwithin).closed hopen)

instance Mirrors.lookBehind {kind : TokenKind} {q q' : Reading α} {p p' : Parser α} [h : Mirrors depth q p]
    [h' : Mirrors depth q' p'] :
    Mirrors depth (Indexed.lookBehind kind q q') (Grammar.lookBehind kind p p') where
  mirrors {tokens s c} hdepth hbound hstands := by
    have hskip : Outcome tokens s _ (skip isSeparator tokens s) := skip_outcome rfl hbound hstands
    unfold Indexed.lookBehind
    rw [get_bind_apply, bind_apply, Indexed.skipSeparators]
    generalize skip isSeparator tokens s = r at hskip
    cases hskip with
    | @read _ _ s' hstands' hbound' hindex' hdepth' hleads' =>
      dsimp only
      rw [bind_apply]
      by_cases hkind : (skipFrom isSeparator c.token c.rest).kind = kind
      · rw [lookBehind_of_eq hkind, eat_apply_eq hstands' hkind]
        have hfound := h.mirrors (s := s'.behind tokens.length) (hdepth'.trans hdepth)
          (Place.behind_le hbound') hstands'.behind
        exact hfound.trans (Nat.le_trans hindex' (s'.le_behind _)) hdepth' hleads'
      · -- only the index goes back; the counter was not moved by the separators
        rw [lookBehind_of_ne hkind, eat_apply_ne hstands' hkind]
        have hmissing := h'.mirrors (s := { s' with index := s.index }) (hdepth'.trans hdepth) hbound hstands
        exact Outcome.trans (m := { s' with index := s.index }) (Nat.le_refl _) hdepth' hleads' hmissing

end Constructs

end Rules

end RowConsole.Script.Grammar.Indexed
