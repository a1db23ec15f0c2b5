import RowConsole.Proofs.Script.Grammar.Brackets

/-!
# Places for Line Breaks

Line feeds between the tokens of a source separate statements, unless the innermost bracket that is open is one inside
of which lines are joined: a parenthesis of an expression, of a condition or of arguments, or any bracket of an index or
a collection. There a line feed may stand behind what opens, a comma, a colon or an operator between two operands, and
before what closes, a comma or a point. What is in front of a place is given by the tokens there, the last one first.

Main definitions: `Enclosed`, the places where lines are joined, and `breakable`, those where a line feed may stand.
-/

namespace RowConsole.Script.Grammar

/-! ## Section 1: What Is Open -/

/-- The kinds of the tokens in front of a place, the last one first. -/
abbrev Past := List TokenKind

/-- Whether lines are joined inside of a bracket that opens behind some tokens: not inside of braces, of the header of a
loop over elements and of the parameters of a named function. -/
def joins : Past → Bracket → Bool
  | _, .bracket => true
  | _, .brace => false
  | .keyword .fors :: _, .paren => false
  | .ident _ :: .keyword .defines :: _, .paren => false
  | .ident _ :: .keyword .varies :: _, .paren => false
  | _, .paren => true

/-- For every bracket that is open at a place, the innermost first, whether lines are joined inside of it. -/
def opened : Past → List Bool
  | [] => []
  | kind :: past =>
    match kind.role with
    | .plain => opened past
    | .opens b => joins past b :: opened past
    | .closes _ => (opened past).tail

/-- Lines are joined inside of the innermost bracket that is open. -/
def Enclosed (past : Past) : Prop :=
  (opened past).head? = some true

instance (past : Past) : Decidable (Enclosed past) :=
  inferInstanceAs (Decidable (_ = _))

section Opened

variable {past : Past} {kind : TokenKind} {b : Bracket} {kinds : List TokenKind}

theorem opened_plain (h : kind.role = .plain) : opened (kind :: past) = opened past := by
  rw [opened, h]

theorem opened_opens (h : kind.role = .opens b) : opened (kind :: past) = joins past b :: opened past := by
  rw [opened, h]

theorem opened_closes (h : kind.role = .closes b) : opened (kind :: past) = (opened past).tail := by
  rw [opened, h]

theorem enclosed_plain (h : kind.role = .plain) : Enclosed (kind :: past) ↔ Enclosed past := by
  rw [Enclosed, opened_plain h, Enclosed]

theorem opened_append (h : ∀ kind ∈ kinds, kind.role = .plain) : opened (kinds ++ past) = opened past := by
  induction kinds with
  | nil => rfl
  | cons kind kinds ih =>
    obtain ⟨hkind, hkinds⟩ := List.forall_mem_cons.mp h
    rw [List.cons_append, opened_plain hkind, ih hkinds]

/-- Where the same brackets are open, lines are joined or not. -/
theorem Enclosed.congr {past' : Past} (h : opened past' = opened past) : Enclosed past' ↔ Enclosed past := by
  rw [Enclosed, h, Enclosed]

/-- Inside of braces lines are not joined. -/
theorem not_enclosed_of_opened {outer : List Bool} (h : opened past = false :: outer) : ¬Enclosed past := by
  simp [Enclosed, h]

end Opened

/-! ## Section 2: Where a Line Feed May Stand -/

/-- Whether the last token ends an operand. -/
def endsOperand : Past → Bool
  | .int _ :: _ | .float _ :: _ | .str _ :: _ | .ident _ :: _ => true
  | .keyword .trues :: _ | .keyword .falses :: _ | .keyword .nulls :: _ => true
  | .symbol .parenClose :: _ | .symbol .bracketClose :: _ | .symbol .braceClose :: _ => true
  | _ => false

/-- Whether a symbol is an operator between two operands, if it stands behind one. -/
def joinsOperands : Symbol → Bool
  | .plus | .minus | .star | .slash | .percent => true
  | .equal | .notEqual | .less | .lessEqual | .greater | .greaterEqual => true
  | .and | .or => true
  | _ => false

/-- Whether a line feed may follow the last token: an opening bracket, a comma, a colon, another line feed, or an
operator, and that only between two operands. -/
def breaksBehind : Past → Bool
  | .newline :: _ => true
  | .symbol .parenOpen :: _ | .symbol .bracketOpen :: _ | .symbol .comma :: _ | .symbol .colon :: _ => true
  | .symbol .minus :: past => endsOperand past
  | .symbol s :: _ => joinsOperands s
  | _ => false

/-- Whether a line feed may stand before a token: a closing bracket, a comma, a point or another line feed. -/
def breaksBefore : TokenKind → Bool
  | .newline => true
  | .symbol .parenClose | .symbol .bracketClose | .symbol .comma | .symbol .dot => true
  | _ => false

theorem breaksBefore_cases {kind : TokenKind} (h : breaksBefore kind = true) :
    kind = .newline ∨ kind = .symbol .parenClose ∨ kind = .symbol .bracketClose ∨ kind = .symbol .comma ∨
      kind = .symbol .dot := by
  unfold breaksBefore at h
  split at h <;> first | contradiction | simp

/-- Whether a line feed may stand behind some tokens and before another one. Between the colon and the bracket of an
empty map it may not. -/
def breakable (past : Past) (next : TokenKind) : Bool :=
  (breaksBehind past || breaksBefore next) && !(past.head? == some (.symbol .colon) && next == .symbol .bracketClose)

section Breakable

variable {past : Past} {kind next : TokenKind}

theorem role_of_newline {kind : TokenKind} (h : kind = .newline) : kind.role = .plain := by
  rw [h]
  rfl

/-- Behind an operand no line feed may stand for the sake of the operand. -/
theorem breaksBehind_of_endsOperand (h : endsOperand past = true) : breaksBehind past = false := by
  unfold endsOperand at h
  split at h <;> first | rfl | contradiction

private theorem head?_ne_colon_of_endsOperand (h : endsOperand past = true) : past.head? ≠ some (.symbol .colon) := by
  unfold endsOperand at h
  split at h <;> first | contradiction | simp

/-- Behind an operand it depends on the next token whether a line feed may stand there. -/
theorem breakable_of_endsOperand (h : endsOperand past = true) : breakable past next = breaksBefore next := by
  simp [breakable, breaksBehind_of_endsOperand h, head?_ne_colon_of_endsOperand h]

theorem breakable_of_breaksBehind (h : breaksBehind past = true) (hcolon : past.head? ≠ some (.symbol .colon)) :
    breakable past next = true := by
  simp [breakable, h, hcolon]

/-- An operator behind an operand may have a line feed behind it. -/
theorem breaksBehind_of_join {level : Level} {p : Pos} {join : Expr → Expr → Expr}
    (h : level.join? kind p = some join) (hend : endsOperand past = true) : breaksBehind (kind :: past) = true := by
  unfold Level.join? at h
  split at h
  · rfl
  · rfl
  · next symbol _ _ =>
    obtain ⟨op, hop, _⟩ := Option.map_eq_some_iff.mp h
    unfold Level.operator? at hop
    split at hop <;> first | contradiction | exact hend | rfl
  · contradiction

end Breakable

/-! ## Section 3: Passages -/

/-- Tokens that are passed one after the other: some are in front of the start and others behind it, and the last two
lists are the same for the end. Where lines are joined, each line feed on the way stands where it may. -/
inductive Passage : Past → List TokenKind → Past → List TokenKind → Prop where
  | refl {past : Past} {kinds : List TokenKind} : Passage past kinds past kinds
  | step {past past' : Past} {kind next : TokenKind} {kinds kinds' : List TokenKind}
    (hline : kind = .newline → Enclosed past → breakable past next = true)
    (h : Passage (kind :: past) (next :: kinds) past' kinds') : Passage past (kind :: next :: kinds) past' kinds'

namespace Passage

variable {past past' past'' : Past} {kind next : TokenKind} {kinds kinds' kinds'' : List TokenKind}

theorem trans (h : Passage past kinds past' kinds') (h' : Passage past' kinds' past'' kinds'') :
    Passage past kinds past'' kinds'' := by
  induction h with
  | refl => exact h'
  | step hline _ ih => exact .step hline (ih h')

/-- Every line feed on the way stands where it may. -/
theorem breakable_of_mem (h : Passage past kinds past' kinds') {front behind : List TokenKind}
    (hkinds : kinds = front ++ .newline :: next :: behind) (hpassed : kinds'.length < (.newline :: next :: behind).length)
    (henclosed : Enclosed (front.reverse ++ past)) : breakable (front.reverse ++ past) next = true := by
  induction h generalizing front with
  | refl =>
    rw [hkinds, List.length_append] at hpassed
    omega
  | step hline h ih =>
    cases front with
    | nil =>
      cases hkinds
      exact hline rfl henclosed
    | cons kind front =>
      obtain ⟨rfl, hrest⟩ := List.cons.inj hkinds
      simp only [List.reverse_cons, List.append_assoc, List.singleton_append] at henclosed ⊢
      exact ih hrest hpassed henclosed

/-- Tokens that are no brackets, where lines are not joined. -/
theorem of_plain {passed : List TokenKind} (hplain : ∀ kind ∈ passed, kind.role = .plain) (hloose : ¬Enclosed past) :
    Passage past (passed ++ next :: kinds) (passed.reverse ++ past) (next :: kinds) := by
  induction passed generalizing past with
  | nil => exact .refl
  | cons kind passed ih =>
    obtain ⟨hkind, hpassed⟩ := List.forall_mem_cons.mp hplain
    have hloose' : ¬Enclosed (kind :: past) := by rwa [enclosed_plain hkind]
    have hrest := ih hpassed hloose'
    rw [List.reverse_cons, List.append_assoc, List.singleton_append]
    have hline : ∀ next, kind = .newline → Enclosed past → breakable past next = true := fun _ _ henclosed =>
      absurd henclosed hloose
    cases passed with
    | nil => exact .step (hline _) hrest
    | cons next passed => exact .step (hline _) hrest

/-- Line feeds up to another token. -/
theorem of_newlines {feeds : List TokenKind} (hfeeds : ∀ kind ∈ feeds, kind = .newline)
    (hline : Enclosed past → breakable past next = true) :
    Passage past (feeds ++ next :: kinds) (feeds.reverse ++ past) (next :: kinds) := by
  induction feeds generalizing past with
  | nil => exact .refl
  | cons kind feeds ih =>
    obtain ⟨hkind, hmore⟩ := List.forall_mem_cons.mp hfeeds
    subst hkind
    -- behind a line feed and before one, another one may stand
    have hfeed : breakable (.newline :: past) next = true := breakable_of_breaksBehind rfl (by simp)
    have hrest := ih hmore fun _ => hfeed
    rw [List.reverse_cons, List.append_assoc, List.singleton_append]
    cases feeds with
    | nil => exact .step (fun _ => hline) hrest
    | cons kind feeds =>
      obtain ⟨hkind, _⟩ := List.forall_mem_cons.mp hmore
      subst hkind
      exact .step (fun _ _ => by simp [breakable, breaksBefore]) hrest

end Passage

end RowConsole.Script.Grammar
