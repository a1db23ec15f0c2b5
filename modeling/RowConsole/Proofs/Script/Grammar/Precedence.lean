import RowConsole.Proofs.Script.Grammar.Reading
import RowConsole.Proofs.Script.Printing

/-!
# Reading by Precedence

The tokens of an expression are a piece of a rank: they can be read by every procedure for expressions that
hold together at most so tightly. Main statements: a piece that one procedure reads is read by all looser
ones, parentheses make a piece of the highest rank, and `Piece.expr`, by which a piece is read as an
expression.
-/

namespace RowConsole.Script.Grammar

/-! ## Section 1: The Ends of an Expression -/

/-- Whether a token can start an expression. -/
def startsExpr : TokenKind → Bool
  | .int _ | .float _ | .str _ | .ident _ => true
  | .keyword .trues | .keyword .falses | .keyword .nulls => true
  | .symbol .parenOpen | .symbol .bracketOpen | .symbol .braceOpen => true
  | .symbol .minus | .symbol .not => true
  | _ => false

/-- Whether a token continues a chain. -/
def linksChain : TokenKind → Bool
  | .symbol .dot | .symbol .bracketOpen | .symbol .parenOpen | .symbol .braceOpen => true
  | _ => false

/-- Whether a token can stand behind the first word of an expression. -/
def followsWord (kind : TokenKind) : Bool :=
  match kind with
  | .symbol .dot | .symbol .bracketOpen | .symbol .parenOpen | .symbol .and | .symbol .or => true
  | .symbol .equal | .symbol .notEqual => true
  | .symbol .less | .symbol .lessEqual | .symbol .greater | .symbol .greaterEqual => true
  | .symbol .plus | .symbol .minus | .symbol .star | .symbol .slash | .symbol .percent => true
  | _ => false

/-- Whether a token is a word that the procedures look behind. -/
def isWord : TokenKind → Bool
  | .ident _ | .str _ => true
  | _ => false

/-- Tokens begin like an expression: behind a word stands what can join it to more. -/
def Opens (spelled : List TokenKind) : Prop :=
  ∃ first tail, spelled = first :: tail ∧ startsExpr first = true ∧
    ∀ second tail', tail = second :: tail' → isWord first = true → followsWord second = true

/-- Tokens begin with no operator. -/
def StartsPlain (spelled : List TokenKind) : Prop :=
  ∃ first tail, spelled = first :: tail ∧ unaryOp? first = none

/-- An expression ends before a token: the token continues no chain and is no operator of a rank from `rank`
on. -/
structure EndsBefore (rank : Nat) (kind : TokenKind) (rest : List TokenKind) : Prop where
  links : linksChain kind = false
  line : kind = .newline → ∃ next tail, rest = next :: tail ∧ next ≠ .newline ∧ next ≠ .symbol .dot
  join : ∀ level : Level, rank ≤ level.rank → ∀ p, level.join? kind p = none

/-- What ends before the operators of a rank ends before fewer of them. -/
theorem EndsBefore.mono {rank rank' : Nat} {kind : TokenKind} {rest : List TokenKind}
    (h : EndsBefore rank kind rest) (hle : rank ≤ rank') : EndsBefore rank' kind rest :=
  ⟨h.links, h.line, fun level hlevel => h.join level (Nat.le_trans hle hlevel)⟩

/-- Tokens that are no operators end every expression. -/
theorem endsBefore_of_not_join {kind : TokenKind} {rest : List TokenKind} (hlinks : linksChain kind = false)
    (hline : kind ≠ .newline) (hjoin : ∀ (level : Level) p, level.join? kind p = none) :
    EndsBefore 0 kind rest :=
  ⟨hlinks, fun h => absurd h hline, fun level _ => hjoin level⟩

/-- A closing parenthesis ends every expression. -/
theorem endsBefore_parenClose (rest : List TokenKind) : EndsBefore 0 (.symbol .parenClose) rest :=
  endsBefore_of_not_join rfl (by simp) fun level _ => by cases level <;> rfl

/-- A closing bracket ends every expression. -/
theorem endsBefore_bracketClose (rest : List TokenKind) : EndsBefore 0 (.symbol .bracketClose) rest :=
  endsBefore_of_not_join rfl (by simp) fun level _ => by cases level <;> rfl

/-- A comma ends every expression. -/
theorem endsBefore_comma (rest : List TokenKind) : EndsBefore 0 (.symbol .comma) rest :=
  endsBefore_of_not_join rfl (by simp) fun level _ => by cases level <;> rfl

/-- The signs of assignments end every expression. -/
theorem endsBefore_assign (op : AssignOp) (rest : List TokenKind) :
    EndsBefore 0 (.symbol op.symbol) rest := by
  cases op <;> exact endsBefore_of_not_join rfl (by simp [AssignOp.symbol]) fun level _ => by cases level <;> rfl

/-- A line feed ends an expression unless a point or one more line feed stands behind it. -/
theorem endsBefore_newline {next : TokenKind} {rest : List TokenKind} (hline : next ≠ .newline)
    (hdot : next ≠ .symbol .dot) : EndsBefore 0 .newline (next :: rest) :=
  ⟨rfl, fun _ => ⟨next, rest, rfl, hline, hdot⟩, fun level _ _ => by cases level <;> rfl⟩

/-- An operand ends before the operators of its own level and of looser ones. -/
theorem endsBefore_binary (op : BinaryOp) (rest : List TokenKind) :
    EndsBefore (op.level.rank + 1) (.symbol op.symbol) rest := by
  refine ⟨by cases op <;> rfl, by simp, fun level hlevel p => ?_⟩
  -- Of all pairs of an operator and a level only those of one level join, and the rank excludes them.
  cases op <;> cases level <;> first | rfl | (simp [BinaryOp.level, Level.rank] at hlevel)

/-- An operand of `and` ends before the next one. -/
theorem endsBefore_and (rest : List TokenKind) : EndsBefore (Level.and.rank + 1) (.symbol .and) rest := by
  refine ⟨rfl, by simp, fun level hlevel p => ?_⟩
  cases level <;> first | rfl | (simp [Level.rank] at hlevel)

/-- An operand of `or` ends before the next one. -/
theorem endsBefore_or (rest : List TokenKind) : EndsBefore (Level.or.rank + 1) (.symbol .or) rest := by
  refine ⟨rfl, by simp, fun level hlevel p => ?_⟩
  cases level <;> first | rfl | (simp [Level.rank] at hlevel)

/-! ## Section 2: Nothing to Continue -/

variable {c : Cursor} {kind : TokenKind} {rest : List TokenKind} {depth : Nat}

/-- Line feeds continue a chain only before a point. -/
theorem continuesChain_eq_false (hc : c.kinds = kind :: rest)
    (hline : kind = .newline → ∃ next tail, rest = next :: tail ∧ next ≠ .newline ∧ next ≠ .symbol .dot) :
    continuesChain c = false := by
  have hkind := Cursor.kind_eq hc
  by_cases hnewline : kind = .newline
  -- One line feed is skipped, and the token behind it is neither another one nor a point.
  · obtain ⟨next, tail, rfl, hne, hdot⟩ := hline hnewline
    have hadvance := Cursor.kind_eq (Cursor.kinds_advance hc (by simp))
    have hskip : skipFrom (· = .newline) c.token c.rest = c.advance := by
      rw [skipFrom_of_skips (by simpa [Cursor.kind_eq hc] using hnewline), skipFrom_of_not]
      simpa [hadvance] using hne
    simp [continuesChain, hskip, hadvance, hdot]
  · simp [continuesChain, hkind, hnewline]

/-- Where nothing continues a chain, no line feeds are skipped in search of it. -/
theorem Reads.skipToChain {α β : Type} {fits : Prop} {kinds : List TokenKind} {next : β → Nat → Parser α}
    {made : β → Prop} {k : Nat → PUnit → Parser α} (hc : c.kinds = kind :: rest)
    (hline : kind = .newline → ∃ next tail, rest = next :: tail ∧ next ≠ .newline ∧ next ≠ .symbol .dot)
    (h : Reads fits (fun fuel => k fuel ()) next made kinds c) :
    Reads fits (fun fuel => Grammar.skipToChain >>= k fuel) next made kinds c := by
  refine Reads.of_eq (fun fuel => ?_) h
  rw [skipToChain_bind, if_neg (by simp [continuesChain_eq_false hc hline])]

/-- A chain ends where nothing continues it. -/
theorem chainFrom_end {fits : Prop} {made : Expr → Prop} {rank : Nat} {e : Expr} (hfits : fits)
    (he : made e) (hc : c.kinds = kind :: rest) (hends : EndsBefore rank kind rest) :
    Returns fits (fun fuel => chainFrom fuel depth e) made (kind :: rest) c := by
  refine Reads.succ ?_
  refine Reads.skipToChain hc hends.line (Reads.peek hc ?_)
  have hlinks := hends.links
  split
  · contradiction
  · contradiction
  · contradiction
  · exact Reads.here hfits he hc

/-- Operators of a level end where none of them follows. -/
theorem binaryFrom_end {fits : Prop} {made : Expr → Prop} {level : Level} {e : Expr} (hfits : fits)
    (he : made e) (hc : c.kinds = kind :: rest) (hends : EndsBefore level.rank kind rest) :
    Returns fits (fun fuel => binaryFrom fuel depth level e) made (kind :: rest) c := by
  refine Reads.succ ?_
  refine Reads.peek hc (Reads.position fun p => ?_)
  simp only [hends.join level (Nat.le_refl _) p]
  exact Reads.here hfits he hc

/-! ## Section 3: Pieces -/

section Pieces

variable (made : Expr → Prop) (spelled : List TokenKind) (nesting : Nat)

/-- Some tokens are read by a procedure that goes on as another one behind them. -/
def ReadsChain (member : Bool) : Prop :=
  ∀ ⦃depth : Nat⦄ ⦃c : Cursor⦄ ⦃kind : TokenKind⦄ ⦃rest : List TokenKind⦄, depth ≤ maxNesting →
    c.kinds = spelled ++ kind :: rest → kind ≠ .symbol .braceOpen →
    (member = true → kind ≠ .symbol .parenOpen) →
    Reads (depth + nesting ≤ maxNesting) (fun fuel => chain fuel depth) (fun e fuel => chainFrom fuel depth e)
      made (kind :: rest) c

/-- Some tokens are read as an operand of an operator on one value. -/
def ReadsUnary : Prop :=
  ∀ ⦃depth : Nat⦄ ⦃c : Cursor⦄ ⦃kind : TokenKind⦄ ⦃rest : List TokenKind⦄, depth ≤ maxNesting →
    c.kinds = spelled ++ kind :: rest → EndsBefore unaryRank kind rest →
    Returns (depth + nesting ≤ maxNesting) (fun fuel => unary fuel depth) made (kind :: rest) c

/-- Some tokens are read as the first operands of a level. -/
def ReadsBinary (level : Level) : Prop :=
  ∀ ⦃depth : Nat⦄ ⦃c : Cursor⦄ ⦃kind : TokenKind⦄ ⦃rest : List TokenKind⦄, depth ≤ maxNesting →
    c.kinds = spelled ++ kind :: rest → EndsBefore (level.rank + 1) kind rest →
    Reads (depth + nesting ≤ maxNesting) (fun fuel => binary fuel depth level)
      (fun e fuel => binaryFrom fuel depth level e) made (kind :: rest) c

/-- Some tokens are read as one operand of a level. -/
def ReadsOperand (level : Level) : Prop :=
  ∀ ⦃depth : Nat⦄ ⦃c : Cursor⦄ ⦃kind : TokenKind⦄ ⦃rest : List TokenKind⦄, depth ≤ maxNesting →
    c.kinds = spelled ++ kind :: rest → EndsBefore (level.rank + 1) kind rest →
    Returns (depth + nesting ≤ maxNesting) (fun fuel => operand fuel depth level) made (kind :: rest) c

end Pieces

variable {made : Expr → Prop} {spelled : List TokenKind} {nesting : Nat}

/-- One operand is enough to begin with. -/
private theorem readsBinary_of_operand {level : Level} (h : ReadsOperand made spelled nesting level) :
    ReadsBinary made spelled nesting level := by
  intro depth c kind rest hdepth hc hends
  refine Reads.succ ?_
  exact (h hdepth hc hends).bind id fun e c' hfits he hc' => Reads.here hfits he hc'

/-- Levels are numbered without gaps. -/
private theorem Level.rank_of_tighter? {level tighter : Level} (h : level.tighter? = some tighter) :
    tighter.rank = level.rank + 1 := by
  cases level <;> cases h <;> rfl

/-- An operand of a level is a whole sequence of the next tighter one, which ends here. -/
private theorem readsOperand_of_binary {level tighter : Level} (htighter : level.tighter? = some tighter)
    (h : ReadsBinary made spelled nesting tighter) : ReadsOperand made spelled nesting level := by
  intro depth c kind rest hdepth hc hends
  have hrank := Level.rank_of_tighter? htighter
  rw [← hrank] at hends
  refine Reads.succ ?_
  simp only [operand, htighter]
  refine (h hdepth hc (hends.mono (Nat.le_succ _))).trans id fun e c' hfits he hc' => ?_
  exact binaryFrom_end hfits he hc' hends

/-- An operand of the tightest level is one of an operator on one value. -/
private theorem readsOperand_of_unary {level : Level} (hlast : level.tighter? = none)
    (h : ReadsUnary made spelled nesting) : ReadsOperand made spelled nesting level := by
  intro depth c kind rest hdepth hc hends
  have hrank : level.rank + 1 = unaryRank := by
    cases level <;> first | contradiction | rfl
  rw [hrank] at hends
  refine Reads.succ ?_
  simp only [operand, hlast]
  exact h hdepth hc hends

/-- Different levels have different ranks. -/
private theorem Level.eq_of_rank_eq {level level' : Level} (h : level.rank = level'.rank) : level = level' := by
  cases level <;> cases level' <;> first | rfl | contradiction

/-- Below every rank that some level has, there is a next level. -/
private theorem Level.exists_tighter {level level' : Level} (h : level.rank < level'.rank) :
    ∃ tighter, level.tighter? = some tighter := by
  have hle := level'.rank_le
  cases level with
  | multiplicative => exact absurd (Nat.lt_of_lt_of_le h hle) (Nat.lt_irrefl _)
  | _ => exact ⟨_, rfl⟩

/-- What is read at a level is read at all looser ones. -/
theorem readsBinary_of_rank_le {level tight : Level} (h : ReadsBinary made spelled nesting tight)
    (hle : level.rank ≤ tight.rank) : ReadsBinary made spelled nesting level := by
  -- On the distance of the levels: from one level to the next looser one by way of its operands.
  obtain ⟨n, hn⟩ := Nat.exists_eq_add_of_le hle
  induction n generalizing level with
  | zero => exact Level.eq_of_rank_eq hn ▸ h
  | succ n ih =>
    obtain ⟨tighter, htighter⟩ := Level.exists_tighter (by omega : level.rank < tight.rank)
    have hrank := Level.rank_of_tighter? htighter
    exact readsBinary_of_operand (readsOperand_of_binary htighter (ih (by omega) (by omega)))

/-- What is read as an operand of an operator on one value is read at every level. -/
theorem readsBinary_of_unary (h : ReadsUnary made spelled nesting) (level : Level) :
    ReadsBinary made spelled nesting level :=
  have hoperand : ReadsOperand made spelled nesting .multiplicative := readsOperand_of_unary rfl h
  readsBinary_of_rank_le (readsBinary_of_operand hoperand) level.rank_le

/-- A chain that begins with no operator is an operand without one. -/
private theorem readsUnary_of_chain {member : Bool} (hplain : StartsPlain spelled)
    (h : ReadsChain made spelled nesting member) : ReadsUnary made spelled nesting := by
  intro depth c kind rest hdepth hc hends
  obtain ⟨first, tail, hspelled, hfirst⟩ := hplain
  -- What ends an expression continues no chain, so it is none of the brackets that a chain may not meet.
  have hlinks : ∀ s, linksChain (.symbol s) = true → kind ≠ .symbol s := by
    rintro s hs rfl
    rw [hends.links] at hs
    contradiction
  have hhead : c.kinds = first :: (tail ++ kind :: rest) := by rw [hc, hspelled, List.cons_append]
  refine Reads.succ (Reads.peek hhead ?_)
  simp only [hfirst]
  have hchain := h hdepth hc (hlinks .braceOpen rfl) fun _ => hlinks .parenOpen rfl
  exact hchain.trans id fun e c' hfits he hc' => chainFrom_end hfits he hc' hends

/-- The tokens of an expression of some rank, and how deeply constructs are nested in them. They are read by
all procedures for expressions that hold together at most so tightly. -/
structure Piece (made : Expr → Prop) (spelled : List TokenKind) (rank nesting : Nat) (member : Bool) :
    Prop where
  opens : Opens spelled
  plain : chainRank ≤ rank → StartsPlain spelled
  chain : chainRank ≤ rank → ReadsChain made spelled nesting member
  unary : unaryRank ≤ rank → ReadsUnary made spelled nesting
  binary : ∀ level : Level, level.rank ≤ rank → ReadsBinary made spelled nesting level

namespace Piece

/-- What is read at a level is a piece of its rank. -/
theorem of_binary {level : Level} (hopens : Opens spelled) (h : ReadsBinary made spelled nesting level) :
    Piece made spelled level.rank nesting false := by
  have hrank := level.rank_le
  refine ⟨hopens, fun hle => ?_, fun hle => ?_, fun hle => ?_, fun level' hle => readsBinary_of_rank_le h hle⟩
  · exact absurd (Nat.le_trans hle hrank) (by decide)
  · exact absurd (Nat.le_trans hle hrank) (by decide)
  · exact absurd (Nat.le_trans hle hrank) (by decide)

/-- What is read as an operand of an operator on one value is a piece of the rank of these operators. -/
theorem of_unary (hopens : Opens spelled) (h : ReadsUnary made spelled nesting) :
    Piece made spelled unaryRank nesting false :=
  ⟨hopens, fun hle => absurd hle (by decide), fun hle => absurd hle (by decide), fun _ => h,
    fun level _ => readsBinary_of_unary h level⟩

/-- What is read as a chain is a piece of every rank. -/
theorem of_chain {member : Bool} {rank : Nat} (hopens : Opens spelled) (hplain : StartsPlain spelled)
    (h : ReadsChain made spelled nesting member) : Piece made spelled rank nesting member :=
  have hunary := readsUnary_of_chain hplain h
  ⟨hopens, fun _ => hplain, fun _ => h, fun _ => hunary, fun level _ => readsBinary_of_unary hunary level⟩

/-- What is read as a primary expression is a piece of every rank. -/
theorem of_primary {rank : Nat} (hopens : Opens spelled) (hplain : StartsPlain spelled)
    (h : ∀ ⦃depth : Nat⦄ ⦃c : Cursor⦄ ⦃kind : TokenKind⦄ ⦃rest : List TokenKind⦄, depth ≤ maxNesting →
      c.kinds = spelled ++ kind :: rest →
      Returns (depth + nesting ≤ maxNesting) (fun fuel => primary fuel depth) made (kind :: rest) c) :
    Piece made spelled rank nesting false := by
  refine of_chain hopens hplain fun depth c kind rest hdepth hc _ _ => Reads.succ ?_
  exact (h hdepth hc).bind id fun e c' hfits he hc' => Reads.here hfits he hc'

/-- A piece of a rank is one of all lower ranks. -/
theorem mono {rank rank' : Nat} {member : Bool} (h : Piece made spelled rank nesting member)
    (hle : rank' ≤ rank) : Piece made spelled rank' nesting member :=
  ⟨h.opens, fun h' => h.plain (Nat.le_trans h' hle), fun h' => h.chain (Nat.le_trans h' hle),
    fun h' => h.unary (Nat.le_trans h' hle), fun level h' => h.binary level (Nat.le_trans h' hle)⟩

/-- What else is known of a piece does not matter where only an expression is asked for. -/
theorem loose {rank : Nat} {member : Bool} (h : Piece made spelled rank nesting member) :
    Piece made spelled 0 nesting false :=
  ⟨h.opens, fun hle => absurd hle (by decide), fun hle => absurd hle (by decide), fun hle => absurd hle (by decide),
    fun level hle => h.binary level (Nat.le_trans hle (Nat.zero_le _))⟩

/-- A piece is read as an operand of all looser levels. -/
theorem operand {rank : Nat} {member : Bool} (h : Piece made spelled rank nesting member) {level : Level}
    (hlt : level.rank < rank) : ReadsOperand made spelled nesting level := by
  cases htighter : level.tighter? with
  | some tighter =>
    have hrank := Level.rank_of_tighter? htighter
    exact readsOperand_of_binary htighter (h.binary tighter (by omega))
  | none =>
    have hrank : level.rank + 1 = unaryRank := by
      cases level <;> first | contradiction | rfl
    exact readsOperand_of_unary htighter (h.unary (by omega))

/-- Every piece is read as an expression. -/
theorem expr {rank : Nat} {member : Bool} (h : Piece made spelled rank nesting member) {depth : Nat}
    {c : Cursor} {kind : TokenKind} {rest : List TokenKind} (hc : c.kinds = spelled ++ kind :: rest)
    (hends : EndsBefore 0 kind rest) :
    Returns (depth + (nesting + 1) ≤ maxNesting) (fun fuel => Grammar.expr fuel depth) made (kind :: rest) c := by
  have hor : EndsBefore Level.or.rank kind rest := hends
  refine Reads.succ (Reads.enter (by omega) fun hdepth => ?_)
  -- An expression is a sequence of the loosest level, and `enter` has taken one level of nesting for it.
  refine (h.binary .or (Nat.zero_le _) hdepth hc (hor.mono (Nat.le_succ _))).trans (by omega) ?_
  intro e c' hfits he hc'
  exact binaryFrom_end (by omega) he hc' hor

/-- A piece has a first token, and this can start an expression. -/
theorem head {rank : Nat} {member : Bool} (h : Piece made spelled rank nesting member) :
    ∃ first tail, spelled = first :: tail ∧ startsExpr first = true := by
  obtain ⟨first, tail, hspelled, hfirst, _⟩ := h.opens
  exact ⟨first, tail, hspelled, hfirst⟩

/-- Parentheses make a piece of every rank. -/
theorem parens {rank rank' : Nat} {member : Bool} (h : Piece made spelled rank nesting member) :
    Piece made (.symbol .parenOpen :: (spelled ++ [.symbol .parenClose])) rank' (nesting + 1) false := by
  refine of_primary ⟨_, _, rfl, rfl, fun _ _ _ hword => nomatch hword⟩ ⟨_, _, rfl, rfl⟩ ?_
  intro depth c kind rest hdepth hc
  obtain ⟨first, tail, hspelled, hfirst⟩ := h.head
  have hfirst : first ≠ .newline := by
    rintro rfl
    contradiction
  rw [List.cons_append, List.append_assoc] at hc
  refine Reads.succ (Reads.peek hc ?_)
  refine Reads.advance hc (by simp) fun _ c₁ _ hc₁ => ?_
  refine Reads.skipNewlines (hspelled ▸ hc₁) hfirst ?_
  refine (h.expr hc₁ (endsBefore_parenClose _)).bind id fun e c₂ hfits he hc₂ => ?_
  refine Reads.skipNewlines hc₂ (by simp) (Reads.expect hc₂ (by simp) fun _ c₃ hc₃ => ?_)
  exact Reads.here hfits he hc₃

end Piece

end RowConsole.Script.Grammar
