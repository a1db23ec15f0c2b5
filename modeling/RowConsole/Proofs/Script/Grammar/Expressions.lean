import Mathlib.Data.List.Forall2
import RowConsole.Proofs.Script.Grammar.Precedence

/-!
# Reading Expressions

What is printed for an expression is read back as that expression up to positions, if the same holds of its
parts. Main statements: one for each form of expressions that has expressions as parts.
-/

namespace RowConsole.Script.Grammar

variable {made : Expr → Prop} {spelled : List TokenKind} {nesting depth : Nat} {c : Cursor}
  {kind : TokenKind} {rest : List TokenKind}

/-! ## Section 1: Heads -/

theorem startsExpr_ne {first : TokenKind} (h : startsExpr first = true) {other : TokenKind}
    (hother : startsExpr other = false) : first ≠ other := by
  rintro rfl
  rw [h] at hother
  contradiction

theorem Opens.append {more : List TokenKind} (h : Opens spelled) (hkind : followsWord kind = true) :
    Opens (spelled ++ kind :: more) := by
  obtain ⟨first, tail, rfl, hfirst, hsecond⟩ := h
  refine ⟨first, tail ++ kind :: more, rfl, hfirst, fun second tail' htail hword => ?_⟩
  cases tail with
  | nil =>
    obtain ⟨rfl, _⟩ := List.cons.inj htail
    exact hkind
  | cons next tail =>
    obtain ⟨rfl, _⟩ := List.cons.inj htail
    exact hsecond next tail rfl hword

theorem Opens.of_not_word {first : TokenKind} {tail : List TokenKind} (hfirst : startsExpr first = true)
    (hword : isWord first = false) : Opens (first :: tail) := by
  refine ⟨first, tail, rfl, hfirst, fun _ _ _ h => ?_⟩
  rw [hword] at h
  contradiction

theorem Opens.single (hkind : startsExpr kind = true) : Opens [kind] :=
  ⟨kind, [], rfl, hkind, fun _ _ h => nomatch h⟩

/-- What stands behind the first token of an expression that is followed by `kind`. -/
theorem Opens.second (h : Opens spelled) (kind : TokenKind) (rest : List TokenKind) :
    ∃ first next tail, spelled ++ kind :: rest = first :: next :: tail ∧ startsExpr first = true ∧
      (isWord first = true → followsWord next = true ∨ next = kind) := by
  obtain ⟨first, tail, rfl, hfirst, hsecond⟩ := h
  cases tail with
  | nil => exact ⟨first, kind, rest, rfl, hfirst, fun _ => Or.inr rfl⟩
  | cons next tail =>
    exact ⟨first, next, tail ++ kind :: rest, rfl, hfirst, fun hword => Or.inl (hsecond next tail rfl hword)⟩

/-! ## Section 2: Leaves and Operators -/

namespace Piece

/-- A single token that is an expression by itself. -/
theorem leaf {rank : Nat} {e : Pos → Expr} (hstart : startsExpr kind = true)
    (hunary : unaryOp? kind = none) (hmade : ∀ p, made (e p))
    (hleaf : ∀ fuel depth p rest, primary (fuel + 1) depth ⟨⟨kind, p⟩, rest⟩ =
      (advance >>= fun _ => (pure (e p) : Parser Expr)) ⟨⟨kind, p⟩, rest⟩) :
    Piece made [kind] rank 0 false := by
  refine of_primary (Opens.single hstart) ⟨_, _, rfl, hunary⟩ fun depth c following rest hdepth hc => ?_
  obtain ⟨⟨head, p⟩, tail⟩ := c
  obtain rfl : head = kind := Cursor.kind_eq hc
  refine Reads.succ (Reads.of_eq (fun fuel => hleaf fuel depth p tail) ?_)
  exact Reads.advance hc (by simp) fun _ c' _ hc' => Reads.here hdepth (hmade _) hc'

theorem unary_operator {member : Bool} (op : UnaryOp) {operand : Expr → Prop}
    (h : Piece operand spelled unaryRank nesting member)
    (hmade : ∀ e p, operand e → made (.unary op e p)) :
    Piece made (.symbol op.symbol :: spelled) unaryRank (nesting + 1) false := by
  have hop : unaryOp? (.symbol op.symbol) = some op := by cases op <;> rfl
  have hopens : Opens (.symbol op.symbol :: spelled) := by
    cases op <;> exact Opens.of_not_word rfl rfl
  refine of_unary hopens fun depth c kind rest hdepth hc hends => ?_
  refine Reads.succ (Reads.peek hc ?_)
  simp only [hop]
  refine Reads.advance hc (by simp) fun t c₁ _ hc₁ => Reads.enter (by omega) fun hdepth₁ => ?_
  refine (h.unary (Nat.le_refl _) hdepth₁ hc₁ hends).bind (by omega) fun e c₂ hfits he hc₂ => ?_
  exact Reads.here (by omega) (hmade e t.pos he) hc₂

/-- An operator on two values, its left operand as tight as its level and its right one tighter. -/
theorem joined {level : Level} {symbol : Symbol} {leftMade rightMade : Expr → Prop}
    {left right : List TokenKind} {leftNesting rightNesting : Nat} {leftMember rightMember : Bool}
    {join : Pos → Expr → Expr → Expr} (hleft : Piece leftMade left level.rank leftNesting leftMember)
    (hright : Piece rightMade right (level.rank + 1) rightNesting rightMember)
    (hjoin : ∀ p, level.join? (.symbol symbol) p = some (join p))
    (hfollows : followsWord (.symbol symbol) = true)
    (hends : ∀ rest, EndsBefore (level.rank + 1) (.symbol symbol) rest)
    (hmade : ∀ p l r, leftMade l → rightMade r → made (join p l r)) :
    Piece made (left ++ .symbol symbol :: right) level.rank (max leftNesting rightNesting) false := by
  refine of_binary (hleft.opens.append hfollows) fun depth c kind rest hdepth hc hrest => ?_
  rw [List.append_assoc, List.cons_append] at hc
  obtain ⟨first, tail, hspelled, hfirst⟩ := hright.head
  -- The left operand is read by the loop of the same level, which then finds the sign and goes on.
  refine (hleft.binary level (Nat.le_refl _) hdepth hc (hends _)).trans (by omega) fun l c₁ hfits₁ hl hc₁ => ?_
  refine Reads.succ (Reads.peek hc₁ (Reads.position fun p => ?_))
  simp only [hjoin]
  refine Reads.advance hc₁ (by simp [hspelled]) fun _ c₂ _ hc₂ => ?_
  refine Reads.skipNewlines (hspelled ▸ hc₂) (startsExpr_ne hfirst rfl) ?_
  refine (hright.operand (Nat.lt_succ_self _) hdepth hc₂ hrest).bind (by omega) fun r c₃ hfits₃ hr hc₃ => ?_
  exact Reads.here (by omega) (hmade p l r hl hr) hc₃

/-- A piece where a tighter one may be asked for. -/
theorem enclose {needed member : Bool} {rank rank' : Nat} (h : Piece made spelled rank nesting member)
    (hneeded : needed = false → rank' ≤ rank) :
    Piece made (enclose needed spelled) rank' (deepen needed nesting) (!needed && member) := by
  cases needed with
  | false => exact h.mono (hneeded rfl)
  | true => exact h.parens

/-! ## Section 3: Chains -/

/-- A chain with one more link. -/
theorem link {member member' : Bool} {object : Expr → Prop} {first : TokenKind} {tail : List TokenKind}
    {linkNesting : Nat} (h : Piece object spelled chainRank nesting member)
    (hfollows : followsWord first = true) (hfirst : member = true → first ≠ .symbol .parenOpen)
    (hlink : ∀ ⦃depth : Nat⦄ ⦃c : Cursor⦄ ⦃kind : TokenKind⦄ ⦃rest : List TokenKind⦄ ⦃e : Expr⦄,
      depth ≤ maxNesting → object e → c.kinds = first :: (tail ++ kind :: rest) →
      kind ≠ .symbol .braceOpen → (member' = true → kind ≠ .symbol .parenOpen) →
      Reads (depth + linkNesting ≤ maxNesting) (fun fuel => chainFrom fuel depth e)
        (fun e fuel => chainFrom fuel depth e) made (kind :: rest) c) :
    Piece made (spelled ++ first :: tail) chainRank (max nesting linkNesting) member' := by
  have hchain := h.chain (Nat.le_refl _)
  obtain ⟨head, headTail, hspelled, hhead⟩ := h.plain (Nat.le_refl _)
  -- A chain starts as its object does.
  have hplain : StartsPlain (spelled ++ first :: tail) :=
    ⟨head, headTail ++ first :: tail, by rw [hspelled, List.cons_append], hhead⟩
  refine of_chain (h.opens.append hfollows) hplain fun depth c kind rest hdepth hc hbrace hparen => ?_
  rw [List.append_assoc, List.cons_append] at hc
  have hfirstBrace : first ≠ .symbol .braceOpen := by
    rintro rfl
    contradiction
  refine (hchain hdepth hc hfirstBrace hfirst).trans (by omega) fun e c₁ hfits he hc₁ => ?_
  exact (hlink hdepth he hc₁ hbrace hparen).of_iff (by omega)

theorem member {flag : Bool} {object : Expr → Prop} {name : String}
    (h : Piece object spelled chainRank nesting flag)
    (hmade : ∀ e p, object e → made (.member e name p)) :
    Piece made (spelled ++ [.symbol .dot, .ident name]) chainRank nesting true := by
  rw [← Nat.max_zero nesting]
  refine h.link rfl (by simp) fun depth c kind rest e hdepth he hc hbrace hparen => ?_
  refine Reads.succ (Reads.skipToChain hc (by simp) (Reads.peek hc ?_))
  refine Reads.advance hc (by simp) fun t c₁ _ hc₁ => Reads.expectIdent hc₁ (by simp) fun c₂ hc₂ => ?_
  refine Reads.peek hc₂ ?_
  simp only [if_neg (hparen rfl), if_neg hbrace]
  exact Reads.here hdepth (hmade e t.pos he) hc₂

theorem index {flag placeFlag : Bool} {object place : Expr → Prop} {placeSpelled : List TokenKind}
    {placeRank placeNesting : Nat} (h : Piece object spelled chainRank nesting flag)
    (hplace : Piece place placeSpelled placeRank placeNesting placeFlag)
    (hmade : ∀ e i p, object e → place i → made (.index e i p)) :
    Piece made (spelled ++ .symbol .bracketOpen :: (placeSpelled ++ [.symbol .bracketClose])) chainRank
      (max nesting (placeNesting + 1)) false := by
  refine h.link rfl (by simp) fun depth c kind rest e hdepth he hc _ _ => ?_
  obtain ⟨first, tail, hspelled, hfirst⟩ := hplace.head
  rw [List.append_assoc] at hc
  refine Reads.succ (Reads.skipToChain hc (by simp) (Reads.peek hc ?_))
  refine Reads.advance hc (by simp) fun t c₁ _ hc₁ => ?_
  refine Reads.skipNewlines (hspelled ▸ hc₁) (startsExpr_ne hfirst rfl) ?_
  refine (hplace.expr hc₁ (endsBefore_bracketClose _)).bind id fun i c₂ hfits hi hc₂ => ?_
  refine Reads.skipNewlines hc₂ (by simp) (Reads.expect hc₂ (by simp) fun _ c₃ hc₃ => ?_)
  exact Reads.here hfits (hmade e i t.pos he hi) hc₃

end Piece

/-! ## Section 4: Arguments -/

/-- What is printed for an expression is read back. -/
def Readable (e : Expr) : Prop :=
  Piece (Expr.Like e) (e.spell true) e.rank (e.nesting true) e.isMember

/-- What follows the first one of some pieces with commas between them. -/
theorem commas_append (piece : List TokenKind) (pieces : List (List TokenKind)) (close : TokenKind)
    (rest : List TokenKind) :
    ∃ kind more, commas (piece :: pieces) ++ close :: rest = piece ++ kind :: more ∧
      (kind = .symbol .comma ∨ kind = close) := by
  cases pieces with
  | nil => exact ⟨close, rest, rfl, Or.inr rfl⟩
  | cons next pieces =>
    exact ⟨.symbol .comma, commas (next :: pieces) ++ close :: rest, by simp [commas], Or.inl rfl⟩

/-- Pieces with commas between them begin like the first one. -/
theorem commas_head {piece : List TokenKind} (h : Opens piece) (pieces : List (List TokenKind)) (close : TokenKind)
    (rest : List TokenKind) :
    ∃ first tail, commas (piece :: pieces) ++ close :: rest = first :: tail ∧ startsExpr first = true := by
  obtain ⟨kind, more, heq, _⟩ := commas_append piece pieces close rest
  obtain ⟨first, tail, hspelled, hfirst, _⟩ := h
  exact ⟨first, tail ++ kind :: more, by rw [heq, hspelled, List.cons_append], hfirst⟩

/-- Arguments up to the closing parenthesis. -/
theorem argsFrom_reads {e : Expr} {es : List Expr} (h : ∀ e' ∈ e :: es, Readable e')
    (hc : c.kinds = commas (spellExprs true (e :: es)) ++ .symbol .parenClose :: kind :: rest) :
    Returns (depth + nestingExprs true (e :: es) ≤ maxNesting) (fun fuel => argsFrom fuel depth)
      (LikeAll (e :: es)) (kind :: rest) c := by
  -- The list is not empty, and its last element is the one with the bracket behind it.
  induction es generalizing e c with
  | nil =>
    have he := h e List.mem_cons_self
    refine Reads.succ ?_
    refine (he.expr hc (endsBefore_parenClose _)).bind (by simp [nestingExprs]) fun e' c₁ hfits he' hc₁ => ?_
    refine Reads.skipNewlines hc₁ (by simp) (Reads.eatNot hc₁ (by simp) ?_)
    refine Reads.expect hc₁ (by simp) fun _ c₂ hc₂ => ?_
    exact Reads.here (by simpa [nestingExprs] using hfits) (LikeAll.cons he' rfl) hc₂
  | cons next es ih =>
    have he := h e List.mem_cons_self
    have hnext := fun e' hmem => h e' (List.mem_cons_of_mem _ hmem)
    obtain ⟨first, tail, hspelled, hfirst⟩ :=
      commas_head (hnext next List.mem_cons_self).opens (spellExprs true es) (.symbol .parenClose) (kind :: rest)
    have hc : c.kinds = e.spell true ++ .symbol .comma ::
        (commas (spellExprs true (next :: es)) ++ .symbol .parenClose :: kind :: rest) := by
      simpa [spellExprs, commas] using hc
    rw [nestingExprs]
    refine Reads.succ ?_
    refine (he.expr hc (endsBefore_comma _)).bind (by omega) fun e' c₁ hfits₁ he' hc₁ => ?_
    refine Reads.skipNewlines hc₁ (by simp) (Reads.eat hc₁ (by simp) fun c₂ hc₂ => ?_)
    refine Reads.skipNewlines (hspelled ▸ hc₂) (startsExpr_ne hfirst rfl) ?_
    refine (ih hnext hc₂).bind (by omega) fun es' c₃ hfits₃ hes' hc₃ => ?_
    exact Reads.here (by omega) (LikeAll.cons he' hes') hc₃

/-- Arguments in parentheses, with no closure behind them. -/
theorem callArgs_reads {es : List Expr} (h : ∀ e ∈ es, Readable e) (hdepth : depth ≤ maxNesting)
    (hc : c.kinds = .symbol .parenOpen ::
      (commas (spellExprs true es) ++ .symbol .parenClose :: kind :: rest))
    (hkind : kind ≠ .symbol .braceOpen) :
    Returns (depth + nestingExprs true es ≤ maxNesting) (fun fuel => callArgs fuel depth)
      (LikeAll es) (kind :: rest) c := by
  -- No closure stands behind the arguments.
  have hrest : ∀ {args : List Expr} {c : Cursor}, depth + nestingExprs true es ≤ maxNesting → LikeAll es args →
      c.kinds = kind :: rest →
      Returns (depth + nestingExprs true es ≤ maxNesting) (fun fuel => do
        if (← peek) = .symbol .braceOpen then return args ++ [← closure fuel depth] else return args)
        (LikeAll es) (kind :: rest) c := by
    intro args c hfits hargs hc
    refine Reads.peek hc ?_
    simp only [if_neg hkind]
    exact Reads.here hfits hargs hc
  refine Reads.succ (Reads.expect hc (by simp) fun _ c₁ hc₁ => ?_)
  cases es with
  | nil =>
    refine Reads.skipNewlines hc₁ (by simp) (Reads.eat hc₁ (by simp) fun c₂ hc₂ => ?_)
    exact hrest (by simpa [nestingExprs] using hdepth) rfl hc₂
  | cons e es =>
    obtain ⟨first, tail, hspelled, hfirst⟩ :=
      commas_head (h e List.mem_cons_self).opens (spellExprs true es) (.symbol .parenClose) (kind :: rest)
    refine Reads.skipNewlines (hspelled ▸ hc₁) (startsExpr_ne hfirst rfl) ?_
    refine Reads.eatNot (hspelled ▸ hc₁) (startsExpr_ne hfirst rfl) ?_
    exact (argsFrom_reads h hc₁).bind id fun args c₂ hfits hargs hc₂ => hrest hfits hargs hc₂

namespace Piece

theorem call {callee : Expr → Prop} {args : List Expr} (h : Piece callee spelled chainRank nesting false)
    (hargs : ∀ e ∈ args, Readable e) (hmade : ∀ e es p, callee e → LikeAll args es → made (.call e es p)) :
    Piece made (spelled ++ .symbol .parenOpen :: (commas (spellExprs true args) ++ [.symbol .parenClose]))
      chainRank (max nesting (nestingExprs true args)) false := by
  refine h.link rfl (by simp) fun depth c kind rest e hdepth he hc hbrace _ => ?_
  rw [List.append_assoc] at hc
  refine Reads.succ (Reads.skipToChain hc (by simp) (Reads.peek hc (Reads.position fun p => ?_)))
  refine (callArgs_reads hargs hdepth hc hbrace).bind id fun es c₁ hfits hes hc₁ => ?_
  exact Reads.here hfits (hmade e es p he hes) hc₁

theorem method {flag : Bool} {receiver : Expr → Prop} {name : String} {args : List Expr}
    (h : Piece receiver spelled chainRank nesting flag) (hargs : ∀ e ∈ args, Readable e)
    (hmade : ∀ e es p, receiver e → LikeAll args es → made (.method e name es p)) :
    Piece made (spelled ++ .symbol .dot :: .ident name ::
        .symbol .parenOpen :: (commas (spellExprs true args) ++ [.symbol .parenClose]))
      chainRank (max nesting (nestingExprs true args)) false := by
  refine h.link rfl (by simp) fun depth c kind rest e hdepth he hc hbrace _ => ?_
  simp only [List.cons_append, List.append_assoc] at hc
  refine Reads.succ (Reads.skipToChain hc (by simp) (Reads.peek hc ?_))
  refine Reads.advance hc (by simp) fun t c₁ _ hc₁ => Reads.expectIdent hc₁ (by simp) fun c₂ hc₂ => ?_
  refine Reads.peek hc₂ ?_
  refine (callArgs_reads hargs hdepth hc₂ hbrace).bind id fun es c₃ hfits hes hc₃ => ?_
  exact Reads.here hfits (hmade e es t.pos he hes) hc₃

end Piece

/-! ## Section 5: Collections -/

/-- An expression is no entry of a map if no colon follows it. -/
theorem isMapKey_eq_false (h : Opens spelled) (hc : c.kinds = spelled ++ kind :: rest)
    (hkind : kind ≠ .symbol .colon) : isMapKey c = false := by
  obtain ⟨first, next, tail, heq, hfirst, hnext⟩ := h.second kind rest
  rw [heq] at hc
  have hsecond : c.nextKind = next := Cursor.kind_eq (Cursor.kinds_advance hc (by simp))
  have hcolon : isWord first = true → next ≠ .symbol .colon := by
    rintro hword rfl
    rcases hnext hword with hfollows | rfl
    · contradiction
    · contradiction
  rw [isMapKey, Cursor.kind_eq hc, hsecond]
  split
  · exact decide_eq_false (hcolon rfl)
  · exact decide_eq_false (hcolon rfl)
  · rfl

/-- How many constructs are inside one another in the parts of a collection, each of which is one itself. -/
def deepest {ι : Type} (nesting : ι → Nat) : List ι → Nat
  | [] => 0
  | i :: is => max (nesting i + 1) (deepest nesting is)

section Collections

-- the parts of a collection: what they spell, by which tokens, and how deeply constructs are nested in these
variable {ι : Type} {part : ι → Expr → Prop} {spell : ι → List TokenKind} {depthOf : ι → Nat}

/-- Items up to the closing bracket. -/
theorem items_reads {i : ι} {is : List ι} (h : ∀ j ∈ i :: is, Piece (part j) (spell j) 0 (depthOf j) false)
    (hc : c.kinds = commas (spell i :: is.map spell) ++ .symbol .bracketClose :: kind :: rest) :
    Returns (depth + deepest depthOf (i :: is) ≤ maxNesting) (fun fuel => items fuel depth)
      (List.Forall₂ part (i :: is)) (kind :: rest) c := by
  -- on the items behind the first one: a comma or the bracket behind it decides whether there are more
  induction is generalizing i c with
  | nil =>
    have hi := h i List.mem_cons_self
    obtain ⟨first, tail, hspelled, hfirst⟩ := commas_head hi.opens [] (.symbol .bracketClose) (kind :: rest)
    refine Reads.succ (Reads.skipNewlines (hc.trans hspelled) (startsExpr_ne hfirst rfl) ?_)
    refine Reads.eatNot (hc.trans hspelled) (startsExpr_ne hfirst rfl) ?_
    refine (hi.expr hc (endsBefore_bracketClose _)).bind (by simp [deepest]) fun e c₁ hfits he hc₁ => ?_
    refine Reads.skipNewlines hc₁ (by simp) (Reads.eatNot hc₁ (by simp) ?_)
    refine Reads.expect hc₁ (by simp) fun _ c₂ hc₂ => ?_
    exact Reads.here (by simpa [deepest] using hfits) (.cons he .nil) hc₂
  | cons next is ih =>
    have hi := h i List.mem_cons_self
    have hnext := fun j hmem => h j (List.mem_cons_of_mem _ hmem)
    obtain ⟨first, tail, hspelled, hfirst⟩ :=
      commas_head hi.opens ((next :: is).map spell) (.symbol .bracketClose) (kind :: rest)
    refine Reads.succ (Reads.skipNewlines (hc.trans hspelled) (startsExpr_ne hfirst rfl) ?_)
    refine Reads.eatNot (hc.trans hspelled) (startsExpr_ne hfirst rfl) ?_
    have hc : c.kinds = spell i ++ .symbol .comma ::
        (commas (spell next :: is.map spell) ++ .symbol .bracketClose :: kind :: rest) := by
      simpa [commas] using hc
    rw [deepest]
    refine (hi.expr hc (endsBefore_comma _)).bind (by omega) fun e c₁ hfits₁ he hc₁ => ?_
    refine Reads.skipNewlines hc₁ (by simp) (Reads.eat hc₁ (by simp) fun c₂ hc₂ => ?_)
    refine (ih hnext hc₂).bind (by omega) fun es c₃ hfits₃ hes hc₃ => ?_
    exact Reads.here (by omega) (.cons he hes) hc₃

/-- A list in brackets. -/
theorem Piece.list {rank : Nat} {is : List ι} (h : ∀ i ∈ is, Piece (part i) (spell i) 0 (depthOf i) false)
    (hmade : ∀ es, List.Forall₂ part is es → made (.list es)) :
    Piece made (.symbol .bracketOpen :: (commas (is.map spell) ++ [.symbol .bracketClose])) rank
      (deepest depthOf is) false := by
  refine Piece.of_primary (Opens.of_not_word rfl rfl) ⟨_, _, rfl, rfl⟩ fun depth c kind rest hdepth hc => ?_
  simp only [List.cons_append, List.append_assoc] at hc
  refine Reads.succ (Reads.peek hc (Reads.succ (Reads.advance hc (by simp) fun _ c₁ _ hc₁ => ?_)))
  cases is with
  | nil =>
    have hkey : isMapKey c₁ = false := by simp [isMapKey, Cursor.kind_eq hc₁]
    refine Reads.skipNewlines hc₁ (by simp) (Reads.eatNot hc₁ (by simp) (Reads.get ?_))
    simp only [hkey]
    -- the items of the empty list are read, too: there the closing bracket is found at once
    refine Reads.bind (Reads.succ ?_) id fun es c₂ hfits hes hc₂ => Reads.here hfits (hmade es hes) hc₂
    refine Reads.skipNewlines hc₁ (by simp) (Reads.eat hc₁ (by simp) fun c₂ hc₂ => ?_)
    exact Reads.here hdepth .nil hc₂
  | cons i is =>
    have hi := h i List.mem_cons_self
    rw [List.map_cons] at hc₁
    obtain ⟨first, tail, hspelled, hfirst⟩ :=
      commas_head hi.opens (is.map spell) (.symbol .bracketClose) (kind :: rest)
    obtain ⟨next, more, hnext, hclose⟩ :=
      commas_append (spell i) (is.map spell) (.symbol .bracketClose) (kind :: rest)
    -- behind the first item there is a comma or the closing bracket, and no colon
    have hkey : isMapKey c₁ = false := by
      refine isMapKey_eq_false hi.opens (hc₁.trans hnext) ?_
      rcases hclose with rfl | rfl
      · simp
      · simp
    refine Reads.skipNewlines (hc₁.trans hspelled) (startsExpr_ne hfirst rfl) ?_
    refine Reads.eatNot (hc₁.trans hspelled) (startsExpr_ne hfirst rfl) (Reads.get ?_)
    simp only [hkey]
    exact (items_reads h hc₁).bind id fun es c₂ hfits hes hc₂ => Reads.here hfits (hmade es hes) hc₂

/-- The tokens of an entry: a key, a colon and a value. -/
def spellEntry (keyWord : ι → TokenKind) (spell : ι → List TokenKind) (i : ι) : List TokenKind :=
  keyWord i :: .symbol .colon :: spell i

/-- Entries up to the closing bracket. -/
theorem entries_reads {keyWord : ι → TokenKind} {keyName : ι → String} {i : ι} {is : List ι}
    (hkey : ∀ j ∈ i :: is, keyOf? (keyWord j) = some (keyName j))
    (h : ∀ j ∈ i :: is, Piece (part j) (spell j) 0 (depthOf j) false)
    (hc : c.kinds = commas (spellEntry keyWord spell i :: is.map (spellEntry keyWord spell)) ++
      .symbol .bracketClose :: kind :: rest) :
    Returns (depth + deepest depthOf (i :: is) ≤ maxNesting) (fun fuel => entries fuel depth)
      (List.Forall₂ (fun j entry => entry.1 = keyName j ∧ part j entry.2) (i :: is)) (kind :: rest) c := by
  -- As for arguments, with the key and the colon before each value.
  induction is generalizing i c with
  | nil =>
    have hi := h i List.mem_cons_self
    have hikey := hkey i List.mem_cons_self
    have hline : keyWord i ≠ .newline := keyOf?_ne hikey rfl
    have hclose : keyWord i ≠ .symbol .bracketClose := keyOf?_ne hikey rfl
    obtain ⟨first, tail, hspelled, hfirst⟩ := hi.head
    have hc : c.kinds = keyWord i :: .symbol .colon :: (spell i ++ .symbol .bracketClose :: kind :: rest) := hc
    refine Reads.succ (Reads.skipNewlines hc hline (Reads.eatNot hc hclose ?_))
    refine Reads.expectKey hikey hc (by simp) fun c₁ hc₁ => Reads.expect hc₁ (by simp) fun _ c₂ hc₂ => ?_
    refine Reads.skipNewlines (hspelled ▸ hc₂) (startsExpr_ne hfirst rfl) ?_
    refine (hi.expr hc₂ (endsBefore_bracketClose _)).bind (by simp [deepest]) fun e c₃ hfits he hc₃ => ?_
    refine Reads.skipNewlines hc₃ (by simp) (Reads.eatNot hc₃ (by simp) ?_)
    refine Reads.expect hc₃ (by simp) fun _ c₄ hc₄ => ?_
    exact Reads.here (by simpa [deepest] using hfits) (.cons ⟨rfl, he⟩ .nil) hc₄
  | cons next is ih =>
    have hi := h i List.mem_cons_self
    have hikey := hkey i List.mem_cons_self
    have hline : keyWord i ≠ .newline := keyOf?_ne hikey rfl
    have hclose : keyWord i ≠ .symbol .bracketClose := keyOf?_ne hikey rfl
    obtain ⟨first, tail, hspelled, hfirst⟩ := hi.head
    have hc : c.kinds = keyWord i :: .symbol .colon :: (spell i ++ .symbol .comma ::
        (commas (spellEntry keyWord spell next :: is.map (spellEntry keyWord spell)) ++
          .symbol .bracketClose :: kind :: rest)) := by
      simpa [spellEntry, commas] using hc
    rw [deepest]
    refine Reads.succ (Reads.skipNewlines hc hline (Reads.eatNot hc hclose ?_))
    refine Reads.expectKey hikey hc (by simp) fun c₁ hc₁ => Reads.expect hc₁ (by simp) fun _ c₂ hc₂ => ?_
    refine Reads.skipNewlines (hspelled ▸ hc₂) (startsExpr_ne hfirst rfl) ?_
    refine (hi.expr hc₂ (endsBefore_comma _)).bind (by omega) fun e c₃ hfits₃ he hc₃ => ?_
    refine Reads.skipNewlines hc₃ (by simp) (Reads.eat hc₃ (by simp) fun c₄ hc₄ => ?_)
    have hnextKey := fun j hmem => hkey j (List.mem_cons_of_mem _ hmem)
    have hnext := fun j hmem => h j (List.mem_cons_of_mem _ hmem)
    refine (ih hnextKey hnext hc₄).bind (by omega) fun es c₅ hfits₅ hes hc₅ => ?_
    exact Reads.here (by omega) (.cons ⟨rfl, he⟩ hes) hc₅

/-- A map without entries is a colon in brackets. -/
theorem Piece.emptyMap {rank : Nat} (hmade : made (.map [])) :
    Piece made [.symbol .bracketOpen, .symbol .colon, .symbol .bracketClose] rank 0 false := by
  refine Piece.of_primary (Opens.of_not_word rfl rfl) ⟨_, _, rfl, rfl⟩ fun depth c kind rest hdepth hc => ?_
  simp only [List.cons_append] at hc
  refine Reads.succ (Reads.peek hc (Reads.succ (Reads.advance hc (by simp) fun _ c₁ _ hc₁ => ?_)))
  refine Reads.skipNewlines hc₁ (by simp) (Reads.eat hc₁ (by simp) fun c₂ hc₂ => ?_)
  refine Reads.expect hc₂ (by simp) fun _ c₃ hc₃ => ?_
  exact Reads.here hdepth hmade hc₃

/-- A map in brackets. -/
theorem Piece.map {rank : Nat} {i : ι} {is : List ι} (keyWord : ι → TokenKind) (keyName : ι → String)
    (hkey : ∀ j ∈ i :: is, keyOf? (keyWord j) = some (keyName j))
    (h : ∀ j ∈ i :: is, Piece (part j) (spell j) 0 (depthOf j) false)
    (hmade : ∀ es, List.Forall₂ (fun j entry => entry.1 = keyName j ∧ part j entry.2) (i :: is) es → made (.map es)) :
    Piece made (.symbol .bracketOpen ::
        (commas ((i :: is).map (spellEntry keyWord spell)) ++ [.symbol .bracketClose])) rank
      (deepest depthOf (i :: is)) false := by
  refine Piece.of_primary (Opens.of_not_word rfl rfl) ⟨_, _, rfl, rfl⟩ fun depth c kind rest hdepth hc => ?_
  simp only [List.cons_append, List.append_assoc, List.map_cons] at hc
  refine Reads.succ (Reads.peek hc (Reads.succ (Reads.advance hc (by simp) fun _ c₁ _ hc₁ => ?_)))
  obtain ⟨next, more, hnext, _⟩ := commas_append (spellEntry keyWord spell i) (is.map (spellEntry keyWord spell))
    (.symbol .bracketClose) (kind :: rest)
  have hhead : c₁.kinds = keyWord i :: .symbol .colon :: (spell i ++ next :: more) := hc₁.trans hnext
  have hcolon : c₁.nextKind = .symbol .colon := Cursor.kind_eq (Cursor.kinds_advance hhead (by simp))
  have hikey := hkey i List.mem_cons_self
  generalize keyWord i = word at hhead hikey
  -- a word or a string before a colon is how a map is told from a list
  have hmapKey : isMapKey c₁ = true := by
    rw [isMapKey, Cursor.kind_eq hhead]
    unfold keyOf? at hikey
    split at hikey
    · exact decide_eq_true hcolon
    · exact decide_eq_true hcolon
    · contradiction
  refine Reads.skipNewlines hhead (keyOf?_ne hikey rfl) (Reads.eatNot hhead (keyOf?_ne hikey rfl) (Reads.get ?_))
  simp only [hmapKey]
  exact (entries_reads hkey h hc₁).bind id fun es c₂ hfits hes hc₂ => Reads.here hfits (hmade es hes) hc₂

end Collections

private theorem spellExprs_eq_map (es : List Expr) : spellExprs true es = es.map (Expr.spell true) := by
  induction es with
  | nil => rfl
  | cons e es ih => rw [spellExprs, ih, List.map_cons]

private theorem nestingExprs_eq_deepest (es : List Expr) : nestingExprs true es = deepest (Expr.nesting true) es := by
  induction es with
  | nil => rfl
  | cons e es ih => rw [nestingExprs, ih, deepest]

private theorem likeAll_of_forall₂ {es es' : List Expr} (h : List.Forall₂ Expr.Like es es') : LikeAll es es' := by
  induction h with
  | nil => rfl
  | cons he _ ih => exact LikeAll.cons he ih

private theorem readable_list {es : List Expr} (h : ∀ e ∈ es, Readable e) : Readable (.list es) := by
  have hlist : Piece (Expr.Like (.list es)) _ (Expr.list es).rank _ false :=
    Piece.list (fun e he => (h e he).loose) fun es' hes => Expr.Like.list (likeAll_of_forall₂ hes)
  rw [← spellExprs_eq_map, ← nestingExprs_eq_deepest] at hlist
  exact hlist

/-- The key of an entry as a string. -/
def keyLiteral (entry : String × Expr) : TokenKind := .str entry.1

private theorem spellEntries_eq_map (es : List (String × Expr)) :
    spellEntries true es = es.map (spellEntry keyLiteral fun entry => entry.2.spell true) := by
  induction es with
  | nil => rfl
  | cons e es ih =>
    rw [spellEntries, ih, List.map_cons]
    rfl

private theorem nestingEntries_eq_deepest (es : List (String × Expr)) :
    nestingEntries true es = deepest (fun entry => entry.2.nesting true) es := by
  induction es with
  | nil => rfl
  | cons e es ih => rw [nestingEntries, ih, deepest]

private theorem likeEntries_of_forall₂ {es es' : List (String × Expr)}
    (h : List.Forall₂ (fun entry entry' => entry'.1 = entry.1 ∧ entry.2.Like entry'.2) es es') :
    LikeEntries es es' := by
  induction h with
  | nil => rfl
  | @cons entry entry' _ _ hentry _ ih =>
    obtain ⟨key, e⟩ := entry
    obtain ⟨key', e'⟩ := entry'
    obtain ⟨rfl, he⟩ := hentry
    exact LikeEntries.cons he ih

/-- A map in brackets; without entries a colon stands in them. -/
theorem readable_map {es : List (String × Expr)} (h : ∀ e ∈ es.map Prod.snd, Readable e) :
    Readable (.map es) := by
  cases es with
  | nil => exact Piece.emptyMap rfl
  | cons entry es =>
    have hmap : Piece (Expr.Like (.map (entry :: es))) _ (Expr.map (entry :: es)).rank _ false :=
      Piece.map keyLiteral Prod.fst (fun _ _ => rfl)
        (fun e he => (h e.2 (List.mem_map_of_mem he)).loose) fun es' hes =>
          Expr.Like.map (likeEntries_of_forall₂ hes)
    rw [← spellEntries_eq_map, ← nestingEntries_eq_deepest] at hmap
    exact hmap

/-! ## Section 6: Expressions from Their Parts -/

/-- An operand in parentheses unless it is as tight as the operator asks for. -/
theorem Readable.operand {e : Expr} (h : Readable e) (needed : Bool) (rank : Nat)
    (hneeded : needed = false → rank ≤ e.rank) :
    ∃ member, Piece (Expr.Like e) (enclose needed (e.spell true)) rank (deepen needed (e.nesting true)) member :=
  ⟨_, h.enclose hneeded⟩

private theorem rank_lt_of_not_needed {rank level : Nat} (h : decide (rank ≤ level) = false) : level + 1 ≤ rank :=
  Nat.lt_of_not_le (of_decide_eq_false h)

theorem Readable.object {e : Expr} (h : Readable e) :
    ∃ member, Piece (Expr.Like e) (enclose (e.rank < chainRank) (e.spell true)) chainRank
      (deepen (e.rank < chainRank) (e.nesting true)) member :=
  h.operand _ _ (by simp)

private theorem readable_binary {op : BinaryOp} {left right : Expr} {p : Pos} (hleft : Readable left)
    (hright : Readable right) : Readable (.binary op left right p) := by
  obtain ⟨_, hl⟩ := hleft.operand (left.rank < op.level.rank) op.level.rank (by simp)
  obtain ⟨_, hr⟩ := hright.operand (right.rank ≤ op.level.rank) (op.level.rank + 1) rank_lt_of_not_needed
  have hjoin : ∀ p, op.level.join? (.symbol op.symbol) p = some fun l r => .binary op l r p := by
    cases op <;> intro p <;> rfl
  have hfollows : followsWord (.symbol op.symbol) = true := by cases op <;> rfl
  exact hl.joined hr hjoin hfollows (endsBefore_binary op) fun _ _ _ h h' => Expr.Like.binary h h'

private theorem readable_and {left right : Expr} (hleft : Readable left) (hright : Readable right) :
    Readable (.and left right) := by
  obtain ⟨_, hl⟩ := hleft.operand (left.rank < Level.and.rank) Level.and.rank (by simp)
  obtain ⟨_, hr⟩ := hright.operand (right.rank ≤ Level.and.rank) (Level.and.rank + 1) rank_lt_of_not_needed
  exact hl.joined hr (fun _ => rfl) rfl endsBefore_and fun _ _ _ h h' => Expr.Like.and h h'

private theorem readable_or {left right : Expr} (hleft : Readable left) (hright : Readable right) :
    Readable (.or left right) := by
  obtain ⟨_, hl⟩ := hleft.operand (left.rank < Level.or.rank) Level.or.rank (by simp)
  obtain ⟨_, hr⟩ := hright.operand (right.rank ≤ Level.or.rank) (Level.or.rank + 1) rank_lt_of_not_needed
  exact hl.joined hr (fun _ => rfl) rfl endsBefore_or fun _ _ _ h h' => Expr.Like.or h h'

/-- A member is called in parentheses, so that it is not the name of a method. -/
theorem readable_call {callee : Expr} {args : List Expr} {p : Pos} (hcallee : Readable callee)
    (hargs : ∀ e ∈ args, Readable e) : Readable (.call callee args p) := by
  have hrank : (callee.rank < chainRank || true && callee.isMember) = false → chainRank ≤ callee.rank := by
    intro hneeded
    exact Nat.le_of_not_lt (of_decide_eq_false (Bool.or_eq_false_iff.mp hneeded).1)
  have hpiece := hcallee.enclose hrank
  have hmember : (!(decide (callee.rank < chainRank) || true && callee.isMember) && callee.isMember) = false := by
    cases callee.isMember <;> simp
  rw [hmember] at hpiece
  exact hpiece.call hargs fun _ _ _ h h' => Expr.Like.call h h'

/-- What is printed for an expression that is no closure is read back, if this holds of its parts. -/
theorem readable_of_parts {e : Expr} (hclosure : ∀ params body p, e ≠ .closure params body p)
    (hparts : ∀ e' ∈ e.parts, Readable e') : Readable e := by
  cases e with
  | null => exact Piece.leaf rfl rfl (fun _ => rfl) fun _ _ _ _ => rfl
  | bool b => cases b <;> exact Piece.leaf rfl rfl (fun _ => rfl) fun _ _ _ _ => rfl
  | int n => exact Piece.leaf rfl rfl (fun _ => rfl) fun _ _ _ _ => rfl
  | float literal => exact Piece.leaf rfl rfl (fun _ => rfl) fun _ _ _ _ => rfl
  | str text => exact Piece.leaf rfl rfl (fun _ => rfl) fun _ _ _ _ => rfl
  | var name p => exact Piece.leaf (e := .var name) rfl rfl (fun _ => rfl) fun _ _ _ _ => rfl
  | list items => exact readable_list hparts
  | map entries => exact readable_map hparts
  | unary op operand p =>
    obtain ⟨_, h⟩ :=
      (hparts operand (by simp [Expr.parts])).operand (operand.rank < unaryRank) unaryRank (by simp)
    exact h.unary_operator op fun _ _ h => Expr.Like.unary h
  | binary op left right p =>
    exact readable_binary (hparts left (by simp [Expr.parts])) (hparts right (by simp [Expr.parts]))
  | and left right =>
    exact readable_and (hparts left (by simp [Expr.parts])) (hparts right (by simp [Expr.parts]))
  | or left right =>
    exact readable_or (hparts left (by simp [Expr.parts])) (hparts right (by simp [Expr.parts]))
  | member object name p =>
    obtain ⟨_, h⟩ := (hparts object (by simp [Expr.parts])).object
    exact h.member fun _ _ h => Expr.Like.member h
  | index object place p =>
    obtain ⟨_, h⟩ := (hparts object (by simp [Expr.parts])).object
    exact h.index (hparts place (by simp [Expr.parts])) fun _ _ _ h h' => Expr.Like.index h h'
  | call callee args p =>
    have hargs : ∀ e ∈ args, Readable e := fun e he => hparts e (List.mem_cons_of_mem _ he)
    exact readable_call (hparts callee List.mem_cons_self) hargs
  | method receiver name args p =>
    have hargs : ∀ e ∈ args, Readable e := fun e he => hparts e (List.mem_cons_of_mem _ he)
    obtain ⟨_, h⟩ := (hparts receiver List.mem_cons_self).object
    exact h.method hargs fun _ _ _ h h' => Expr.Like.method h h'
  | closure params body p => exact absurd rfl (hclosure params body p)

end RowConsole.Script.Grammar
