import RowConsole.Proofs.Script.Grammar.Breaks.Facing

/-!
# Readers That Track One Another

A reader that succeeds in the tokens without the line feed succeeds in those with it, with the same tree, and ends at the
facing place. Along with that it is known which brackets are open where it ends, and that every line feed that it has
passed stands where it may.

Main statements: the rules by which readers are put together, `Tracks.bind`, `Tracks.skipFree`, `Tracks.closing` and
`Tracks.listing`.
-/

namespace RowConsole.Script.Grammar

variable {α β γ δ : Type}

/-! ## Section 1: Places to Go On From -/

/-- Where an operand may start: where lines are joined, none has just ended. -/
def Ready (past : Past) : Prop :=
  Enclosed past → endsOperand past = false

/-- A line feed may stand before whatever comes next. -/
def Free (past : Past) : Prop :=
  ∀ next, breakable past next = true

/-- The brackets that are open at a place, and that an operand ends there. -/
def EndsIn (outer : List Bool) (past : Past) : Prop :=
  opened past = outer ∧ endsOperand past = true

section Places

variable {past : Past} {kind : TokenKind} {outer : List Bool}

/-- Where lines are not joined, an operand may always start. -/
theorem ready_of_loose (h : ¬Enclosed past) : Ready past :=
  fun henclosed => absurd henclosed h

/-- Behind some tokens a line feed may stand before whatever comes next. -/
theorem free_of_breaksBehind (h : breaksBehind past = true) (hcolon : past.head? ≠ some (.symbol .colon)) :
    Free past :=
  fun _ => breakable_of_breaksBehind h hcolon

/-- Where a line feed may stand before anything, no operand has just ended. -/
theorem Free.ready (h : Free past) : Ready past := by
  intro _
  -- No line feed may stand between an operand and the end of the input.
  cases hend : endsOperand past with
  | false => rfl
  | true =>
    have heof := h .eof
    rw [breakable_of_endsOperand hend] at heof
    contradiction

/-- Line feeds do not change where an operand may start and where a line feed may stand. -/
theorem ready_lines {feeds : List TokenKind} (hfeeds : ∀ kind ∈ feeds, kind = .newline) (h : Ready past) :
    Ready (feeds ++ past) := by
  cases feeds with
  | nil => exact h
  | cons kind feeds =>
    obtain ⟨rfl, _⟩ := List.forall_mem_cons.mp hfeeds
    exact fun _ => rfl

/-- Line feeds do not change that one more may stand. -/
private theorem free_lines {feeds : List TokenKind} (hfeeds : ∀ kind ∈ feeds, kind = .newline) (h : Free past) :
    Free (feeds ++ past) := by
  cases feeds with
  | nil => exact h
  | cons kind feeds =>
    obtain ⟨rfl, _⟩ := List.forall_mem_cons.mp hfeeds
    exact free_of_breaksBehind rfl (by simp)

/-- A token that ends an operand and is no bracket. -/
theorem endsIn_plain (hplain : kind.role = .plain) (hend : endsOperand (kind :: past) = true) :
    EndsIn (opened past) (kind :: past) :=
  ⟨opened_plain hplain, hend⟩

/-- What closes the innermost bracket ends an operand. -/
theorem endsIn_closes {b : Bool} (hopened : opened past = b :: outer) (b' : Bracket) :
    EndsIn outer (.symbol b'.closing :: past) := by
  cases b' <;> exact ⟨(opened_closes rfl).trans (congrArg List.tail hopened), rfl⟩

end Places

namespace Gap

variable {gap : Gap} {past : Past} {c d : Cursor}

/-! ## Section 2: Sequences -/

variable (gap) in
/-- Two readers, the first in the tokens without the line feed and the second in those with it. Where the first one
succeeds, they end at facing cursors, with results that correspond by `g`, and the place there is as `post` says. -/
def Tracks (past : Past) (c d : Cursor) (g : α → β) (p : Parser α) (q : Parser β) (post : Past → Prop) : Prop :=
  ∀ a c', p c = .ok (a, c') → ∃ past' d', q d = .ok (g a, d') ∧ gap.Faces past' c' d' ∧
    Passage past c.kinds past' c'.kinds ∧ post past'

namespace Tracks

variable {g : α → β} {h : γ → δ} {p p' : Parser α} {q q' : Parser β} {k : α → Parser γ} {l : β → Parser δ}
  {mid post post' : Past → Prop}

/-- A first reader that fails has nothing to be tracked. -/
theorem failed {stop : Stop} (hp : p c = .error stop) : gap.Tracks past c d g p q post := by
  intro a c' hok
  rw [hp] at hok
  contradiction

/-- Results that correspond track one another where nothing is read. -/
protected theorem pure {a : α} {b : β} (hcd : gap.Faces past c d) (hab : b = g a) (hpost : post past) :
    gap.Tracks past c d g (pure a) (pure b) post := by
  intro a' c' hok
  cases hok
  exact ⟨past, d, by rw [hab]; rfl, hcd, .refl, hpost⟩

/-- More may be known of the place than is asked for. -/
theorem mono (hp : gap.Tracks past c d g p q post) (hpost : ∀ past', post past' → post' past') :
    gap.Tracks past c d g p q post' := by
  intro a c' hok
  obtain ⟨past', d', hq, hcd, hpassage, hplace⟩ := hp a c' hok
  exact ⟨past', d', hq, hcd, hpassage, hpost past' hplace⟩

/-- Readers that move the cursors before they go on. -/
theorem moved {past₁ : Past} {c₁ d₁ : Cursor} {r : Parser α} {s : Parser β} (hp : p c = r c₁) (hq : q d = s d₁)
    (hpassage : Passage past c.kinds past₁ c₁.kinds) (h : gap.Tracks past₁ c₁ d₁ g r s post) :
    gap.Tracks past c d g p q post := by
  intro a c' hok
  rw [hp] at hok
  rw [hq]
  obtain ⟨past', d', hq', hcd, hpassage', hplace⟩ := h a c' hok
  exact ⟨past', d', hq', hcd, hpassage.trans hpassage', hplace⟩

/-- Readers in sequence: the second parts have to track one another wherever the first ones may end. -/
protected theorem bind (hp : gap.Tracks past c d g p q mid)
    (hkl : ∀ a past' c' d', gap.Faces past' c' d' → mid past' → gap.Tracks past' c' d' h (k a) (l (g a)) post) :
    gap.Tracks past c d h (p >>= k) (q >>= l) post := by
  intro b c₂ hok
  obtain ⟨a, c₁, h₁, h₂⟩ := bind_eq_ok hok
  obtain ⟨past₁, d₁, hq, hcd, hpassage, hmid⟩ := hp a c₁ h₁
  obtain ⟨past₂, d₂, hl, hcd', hpassage', hpost⟩ := hkl a past₁ c₁ d₁ hcd hmid b c₂ h₂
  refine ⟨past₂, d₂, ?_, hcd', hpassage.trans hpassage', hpost⟩
  rw [bind_apply, hq]
  exact hl

/-- What is made of the results does not matter, as long as it corresponds. -/
protected theorem map (hp : gap.Tracks past c d g p q mid) {φ : α → γ} {ψ : β → δ} (hφ : ∀ a, ψ (g a) = h (φ a))
    (hpost : ∀ past', mid past' → post past') :
    gap.Tracks past c d h (p >>= fun a => pure (φ a)) (q >>= fun b => pure (ψ b)) post :=
  Tracks.bind hp fun a past' _ _ hcd hmid => Tracks.pure hcd (hφ a) (hpost past' hmid)

/-- Deciding by a question that has the same answer on both sides. -/
protected theorem ite {P Q : Prop} [Decidable P] [Decidable Q] (hPQ : Q ↔ P)
    (hyes : P → gap.Tracks past c d g p q post) (hno : ¬P → gap.Tracks past c d g p' q' post) :
    gap.Tracks past c d g (if P then p else p') (if Q then q else q') post := by
  by_cases hP : P
  · rw [if_pos hP, if_pos (hPQ.mpr hP)]
    exact hyes hP
  · rw [if_neg hP, if_neg fun hQ => hP (hPQ.mp hQ)]
    exact hno hP

/-- Directly before the line feed nothing has to be read where a reader cannot succeed. -/
theorem settle (hcd : gap.Faces past c d) (hrefuses : Enclosed past → breakable past c.kind = true → Refuses p c)
    (hal : gap.Aligned past c d → gap.Tracks past c d g p q post) : gap.Tracks past c d g p q post := by
  rcases hcd.cases_kind with h | ⟨_, henclosed, hbreakable⟩
  · exact hal h
  · intro a c' hok
    exact absurd hok (hrefuses henclosed hbreakable a c')

/-- What looks at the next kind tracks if what follows does for the kinds on both sides. -/
theorem peek {k : TokenKind → Parser γ} {l : TokenKind → Parser δ}
    (hkl : gap.Tracks past c d h (k c.kind) (l d.kind) post) :
    gap.Tracks past c d h (Grammar.peek >>= k) (Grammar.peek >>= l) post :=
  hkl

/-- What looks at the next place tracks if what follows does for the places on both sides. -/
theorem position {k : Pos → Parser γ} {l : Pos → Parser δ}
    (hkl : gap.Tracks past c d h (k c.token.pos) (l d.token.pos) post) :
    gap.Tracks past c d h (Grammar.position >>= k) (Grammar.position >>= l) post :=
  hkl

/-- What looks at the cursor tracks if what follows does for the cursors on both sides. -/
protected theorem get {k : Cursor → Parser γ} {l : Cursor → Parser δ}
    (hkl : gap.Tracks past c d h (k c) (l d) post) :
    gap.Tracks past c d h (MonadState.get >>= k) (MonadState.get >>= l) post :=
  hkl

/-- Both sides enter a construct, or both are too deep for it. -/
theorem enter {depth : Nat} {k : Nat → Parser γ} {l : Nat → Parser δ}
    (hkl : gap.Tracks past c d h (k (depth + 1)) (l (depth + 1)) post) :
    gap.Tracks past c d h (Grammar.enter depth >>= k) (Grammar.enter depth >>= l) post := by
  -- The depth is the same on both sides; where it is too much the first reader fails.
  by_cases hdepth : maxNesting < depth + 1
  · have hdeep : Grammar.enter depth c =
        .error (.failed { cause := .nestedTooDeeply, pos := some c.token.pos }) := by
      unfold Grammar.enter
      rw [if_pos hdepth]
      rfl
    exact failed (by rw [bind_apply, hdeep]; rfl)
  · have henter : Grammar.enter depth = pure (depth + 1) := if_neg hdepth
    rw [henter, pure_bind, pure_bind]
    exact hkl

end Tracks

/-! ## Section 3: Taking Tokens -/

namespace Tracks

variable {g : α → β} {h : γ → δ} {post : Past → Prop} {kind : TokenKind}

/-- Taking a token that is no line feed. -/
theorem advance {k : Token → Parser γ} {l : Token → Parser δ} (hal : gap.Aligned past c d) (hkind : c.kind = kind)
    (heof : kind ≠ .eof) (hnewline : kind ≠ .newline)
    (hkl : gap.Faces (kind :: past) c.advance d.advance →
      gap.Tracks (kind :: past) c.advance d.advance h (k c.token) (l d.token) post) :
    gap.Tracks past c d h (Grammar.advance >>= k) (Grammar.advance >>= l) post := by
  -- The token is passed on both sides, and it is no line feed that would have to be allowed.
  subst hkind
  refine moved (r := k c.token) (s := l d.token) rfl rfl ?_ (hkl (hal.advance (hal.rest_ne_nil heof)))
  rw [Cursor.kinds_of_closed hal.closed heof]
  exact .step (fun hline => absurd hline hnewline) .refl

/-- A token of a known kind. -/
theorem expect {expected : String} (hal : c.kind = kind → gap.Aligned past c d) (heof : kind ≠ .eof)
    (hnewline : kind ≠ .newline) :
    gap.Tracks past c d gap.shift (Grammar.expect kind expected) (Grammar.expect kind expected)
      (· = kind :: past) := by
  by_cases hkind : c.kind = kind
  · have hal := hal hkind
    have hd : d.kind = kind := hal.kind_eq.trans hkind
    have htaken : ∀ {c : Cursor}, c.kind = kind →
        Grammar.expect kind expected c = (Grammar.advance >>= fun t => pure t.pos : Parser Pos) c :=
      fun h => expect_of_eq h
    refine moved (htaken hkind) (htaken hd) .refl (advance hal hkind heof hnewline fun hcd => ?_)
    exact Tracks.pure hcd hal.pos_eq rfl
  · exact failed (expect_of_ne hkind)

/-- A token of a known kind or what stands there else. -/
theorem eat {p p' : Parser γ} {q q' : Parser δ} (hal : gap.Aligned past c d) (heof : kind ≠ .eof)
    (hnewline : kind ≠ .newline)
    (hyes : gap.Faces (kind :: past) c.advance d.advance →
      gap.Tracks (kind :: past) c.advance d.advance h p q post)
    (hno : c.kind ≠ kind → gap.Tracks past c d h p' q' post) :
    gap.Tracks past c d h (Grammar.eat kind >>= fun taken => if taken = true then p else p')
      (Grammar.eat kind >>= fun taken => if taken = true then q else q') post := by
  by_cases hkind : c.kind = kind
  · -- Stated for any result, since both sides are rewritten by it: an advance and then the first branch.
    have htaken : ∀ {ε : Type} {c : Cursor} {r r' : Parser ε}, c.kind = kind →
        (Grammar.eat kind >>= fun taken => if taken = true then r else r') c = (Grammar.advance >>= fun _ => r) c := by
      intro ε c r r' h
      rw [bind_apply, eat_of_eq h]
      rfl
    exact moved (htaken hkind) (htaken (hal.kind_eq.trans hkind)) .refl (advance hal hkind heof hnewline hyes)
  · have hleft : ∀ {ε : Type} {c : Cursor} {r r' : Parser ε}, c.kind ≠ kind →
        (Grammar.eat kind >>= fun taken => if taken = true then r else r') c = r' c := by
      intro ε c r r' h
      rw [bind_apply, eat_of_ne h]
      rfl
    exact moved (hleft hkind) (hleft (hal.kind_eq.symm ▸ hkind)) .refl (hno hkind)

/-- A name that has to be there is taken on both sides. -/
theorem expectIdent (hal : ∀ name, c.kind = .ident name → gap.Aligned past c d) :
    gap.Tracks past c d id Grammar.expectIdent Grammar.expectIdent (fun past' => ∃ name, past' = .ident name :: past) := by
  unfold Grammar.expectIdent
  apply peek
  cases hkind : c.kind with
  | ident name =>
    have hal := hal name hkind
    rw [hal.kind_eq, hkind]
    exact advance hal hkind (by simp) (by simp) fun hcd => Tracks.pure hcd rfl ⟨name, rfl⟩
  | _ => exact failed rfl

/-- The key of an entry of a map, which ends like an operand. -/
theorem expectKey (hal : gap.Aligned past c d) :
    gap.Tracks past c d id Grammar.expectKey Grammar.expectKey (EndsIn (opened past)) := by
  cases hkind : c.kind with
  | ident name | str text =>
    refine advance hal hkind (by simp) (by simp) fun hcd => ?_
    have htoken : c.token.kind = _ := hkind
    rw [show d.token.kind = c.token.kind from hal.kind_eq, htoken]
    exact Tracks.pure hcd rfl (endsIn_plain rfl rfl)
  -- No other token is a key, so the first reader fails, and nothing has to be shown.
  | _ =>
    have hrefused : Grammar.expectKey c = (Grammar.unexpected "map key" : Parser String) c.advance := by
      have htoken : c.token.kind = _ := hkind
      have htaken : Grammar.advance c = .ok (c.token, c.advance) := rfl
      rw [Grammar.expectKey, bind_apply, htaken]
      simp only [Except.bind, htoken]
    exact failed hrefused

/-- A token that is no bracket may be taken or not where lines are not joined. -/
theorem eatLoose (hal : gap.Aligned past c d) (heof : kind ≠ .eof) (hnewline : kind ≠ .newline)
    (hplain : kind.role = .plain) :
    gap.Tracks past c d id (Grammar.eat kind) (Grammar.eat kind) (opened · = opened past) := by
  by_cases hkind : c.kind = kind
  · have htaken : ∀ {c : Cursor}, c.kind = kind →
        Grammar.eat kind c = (Grammar.advance >>= fun _ => pure true : Parser Bool) c := fun h => eat_of_eq h
    exact moved (htaken hkind) (htaken (hal.kind_eq.trans hkind)) .refl
      (advance hal hkind heof hnewline fun hcd => Tracks.pure hcd rfl (opened_plain hplain))
  · have hleft : ∀ {c : Cursor}, c.kind ≠ kind → Grammar.eat kind c = (pure false : Parser Bool) c :=
      fun h => eat_of_ne h
    exact moved (hleft hkind) (hleft (hal.kind_eq.symm ▸ hkind)) .refl (Tracks.pure (.aligned hal) rfl rfl)

/-- A declarator is passed over on both sides, or on neither. -/
theorem skipDeclarator (hloose : gap.Loose past c d) :
    gap.Tracks past c d id Grammar.skipDeclarator Grammar.skipDeclarator (opened · = opened past) := by
  apply Tracks.bind (eatLoose hloose.aligned (by simp) (by simp) rfl)
  intro taken past₁ c₁ d₁ hcd₁ hopened
  apply Tracks.ite Iff.rfl
  · intro _
    apply Tracks.bind (eatLoose (hcd₁.loose hopened hloose.notEnclosed).aligned (by simp) (by simp) rfl)
    intro _ past₂ c₂ d₂ hcd₂ hopened'
    exact Tracks.pure hcd₂ rfl (hopened'.trans hopened)
  · intro _
    exact Tracks.pure hcd₁ rfl hopened

end Tracks

/-! ## Section 4: Skipping -/

/-- Tokens that are no brackets are passed where lines are not joined. -/
theorem Beyond.exists_passage {passes : TokenKind → Prop} {c' d' : Cursor} (h : gap.Beyond passes past c c' d')
    (hplain : ∀ kind, passes kind → kind.role = .plain) (hnot : ¬Enclosed past) :
    ∃ past', gap.Loose past' c' d' ∧ Passage past c.kinds past' c'.kinds ∧ opened past' = opened past := by
  -- Tokens without brackets leave the open brackets as they are.
  obtain ⟨passed, hpassed, hkinds, hal⟩ := h
  have hplain' : ∀ kind ∈ passed, kind.role = .plain := fun kind hkind => hplain kind (hpassed kind hkind)
  have hopened : opened (passed.reverse ++ past) = opened past :=
    opened_append fun kind hkind => hplain' kind (List.mem_reverse.mp hkind)
  refine ⟨_, (Faces.aligned hal).loose hopened hnot, ?_, hopened⟩
  rw [hkinds]
  exact Passage.of_plain hplain' hnot

namespace Tracks

variable {h : γ → δ} {post : Past → Prop}

/-- Skipping line feeds in front of a reader that succeeds only where a line feed may stand before the next token. -/
theorem skipNewlines {k : PUnit → Parser γ} {l : PUnit → Parser δ} (hcd : gap.Faces past c d)
    (hline : Enclosed past → ∀ c' a c'', k () c' = .ok (a, c'') → breakable past c'.kind = true)
    (hkl : ∀ feeds c' d', (∀ kind ∈ feeds, kind = .newline) → gap.Aligned (feeds ++ past) c' d' →
      gap.Tracks (feeds ++ past) c' d' h (k ()) (l ()) post) :
    gap.Tracks past c d h (Grammar.skipNewlines >>= k) (Grammar.skipNewlines >>= l) post := by
  obtain ⟨passed, hpassed, hkinds, hal⟩ := hcd.skip (· = .newline) rfl
  have hfeeds : ∀ kind ∈ passed, kind = .newline := fun kind hkind => of_decide_eq_true (hpassed kind hkind)
  intro a c' hok
  obtain ⟨past', d', hl, hcd', hpassage, hpost⟩ :=
    hkl passed.reverse _ _ (fun kind hkind => hfeeds kind (List.mem_reverse.mp hkind)) hal a c' hok
  refine ⟨past', d', hl, hcd', Passage.trans ?_ hpassage, hpost⟩
  rw [hkinds]
  exact Passage.of_newlines hfeeds fun henclosed => hline henclosed _ a c' hok

/-- Line feeds open and close nothing. -/
theorem opened_lines {feeds : List TokenKind} (hfeeds : ∀ kind ∈ feeds, kind = .newline) :
    opened (feeds ++ past) = opened past :=
  opened_append fun kind hkind => role_of_newline (hfeeds kind hkind)

/-- Skipping line feeds where they may stand before whatever comes next. -/
theorem skipFree {k : PUnit → Parser γ} {l : PUnit → Parser δ} (hcd : gap.Faces past c d) (hfree : Free past)
    (hkl : ∀ past' c' d', gap.Aligned past' c' d' → opened past' = opened past → Free past' →
      gap.Tracks past' c' d' h (k ()) (l ()) post) :
    gap.Tracks past c d h (Grammar.skipNewlines >>= k) (Grammar.skipNewlines >>= l) post :=
  skipNewlines hcd (fun _ _ _ _ _ => hfree _) fun _ c' d' hfeeds hal =>
    hkl _ c' d' hal (opened_lines hfeeds) (free_lines hfeeds hfree)

/-- Skipping line feeds where lines are not joined. -/
theorem skipLoose {k : PUnit → Parser γ} {l : PUnit → Parser δ} (hloose : gap.Loose past c d)
    (hkl : ∀ past' c' d', gap.Loose past' c' d' → opened past' = opened past →
      gap.Tracks past' c' d' h (k ()) (l ()) post) :
    gap.Tracks past c d h (Grammar.skipNewlines >>= k) (Grammar.skipNewlines >>= l) post :=
  skipNewlines (.aligned hloose.aligned) (fun henclosed => absurd henclosed hloose.notEnclosed) fun _ c' d' hfeeds hal =>
    hkl _ c' d' ((Faces.aligned hal).loose (opened_lines hfeeds) hloose.notEnclosed) (opened_lines hfeeds)

/-- A reader that expects a token succeeds only where it stands. -/
private theorem kind_of_expect {kind : TokenKind} {expected : String} {k : Pos → Parser γ} {a : γ} {c' : Cursor}
    (hok : (Grammar.expect kind expected >>= k) c = .ok (a, c')) : c.kind = kind := by
  by_cases hkind : c.kind = kind
  · exact hkind
  · rw [bind_apply, expect_of_ne hkind] at hok
    contradiction

/-- A bracket that closes an operand. -/
theorem expectClose {close : TokenKind} {expected : String} {b : Bool} {outer : List Bool} (hal : gap.Aligned past c d)
    (hclose : close = .symbol .parenClose ∨ close = .symbol .bracketClose) (hopened : opened past = b :: outer) :
    gap.Tracks past c d gap.shift (Grammar.expect close expected) (Grammar.expect close expected) (EndsIn outer) := by
  rcases hclose with rfl | rfl
  · exact (expect (fun _ => hal) (by simp) (by simp)).mono fun _ hpast => hpast ▸ endsIn_closes hopened .paren
  · exact (expect (fun _ => hal) (by simp) (by simp)).mono fun _ hpast => hpast ▸ endsIn_closes hopened .bracket

/-- A line feed may stand before the brackets that close. -/
private theorem breaksBefore_close {close : TokenKind}
    (h : close = .symbol .parenClose ∨ close = .symbol .bracketClose) :
    breaksBefore close = true := by
  rcases h with rfl | rfl <;> rfl

/-- The bracket that closes behind an operand and line feeds. -/
theorem closing {p : Parser γ} {q : Parser δ} {close : TokenKind} {expected : String} {b : Bool} {outer : List Bool}
    (hcd : gap.Faces past c d) (hclose : close = .symbol .parenClose ∨ close = .symbol .bracketClose)
    (hend : EndsIn (b :: outer) past)
    (hkl : ∀ past' c' d', gap.Faces past' c' d' → EndsIn outer past' → gap.Tracks past' c' d' h p q post) :
    gap.Tracks past c d h
      (Grammar.skipNewlines >>= fun _ => Grammar.expect close expected >>= fun _ => p)
      (Grammar.skipNewlines >>= fun _ => Grammar.expect close expected >>= fun _ => q) post := by
  apply skipNewlines hcd
  · intro _ c' a c'' hok
    rw [kind_of_expect hok, breakable_of_endsOperand hend.2, breaksBefore_close hclose]
  · intro feeds c' d' hfeeds hal
    exact Tracks.bind (expectClose hal hclose ((opened_lines hfeeds).trans hend.1)) fun _ _ _ _ => hkl _ _ _

/-- A comma behind an operand and what follows it, or the bracket that closes. -/
theorem listing {p : Parser γ} {q : Parser δ} {close : TokenKind} {expected : String} {b : Bool} {outer : List Bool}
    {x : γ} {y : δ} (hcd : gap.Faces past c d) (hclose : close = .symbol .parenClose ∨ close = .symbol .bracketClose)
    (hend : EndsIn (b :: outer) past) (hxy : y = h x)
    (hkl : ∀ past' c' d', gap.Faces past' c' d' → opened past' = b :: outer → Free past' →
      gap.Tracks past' c' d' h p q (EndsIn outer)) :
    gap.Tracks past c d h
      (Grammar.skipNewlines >>= fun _ => Grammar.eat (.symbol .comma) >>= fun taken =>
        if taken = true then p else Grammar.expect close expected >>= fun _ => pure x)
      (Grammar.skipNewlines >>= fun _ => Grammar.eat (.symbol .comma) >>= fun taken =>
        if taken = true then q else Grammar.expect close expected >>= fun _ => pure y) (EndsIn outer) := by
  apply skipNewlines hcd
  · intro _ c' a c'' hok
    -- A break that stands here ends nothing, since a comma or a closing bracket follows.
    rw [breakable_of_endsOperand hend.2]
    by_cases hcomma : c'.kind = .symbol .comma
    · rw [hcomma]
      rfl
    · rw [bind_apply, eat_of_ne hcomma] at hok
      rw [kind_of_expect hok, breaksBefore_close hclose]
  · intro feeds c' d' hfeeds hal
    have hopened := (opened_lines hfeeds).trans hend.1
    apply eat hal (by simp) (by simp)
    · intro hcd'
      exact hkl _ _ _ hcd' ((opened_plain rfl).trans hopened) (free_of_breaksBehind rfl (by simp))
    · intro _
      exact Tracks.map (expectClose hal hclose hopened) (fun _ => hxy) fun _ => id

end Tracks

/-! ## Section 5: Looking Ahead -/

namespace Tracks

variable {h : γ → δ} {post : Past → Prop}

/-- The line feeds before a point that continues a chain are skipped on both sides, and no others are. -/
theorem skipToChain {k : PUnit → Parser γ} {l : PUnit → Parser δ} (hcd : gap.Faces past c d)
    (hend : endsOperand past = true)
    (hal : ∀ past' c' d', gap.Aligned past' c' d' → opened past' = opened past →
      (c'.kind ≠ .symbol .dot → endsOperand past' = true) → gap.Tracks past' c' d' h (k ()) (l ()) post)
    (hgap : breaksBefore c.kind = true → c.kind ≠ .symbol .dot → d.kind = .newline →
      gap.Tracks past c d h (k ()) (l ()) post) :
    gap.Tracks past c d h (Grammar.skipToChain >>= k) (Grammar.skipToChain >>= l) post := by
  obtain ⟨passed, hpassed, hkinds, hal'⟩ := hcd.skip (· = .newline) rfl
  have hfeeds : ∀ kind ∈ passed, kind = .newline := fun kind hkind => of_decide_eq_true (hpassed kind hkind)
  by_cases hdot : (skipFrom (· = .newline) c.token c.rest).kind = .symbol .dot
  · -- both come to the point, whether there are line feeds before it or not
    have hcome : ∀ {ε : Type} {c : Cursor} {m : PUnit → Parser ε},
        (skipFrom (· = .newline) c.token c.rest).kind = .symbol .dot →
        (Grammar.skipToChain >>= m) c = m () (skipFrom (· = .newline) c.token c.rest) := by
      intro ε c m hc
      rw [skipToChain_bind]
      by_cases hline : c.kind = .newline
      · rw [if_pos (by simp [continuesChain, hline, hc])]
      · rw [if_neg (by simp [continuesChain, hline]), skipFrom_of_not (decide_eq_false hline)]
    refine moved (hcome hdot) (hcome (hal'.kind_eq.trans hdot)) ?_
      (hal (passed.reverse ++ past) _ _ hal' ?_ fun hne => absurd hdot hne)
    · rw [hkinds]
      refine Passage.of_newlines hfeeds fun _ => ?_
      rw [breakable_of_endsOperand hend]
      exact congrArg breaksBefore hdot
    · exact opened_lines fun kind hkind => hfeeds kind (List.mem_reverse.mp hkind)
  · -- both stay
    have hstay : ∀ {ε : Type} {c : Cursor} {m : PUnit → Parser ε},
        (skipFrom (· = .newline) c.token c.rest).kind ≠ .symbol .dot → (Grammar.skipToChain >>= m) c = m () c := by
      intro ε c m hc
      rw [skipToChain_bind, if_neg (by simp [continuesChain, hc])]
    refine moved (hstay hdot) (hstay (hal'.kind_eq.symm ▸ hdot)) .refl ?_
    -- Only where the line feed itself stands here do the two cursors see different tokens.
    rcases hcd.cases_kind with h | ⟨hd, _, hbreakable⟩
    · exact hal past c d h rfl fun _ => hend
    · rw [breakable_of_endsOperand hend] at hbreakable
      refine hgap hbreakable (fun hc => hdot ?_) hd
      rw [skipFrom_of_not (by rw [hc]; rfl)]
      exact hc

/-- Going on behind the parameters of a closure. -/
theorem behindParams {k : List String → Parser γ} {l : List String → Parser δ} (hloose : gap.Loose past c d)
    (hkl : ∀ names past' c' d', gap.Loose past' c' d' → opened past' = opened past →
      gap.Tracks past' c' d' h (k names) (l names) post) :
    gap.Tracks past c d h (Grammar.behindParams k) (Grammar.behindParams l) post := by
  -- The names are the same on both sides, and so is whether an arrow stands behind them.
  obtain ⟨hnames, hbeyond⟩ := hloose.closureParams_eq
  obtain ⟨past', hloose', hpassage, hopened⟩ := hbeyond.exists_passage (fun _ => id) hloose.notEnclosed
  have hd : Grammar.behindParams l d = l (closureParams c).1 (closureParams d).2 := hnames ▸ rfl
  exact moved (r := k (closureParams c).1) rfl hd hpassage (hkl _ past' _ _ hloose' hopened)

/-- Looking for the alternative of a condition, which stands where lines are not joined. -/
theorem lookElse {p p' : Parser γ} {q q' : Parser δ} (hloose : gap.Loose past c d)
    (hfound : ∀ past' c' d', gap.Loose past' c' d' → opened past' = opened past →
      gap.Tracks past' c' d' h p q post)
    (hmissing : gap.Tracks past c d h p' q' post) :
    gap.Tracks past c d h (lookBehind (.keyword .elses) p p') (lookBehind (.keyword .elses) q q') post := by
  have hbeyond := (Faces.aligned hloose.aligned).skip isSeparator rfl
  obtain ⟨past', hloose', hpassage, hopened⟩ := hbeyond.exists_passage (fun _ => role_of_isSeparator) hloose.notEnclosed
  have hkinds := hloose'.aligned.kind_eq
  by_cases hkind : (skipFrom isSeparator c.token c.rest).kind = .keyword .elses
  · have hfound' : gap.Tracks past' _ _ h (Grammar.advance >>= fun _ => p) (Grammar.advance >>= fun _ => q) post :=
      advance hloose'.aligned hkind (by simp) (by simp) fun hcd =>
        hfound _ _ _ (hcd.loose (opened_plain rfl) hloose'.notEnclosed) ((opened_plain rfl).trans hopened)
    exact moved (r := Grammar.advance >>= fun _ => p) (s := Grammar.advance >>= fun _ => q) (lookBehind_of_eq hkind)
      (lookBehind_of_eq (hkinds.trans hkind)) hpassage hfound'
  -- Without `else` both sides give the separators back.
  · exact moved (lookBehind_of_ne hkind) (lookBehind_of_ne (hkinds.symm ▸ hkind)) .refl hmissing

end Tracks

end Gap

end RowConsole.Script.Grammar
