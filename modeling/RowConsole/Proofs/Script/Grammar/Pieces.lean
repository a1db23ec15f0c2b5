import RowConsole.Proofs.Script.Grammar.Front

/-!
# Programs Made of Pieces

What the front of a token list is to the whole: a program whose positions are moved is the same program with
its positions moved, two programs with a line feed between them are one program, and a program between the
braces of a function without parameters is the body of that function and nothing else.

Main statements: `parseTokens_move`, `parseTokens_lines`, `parseTokens_function` and
`exists_body_of_parseTokens`.
-/

namespace RowConsole.Script.Grammar

/-! ## Section 1: Token Lists and Cursors -/

/-- The cursor at which tokens stand in front of those of another cursor. -/
def Cursor.before (ts : List Token) (c : Cursor) : Cursor :=
  match ts with
  | [] => c
  | t :: ts => ⟨t, ts ++ c.token :: c.rest⟩

/-- No token is an end of the input. -/
def Endless (ts : List Token) : Prop :=
  ∀ t ∈ ts, t.kind ≠ .eof

theorem Endless.cons {t : Token} {ts : List Token} (ht : t.kind ≠ .eof) (hts : Endless ts) : Endless (t :: ts) :=
  List.forall_mem_cons.mpr ⟨ht, hts⟩

theorem Endless.append {ts ts' : List Token} (h : Endless ts) (h' : Endless ts') : Endless (ts ++ ts') := by
  intro t ht
  rcases List.mem_append.mp ht with ht | ht
  · exact h t ht
  · exact h' t ht

theorem Endless.map {ts : List Token} (h : Endless ts) (f : Pos → Pos) : Endless (ts.map (moveToken f)) := by
  intro t ht
  obtain ⟨t', ht', rfl⟩ := List.mem_map.mp ht
  exact h t' ht'

theorem Cursor.tokens_before (ts : List Token) (c : Cursor) :
    (c.before ts).token :: (c.before ts).rest = ts ++ c.token :: c.rest := by
  cases ts <;> rfl

theorem Cursor.closed_before (ts : List Token) {c : Cursor} (hc : c.Closed) : (c.before ts).Closed := by
  cases ts with
  | nil => exact hc
  | cons t ts =>
    rw [Cursor.Closed, List.getLastD_eq_getLast?] at hc ⊢
    simpa [Cursor.before, List.getLast?_append, List.getLast?_cons] using hc

private theorem Cursor.before_append (ts us : List Token) (c : Cursor) : c.before (ts ++ us) =
    (c.before us).before ts := by
  cases ts with
  | nil => rfl
  | cons t ts =>
    show (⟨t, (ts ++ us) ++ c.token :: c.rest⟩ : Cursor) = ⟨t, ts ++ (c.before us).token :: (c.before us).rest⟩
    rw [Cursor.tokens_before, List.append_assoc]

private theorem Seam.facing_before (s : Seam) {ts : List Token} (hts : Endless ts) :
    s.Facing (Cursor.before ts ⟨s.last, []⟩) (Cursor.before (ts.map s.move) s.beyond) := by
  cases ts with
  | nil => exact .atEnd
  | cons t ts => exact .inside t ts hts

/-! ## Section 2: Programs That Are Read or Not -/

/-- Positions are moved without tearing lines apart or joining them. -/
def KeepsLines (f : Pos → Pos) : Prop :=
  ∀ p q, (f p).line = (f q).line ↔ p.line = q.line

theorem keepsLines_id : KeepsLines id := fun _ _ => Iff.rfl

/-- The seam at which the end of the input stays the end. -/
def Seam.moved {f : Pos → Pos} (hf : KeepsLines f) {last : Token} (hlast : last.kind = .eof) : Seam where
  shift := f
  last := last
  next := moveToken f last
  rest := []
  isEnd := hlast
  isNext := Or.inl hlast
  pos := rfl
  lines := hf
  closed := hlast
  noChain h := absurd (hlast.symm.trans h) (by simp)
  noElse h := absurd (hlast.symm.trans h) (by simp)

private theorem statements_eq_of_le {c : Cursor} (hc : c.Closed) {depth fuel fuel' : Nat} {stop : TokenKind}
    (hfuel : 32 * c.size + 20 ≤ fuel) (hle : fuel ≤ fuel') :
    statements fuel depth stop c = statements fuel' depth stop c := by
  induction hle with
  | refl => rfl
  | step hle ih =>
    rw [ih]
    rcases (allSettled _).statements depth stop hc (Nat.le_trans hfuel hle) with ⟨e, hp, hq⟩ | ⟨a, c', hp, hq, _⟩
    · rw [hp, hq]
    · rw [hp, hq]

/-- The statements of a token list that ends with the input. -/
abbrev ReadsTo (ts : List Token) (last : Token) (outcome : Except Stop (List Stmt × Cursor)) : Prop :=
  Ends (fun fuel => statements fuel 0 .eof) (Cursor.before ts ⟨last, []⟩) outcome

section Programs

variable {ts : List Token} {last : Token}

/-- A token list is read as a program whose statements end where the input does, or it fails in its
statements. -/
theorem parseTokens_cases (hts : Endless ts) (hlast : last.kind = .eof) :
    (∃ p, parseTokens (ts ++ [last]) = .ok p ∧ ReadsTo ts last (.ok (p, ⟨last, []⟩))) ∨
      ∃ e, parseTokens (ts ++ [last]) = .error (.failed e) ∧ ReadsTo ts last (.error (.failed e)) := by
  have hclosed : (Cursor.before ts ⟨last, []⟩).Closed := Cursor.closed_before ts hlast
  have htokens := Cursor.tokens_before ts ⟨last, []⟩
  generalize hc : Cursor.before ts ⟨last, []⟩ = c at hclosed htokens
  obtain ⟨fuel, hfuel⟩ : ∃ fuel, fuel = fuelFor (c.rest.length + 1) := ⟨_, rfl⟩
  have hbound : 32 * c.size + 20 ≤ fuel := by
    rw [hfuel]
    unfold fuelFor Cursor.size
    omega
  have hparse : parseTokens (ts ++ [last]) = (program fuel c).map Prod.fst := by
    rw [← htokens]
    exact parseTokens_eq hclosed (Nat.le_of_eq hfuel.symm)
  have hends : ∀ outcome, statements fuel 0 .eof c = outcome → ReadsTo ts last outcome := by
    intro outcome houtcome
    refine ⟨fuel, fun fuel' hle => ?_⟩
    rw [hc, ← houtcome]
    exact (statements_eq_of_le hclosed hbound hle).symm
  rcases (allSettled fuel).statements 0 .eof hclosed hbound with ⟨e, hstatements, _⟩ | ⟨p, c', hstatements, _⟩
  · right
    refine ⟨e, ?_, hends _ hstatements⟩
    rw [hparse]
    unfold program
    rw [bind_apply, hstatements]
    rfl
  · left
    -- the statements end at the end of the input because no earlier token is one
    have hfacing := Seam.facing_before (Seam.moved keepsLines_id hlast) hts
    obtain ⟨rfl, _⟩ := Seam.statements_front (Or.inl rfl) (hc ▸ hfacing) hstatements
    refine ⟨p, ?_, hends _ hstatements⟩
    rw [hparse]
    unfold program
    rw [bind_apply, hstatements]
    show Except.map Prod.fst ((expect .eof "end of input" >>= fun _ => pure p : Parser _) ⟨last, []⟩) = _
    rw [bind_apply, expect_of_eq (show Cursor.kind ⟨last, []⟩ = .eof from hlast)]
    rfl

theorem parseTokens_of_readsTo (hts : Endless ts) (hlast : last.kind = .eof) {p : List Stmt} {c : Cursor}
    (h : ReadsTo ts last (.ok (p, c))) : parseTokens (ts ++ [last]) = .ok p := by
  obtain ⟨bound, h⟩ := h
  rcases parseTokens_cases hts hlast with ⟨p', hparse, bound', h'⟩ | ⟨e, _, bound', h'⟩
  · have heq := (h (max bound bound') (Nat.le_max_left ..)).symm.trans (h' _ (Nat.le_max_right ..))
    cases heq
    exact hparse
  · have heq := (h (max bound bound') (Nat.le_max_left ..)).symm.trans (h' _ (Nat.le_max_right ..))
    contradiction

theorem readsTo_of_parseTokens (hts : Endless ts) (hlast : last.kind = .eof) {p : List Stmt}
    (h : parseTokens (ts ++ [last]) = .ok p) : ReadsTo ts last (.ok (p, ⟨last, []⟩)) := by
  rcases parseTokens_cases hts hlast with ⟨p', hparse, hreads⟩ | ⟨e, hparse, _⟩
  · cases h.symm.trans hparse
    exact hreads
  · cases h.symm.trans hparse

end Programs

/-! ## Section 3: Moved Positions -/

section Moved

variable {f : Pos → Pos} {ts : List Token} {last : Token}

/-- A program whose positions are moved is the same program with its positions moved. -/
theorem parseTokens_move (hf : KeepsLines f) (hts : Endless ts) (hlast : last.kind = .eof) {p : List Stmt}
    (h : parseTokens (ts ++ [last]) = .ok p) :
    parseTokens ((ts ++ [last]).map (moveToken f)) = .ok (mapPosStmts f p) := by
  obtain ⟨bound, hreads⟩ := readsTo_of_parseTokens hts hlast h
  have hlast' : (moveToken f last).kind = .eof := hlast
  have hfacing := Seam.facing_before (Seam.moved hf hlast) hts
  rw [List.map_append]
  apply parseTokens_of_readsTo (c := ⟨moveToken f last, []⟩) (hts.map f) hlast'
  refine ⟨bound + p.length + 1, fun fuel hfuel => ?_⟩
  obtain ⟨_, hfront⟩ := Seam.statements_front (Or.inl rfl) hfacing (hreads fuel (by omega))
  have hend : ∀ fuel, statements (fuel + 1) 0 .eof (Seam.moved hf hlast).beyond =
      .ok ([], ⟨moveToken f last, []⟩) := fun fuel => Seam.statementsHere_stop hlast
  obtain ⟨n, hn⟩ : ∃ n, fuel - p.length = n + 1 := ⟨fuel - p.length - 1, by omega⟩
  rw [hn, hend] at hfront
  have happend : mapPosStmts f p = mapPosStmts f p ++ [] := (List.append_nil _).symm
  rw [happend]
  exact hfront

/-- What is no program is none with its positions moved either. -/
theorem parseTokens_move_error (hf : KeepsLines f) (hts : Endless ts) (hlast : last.kind = .eof) {stop : Stop}
    (h : parseTokens (ts ++ [last]) = .error stop) :
    ∃ stop', parseTokens ((ts ++ [last]).map (moveToken f)) = .error stop' := by
  have hlast' : (moveToken f last).kind = .eof := hlast
  have hfacing := Seam.facing_before (Seam.moved hf hlast) hts
  rw [List.map_append]
  rcases parseTokens_cases hts hlast with ⟨p, hparse, _⟩ | ⟨e, _, bound, hreads⟩
  · rw [hparse] at h
    contradiction
  · rcases parseTokens_cases (hts.map f) hlast' with ⟨p, _, bound', hreads'⟩ | ⟨e', hparse', _⟩
    · -- behind the end of the input nothing can have been taken
      have hfailed := hreads (max bound bound') (Nat.le_max_left ..)
      have hpast := ((Seam.allAgree (Seam.moved hf hlast) _).statements 0 .eof hfacing).failed e hfailed p _
        (hreads' _ (Nat.le_max_right ..))
      exact absurd hpast.2 (Nat.not_lt_zero _)
    · exact ⟨_, hparse'⟩

end Moved

/-! ## Section 4: Programs on Lines -/

section Lines

variable {f : Pos → Pos} {ts us : List Token} {last last' : Token} {p q : List Stmt}

/-- Skipping line feeds and then separators is skipping separators. -/
theorem skipFrom_skipFrom (token : Token) (rest : List Token) :
    skipFrom isSeparator (skipFrom (· = .newline) token rest).token (skipFrom (· = .newline) token rest).rest =
      skipFrom isSeparator token rest := by
  induction rest generalizing token with
  | nil => rfl
  | cons next rest ih =>
    by_cases hkind : token.kind = .newline
    · have hnewline : skipFrom (· = .newline) token (next :: rest) = skipFrom (· = .newline) next rest :=
        if_pos (by simp [hkind])
      have hseparator : skipFrom isSeparator token (next :: rest) = skipFrom isSeparator next rest :=
        if_pos (by simp [hkind, isSeparator])
      rw [hnewline, hseparator, ih]
    · have hnewline : skipFrom (· = .newline) token (next :: rest) = ⟨token, next :: rest⟩ :=
        if_neg (by simp [hkind])
      rw [hnewline]

/-- A program starts with a statement or has none: no token stands first that starts nothing. -/
theorem startsNothing_of_statements {fuel depth : Nat} {c c' : Cursor}
    (h : statements fuel depth .eof c = .ok (p, c')) :
    startsNothing (skipFrom isSeparator c.token c.rest).kind = false := by
  cases fuel with
  | zero => contradiction
  | succ fuel =>
    rw [statements_apply] at h
    generalize skipFrom isSeparator c.token c.rest = c₁ at h
    cases hnothing : startsNothing c₁.kind with
    | false => rfl
    | true =>
      have heof : c₁.kind ≠ .eof := by
        intro heof
        rw [heof] at hnothing
        contradiction
      obtain ⟨_, _, _, hstmt, _⟩ := Seam.statementsHere_ok heof heof h
      exact absurd hstmt (statement_refuses hnothing fuel depth _ _)

/-- The seam at which a line feed and other tokens stand in place of the end. -/
def Seam.line (hf : KeepsLines f) (hlast : last.kind = .eof) {c : Cursor} (hc : c.Closed)
    (hdot : (skipFrom (· = .newline) c.token c.rest).kind ≠ .symbol .dot)
    (helse : (skipFrom isSeparator c.token c.rest).kind ≠ .keyword .elses) : Seam where
  shift := f
  last := last
  next := ⟨.newline, f last.pos⟩
  rest := c.token :: c.rest
  isEnd := hlast
  isNext := Or.inr rfl
  pos := rfl
  lines := hf
  closed := Cursor.closed_before [⟨.newline, f last.pos⟩] hc
  noChain := hdot
  noElse := helse

/-- Nothing is lost of the statements behind the line feed. -/
theorem Seam.statements_beyond_line (hf : KeepsLines f) (hlast : last.kind = .eof) {c : Cursor} (hc : c.Closed)
    (hdot : (skipFrom (· = .newline) c.token c.rest).kind ≠ .symbol .dot)
    (helse : (skipFrom isSeparator c.token c.rest).kind ≠ .keyword .elses) (fuel depth : Nat)
    (stop : TokenKind) :
    statements fuel depth stop (Seam.line hf hlast hc hdot helse).beyond = statements fuel depth stop c := by
  cases fuel <;> rfl

/-- Two programs with a line feed between them are one program. -/
theorem parseTokens_lines (hf : KeepsLines f) (hts : Endless ts) (hus : Endless us) (hlast : last.kind = .eof)
    (hlast' : last'.kind = .eof) (hp : parseTokens (ts ++ [last]) = .ok p)
    (hq : parseTokens (us ++ [last']) = .ok q) :
    parseTokens (ts.map (moveToken f) ++ ⟨.newline, f last.pos⟩ :: us ++ [last']) =
      .ok (mapPosStmts f p ++ q) := by
  obtain ⟨bound, hp⟩ := readsTo_of_parseTokens hts hlast hp
  obtain ⟨bound', hq⟩ := readsTo_of_parseTokens hus hlast' hq
  have hstart := startsNothing_of_statements (hq bound' (Nat.le_refl _))
  generalize hc : Cursor.before us ⟨last', []⟩ = c at hq hstart
  have hclosed : c.Closed := hc ▸ Cursor.closed_before us hlast'
  -- The second program starts with a statement, so nothing of the first one is continued.
  have helse : (skipFrom isSeparator c.token c.rest).kind ≠ .keyword .elses := by
    intro helse
    rw [helse] at hstart
    contradiction
  have hdot : (skipFrom (· = .newline) c.token c.rest).kind ≠ .symbol .dot := by
    intro hdot
    rw [← skipFrom_skipFrom, skipFrom_of_not (by rw [hdot]; rfl), hdot] at hstart
    contradiction
  have hfacing := Seam.facing_before (Seam.line hf hlast hclosed hdot helse) hts
  apply parseTokens_of_readsTo (c := ⟨last', []⟩) ((hts.map f).append (hus.cons (by simp))) hlast'
  refine ⟨bound + bound' + p.length, fun fuel hfuel => ?_⟩
  obtain ⟨_, hfront⟩ := Seam.statements_front (Or.inl rfl) hfacing (hp fuel (by omega))
  have hrest := hq (fuel - p.length) (by omega)
  dsimp only at hrest
  rw [Seam.statements_beyond_line, hrest] at hfront
  have hcursor : Cursor.before (ts.map (moveToken f) ++ ⟨.newline, f last.pos⟩ :: us) ⟨last', []⟩ =
      Cursor.before (ts.map (moveToken f)) (Seam.line hf hlast hclosed hdot helse).beyond := by
    rw [Cursor.before_append, ← List.singleton_append, Cursor.before_append, hc]
    rfl
  rw [hcursor]
  exact hfront

end Lines

/-! ## Section 5: Programs as Bodies -/

section Bodies

variable {f : Pos → Pos} {ts : List Token} {last : Token} {p : List Stmt} {name : String}

/-- The tokens around the body of a function without parameters, at any positions. -/
structure Wrapping where
  keyword : Pos
  name : Pos
  parenOpen : Pos
  parenClose : Pos
  braceOpen : Pos
  newline : Pos
  braceClose : Pos
  finish : Pos

/-- The tokens up to the body. -/
def Wrapping.opening (w : Wrapping) (name : String) : List Token :=
  [⟨.keyword .defines, w.keyword⟩, ⟨.ident name, w.name⟩, ⟨.symbol .parenOpen, w.parenOpen⟩,
    ⟨.symbol .parenClose, w.parenClose⟩, ⟨.symbol .braceOpen, w.braceOpen⟩, ⟨.newline, w.newline⟩]

/-- The cursor at the closing brace. -/
def Wrapping.closing (w : Wrapping) : Cursor :=
  ⟨⟨.symbol .braceClose, w.braceClose⟩, [⟨.eof, w.finish⟩]⟩

private theorem declaration_opening (w : Wrapping) (name : String) (c : Cursor) (fuel depth : Nat) :
    declaration (fuel + 1) depth (c.before (w.opening name)) =
      (braced fuel depth (c.before [⟨.newline, w.newline⟩])).bind fun (body, c') =>
        .ok (.function name [] body w.keyword, c') := by
  rfl

private theorem statements_before_newline (c : Cursor) (at_ : Pos) (fuel depth : Nat) (stop : TokenKind) :
    statements fuel depth stop (c.before [⟨.newline, at_⟩]) = statements fuel depth stop c := by
  cases fuel <;> rfl

/-- What the opening makes of the statements behind it. -/
theorem statement_opening (w : Wrapping) (name : String) (c : Cursor) (fuel depth : Nat) :
    statement (fuel + 3) depth (c.before (w.opening name)) =
      (statements fuel depth (.symbol .braceClose) c).bind fun (body, c') =>
        (expect (.symbol .braceClose) "'\x7d'" c').bind fun (_, c'') =>
          .ok (.function name [] body w.keyword, c'') := by
  -- The line break behind the brace is passed over with the other separators.
  have hbraced : braced (fuel + 1) depth (c.before [⟨.newline, w.newline⟩]) =
      (statements fuel depth (.symbol .braceClose) c).bind fun (body, c') =>
        (expect (.symbol .braceClose) "'\x7d'" c').bind fun (_, c'') => .ok (body, c'') := by
    rw [← statements_before_newline c w.newline]
    rfl
  show declaration (fuel + 2) depth (c.before (w.opening name)) = _
  rw [declaration_opening, hbraced]
  cases statements fuel depth (.symbol .braceClose) c with
  | error stop => rfl
  | ok read =>
    obtain ⟨body, c'⟩ := read
    cases hexpect : expect (.symbol .braceClose) "'\x7d'" c' with
    | error stop => simp [Except.bind, hexpect]
    | ok read => simp [Except.bind, hexpect]

/-- A statement that starts with the opening is a function: its body is what is read up to a closing brace. -/
theorem statement_opening_ok {w : Wrapping} {c c' : Cursor} {fuel depth : Nat} {stmt : Stmt}
    (h : statement (fuel + 3) depth (c.before (w.opening name)) = .ok (stmt, c')) :
    ∃ body c₁, statements fuel depth (.symbol .braceClose) c = .ok (body, c₁) ∧
      c₁.kind = .symbol .braceClose ∧ c' = c₁.advance ∧ stmt = .function name [] body w.keyword := by
  rw [statement_opening] at h
  cases hbody : statements fuel depth (.symbol .braceClose) c with
  | error stop =>
    rw [hbody] at h
    contradiction
  | ok read =>
    obtain ⟨body, c₁⟩ := read
    rw [hbody] at h
    -- The body ends where its closing brace is, or the parser fails there.
    by_cases hbrace : c₁.kind = .symbol .braceClose
    · simp only [Except.bind, expect_of_eq hbrace] at h
      cases h
      exact ⟨body, c₁, rfl, hbrace, rfl, rfl⟩
    · simp only [Except.bind, expect_of_ne hbrace] at h
      contradiction

/-- The tokens of a function around a body. -/
def Wrapping.tokens (w : Wrapping) (name : String) (body : List Token) (behind : Pos) : List Token :=
  w.opening name ++ (body ++ [⟨.newline, behind⟩, ⟨.symbol .braceClose, w.braceClose⟩])

/-- The seam in front of the closing brace. -/
def Wrapping.seam (w : Wrapping) (hf : KeepsLines f) (hlast : last.kind = .eof) : Seam :=
  Seam.line hf hlast (show w.closing.Closed from rfl) (show TokenKind.symbol .braceClose ≠ _ by simp)
    (show TokenKind.symbol .braceClose ≠ _ by simp)

private theorem Wrapping.endless_tokens (w : Wrapping) (name : String) (hts : Endless ts) (f : Pos → Pos)
    (behind : Pos) : Endless (w.tokens name (ts.map (moveToken f)) behind) := by
  have hopening : Endless (w.opening name) := by simp [Endless, Wrapping.opening]
  have hclosing : Endless [⟨.newline, behind⟩, ⟨.symbol .braceClose, w.braceClose⟩] := by simp [Endless]
  exact hopening.append ((hts.map f).append hclosing)

private theorem Wrapping.before_tokens (w : Wrapping) (name : String) (hf : KeepsLines f) (hlast : last.kind = .eof) :
    Cursor.before (w.tokens name (ts.map (moveToken f)) (f last.pos)) ⟨⟨.eof, w.finish⟩, []⟩ =
      ((w.seam hf hlast).beyond.before (ts.map (moveToken f))).before (w.opening name) := by
  unfold Wrapping.tokens
  rw [Cursor.before_append, Cursor.before_append]
  rfl

/-- What is read of a whole function. -/
theorem statementsHere_opening (w : Wrapping) (name : String) (c : Cursor) (fuel : Nat) :
    statements (fuel + 4) 0 .eof (c.before (w.opening name)) =
      statementsHere (fuel + 3) 0 .eof (c.before (w.opening name)) :=
  rfl

/-- The body of a function without parameters is the program that stands between its braces. -/
theorem parseTokens_function (w : Wrapping) (name : String) (hf : KeepsLines f) (hts : Endless ts)
    (hlast : last.kind = .eof) (hp : parseTokens (ts ++ [last]) = .ok p) :
    parseTokens (w.tokens name (ts.map (moveToken f)) (f last.pos) ++ [⟨.eof, w.finish⟩]) =
      .ok [.function name [] (mapPosStmts f p) w.keyword] := by
  obtain ⟨bound, hp⟩ := readsTo_of_parseTokens hts hlast hp
  apply parseTokens_of_readsTo (c := ⟨⟨.eof, w.finish⟩, []⟩) (w.endless_tokens name hts f _) rfl
  refine ⟨bound + p.length + 5, fun fuel hfuel => ?_⟩
  obtain ⟨k, rfl⟩ : ∃ k, fuel = k + 4 := ⟨fuel - 4, by omega⟩
  dsimp only
  rw [w.before_tokens name hf hlast, statementsHere_opening]
  have hfacing := Seam.facing_before (w.seam hf hlast) hts
  obtain ⟨_, hfront⟩ := Seam.statements_front (Or.inr rfl) hfacing (hp k (by omega))
  -- behind the program only the line feed and the brace are left
  have hbeyond : statements (k - p.length) 0 (.symbol .braceClose) (w.seam hf hlast).beyond =
      .ok ([], w.closing) := by
    obtain ⟨n, hn⟩ : ∃ n, k - p.length = n + 1 := ⟨k - p.length - 1, by omega⟩
    rw [hn]
    show statementsHere n 0 (.symbol .braceClose) w.closing = _
    exact Seam.statementsHere_stop rfl
  rw [hbeyond] at hfront
  have hbody : statements k 0 (.symbol .braceClose)
      ((w.seam hf hlast).beyond.before (ts.map (moveToken f))) = .ok (mapPosStmts f p, w.closing) := by
    rw [← List.append_nil (mapPosStmts f p)]
    exact hfront
  have hstmt : statement (k + 3) 0
      (((w.seam hf hlast).beyond.before (ts.map (moveToken f))).before (w.opening name)) =
        .ok (.function name [] (mapPosStmts f p) w.keyword, ⟨⟨.eof, w.finish⟩, []⟩) := by
    rw [statement_opening, hbody]
    rfl
  rw [Seam.statementsHere_cons (by simp [Cursor.before, Wrapping.opening, Cursor.kind])
    (by simp [Cursor.before, Wrapping.opening, Cursor.kind]) hstmt rfl]
  rfl

/-- Where a token that is no separator stands behind, skipping separators does not reach the end. -/
theorem kind_skipFrom_before {us : List Token} (hus : Endless us) {c : Cursor} (heof : c.kind ≠ .eof)
    (hseparator : isSeparator c.kind = false) :
    (skipFrom isSeparator (c.before us).token (c.before us).rest).kind ≠ .eof := by
  induction us with
  | nil =>
    show (skipFrom isSeparator c.token c.rest).kind ≠ .eof
    rw [skipFrom_of_not hseparator]
    exact heof
  | cons u us ih =>
    obtain ⟨hu, hus⟩ := List.forall_mem_cons.mp hus
    -- One token at a time is passed over, until one is no separator.
    have hskip : skipFrom isSeparator (c.before (u :: us)).token (c.before (u :: us)).rest =
        if isSeparator u.kind then skipFrom isSeparator (c.before us).token (c.before us).rest
        else c.before (u :: us) := by
      cases us <;> rfl
    rw [hskip]
    split
    · exact ih hus
    · exact hu

/-- Where a statement can start, there is one. -/
theorem ne_nil_of_statements {fuel : Nat} {c c' : Cursor}
    (hkind : (skipFrom isSeparator c.token c.rest).kind ≠ .eof)
    (h : statements fuel 0 .eof c = .ok (p, c')) : p ≠ [] := by
  cases fuel with
  | zero => contradiction
  | succ fuel =>
    rw [statements_apply] at h
    obtain ⟨_, _, _, _, _, _, rfl⟩ := Seam.statementsHere_ok hkind hkind h
    exact List.cons_ne_nil _ _

private theorem Cursor.before_cons_advance (t : Token) (us : List Token) (c : Cursor) :
    (c.before (t :: us)).advance = c.before us := by
  cases us <;> rfl

theorem Cursor.ext_tokens {c c' : Cursor} (h : c.token :: c.rest = c'.token :: c'.rest) : c = c' := by
  cases c
  cases c'
  obtain ⟨rfl, rfl⟩ := List.cons.inj h
  rfl

/-- A closing brace that is not the last one of the list has tokens of the list behind it. -/
theorem Wrapping.brace_cases (w : Wrapping) {us : List Token} {d : Cursor}
    (hfrom : (w.closing.before us).From d) (hd : d.kind = .symbol .braceClose) :
    d = w.closing ∨ ∃ us', us' <:+ us ∧ d.advance = w.closing.before us' := by
  induction us with
  | nil =>
    left
    rcases List.suffix_cons_iff.mp hfrom with heq | hrest
    · exact Cursor.ext_tokens heq
    · -- the only token behind the brace is the end of the input
      have heof : d.token = ⟨.eof, w.finish⟩ := by
        rcases List.suffix_cons_iff.mp hrest with heq | hnil
        · exact (List.cons.inj heq).1
        · exact absurd (List.suffix_nil.mp hnil) (List.cons_ne_nil _ _)
      rw [Cursor.kind, heof] at hd
      contradiction
  | cons u us ih =>
    rcases List.suffix_cons_iff.mp hfrom with heq | hrest
    · right
      have hd : d = w.closing.before (u :: us) := Cursor.ext_tokens heq
      exact ⟨us, List.suffix_cons u us, by rw [hd, Cursor.before_cons_advance]⟩
    · have hinner : (w.closing.before us).From d := by
        unfold Cursor.From
        rw [Cursor.tokens_before]
        exact hrest
      rcases ih hinner with rfl | ⟨us', hsuffix, hadvance⟩
      · exact Or.inl rfl
      · exact Or.inr ⟨us', hsuffix.trans (List.suffix_cons u us), hadvance⟩

/-- What a function around a body can be read as: its body then is the program between the braces. -/
theorem exists_body_of_parseTokens (w : Wrapping) (name : String) (hf : KeepsLines f) (hts : Endless ts)
    (hlast : last.kind = .eof) {stmt : Stmt}
    (h : parseTokens (w.tokens name (ts.map (moveToken f)) (f last.pos) ++ [⟨.eof, w.finish⟩]) = .ok [stmt]) :
    ∃ p, parseTokens (ts ++ [last]) = .ok p := by
  rcases parseTokens_cases hts hlast with ⟨p, hp, _⟩ | ⟨e, _, bound, hreads⟩
  · exact ⟨p, hp⟩
  exfalso
  obtain ⟨bound', hreads'⟩ := readsTo_of_parseTokens (w.endless_tokens name hts f _) rfl h
  obtain ⟨k, hk⟩ : ∃ k, k = bound + bound' := ⟨_, rfl⟩
  have hwhole := hreads' (k + 4) (by omega)
  dsimp only at hwhole
  rw [w.before_tokens name hf hlast, statementsHere_opening] at hwhole
  have hfacing := Seam.facing_before (w.seam hf hlast) hts
  have hfailed := hreads k (by omega)
  obtain ⟨_, d₂, rest, hstmt, _, hrest, hcons⟩ := Seam.statementsHere_ok
    (by simp [Cursor.before, Wrapping.opening, Cursor.kind])
    (by simp [Cursor.before, Wrapping.opening, Cursor.kind]) hwhole
  obtain ⟨_, rfl⟩ := List.cons.inj hcons
  obtain ⟨body, d₁, hbody, hbrace, rfl, _⟩ := statement_opening_ok hstmt
  -- the body was not read to the seam, so the brace that closes it is not the last one
  have hweight := Seam.statements_front_failed hfacing hfailed hbody
  have hcursor : (w.seam hf hlast).beyond.before (ts.map (moveToken f)) =
      w.closing.before (ts.map (moveToken f) ++ [⟨.newline, f last.pos⟩]) :=
    (Cursor.before_append _ [_] w.closing).symm
  have hfrom := hcursor ▸ Shrinks.shrinks hbody
  rcases w.brace_cases hfrom hbrace with rfl | ⟨us, hsuffix, hadvance⟩
  · exact hweight rfl
  · -- the last brace is left over, and nothing that starts with it is read
    have hnewline : Endless [⟨.newline, f last.pos⟩] := by simp [Endless]
    have hus : Endless us := fun t ht => (hts.map f).append hnewline t (hsuffix.subset ht)
    rw [hadvance] at hrest
    have hkind := kind_skipFrom_before hus (c := w.closing) (by simp [Wrapping.closing, Cursor.kind]) rfl
    exact ne_nil_of_statements hkind hrest rfl

end Bodies

end RowConsole.Script.Grammar
