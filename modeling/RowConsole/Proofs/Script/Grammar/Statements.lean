import RowConsole.Proofs.Script.Grammar.Expressions

/-!
# Reading Statements

What is printed for a statement in a line of its own is read back as that statement up to positions. Main
statements: `readable` and `legible`, that this holds of every expression and statement whose data can be
spelled, and `program_reads`, that it holds of programs.
-/

namespace RowConsole.Script.Grammar

variable {spelled : List TokenKind} {nesting depth : Nat} {c : Cursor} {kind : TokenKind}
  {rest : List TokenKind}

/-! ## Section 1: Lines -/

/-- Whether a token can start a statement. -/
def startsStmt : TokenKind → Bool
  | .keyword .defines | .keyword .ifs | .keyword .whiles | .keyword .fors => true
  | .keyword .returns | .keyword .breaks | .keyword .continues => true
  | kind => startsExpr kind

/-- Whether a line can start with a token: it continues nothing in the line before. -/
def startsLine (kind : TokenKind) : Bool :=
  startsStmt kind || kind = .symbol .braceClose || kind = .eof

/-- What starts a line is none of the tokens that start none. -/
private theorem startsLine_ne {first : TokenKind} (h : startsLine first = true) {other : TokenKind}
    (hother : startsLine other = false) : first ≠ other := by
  rintro rfl
  rw [h] at hother
  contradiction

/-- What starts a statement starts a line. -/
private theorem startsLine_of_startsStmt (h : startsStmt kind = true) : startsLine kind = true := by
  simp [startsLine, h]

/-- What starts a line is no separator. -/
private theorem isSeparator_of_startsLine (h : startsLine kind = true) : isSeparator kind = false := by
  have hline : kind ≠ .newline := startsLine_ne h rfl
  have hsemicolon : kind ≠ .symbol .semicolon := startsLine_ne h rfl
  simp [isSeparator, hline, hsemicolon]

/-- The tokens of a statement: behind a first identifier no list of names goes on. -/
def OpensStmt (spelled : List TokenKind) : Prop :=
  ∃ first tail, spelled = first :: tail ∧ startsStmt first = true ∧
    ∀ name, first = .ident name → ∀ second tail', tail = second :: tail' →
      second ≠ .symbol .comma ∧ second ≠ .symbol .arrow

/-- The tokens of a statement, and how deeply constructs are nested in them. They are read as a statement
where a line ends behind them. -/
structure Line (made : Stmt → Prop) (spelled : List TokenKind) (nesting : Nat) : Prop where
  opens : OpensStmt spelled
  reads : ∀ ⦃depth : Nat⦄ ⦃c : Cursor⦄ ⦃next : TokenKind⦄ ⦃rest : List TokenKind⦄, depth ≤ maxNesting →
    c.kinds = spelled ++ .newline :: next :: rest → startsLine next = true →
    Returns (depth + nesting ≤ maxNesting) (fun fuel => statement fuel depth) made (.newline :: next :: rest) c

/-- What is printed for a statement is read back. -/
def Legible (s : Stmt) : Prop :=
  Line (Stmt.Like s) (s.spell true) (s.nesting true)

/-- A program is its first statement, a line feed, and the others. -/
theorem spellProgram_cons (s : Stmt) (ss : List Stmt) :
    spellProgram true (s :: ss) = s.spell true ++ .newline :: spellProgram true ss := by
  simp [spellProgram, spellStmts]

/-- The first token of some lines and what closes them. -/
theorem program_head {ss : List Stmt} (h : ∀ s ∈ ss, Legible s) {stop : TokenKind}
    (hstop : startsLine stop = true) (rest : List TokenKind) :
    ∃ next tail, spellProgram true ss ++ stop :: rest = next :: tail ∧ startsLine next = true := by
  cases ss with
  | nil => exact ⟨stop, rest, rfl, hstop⟩
  | cons s ss =>
    obtain ⟨first, tail, hspelled, hfirst, _⟩ := (h s List.mem_cons_self).opens
    refine ⟨first, tail ++ .newline :: (spellProgram true ss ++ stop :: rest), ?_, startsLine_of_startsStmt hfirst⟩
    simp [spellProgram_cons, hspelled]

/-- Behind a line feed the next line starts. -/
theorem skipFrom_newline {next : TokenKind} {skips : TokenKind → Bool} (hc : c.kinds = .newline :: next :: rest)
    (hskips : skips .newline = true) (hnext : skips next = false) :
    (skipFrom skips c.token c.rest).kinds = next :: rest := by
  have hadvance := Cursor.kinds_advance hc (by simp)
  rw [skipFrom_of_skips (Cursor.kind_eq hc ▸ hskips), skipFrom_of_not, hadvance]
  rwa [Cursor.kind_eq hadvance]

/-- Statements in lines of their own, up to what closes them. -/
theorem statements_reads {ss : List Stmt} (h : ∀ s ∈ ss, Legible s) {stop : TokenKind}
    (hstop : stop = .symbol .braceClose ∨ stop = .eof) (hdepth : depth ≤ maxNesting)
    (hc : (skipFrom isSeparator c.token c.rest).kinds = spellProgram true ss ++ stop :: rest) :
    Returns (depth + nestingStmts true ss ≤ maxNesting) (fun fuel => statements fuel depth stop) (Alike ss)
      (stop :: rest) c := by
  have hstops : startsLine stop = true := by rcases hstop with rfl | rfl <;> rfl
  induction ss generalizing c with
  | nil =>
    refine Reads.succ (Reads.skipSeparators (Reads.peek hc ?_))
    simp only [decide_true, Bool.true_or, if_true]
    exact Reads.here hdepth rfl hc
  | cons s ss ih =>
    have hs := h s List.mem_cons_self
    have hss := fun s' hmem => h s' (List.mem_cons_of_mem _ hmem)
    obtain ⟨first, tail, hspelled, hfirst, _⟩ := hs.opens
    obtain ⟨next, more, hmore, hnext⟩ := program_head hss hstops rest
    rw [spellProgram_cons, List.append_assoc, List.cons_append, hmore] at hc
    -- No statement starts with what ends the list.
    have hne : ¬(first = stop ∨ first = .eof) := by
      rcases hstop with rfl | rfl <;> rintro (rfl | rfl) <;> contradiction
    rw [nestingStmts]
    refine Reads.succ (Reads.skipSeparators (Reads.peek (hspelled ▸ hc) ?_))
    simp only [Bool.or_eq_true, decide_eq_true_eq, if_neg hne]
    refine (hs.reads hdepth hc hnext).bind (by omega) fun s' c₁ hfits₁ hs' hc₁ => ?_
    refine Reads.peek hc₁ ?_
    -- Each statement ends in a line break, which is a separator before the next one.
    have hskip := skipFrom_newline hc₁ rfl (isSeparator_of_startsLine hnext)
    refine (ih hss (hskip.trans hmore.symm)).bind (by omega) fun ss' c₂ hfits₂ hss' hc₂ => ?_
    exact Reads.here (by omega) (Alike.cons hs' hss') hc₂

/-! ## Section 2: Bodies -/

/-- Statements up to the closing brace. -/
theorem braced_reads {ss : List Stmt} (h : ∀ s ∈ ss, Legible s) (hdepth : depth ≤ maxNesting)
    (hc : (skipFrom isSeparator c.token c.rest).kinds =
      spellProgram true ss ++ .symbol .braceClose :: kind :: rest) :
    Returns (depth + nestingStmts true ss ≤ maxNesting) (fun fuel => braced fuel depth) (Alike ss)
      (kind :: rest) c := by
  refine Reads.succ ?_
  refine (statements_reads h (Or.inl rfl) hdepth hc).bind id fun ss' c₁ hfits hss' hc₁ => ?_
  refine Reads.expect hc₁ (by simp) fun _ c₂ hc₂ => ?_
  exact Reads.here hfits hss' hc₂

/-- Behind the opening brace, separators end at the first statement or at the closing brace. -/
private theorem skipFrom_braces {ss : List Stmt} (h : ∀ s ∈ ss, Legible s)
    (hc : c.kinds = .newline :: (spellProgram true ss ++ .symbol .braceClose :: rest)) :
    (skipFrom isSeparator c.token c.rest).kinds = spellProgram true ss ++ .symbol .braceClose :: rest := by
  obtain ⟨next, more, hmore, hnext⟩ := program_head h (show startsLine (.symbol .braceClose) = true from rfl) rest
  rw [hmore] at hc ⊢
  exact skipFrom_newline hc rfl (isSeparator_of_startsLine hnext)

/-- A body in braces begins with a line feed, and each of its statements ends with one. -/
theorem braces_append (ss : List Stmt) (rest : List TokenKind) :
    braces (spellStmts true ss) ++ rest =
      .symbol .braceOpen :: .newline :: (spellProgram true ss ++ .symbol .braceClose :: rest) := by
  simp [braces, spellProgram]

/-- The body of a condition or a loop. -/
theorem block_reads {ss : List Stmt} (h : ∀ s ∈ ss, Legible s)
    (hc : c.kinds = .symbol .braceOpen :: .newline ::
      (spellProgram true ss ++ .symbol .braceClose :: kind :: rest)) :
    Returns (depth + (nestingStmts true ss + 1) ≤ maxNesting) (fun fuel => block fuel depth) (Alike ss)
      (kind :: rest) c := by
  refine Reads.succ (Reads.enter (by omega) fun hdepth => ?_)
  refine Reads.skipNewlines hc (by simp) (Reads.eat hc (by simp) fun c₁ hc₁ => ?_)
  exact (braced_reads h hdepth (skipFrom_braces h hc₁)).of_iff (by omega)

/-! ## Section 3: Closures -/

/-- Names up to an arrow. -/
theorem identifiers_names {params : List String} {tokens : List Token} (hparams : params ≠ [])
    (h : tokens.map Token.kind = commas (params.map fun p => [.ident p]) ++ .symbol .arrow :: rest) :
    ∃ tokens', identifiers tokens = (params, tokens') ∧ tokens'.map Token.kind = .symbol .arrow :: rest := by
  induction params generalizing tokens with
  | nil => exact absurd rfl hparams
  | cons name names ih =>
    cases names with
    | nil =>
      obtain ⟨⟨_, p⟩, tokens, rfl, rfl, htail⟩ := List.map_eq_cons_iff.mp h
      obtain ⟨⟨_, p'⟩, tokens, rfl, rfl, htail'⟩ := List.map_eq_cons_iff.mp htail
      exact ⟨⟨.symbol .arrow, p'⟩ :: tokens, rfl, congrArg _ htail'⟩
    -- Two tokens are read at a time, a name with its comma; the last name stops at the arrow.
    | cons next names =>
      obtain ⟨⟨_, p⟩, tokens, rfl, rfl, htail⟩ := List.map_eq_cons_iff.mp h
      obtain ⟨⟨_, p'⟩, tokens, rfl, rfl, htail'⟩ := List.map_eq_cons_iff.mp htail
      obtain ⟨tokens', heq, hrest⟩ := ih (List.cons_ne_nil next names) htail'
      exact ⟨tokens', by rw [identifiers, heq], hrest⟩

/-- Names separated by commas begin with a name. -/
private theorem names_head (name : String) (names : List String) (rest : List TokenKind) :
    ∃ tail, commas ((name :: names).map fun p => [.ident p]) ++ rest = .ident name :: tail := by
  cases names with
  | nil => exact ⟨_, rfl⟩
  | cons next names => exact ⟨_, rfl⟩

/-- The parameters of a closure begin with a name. -/
private theorem spellParams_head (name : String) (names : List String) (rest : List TokenKind) :
    ∃ tail, spellParams (name :: names) ++ rest = .ident name :: tail := by
  rw [spellParams, if_neg (by simp), List.append_assoc]
  exact names_head name names _

/-- The parameters of a closure stand before its arrow. -/
theorem closureParams_names {name : String} {names : List String} (hrest : rest ≠ [])
    (hc : c.kinds = spellParams (name :: names) ++ rest) :
    ∃ c', closureParams c = (name :: names, c') ∧ c'.kinds = rest := by
  obtain ⟨tail, hhead⟩ := spellParams_head name names rest
  have hkind : c.kind ≠ .symbol .arrow := by
    rw [Cursor.kind_eq (hc.trans hhead)]
    simp
  rw [spellParams, if_neg (by simp), List.append_assoc] at hc
  have hmap : (c.token :: c.rest).map Token.kind =
      commas ((name :: names).map fun p => [.ident p]) ++ .symbol .arrow :: rest := hc
  obtain ⟨tokens, heq, htokens⟩ := identifiers_names (List.cons_ne_nil name names) hmap
  obtain ⟨⟨_, p⟩, tokens, rfl, rfl, htail⟩ := List.map_eq_cons_iff.mp htokens
  refine ⟨Cursor.advance ⟨⟨.symbol .arrow, p⟩, tokens⟩, ?_, Cursor.kinds_advance htokens hrest⟩
  simp [closureParams, hkind, heq]

/-- Nothing is read as parameters where no list of names starts. -/
theorem closureParams_none {first : TokenKind} {tail : List TokenKind} (hc : c.kinds = first :: tail)
    (harrow : first ≠ .symbol .arrow)
    (hname : ∀ name, first = .ident name →
      ∃ second tail', tail = second :: tail' ∧ second ≠ .symbol .comma ∧ second ≠ .symbol .arrow) :
    closureParams c = ([], c) := by
  obtain ⟨⟨kind, p⟩, tokens⟩ := c
  obtain ⟨rfl, htail⟩ := List.cons.inj hc
  rw [closureParams, if_neg harrow]
  -- A name may be read before the sign behind it shows that it is no parameter.
  by_cases hident : ∃ name, kind = .ident name
  · obtain ⟨name, rfl⟩ := hident
    obtain ⟨second, tail', rfl, hcomma, hnoarrow⟩ := hname name rfl
    obtain ⟨⟨next, p'⟩, tokens, rfl, rfl, _⟩ := List.map_eq_cons_iff.mp htail
    have hnames : identifiers (⟨.ident name, p⟩ :: ⟨next, p'⟩ :: tokens) = ([name], ⟨next, p'⟩ :: tokens) := by
      rw [identifiers]
      simpa using hcomma
    rw [hnames]
    split
    · simp_all
    · rfl
  · have hnames : identifiers (⟨kind, p⟩ :: tokens) = ([], ⟨kind, p⟩ :: tokens) := by
      unfold identifiers
      split
      · simp_all
      · simp_all
      · rfl
    rw [hnames]
    split
    · simp_all
    · rfl

/-- The first statement of a closure without parameters is not read as parameters. -/
theorem closureParams_body {ss : List Stmt} (h : ∀ s ∈ ss, Legible s)
    (hc : c.kinds = spellProgram true ss ++ .symbol .braceClose :: rest) : closureParams c = ([], c) := by
  cases ss with
  | nil => exact closureParams_none hc (by simp) fun _ hname => nomatch hname
  | cons s ss =>
    obtain ⟨first, tail, hspelled, hfirst, hsecond⟩ := (h s List.mem_cons_self).opens
    rw [spellProgram_cons, hspelled, List.append_assoc, List.cons_append] at hc
    have harrow : first ≠ .symbol .arrow := by
      rintro rfl
      contradiction
    refine closureParams_none hc harrow fun name hname => ?_
    cases tail with
    | nil => exact ⟨.newline, _, rfl, by simp⟩
    | cons second tail' => exact ⟨second, _, rfl, hsecond name hname second tail' rfl⟩

/-- Behind the opening brace of a closure its parameters are found, and behind these its body. -/
theorem closureParams_reads {params : List String} {body : List Stmt} (h : ∀ s ∈ body, Legible s)
    (hc : c.kinds = spellParams params ++
      .newline :: (spellProgram true body ++ .symbol .braceClose :: kind :: rest)) :
    ∃ c', closureParams (skipFrom (· = .newline) c.token c.rest) = (params, c') ∧
      (skipFrom isSeparator c'.token c'.rest).kinds =
        spellProgram true body ++ .symbol .braceClose :: kind :: rest := by
  cases params with
  -- Without parameters the break before the body is passed over already.
  | nil =>
    have hc : c.kinds = .newline :: (spellProgram true body ++ .symbol .braceClose :: kind :: rest) := hc
    obtain ⟨next, more, hmore, hnext⟩ :=
      program_head h (show startsLine (.symbol .braceClose) = true from rfl) (kind :: rest)
    rw [hmore] at hc
    have hnewline : next ≠ .newline := startsLine_ne hnext rfl
    have hc₁ : (skipFrom (· = .newline) c.token c.rest).kinds = next :: more :=
      skipFrom_newline hc rfl (by simpa using hnewline)
    have hsep : isSeparator (skipFrom (· = .newline) c.token c.rest).kind = false := by
      rw [Cursor.kind_eq hc₁]
      exact isSeparator_of_startsLine hnext
    refine ⟨_, closureParams_body h (hc₁.trans hmore.symm), ?_⟩
    rw [skipFrom_of_not hsep, hc₁, hmore]
  -- With parameters there is no line break before them.
  | cons name names =>
    obtain ⟨tail, hhead⟩ := spellParams_head name names
      (.newline :: (spellProgram true body ++ .symbol .braceClose :: kind :: rest))
    have hskip : skipFrom (· = .newline) c.token c.rest = c := by
      refine skipFrom_of_not ?_
      rw [Cursor.kind_eq (hc.trans hhead)]
      rfl
    obtain ⟨c', hparams, hc'⟩ := closureParams_names (by simp) hc
    exact ⟨c', by rw [hskip, hparams], skipFrom_braces h hc'⟩

/-- A closure is read if the statements of its body are. -/
private theorem readable_closure {params : List String} {body : List Stmt} {p : Pos} (h : ∀ s ∈ body, Legible s) :
    Readable (.closure params body p) := by
  refine Piece.of_primary (Opens.of_not_word rfl rfl) ⟨_, _, rfl, rfl⟩ fun depth c kind rest hdepth hc => ?_
  simp only [Expr.spell, List.cons_append, List.append_assoc] at hc
  have hc : c.kinds = .symbol .braceOpen :: (spellParams params ++
      .newline :: (spellProgram true body ++ .symbol .braceClose :: kind :: rest)) := hc
  rw [Expr.nesting]
  refine Reads.succ (Reads.peek hc (Reads.succ (Reads.expect hc (by simp) fun start c₁ hc₁ => ?_)))
  refine Reads.enter (by omega) fun hdepth₁ => Reads.skipLines (Reads.get ?_)
  obtain ⟨c₂, hparams, hc₂⟩ := closureParams_reads h hc₁
  simp only [hparams]
  refine Reads.set ((braced_reads h hdepth₁ hc₂).bind (by omega) fun ss c₃ hfits hss hc₃ => ?_)
  exact Reads.here (by omega) (Expr.Like.closure hss) hc₃

/-! ## Section 4: Expressions and Assignments -/

/-- A line feed ends an expression where a line starts behind it. -/
private theorem endsBefore_line {next : TokenKind} (hnext : startsLine next = true) (rest : List TokenKind) :
    EndsBefore 0 .newline (next :: rest) :=
  endsBefore_newline (startsLine_ne hnext rfl) (startsLine_ne hnext rfl)

/-- An expression begins like a statement. -/
private theorem OpensStmt.of_opens (h : Opens spelled) : OpensStmt spelled := by
  obtain ⟨first, tail, hspelled, hfirst, hsecond⟩ := h
  have hstarts : startsStmt first = true := by
    unfold startsStmt
    split <;> first | rfl | exact hfirst
  refine ⟨first, tail, hspelled, hstarts, fun name hname second tail' htail => ?_⟩
  have hfollows := hsecond second tail' htail (hname ▸ rfl)
  constructor
  · rintro rfl
    contradiction
  · rintro rfl
    contradiction

/-- It does so with more tokens behind it, unless they make a list of names of it. -/
theorem OpensStmt.append {more : List TokenKind} (h : OpensStmt spelled) (hcomma : kind ≠ .symbol .comma)
    (harrow : kind ≠ .symbol .arrow) : OpensStmt (spelled ++ kind :: more) := by
  obtain ⟨first, tail, rfl, hfirst, hsecond⟩ := h
  refine ⟨first, tail ++ kind :: more, rfl, hfirst, fun name hname second tail' htail => ?_⟩
  cases tail with
  | nil =>
    obtain ⟨rfl, _⟩ := List.cons.inj htail
    exact ⟨hcomma, harrow⟩
  | cons next tail =>
    obtain ⟨rfl, _⟩ := List.cons.inj htail
    exact hsecond name hname next tail rfl

/-- No argument stands behind the first word of an expression. -/
theorem isCommandCall_eq_false (h : Opens spelled) (hc : c.kinds = spelled ++ kind :: rest)
    (hkind : startsArgument kind = false) : isCommandCall c = false := by
  obtain ⟨first, next, tail, heq, hfirst, hnext⟩ := h.second kind rest
  rw [heq] at hc
  -- Behind a word comes a sign that goes on with it, or what ends the statement.
  have hargument : isWord first = true → startsArgument next = false := by
    intro hword
    rcases hnext hword with hfollows | rfl
    · cases next <;> first | rfl | contradiction
    · exact hkind
  unfold isCommandCall
  split
  · next name second tokens hident hrest =>
    have hcons := List.cons.inj hc
    have hsecond : second.kind = next := by
      rw [hrest] at hcons
      exact (List.cons.inj hcons.2).1
    have hword : isWord first = true := by
      rw [← hcons.1, hident]
      rfl
    rw [hsecond, hargument hword, Bool.and_false]
  · rfl

/-- A statement that starts like an expression is an expression or an assignment. -/
theorem statement_simple {fits : Prop} {made : Stmt → Prop} {kinds : List TokenKind} (h : Opens spelled)
    (hc : c.kinds = spelled ++ kind :: rest) (hkind : startsArgument kind = false)
    (hsimple : Returns fits (fun fuel => simple fuel depth) made kinds c) :
    Returns fits (fun fuel => statement fuel depth) made kinds c := by
  have hcommand := isCommandCall_eq_false h hc hkind
  obtain ⟨first, tail, rfl, hfirst, _⟩ := h
  refine Reads.succ (Reads.peek hc ?_)
  split
  iterate 8 contradiction
  refine Reads.get ?_
  simp only [hcommand]
  exact hsimple

/-- An expression is a statement by itself where nothing follows that it could be joined to. -/
theorem statement_expr {made : Expr → Prop} {rank : Nat} {member : Bool} (h : Piece made spelled rank nesting member)
    (hc : c.kinds = spelled ++ kind :: rest) (hends : EndsBefore 0 kind rest) (hargument : startsArgument kind = false)
    (hassign : assignOp? kind = none) :
    Returns (depth + (nesting + 1) ≤ maxNesting) (fun fuel => statement fuel depth)
      (fun s => ∃ e, made e ∧ s = .expr e) (kind :: rest) c := by
  refine statement_simple h.opens hc hargument (Reads.succ (Reads.position fun start => ?_))
  refine (h.expr hc hends).bind id fun e c₁ hfits he hc₁ => Reads.peek hc₁ ?_
  simp only [hassign]
  exact Reads.here hfits ⟨e, he, rfl⟩ hc₁

/-- An expression is read as a statement if it is read as an expression. -/
private theorem legible_expr {e : Expr} (h : Readable e) : Legible (.expr e) := by
  refine ⟨OpensStmt.of_opens h.opens, fun depth c next rest hdepth hc hnext => ?_⟩
  refine (statement_expr h hc (endsBefore_line hnext rest) rfl rfl).mono fun s hs => ?_
  obtain ⟨e', he', rfl⟩ := hs
  exact Stmt.Like.expr he'

/-- An assignment is read if its target and its value are. -/
private theorem legible_assign {target value : Expr} {op : AssignOp} {p : Pos} (htarget : Readable target)
    (hvalue : Readable value) (hplain : target.isTarget = true) : Legible (.assign target op value p) := by
  have hop : assignOp? (.symbol op.symbol) = some op := by cases op <;> rfl
  -- The sign of an assignment starts no argument, so the target is not taken for a command.
  have hargument : startsArgument (.symbol op.symbol) = false := by cases op <;> rfl
  have hopens : OpensStmt (target.spell true ++ .symbol op.symbol :: value.spell true) :=
    (OpensStmt.of_opens htarget.opens).append (by cases op <;> simp [AssignOp.symbol])
      (by cases op <;> simp [AssignOp.symbol])
  obtain ⟨first, tail, hspelled, hfirst⟩ := hvalue.head
  refine ⟨hopens, fun depth c next rest hdepth hc hnext => ?_⟩
  rw [Stmt.spell, List.append_assoc, List.cons_append] at hc
  rw [Stmt.nesting]
  refine statement_simple htarget.opens hc hargument (Reads.succ (Reads.position fun start => ?_))
  refine (htarget.expr hc (endsBefore_assign op _)).bind (by omega) fun target' c₁ hfits₁ htarget' hc₁ => ?_
  refine Reads.peek hc₁ ?_
  simp only [hop, ← htarget'.isTarget_eq, hplain, if_true]
  refine Reads.advance hc₁ (by simp [hspelled]) fun _ c₂ _ hc₂ => ?_
  refine Reads.skipNewlines (hspelled ▸ hc₂) (startsExpr_ne hfirst rfl) ?_
  refine (hvalue.expr hc₂ (endsBefore_line hnext rest)).bind (by omega) fun value' c₃ hfits₃ hvalue' hc₃ => ?_
  exact Reads.here (by omega) (Stmt.Like.assign htarget' hvalue') hc₃

/-! ## Section 5: Declarations -/

/-- Parameters behind the first ones, up to the closing parenthesis. -/
theorem paramsFrom_reads {done : List String} {name : String} {names : List String}
    (hnodup : (done ++ name :: names).Nodup)
    (hc : c.kinds = commas ((name :: names).map fun p => [.ident p]) ++ .symbol .parenClose :: kind :: rest) :
    Returns True (fun fuel => paramsFrom fuel done) (fun ps => ps = done ++ name :: names) (kind :: rest) c := by
  -- The parser refuses a name that it has read before.
  have hnew : name ∉ done := fun hmem =>
    (List.nodup_append.mp hnodup).2.2 name hmem name List.mem_cons_self rfl
  induction names generalizing done name c with
  | nil =>
    have hc : c.kinds = .ident name :: .symbol .parenClose :: kind :: rest := hc
    refine Reads.succ (Reads.eatNot hc (by simp) (Reads.expectIdent hc (by simp) fun c₁ hc₁ => ?_))
    simp only [List.contains_iff_mem, if_neg hnew]
    refine Reads.skipNewlines hc₁ (by simp) (Reads.eatNot hc₁ (by simp) ?_)
    refine Reads.expect hc₁ (by simp) fun _ c₂ hc₂ => ?_
    exact Reads.here trivial rfl hc₂
  | cons next names ih =>
    have hc : c.kinds = .ident name :: .symbol .comma ::
        (commas ((next :: names).map fun p => [.ident p]) ++ .symbol .parenClose :: kind :: rest) := hc
    have hnodup' : (done ++ [name] ++ next :: names).Nodup := by simpa using hnodup
    -- The names that are done grow by one, and are still apart from those to come.
    have hnew' : next ∉ done ++ [name] := fun hmem =>
      (List.nodup_append.mp hnodup').2.2 next hmem next List.mem_cons_self rfl
    obtain ⟨tail, hhead⟩ := names_head next names (.symbol .parenClose :: kind :: rest)
    refine Reads.succ (Reads.eatNot hc (by simp) (Reads.expectIdent hc (by simp) fun c₁ hc₁ => ?_))
    simp only [List.contains_iff_mem, if_neg hnew]
    refine Reads.skipNewlines hc₁ (by simp) (Reads.eat hc₁ (by simp) fun c₂ hc₂ => ?_)
    refine Reads.skipNewlines (hc₂.trans hhead) (by simp) ?_
    exact (ih hnodup' hc₂ hnew').mono fun ps hps => by simp [hps]

/-- Parameters with different names are read in their order. -/
private theorem params_reads {names : List String} (hnodup : names.Nodup)
    (hc : c.kinds = .symbol .parenOpen ::
      (commas (names.map fun p => [.ident p]) ++ .symbol .parenClose :: kind :: rest)) :
    Returns True (fun fuel => params fuel) (fun ps => ps = names) (kind :: rest) c := by
  refine Reads.expect hc (by simp) fun _ c₁ hc₁ => ?_
  cases names with
  | nil =>
    refine Reads.skipNewlines hc₁ (by simp) (Reads.eat hc₁ (by simp) fun c₂ hc₂ => ?_)
    exact Reads.here trivial rfl hc₂
  | cons name names =>
    obtain ⟨tail, hhead⟩ := names_head name names (.symbol .parenClose :: kind :: rest)
    have hnodup : ([] ++ name :: names).Nodup := hnodup
    refine Reads.skipNewlines (hc₁.trans hhead) (by simp) (Reads.eatNot (hc₁.trans hhead) (by simp) ?_)
    exact paramsFrom_reads hnodup hc₁

/-- A statement whose first token is a keyword. -/
theorem OpensStmt.keyword {k : Keyword} {tail : List TokenKind} (h : startsStmt (.keyword k) = true) :
    OpensStmt (.keyword k :: tail) :=
  ⟨_, tail, rfl, h, fun _ hname => nomatch hname⟩

/-- A declaration without a value is read. -/
private theorem legible_declare {name : String} {p : Pos} : Legible (.declare name none p) := by
  refine ⟨OpensStmt.keyword rfl, fun depth c next rest hdepth hc hnext => ?_⟩
  refine Reads.succ (Reads.peek hc (Reads.succ (Reads.advance hc (by simp) fun t c₁ _ hc₁ => ?_)))
  refine Reads.expectIdent hc₁ (by simp) fun c₂ hc₂ => Reads.peek hc₂ ?_
  refine Reads.eatNot hc₂ (by simp) (Reads.here hdepth rfl hc₂)

/-- A declaration is read if its value is. -/
private theorem legible_declare_some {name : String} {e : Expr} {p : Pos} (h : Readable e) :
    Legible (.declare name (some e) p) := by
  obtain ⟨first, tail, hspelled, hfirst⟩ := h.head
  refine ⟨OpensStmt.keyword rfl, fun depth c next rest hdepth hc hnext => ?_⟩
  simp only [Stmt.spell, List.cons_append] at hc
  refine Reads.succ (Reads.peek hc (Reads.succ (Reads.advance hc (by simp) fun t c₁ _ hc₁ => ?_)))
  refine Reads.expectIdent hc₁ (by simp) fun c₂ hc₂ => Reads.peek hc₂ ?_
  refine Reads.eat hc₂ (by simp) fun c₃ hc₃ => ?_
  refine Reads.skipNewlines (hspelled ▸ hc₃) (startsExpr_ne hfirst rfl) ?_
  refine (h.expr hc₃ (endsBefore_line hnext rest)).bind id fun e' c₄ hfits he' hc₄ => ?_
  exact Reads.here hfits (Stmt.Like.declare he') hc₄

/-- A function is read if the statements of its body are and its parameters have different names. -/
private theorem legible_function {name : String} {names : List String} {body : List Stmt} {p : Pos}
    (h : ∀ s ∈ body, Legible s) (hnodup : names.Nodup) : Legible (.function name names body p) := by
  refine ⟨OpensStmt.keyword rfl, fun depth c next rest hdepth hc hnext => ?_⟩
  simp only [Stmt.spell, List.cons_append, List.append_assoc, braces_append] at hc
  refine Reads.succ (Reads.peek hc (Reads.succ (Reads.advance hc (by simp) fun t c₁ _ hc₁ => ?_)))
  refine Reads.expectIdent hc₁ (by simp) fun c₂ hc₂ => Reads.peek hc₂ ?_
  refine (params_reads hnodup hc₂).bind (fun _ => trivial) fun ps c₃ _ hps hc₃ => ?_
  obtain rfl := hps
  refine Reads.skipNewlines hc₃ (by simp) (Reads.expect hc₃ (by simp) fun _ c₄ hc₄ => ?_)
  refine (braced_reads h hdepth (skipFrom_braces h hc₄)).bind id fun ss c₅ hfits hss hc₅ => ?_
  exact Reads.here hfits (Stmt.Like.function hss) hc₅

/-! ## Section 6: Conditions and Loops -/

/-- A condition in parentheses. -/
theorem condition_reads {e : Expr} (h : Readable e)
    (hc : c.kinds = .symbol .parenOpen :: (e.spell true ++ .symbol .parenClose :: kind :: rest)) :
    Returns (depth + (e.nesting true + 1) ≤ maxNesting) (fun fuel => condition fuel depth) (Expr.Like e)
      (kind :: rest) c := by
  obtain ⟨first, tail, hspelled, hfirst⟩ := h.head
  refine Reads.succ (Reads.expect hc (by simp) fun _ c₁ hc₁ => ?_)
  refine Reads.skipNewlines (hspelled ▸ hc₁) (startsExpr_ne hfirst rfl) ?_
  refine (h.expr hc₁ (endsBefore_parenClose _)).bind id fun e' c₂ hfits he' hc₂ => ?_
  refine Reads.skipNewlines hc₂ (by simp) (Reads.expect hc₂ (by simp) fun _ c₃ hc₃ => ?_)
  exact Reads.here hfits he' hc₃

/-- A loop on a condition is read if the condition and the statements of the body are. -/
private theorem legible_whileLoop {cond : Expr} {body : List Stmt} (hcond : Readable cond)
    (hbody : ∀ s ∈ body, Legible s) : Legible (.whileLoop cond body) := by
  refine ⟨OpensStmt.keyword rfl, fun depth c next rest hdepth hc hnext => ?_⟩
  simp only [Stmt.spell_whileLoop, List.cons_append, List.append_assoc, braces_append] at hc
  rw [Stmt.nesting_whileLoop]
  refine Reads.succ (Reads.peek hc (Reads.advance hc (by simp) fun t c₁ _ hc₁ => ?_))
  refine (condition_reads hcond hc₁).bind (by omega) fun cond' c₂ hfits₂ hcond' hc₂ => ?_
  refine (block_reads hbody hc₂).bind (by omega) fun body' c₃ hfits₃ hbody' hc₃ => ?_
  exact Reads.here (by omega) (Stmt.Like.whileLoop hcond' hbody') hc₃

/-- A loop over elements is read if their expression and the statements of the body are. -/
private theorem legible_forLoop {var : String} {items : Expr} {body : List Stmt} {p : Pos} (hitems : Readable items)
    (hbody : ∀ s ∈ body, Legible s) : Legible (.forLoop var items body p) := by
  refine ⟨OpensStmt.keyword rfl, fun depth c next rest hdepth hc hnext => ?_⟩
  simp only [Stmt.spell, List.cons_append, List.append_assoc, braces_append] at hc
  rw [Stmt.nesting]
  refine Reads.succ (Reads.peek hc (Reads.succ (Reads.advance hc (by simp) fun t c₁ _ hc₁ => ?_)))
  refine Reads.expect hc₁ (by simp) fun _ c₂ hc₂ => ?_
  refine Reads.skipDeclarator hc₂ (by simp) (by simp) fun c₃ hc₃ => ?_
  refine Reads.expectIdent hc₃ (by simp) fun c₄ hc₄ => Reads.expect hc₄ (by simp) fun _ c₅ hc₅ => ?_
  refine (hitems.expr hc₅ (endsBefore_parenClose _)).bind (by omega) fun items' c₆ hfits₆ hitems' hc₆ => ?_
  refine Reads.expect hc₆ (by simp) fun _ c₇ hc₇ => ?_
  refine (block_reads hbody hc₇).bind (by omega) fun body' c₈ hfits₈ hbody' hc₈ => ?_
  exact Reads.here (by omega) (Stmt.Like.forLoop hitems' hbody') hc₈

/-- A condition without an alternative is read if its parts are. -/
private theorem legible_branch {cond : Expr} {thenBody : List Stmt} (hcond : Readable cond)
    (hthen : ∀ s ∈ thenBody, Legible s) : Legible (.branch cond thenBody none) := by
  refine ⟨OpensStmt.keyword rfl, fun depth c next rest hdepth hc hnext => ?_⟩
  simp only [Stmt.spell, List.cons_append, List.append_assoc, braces_append] at hc
  rw [Stmt.nesting]
  refine Reads.succ (Reads.peek hc (Reads.succ (Reads.advance hc (by simp) fun t c₁ _ hc₁ => ?_)))
  refine (condition_reads hcond hc₁).bind (by omega) fun cond' c₂ hfits₂ hcond' hc₂ => ?_
  refine (block_reads hthen hc₂).bind (by omega) fun then' c₃ hfits₃ hthen' hc₃ => ?_
  -- the next line is looked at, and given back since it has no alternative
  refine Reads.get (Reads.skipSeparators ?_)
  have hc₄ := skipFrom_newline hc₃ rfl (isSeparator_of_startsLine hnext)
  refine Reads.eatNot hc₄ (startsLine_ne hnext rfl) (Reads.set ?_)
  exact Reads.here (by omega) (Stmt.Like.branch hcond' hthen') hc₃

/-- A condition with an alternative is read if its parts are. -/
private theorem legible_branch_else {cond : Expr} {thenBody elseBody : List Stmt} (hcond : Readable cond)
    (hthen : ∀ s ∈ thenBody, Legible s) (helse : ∀ s ∈ elseBody, Legible s) :
    Legible (.branch cond thenBody (some elseBody)) := by
  refine ⟨OpensStmt.keyword rfl, fun depth c next rest hdepth hc hnext => ?_⟩
  simp only [Stmt.spell, List.cons_append, List.append_assoc, braces_append] at hc
  rw [Stmt.nesting]
  refine Reads.succ (Reads.peek hc (Reads.succ (Reads.advance hc (by simp) fun t c₁ _ hc₁ => ?_)))
  refine (condition_reads hcond hc₁).bind (by omega) fun cond' c₂ hfits₂ hcond' hc₂ => ?_
  refine (block_reads hthen hc₂).bind (by omega) fun then' c₃ hfits₃ hthen' hc₃ => ?_
  have hkind : isSeparator c₃.kind = false := by rw [Cursor.kind_eq hc₃]; rfl
  refine Reads.get (Reads.skipSeparators ?_)
  rw [skipFrom_of_not hkind]
  refine Reads.eat hc₃ (by simp) fun c₄ hc₄ => Reads.peek hc₄ ?_
  refine (block_reads helse hc₄).bind (by omega) fun else' c₅ hfits₅ helse' hc₅ => ?_
  exact Reads.here (by omega) (Stmt.Like.branchElse hcond' hthen' helse') hc₅

/-- A `return` without a value is read. -/
private theorem legible_returns : Legible (.returns none) := by
  refine ⟨OpensStmt.keyword rfl, fun depth c next rest hdepth hc hnext => ?_⟩
  refine Reads.succ (Reads.peek hc (Reads.advance hc (by simp) fun t c₁ _ hc₁ => Reads.peek hc₁ ?_))
  exact Reads.here hdepth rfl hc₁

/-- A `return` is read if its value is. -/
private theorem legible_returns_some {e : Expr} (h : Readable e) : Legible (.returns (some e)) := by
  obtain ⟨first, tail, hspelled, hfirst⟩ := h.head
  refine ⟨OpensStmt.keyword rfl, fun depth c next rest hdepth hc hnext => ?_⟩
  rw [Stmt.spell, List.cons_append] at hc
  refine Reads.succ (Reads.peek hc (Reads.advance hc (by simp) fun t c₁ _ hc₁ => ?_))
  refine Reads.peek (hspelled ▸ hc₁) ?_
  have hsep : ¬(isSeparator first = true ∨ first = .symbol .braceClose ∨ first = .eof) := by
    rintro (hsep | rfl | rfl)
    · simp only [isSeparator, Bool.or_eq_true, decide_eq_true_eq] at hsep
      rcases hsep with rfl | rfl <;> contradiction
    · contradiction
    · contradiction
  simp only [Bool.or_eq_true, decide_eq_true_eq, or_assoc, if_neg hsep]
  refine (h.expr hc₁ (endsBefore_line hnext rest)).bind id fun e' c₂ hfits he' hc₂ => ?_
  exact Reads.here hfits (Stmt.Like.returns he') hc₂

/-- A `break` is read. -/
private theorem legible_breaks : Legible .breaks := by
  refine ⟨OpensStmt.keyword rfl, fun depth c next rest hdepth hc hnext => ?_⟩
  refine Reads.succ (Reads.peek hc (Reads.advance hc (by simp) fun t c₁ _ hc₁ => ?_))
  exact Reads.here hdepth rfl hc₁

/-- A `continue` is read. -/
private theorem legible_continues : Legible .continues := by
  refine ⟨OpensStmt.keyword rfl, fun depth c next rest hdepth hc hnext => ?_⟩
  refine Reads.succ (Reads.peek hc (Reads.advance hc (by simp) fun t c₁ _ hc₁ => ?_))
  exact Reads.here hdepth rfl hc₁

/-! ## Section 7: Programs -/

/-- A statement is read if its expressions and the statements of its body are. -/
private theorem legible_of_parts {s : Stmt} (hplain : s.isPlain = true) (hparts : ∀ e ∈ s.parts, Readable e)
    (hbody : ∀ s' ∈ s.body, Legible s') : Legible s := by
  cases s with
  | expr e => exact legible_expr (hparts e List.mem_cons_self)
  | declare name init p =>
    cases init with
    | none => exact legible_declare
    | some e => exact legible_declare_some (hparts e (by simp [Stmt.parts]))
  | assign target op value p =>
    exact legible_assign (hparts target (by simp [Stmt.parts])) (hparts value (by simp [Stmt.parts])) hplain
  | function name names body p =>
    have hnodup : names.Nodup := by
      simp only [Stmt.isPlain, Bool.and_eq_true, decide_eq_true_eq] at hplain
      exact hplain.2
    exact legible_function hbody hnodup
  | branch cond thenBody elseBody =>
    have hcond := hparts cond List.mem_cons_self
    have hthen := fun s hs => hbody s (List.mem_append_left _ hs)
    cases elseBody with
    | none => exact legible_branch hcond hthen
    | some elseBody => exact legible_branch_else hcond hthen fun s hs => hbody s (List.mem_append_right _ hs)
  | whileLoop cond body => exact legible_whileLoop (hparts cond List.mem_cons_self) hbody
  | forLoop var items body p => exact legible_forLoop (hparts items List.mem_cons_self) hbody
  | returns value =>
    cases value with
    | none => exact legible_returns
    | some e => exact legible_returns_some (hparts e (by simp [Stmt.parts]))
  | breaks => exact legible_breaks
  | continues => exact legible_continues

/-- What is printed for expressions and statements whose data can be spelled is read back. -/
theorem readable_and_legible :
    (∀ e : Expr, e.every Expr.isPlain Stmt.isPlain = true → Readable e) ∧
      ∀ s : Stmt, s.every Expr.isPlain Stmt.isPlain = true → Legible s := by
  refine Syntax.induction (fun e hparts hbody hplain => ?_) fun s hparts hbody hplain => ?_
  · obtain ⟨_, hparts', hbody'⟩ := Expr.every_iff.mp hplain
    by_cases hclosure : ∃ params body p, e = .closure params body p
    · obtain ⟨params, body, p, rfl⟩ := hclosure
      exact readable_closure fun s hs => hbody s hs (hbody' s hs)
    · refine readable_of_parts (fun params body p he => hclosure ⟨params, body, p, he⟩) fun e' he' => ?_
      exact hparts e' he' (hparts' e' he')
  · obtain ⟨hroot, hparts', hbody'⟩ := Stmt.every_iff.mp hplain
    exact legible_of_parts hroot (fun e he => hparts e he (hparts' e he)) fun s' hs' =>
      hbody s' hs' (hbody' s' hs')

/-- A printed program is read back, or constructs in it are nested too deeply. -/
theorem program_reads {ss : List Stmt} (h : isPrintable ss = true)
    (hc : c.kinds = spellProgram true ss ++ [.eof]) :
    Returns (nestingStmts true ss ≤ maxNesting) program (Alike ss) [.eof] c := by
  have hlegible : ∀ s ∈ ss, Legible s := fun s hs => readable_and_legible.2 s (everyStmt_iff.mp h s hs)
  obtain ⟨next, tail, hhead, hnext⟩ := program_head hlegible (show startsLine .eof = true from rfl) []
  have hsep : isSeparator c.kind = false := by
    rw [Cursor.kind_eq (hc.trans hhead)]
    exact isSeparator_of_startsLine hnext
  have hskip : (skipFrom isSeparator c.token c.rest).kinds = spellProgram true ss ++ [.eof] := by
    rw [skipFrom_of_not hsep, hc]
  have hstatements := statements_reads hlegible (Or.inr rfl) (Nat.zero_le maxNesting) hskip
  refine hstatements.bind (by omega) fun ss' c₁ hfits hss' hc₁ => Reads.expectLast hc₁ fun _ => ?_
  exact Reads.here (by omega) hss' hc₁

/-- An expression up to the end of the input is a program, or constructs in it are nested too deeply. -/
theorem program_expr {made : Expr → Prop} {rank : Nat} {member : Bool} (h : Piece made spelled rank nesting member)
    (hc : c.kinds = spelled ++ [.eof]) :
    Returns (nesting + 1 ≤ maxNesting) program (fun ss => ∃ e, made e ∧ ss = [.expr e]) [.eof] c := by
  obtain ⟨first, tail, hspelled, hfirst⟩ := h.head
  have hhead : c.kinds = first :: (tail ++ [.eof]) := by rw [hc, hspelled, List.cons_append]
  have hsep : isSeparator first = false := by
    have hline : first ≠ .newline := startsExpr_ne hfirst rfl
    have hsemicolon : first ≠ .symbol .semicolon := startsExpr_ne hfirst rfl
    simp [isSeparator, hline, hsemicolon]
  have heof : first ≠ .eof := startsExpr_ne hfirst rfl
  have hends : EndsBefore 0 .eof [] :=
    endsBefore_of_not_join rfl (by simp) fun level _ => by cases level <;> rfl
  -- The end of the text ends the list of statements, and the program behind it has nothing left to read.
  have hstatements : Returns (nesting + 1 ≤ maxNesting) (fun fuel => statements fuel 0 .eof)
      (fun ss => ∃ e, made e ∧ ss = [.expr e]) [.eof] c := by
    refine Reads.succ (Reads.skipSeparators ?_)
    rw [skipFrom_of_not (Cursor.kind_eq hhead ▸ hsep)]
    refine Reads.peek hhead ?_
    simp only [Bool.or_eq_true, decide_eq_true_eq, or_self, if_neg heof]
    refine (statement_expr h hc hends rfl rfl).bind (by omega) fun s c₁ hfits hs hc₁ => ?_
    obtain ⟨e, he, rfl⟩ := hs
    -- Behind the one statement there are no more.
    have hnone : Returns True (fun fuel => statements fuel 0 .eof) (· = []) [.eof] c₁ := by
      refine Reads.succ (Reads.skipSeparators ?_)
      rw [skipFrom_of_not (by rw [Cursor.kind_eq hc₁]; rfl)]
      exact Reads.peek hc₁ (Reads.here trivial rfl hc₁)
    refine Reads.peek hc₁ (hnone.bind (fun _ => trivial) fun ss c₂ _ hss hc₂ => ?_)
    subst hss
    exact Reads.here (by omega) ⟨e, he, rfl⟩ hc₂
  refine hstatements.bind id fun ss c₁ hfits hss hc₁ => Reads.expectLast hc₁ fun _ => ?_
  exact Reads.here hfits hss hc₁

end RowConsole.Script.Grammar
