import RowConsole.Proofs.Script.Grammar.Statements
import RowConsole.Proofs.Script.Token.Spelling

/-!
# Reading Printed Programs

A program is printed with parentheses only where precedence, grouping from the left and the calls of members
ask for them. Main statements: `parse_printProgram`, that reading it gives the program back up to positions
or fails because it is nested too deeply, and `printProgram_unguarded`, that a called member without
parentheses is not read back.
-/

namespace RowConsole.Script

/-! ## Section 1: The Tokens of a Program -/

/-- Whether the text of all tokens of a list is read as these tokens. -/
def allPlain (kinds : List TokenKind) : Bool :=
  kinds.all TokenKind.isPlain

@[simp] theorem allPlain_nil : allPlain [] = true := rfl

@[simp] theorem allPlain_cons (kind : TokenKind) (kinds : List TokenKind) :
    allPlain (kind :: kinds) = (kind.isPlain && allPlain kinds) := rfl

@[simp] theorem allPlain_append (kinds kinds' : List TokenKind) :
    allPlain (kinds ++ kinds') = (allPlain kinds && allPlain kinds') :=
  List.all_append

@[simp] theorem isPlain_symbol (s : Symbol) : (TokenKind.symbol s).isPlain = true := rfl

@[simp] theorem isPlain_keyword (k : Keyword) : (TokenKind.keyword k).isPlain = true := rfl

@[simp] theorem isPlain_newline : TokenKind.newline.isPlain = true := rfl

@[simp] theorem isPlain_str (text : String) : (TokenKind.str text).isPlain = true := rfl

@[simp] theorem isPlain_int (n : Int64) : (TokenKind.int n).isPlain = decide (0 ≤ n) := rfl

@[simp] theorem isPlain_float (literal : String) : (TokenKind.float literal).isPlain = isDecimal literal := rfl

@[simp] theorem isPlain_ident (name : String) : (TokenKind.ident name).isPlain = isName name := rfl

/-- Parentheses are plain, whether they are written or not. -/
@[simp] theorem allPlain_enclose (needed : Bool) (kinds : List TokenKind) :
    allPlain (enclose needed kinds) = allPlain kinds := by
  cases needed with
  | false => rfl
  | true => simp [enclose]

/-- The commas between pieces are plain. -/
@[simp] theorem allPlain_commas (pieces : List (List TokenKind)) :
    allPlain (commas pieces) = pieces.all allPlain := by
  induction pieces with
  | nil => rfl
  | cons piece pieces ih =>
    cases pieces with
    | nil => simp [commas]
    | cons next pieces =>
      show allPlain (piece ++ .symbol .comma :: commas (next :: pieces)) = _
      rw [allPlain_append, allPlain_cons, ih]
      rfl

@[simp] theorem allPlain_names (names : List String) :
    (names.map fun name => [TokenKind.ident name]).all allPlain = names.all isName := by
  induction names with
  | nil => rfl
  | cons name names ih =>
    rw [List.map_cons, List.all_cons, List.all_cons, ih]
    simp

/-- Expressions in a row are plain if each of them is. -/
private theorem all_spellExprs {es : List Expr} (h : ∀ e ∈ es, allPlain (e.spell true) = true) :
    (spellExprs true es).all allPlain = true := by
  induction es with
  | nil => rfl
  | cons e es ih =>
    have hes := ih fun e' he' => h e' (List.mem_cons_of_mem _ he')
    rw [spellExprs, List.all_cons, h e List.mem_cons_self, hes]
    rfl

/-- Entries are plain if each of their values is, since keys are written as texts. -/
private theorem all_spellEntries {es : List (String × Expr)}
    (h : ∀ e ∈ es.map Prod.snd, allPlain (e.spell true) = true) :
    (spellEntries true es).all allPlain = true := by
  induction es with
  | nil => rfl
  | cons entry es ih =>
    have hes := ih fun e' he' => h e' (List.mem_cons_of_mem _ he')
    have hentry : allPlain (entry.2.spell true) = true := h _ List.mem_cons_self
    rw [spellEntries, List.all_cons, allPlain_cons, allPlain_cons, hentry, hes]
    rfl

/-- Statements in a row are plain if each of them is. -/
private theorem allPlain_spellProgram {ss : List Stmt} (h : ∀ s ∈ ss, allPlain (s.spell true) = true) :
    allPlain (spellProgram true ss) = true := by
  induction ss with
  | nil => rfl
  | cons s ss ih =>
    have hss := ih fun s' hs' => h s' (List.mem_cons_of_mem _ hs')
    rw [Grammar.spellProgram_cons, allPlain_append, allPlain_cons, h s List.mem_cons_self, hss]
    rfl

/-- A body is its statements between braces. -/
private theorem allPlain_braces {ss : List Stmt} (h : ∀ s ∈ ss, allPlain (s.spell true) = true) :
    allPlain (braces (spellStmts true ss)) = true := by
  have hbraces := Grammar.braces_append ss []
  rw [List.append_nil] at hbraces
  rw [hbraces, allPlain_cons, allPlain_cons, allPlain_append, allPlain_spellProgram h]
  rfl

/-- One step of the induction on trees: an expression whose own names and literals are plain. -/
private theorem allPlain_expr {e : Expr} (hplain : e.isPlain = true)
    (hparts : ∀ e' ∈ e.parts, allPlain (e'.spell true) = true)
    (hbody : ∀ s ∈ e.body, allPlain (s.spell true) = true) : allPlain (e.spell true) = true := by
  -- A form writes plain symbols of its own; names and literals are where `isPlain` comes in.
  cases e with
  | null => rfl
  | bool b => cases b <;> rfl
  | int n => simpa [Expr.spell, Expr.isPlain] using hplain
  | float literal => simpa [Expr.spell, Expr.isPlain] using hplain
  | str text => rfl
  | var name p => simpa [Expr.spell, Expr.isPlain] using hplain
  | list items =>
    have hitems : (spellExprs true items).all allPlain = true := all_spellExprs hparts
    simp [Expr.spell, hitems, -List.all_eq_true]
  | map entries =>
    have hentries := all_spellEntries hparts
    cases entries with
    | nil => rfl
    | cons entry entries => simp [Expr.spell, hentries]
  | unary op operand p =>
    have hoperand := hparts operand (by simp [Expr.parts])
    simp [Expr.spell, hoperand]
  | binary op left right p =>
    have hleft := hparts left (by simp [Expr.parts])
    have hright := hparts right (by simp [Expr.parts])
    simp [Expr.spell, hleft, hright]
  | and left right =>
    have hleft := hparts left (by simp [Expr.parts])
    have hright := hparts right (by simp [Expr.parts])
    simp [Expr.spell, hleft, hright]
  | or left right =>
    have hleft := hparts left (by simp [Expr.parts])
    have hright := hparts right (by simp [Expr.parts])
    simp [Expr.spell, hleft, hright]
  | member object name p =>
    have hobject := hparts object (by simp [Expr.parts])
    have hname : isName name = true := hplain
    simp [Expr.spell, hobject, hname]
  | index object place p =>
    have hobject := hparts object (by simp [Expr.parts])
    have hplace := hparts place (by simp [Expr.parts])
    simp [Expr.spell, hobject, hplace]
  | call callee args p =>
    have hcallee := hparts callee List.mem_cons_self
    have hargs := all_spellExprs fun e he => hparts e (List.mem_cons_of_mem _ he)
    simp [Expr.spell, hcallee, hargs]
  | method receiver name args p =>
    have hreceiver := hparts receiver List.mem_cons_self
    have hargs := all_spellExprs fun e he => hparts e (List.mem_cons_of_mem _ he)
    have hname : isName name = true := hplain
    simp [Expr.spell, hreceiver, hargs, hname]
  | closure params body p =>
    have hlines : allPlain (spellProgram true body) = true := allPlain_spellProgram hbody
    -- without parameters there is no arrow, and nothing to be plain
    have hparams : allPlain (spellParams params) = true := by
      rw [spellParams]
      split
      · rfl
      · simpa [Expr.isPlain] using hplain
    rw [Expr.spell, allPlain_cons, allPlain_append, hparams, allPlain_cons, allPlain_append]
    simpa [spellProgram] using hlines

/-- The other step: a statement whose own names are plain. -/
private theorem allPlain_stmt {s : Stmt} (hplain : s.isPlain = true)
    (hparts : ∀ e ∈ s.parts, allPlain (e.spell true) = true)
    (hbody : ∀ s' ∈ s.body, allPlain (s'.spell true) = true) : allPlain (s.spell true) = true := by
  -- As for expressions, with names where something is bound.
  cases s with
  | expr e => exact hparts e List.mem_cons_self
  | declare name init p =>
    have hname : isName name = true := hplain
    cases init with
    | none => simp [Stmt.spell, hname]
    | some e =>
      have he := hparts e (by simp [Stmt.parts])
      simp [Stmt.spell, hname, he]
  | assign target op value p =>
    have htarget := hparts target (by simp [Stmt.parts])
    have hvalue := hparts value (by simp [Stmt.parts])
    simp [Stmt.spell, htarget, hvalue]
  | function name names body p =>
    have hlines : allPlain (braces (spellStmts true body)) = true := allPlain_braces hbody
    simp only [Stmt.isPlain, Bool.and_eq_true] at hplain
    have hnames : allPlain (commas (names.map fun name => [.ident name])) = true := by
      rw [allPlain_commas, allPlain_names]
      exact hplain.1.2
    rw [Stmt.spell, allPlain_cons, allPlain_cons, allPlain_cons, allPlain_append, hnames]
    simp [hlines, hplain.1.1]
  | branch cond thenBody elseBody =>
    have hcond := hparts cond List.mem_cons_self
    have hthen := allPlain_braces fun s hs => hbody s (List.mem_append_left _ hs)
    cases elseBody with
    | none => simp [Stmt.spell, hcond, hthen]
    | some elseBody =>
      have helse : allPlain (braces (spellStmts true elseBody)) = true :=
        allPlain_braces fun s hs => hbody s (List.mem_append_right _ hs)
      simp [Stmt.spell, hcond, hthen, helse]
  | whileLoop cond body =>
    have hcond := hparts cond List.mem_cons_self
    have hlines : allPlain (braces (spellStmts true body)) = true := allPlain_braces hbody
    simp [Stmt.spell, hcond, hlines]
  | forLoop var items body p =>
    have hitems := hparts items List.mem_cons_self
    have hvar : isName var = true := hplain
    have hlines : allPlain (braces (spellStmts true body)) = true := allPlain_braces hbody
    simp [Stmt.spell, hitems, hvar, hlines]
  | returns value =>
    cases value with
    | none => rfl
    | some e => simp [Stmt.spell, hparts e (by simp [Stmt.parts])]
  | breaks => rfl
  | continues => rfl

/-- Everything that is written of a printable program is read as the token it was. -/
theorem allPlain_of_isPrintable {ss : List Stmt} (h : isPrintable ss = true) :
    ∀ kind ∈ spellProgram true ss, kind.isPlain = true := by
  have hall : (∀ e : Expr, e.every Expr.isPlain Stmt.isPlain = true → allPlain (e.spell true) = true) ∧
      ∀ s : Stmt, s.every Expr.isPlain Stmt.isPlain = true → allPlain (s.spell true) = true := by
    -- both kinds of trees at once, as statements and expressions contain each other
    refine Syntax.induction (fun e hparts hbody hplain => ?_) fun s hparts hbody hplain => ?_
    · obtain ⟨hroot, hparts', hbody'⟩ := Expr.every_iff.mp hplain
      exact allPlain_expr hroot (fun e' he' => hparts e' he' (hparts' e' he')) fun s hs =>
        hbody s hs (hbody' s hs)
    · obtain ⟨hroot, hparts', hbody'⟩ := Stmt.every_iff.mp hplain
      exact allPlain_stmt hroot (fun e he => hparts e he (hparts' e he)) fun s' hs' =>
        hbody s' hs' (hbody' s' hs')
  have hlines := allPlain_spellProgram fun s hs => hall.2 s (everyStmt_iff.mp h s hs)
  exact List.all_eq_true.mp hlines

/-! ## Section 2: Reading the Tokens -/

open Grammar in
/-- What a program is read as at a cursor, it is read as from the tokens. -/
theorem parseTokens_of_returns {fits : Prop} {made : List Stmt → Prop} {kinds : List TokenKind} {tokens : List Token}
    (htokens : tokens.map Token.kind = kinds ++ [.eof])
    (hreads : ∀ c : Cursor, c.kinds = kinds ++ [.eof] → Returns fits program made [.eof] c) :
    (fits ∧ ∃ ss, parseTokens tokens = .ok ss ∧ made ss) ∨
      (¬ fits ∧ ∃ e, parseTokens tokens = .error (.failed e) ∧ e.cause = .nestedTooDeeply) := by
  cases tokens with
  | nil => simp at htokens
  | cons t rest =>
    have hclosed : Cursor.Closed ⟨t, rest⟩ := by
      -- the last token is the end of the input, by what the tokens are
      have hlast : ((t :: rest).map Token.kind).getLast? = some .eof := by
        rw [htokens]
        simp
      simpa [List.getLast?_cons, List.getLastD_map, Cursor.Closed] using hlast
    -- enough recursion for the tokens and for the outcome
    have houtcome : ∀ outcome, Ends program ⟨t, rest⟩ outcome →
        parseTokens (t :: rest) = outcome.map Prod.fst := by
      intro outcome hprogram
      obtain ⟨bound, hends⟩ := hprogram
      rw [parseTokens_eq hclosed (Nat.le_max_left _ bound), hends _ (Nat.le_max_right _ bound)]
    rcases hreads ⟨t, rest⟩ htokens with ⟨hfits, ss, c', hss, _, hgoes⟩ | ⟨hfits, e, hcause, hends⟩
    · exact Or.inl ⟨hfits, ss, houtcome (.ok (ss, c')) (hgoes _ ⟨0, fun _ _ => rfl⟩), hss⟩
    · exact Or.inr ⟨hfits, e, houtcome _ hends, hcause⟩

open Grammar in
/-- The tokens of a printed program are read as that program, or are nested too deeply. -/
theorem parseTokens_spellProgram {ss : List Stmt} (h : isPrintable ss = true) {tokens : List Token}
    (htokens : tokens.map Token.kind = spellProgram true ss ++ [.eof]) :
    (nestingStmts true ss ≤ maxNesting ∧ ∃ ss', parseTokens tokens = .ok ss' ∧ Alike ss ss') ∨
      (¬ nestingStmts true ss ≤ maxNesting ∧
        ∃ e, parseTokens tokens = .error (.failed e) ∧ e.cause = .nestedTooDeeply) :=
  parseTokens_of_returns htokens fun _ hc => program_reads h hc

/-! ## Section 3: Reading the Text -/

/-- Reading a text, once its tokens are known. -/
theorem parse_eq {source : String} {tokens : List Token} (h : tokenize source = .ok tokens) :
    parse source =
      match Grammar.parseTokens tokens with
      | .ok stmts => .ok stmts
      | .error (.failed e) => .error e
      | .error .exhausted => refusalAt .nestedTooDeeply Pos.start := by
  rw [parse, h]
  rfl

end RowConsole.Script
