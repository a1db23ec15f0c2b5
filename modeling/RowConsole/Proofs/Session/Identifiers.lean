import RowConsole.Proofs.Script.SourcePositions
import RowConsole.Proofs.Session.Classification
import RowConsole.Proofs.Session.Seeding

/-!
# One Notion of an Identifier

What an identifier is, is decided in three places: by the scanner of the language, by the check of names that are bound
from outside, and by the classifier of what is typed. The scanner takes a dollar sign for a letter and tells keywords
apart; the other two do neither. Up to that they agree.

Main statement: `identifiers_agree`.
-/

namespace RowConsole.Script

variable {name : String}

/-! ## Section 1: Identifiers and the Scanner -/

/-- A character of words other than the dollar sign continues identifiers. -/
theorem isWordContinue_eq {c : Char} (hc : c ≠ '$') : isWordContinue c = Text.isIdentifierContinue c := by
  by_cases hunderscore : c = '_'
  · -- the underscore is among the characters that continue identifiers
    subst hunderscore
    rw [Text.isIdentifierContinue_ascii (by decide)]
    rfl
  · simp [isWordContinue, hc, hunderscore]

private theorem isWordStart_eq {c : Char} (hc : c ≠ '$') : isWordStart c = (c == '_' || Text.isIdentifierStart c) := by
  simp only [isWordStart, beq_eq_false_iff_ne.mpr hc, Bool.or_false]

private theorem not_mem_dollar_of_isIdentifier (h : Text.isIdentifier name = true) : '$' ∉ name.toList := by
  apply Text.not_mem_of_isIdentifier h
  rw [Text.isIdentifierContinue_ascii (by decide)]
  decide

/-- The names of the scanner without a dollar sign are the identifiers that are no keywords. -/
theorem isIdentifier_iff_isName :
    Text.isIdentifier name = true ∧ isKeyword name = false ↔ '$' ∉ name.toList ∧ isName name = true := by
  constructor
  · rintro ⟨hidentifier, hkeyword⟩
    exact ⟨not_mem_dollar_of_isIdentifier hidentifier, isName_of_isIdentifier hidentifier hkeyword⟩
  · rintro ⟨hdollar, hname⟩
    obtain ⟨c, rest, hword, hstart, hcontinue, hkeyword⟩ := toList_of_isName hname
    rw [hword, List.mem_cons, not_or] at hdollar
    refine ⟨?_, by rw [isKeyword, hkeyword]; rfl⟩
    unfold Text.isIdentifier
    rw [hword]
    dsimp only
    rw [← isWordStart_eq (Ne.symm hdollar.1), hstart, Bool.true_and, List.all_eq_true]
    intro d hd
    -- The dollar sign is the only character in which the two tests differ.
    have hd' : d ≠ '$' := fun heq => hdollar.2 (heq ▸ hd)
    rw [← isWordContinue_eq hd']
    exact List.all_eq_true.mp hcontinue d hd

/-- What is cut off as an identifier is a name. -/
theorem isName_of_scanToken {g : Glyph} {rest tail : List Glyph} (h : scanToken g rest = .ok (.ident name, tail)) :
    isName name = true := by
  -- The kind of token is freed first, so that each way of scanning can be refuted by what it makes.
  generalize hkind : TokenKind.ident name = kind at h
  cases scanned_of_scanToken h with
  | newline | string | symbol => cases hkind
  | number _ hscan =>
    unfold scanNumber at hscan
    dsimp only at hscan
    split at hscan
    · cases hscan
      cases hkind
    · split at hscan
      · cases hscan
        cases hkind
      · contradiction
  | word hg =>
    have hword : TokenKind.ident name = wordKind _ := hkind
    unfold wordKind at hword
    split at hword
    · cases hword
    · next hkeyword =>
      obtain rfl := TokenKind.ident.inj hword
      unfold isName
      rw [String.toList_ofList]
      dsimp only
      rw [hg, isKeyword, hkeyword, List.all_map, Bool.true_and]
      simpa using fun g' hg' => List.mem_takeWhile_imp hg'

/-- A text has an identifier as its first token only if the identifier is a name. -/
theorem isName_of_mem_tokens {cs : List Char} {i : Nat} {ts : List Token} (h : Stand cs i ts) {t : Token} (ht : t ∈ ts)
    (hkind : t.kind = .ident name) : isName name = true := by
  induction h with
  | finish =>
    obtain rfl := List.mem_singleton.mp ht
    cases hkind
  | token _ _ _ _ _ hread _ ih =>
    rcases List.mem_cons.mp ht with rfl | ht
    · cases hkind
      exact isName_of_scanToken hread
    · exact ih ht

/-- A text is cut into itself as an identifier and the end of the input just if it is a name. -/
theorem tokenize_eq_ident_iff :
    (tokenize name).map (List.map Token.kind) = .ok [.ident name, .eof] ↔ isName name = true := by
  constructor
  · intro h
    cases htokens : tokenize name with
    | error e =>
      rw [htokens] at h
      cases h
    | ok ts =>
      rw [htokens] at h
      -- One of the tokens is the name, and a scanned name passes the test.
      have hkinds : ts.map Token.kind = [.ident name, .eof] := Except.ok.inj h
      obtain ⟨t, ht, hkind⟩ := List.mem_map.mp (hkinds ▸ List.mem_cons_self : .ident name ∈ ts.map Token.kind)
      exact isName_of_mem_tokens (stand_of_tokenize htokens) ht hkind
  · intro h
    rw [tokenize_name h]
    rfl

end RowConsole.Script

namespace RowConsole.Session

open Script (isKeyword tokenize)

/-! ## Section 2: Identifiers and the Classifier -/

/-- The name that is declared, defined or assigned to. -/
def Input.name? : Input → Option String
  | .declaration _ name _ | .functionDefinition name _ | .assignment name _ => some name
  | _ => none

variable {buffer name : String}

/-- The name of a declaration is an identifier. -/
theorem isIdentifier_of_splitDeclaration {cs word rest : List Char} {k : Script.Keyword}
    (h : splitDeclaration cs = some (k, word, rest)) : Text.isIdentifier (String.ofList word) = true := by
  obtain ⟨⟨_, _⟩, _, h⟩ := Option.bind_eq_some_iff.mp h
  obtain ⟨⟨_, _⟩, hname, h⟩ := Option.bind_eq_some_iff.mp h
  cases h
  obtain ⟨start, more, rfl, hstart, hmore⟩ := splitName_start hname
  unfold Text.isIdentifier
  rw [String.toList_ofList]
  refine (Bool.and_eq_true _ _).mpr ⟨?_, ?_⟩
  · rcases hstart with rfl | hstart
    · rfl
    · rw [Text.isIdentifierStart_of_established hstart, Bool.or_true]
  · exact List.all_eq_true.mpr fun c hc => Text.isIdentifierContinue_of_established (hmore c hc)

/-- Every name that the classifier reports is an identifier. -/
theorem isIdentifier_of_classify (h : (classify buffer).name? = some name) : Text.isIdentifier name = true := by
  have hclassified := classified buffer
  generalize classify buffer = input at h hclassified
  -- Only declarations and assignments have a name, and both were split by the same test.
  cases hclassified with
  | early hinput => rcases hinput with rfl | rfl | ⟨_, _, rfl⟩ <;> cases h
  | incomplete | other => cases h
  | @declared k word rest _ hsplit hinput =>
    have hword := isIdentifier_of_splitDeclaration hsplit
    rcases classifyDeclaration_cases (String.ofList (Text.trimChars buffer.toList)) k word rest with
      hother | ⟨_, _, _, hother⟩ | hother
    all_goals
      rw [← hinput, hother] at h
      cases h <;> exact hword
  | assigned hfound =>
    obtain ⟨_, _, _, _, _, _, hidentifier, _⟩ := findAssignment_spec hfound
    cases h
    exact hidentifier

/-! ## Section 3: Agreement -/

/-- Identifiers that are no keywords are the texts without a dollar sign that are one token, an identifier, and names of
declarations, definitions and assignments are identifiers. -/
theorem identifiers_agree :
    (∀ s, Text.isIdentifier s = true ∧ isKeyword s = false ↔
      '$' ∉ s.toList ∧ (tokenize s).map (List.map Script.Token.kind) = .ok [.ident s, .eof]) ∧
      ∀ buffer name, (classify buffer).name? = some name → Text.isIdentifier name = true :=
  ⟨fun _ => by rw [Script.isIdentifier_iff_isName, Script.tokenize_eq_ident_iff],
    fun _ _ => isIdentifier_of_classify⟩

/-- A letter outside of the first block is like any other, a dollar sign is one for the scanner only, and a keyword can
be assigned to as far as the classifier is concerned. -/
theorem identifiers_agree_letters :
    (tokenize "größe_1").map (List.map Script.Token.kind) = .ok [.ident "größe_1", .eof] ∧
      Text.isIdentifier "größe_1" = true ∧
      (tokenize "$x").map (List.map Script.Token.kind) = .ok [.ident "$x", .eof] ∧ Text.isIdentifier "$x" = false ∧
      classify "var größe_1 = 2" = .declaration .varies "größe_1" "2" ∧
      classify " while = 3" = .assignment "while" "3" ∧ Text.isIdentifier "while" = true ∧ isKeyword "while" = true := by
  have hdeclaration : classify "var größe_1 = 2" = .declaration .varies "größe_1" "2" := by decide +kernel
  have hassignment : classify " while = 3" = .assignment "while" "3" := by decide +kernel
  have hname : Text.isIdentifier "größe_1" = true :=
    identifiers_agree.2 "var größe_1 = 2" "größe_1" (by rw [hdeclaration]; rfl)
  have hkeyword : Text.isIdentifier "while" = true := identifiers_agree.2 " while = 3" "while" (by rw [hassignment]; rfl)
  have htokens := ((identifiers_agree.1 "größe_1").mp ⟨hname, by decide +kernel⟩).2
  exact ⟨htokens, hname, by decide +kernel, by decide +kernel, hdeclaration, hassignment, hkeyword, by decide⟩

end RowConsole.Session
