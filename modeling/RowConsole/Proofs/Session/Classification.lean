import RowConsole.Proofs.Session.Notices
import RowConsole.Proofs.Session.Routing

/-!
# The Grammar of the Classifier

The rules that classify a text look for characters and words in a fixed order. The texts that come out as assignments
are those of a plain grammar, which is stated here without the rules. What is classified can be written down in one
canonical text, and the rules give that text the same class.

Main statement: `classify_grammar`.
-/

namespace RowConsole.Session

open Script (Keyword Symbol)
open Text (EndsInk isBlank trimChars)

/-! ## Section 1: Characters of Identifiers -/

section Identifiers

variable {name : String}

private theorem isBlank_of_mem_identifier (h : Text.isIdentifier name = true) {c : Char} (hc : c ∈ name.toList) :
    isBlank c = false := by
  refine Bool.eq_false_iff.mpr fun hblank => ?_
  have hcontinue := Script.isWordContinue_of_isBlank hblank
  simp only [Script.isWordContinue, Bool.or_eq_false_iff] at hcontinue
  exact Text.not_mem_of_isIdentifier h (by simp [hcontinue]) hc

private theorem trimChars_identifier (h : Text.isIdentifier name = true) : trimChars name.toList = name.toList := by
  apply Text.trimChars_eq_self
  · exact fun c hc => isBlank_of_mem_identifier h (List.mem_of_mem_head? hc)
  · exact fun c hc => isBlank_of_mem_identifier h (List.mem_of_mem_getLast? hc)

private theorem isEstablishedContinue_of_isBlank {c : Char} (h : isBlank c = true) :
    Text.isEstablishedContinue c = false := by
  refine Bool.eq_false_iff.mpr fun hcontinue => ?_
  have hword := Script.isWordContinue_of_isBlank h
  simp only [Script.isWordContinue, Bool.or_eq_false_iff, Text.isIdentifierContinue_of_established hcontinue] at hword
  exact Bool.false_ne_true hword.2.symm

/-- The characters by which operators and commands are told, of which an identifier has none. -/
def signs : List Char := ['=', '!', '<', '>', '+', '-', ':']

private theorem separate_of_mem_signs {c : Char} (hc : c ∈ signs) :
    isBlank c = false ∧ (c == '_' || Text.isIdentifierContinue c) = false := by
  have hsigns : (signs.all fun c =>
      decide (c.toNat < 0x80) && !(isBlank c || (c == '_' || (c.isAlphanum || c == '_')))) = true := by decide
  have hc := List.all_eq_true.mp hsigns c hc
  rw [Bool.and_eq_true, decide_eq_true_eq, Bool.not_eq_true', Bool.or_eq_false_iff] at hc
  rw [Text.isIdentifierContinue_ascii hc.1]
  exact hc.2

/-- None of these characters stands before the sign of an assignment. -/
theorem not_mem_identifier_blanks {blanks : List Char} {c : Char} (h : Text.isIdentifier name = true)
    (hblanks : ∀ c ∈ blanks, isBlank c = true) (hc : c ∈ signs) : c ∉ name.toList ++ blanks := by
  obtain ⟨hblank, hcontinue⟩ := separate_of_mem_signs hc
  intro hmem
  rcases List.mem_append.mp hmem with hmem | hmem
  · exact Text.not_mem_of_isIdentifier h hcontinue hmem
  · exact Bool.false_ne_true (hblank.symm.trans (hblanks c hmem))

end Identifiers

/-! ## Section 2: The Grammar -/

/-- A text that starts like a declaration: one of two keywords, blanks and the first character of a name. -/
def StartsDeclaration (cs : List Char) : Prop :=
  ∃ (k : Keyword) (first start : Char) (between rest : List Char), (k = .defines ∨ k = .varies) ∧
    (∀ c ∈ first :: between, isBlank c = true) ∧ (start = '_' ∨ Text.isEstablishedStart start = true) ∧
      cs = k.word.toList ++ (first :: between ++ start :: rest)

/-- A text of an assignment: a name, blanks, an equals sign and a rest that does not start with another one and has
more than blanks. -/
structure Assigns (cs : List Char) (name expr : String) (blanks rest : List Char) : Prop where
  eq : cs = name.toList ++ (blanks ++ '=' :: rest)
  identifier : Text.isIdentifier name = true
  blank : ∀ c ∈ blanks, isBlank c = true
  noComparison : rest.head? ≠ some '='
  trimmed : expr = String.ofList (trimChars rest)
  nonempty : expr ≠ ""

/-- The text that says no more than a class does, for the classes that are evaluated. -/
def Input.canonical? : Input → Option String
  | .declaration k name expr => some (k.word ++ " " ++ name ++ " = " ++ expr)
  | .assignment name expr => some (name ++ " = " ++ expr)
  | .functionDefinition _ source => some source
  | .expression text => some text
  | _ => none

section Cutting

variable {cs rest : List Char} {k : Keyword}

private theorem splitKeyword_word (first : Char) (between rest : List Char) (hk : k = .defines ∨ k = .varies)
    (hblanks : ∀ c ∈ first :: between, isBlank c = true) (hrest : ∀ c ∈ rest.head?, isBlank c = false) :
    splitKeyword (k.word.toList ++ (first :: between ++ rest)) = some (k, rest) := by
  obtain ⟨hfirst, hbetween⟩ := List.forall_mem_cons.mp hblanks
  have hdrop : Text.dropBlanks (between ++ rest) = rest := Text.dropBlanks_append hbetween hrest
  have hstrip : Text.stripStart? k.word.toList (k.word.toList ++ (first :: (between ++ rest))) =
      some (first :: (between ++ rest)) := Text.stripStart?_append _ _
  rw [List.cons_append]
  unfold splitKeyword
  rcases hk with rfl | rfl
  · simp only [List.findSome?_cons, hstrip, hfirst, hdrop, if_true]
  · -- the two keywords differ in their first characters
    have hother : Text.stripStart? Keyword.defines.word.toList
        (Keyword.varies.word.toList ++ (first :: (between ++ rest))) = none := rfl
    simp only [List.findSome?_cons, hstrip, hother, hfirst, hdrop, if_true]

theorem splitName_start {name : List Char} (h : splitName cs = some (name, rest)) :
    ∃ start more, name = start :: more ∧ (start = '_' ∨ Text.isEstablishedStart start = true) ∧
      ∀ c ∈ more, Text.isEstablishedContinue c = true := by
  unfold splitName at h
  split at h
  · contradiction
  · split at h
    · next hstart =>
      cases h
      exact ⟨_, _, rfl, by simpa using hstart, fun _ => List.mem_takeWhile_imp⟩
    · contradiction

private theorem isBlank_of_start {start : Char} (h : start = '_' ∨ Text.isEstablishedStart start = true) :
    isBlank start = false := by
  rcases h with rfl | h
  · decide
  · exact (Script.isIdentifierStart_separate (Text.isIdentifierStart_of_established h)).1

private theorem splitName_cons {start : Char} (h : start = '_' ∨ Text.isEstablishedStart start = true) :
    splitName (start :: rest) = some (start :: rest.takeWhile Text.isEstablishedContinue,
      rest.dropWhile Text.isEstablishedContinue) :=
  if_pos (by simpa using h)

private theorem splitDeclaration_eq_none_iff (cs : List Char) :
    splitDeclaration cs = none ↔ ¬ StartsDeclaration cs := by
  rw [← not_iff_not, not_not, ← ne_eq, Option.ne_none_iff_exists']
  constructor
  · rintro ⟨⟨k, name, rest⟩, h⟩
    obtain ⟨hk, first, between, blanks, hbetween, _, htext⟩ := splitDeclaration_spec h
    obtain ⟨⟨_, _⟩, _, h⟩ := Option.bind_eq_some_iff.mp h
    obtain ⟨⟨_, _⟩, hname, h⟩ := Option.bind_eq_some_iff.mp h
    cases h
    obtain ⟨start, more, rfl, hstart, _⟩ := splitName_start hname
    exact ⟨k, first, start, between, _, hk, hbetween, hstart, htext⟩
  · rintro ⟨k, first, start, between, rest, hk, hbetween, hstart, rfl⟩
    -- the name goes on as far as it can, and whatever is left is the rest
    have hkeyword := splitKeyword_word _ _ (start :: rest) hk hbetween fun c hc =>
      Option.some.inj hc ▸ isBlank_of_start hstart
    refine ⟨(k, start :: rest.takeWhile Text.isEstablishedContinue,
      Text.dropBlanks (rest.dropWhile Text.isEstablishedContinue)), ?_⟩
    simp only [splitDeclaration, hkeyword, Option.bind_eq_bind, Option.bind_some, splitName_cons hstart]
    rfl

/-- The equals sign of an assignment is the first one. -/
theorem Assigns.sign_not_mem {name expr : String} {blanks : List Char} (h : Assigns cs name expr blanks rest) :
    '=' ∉ name.toList ++ blanks :=
  not_mem_identifier_blanks h.identifier h.blank (by simp [signs])

/-- The text before the first equals sign, and the text from it on. -/
theorem takeWhile_sign {before : List Char} (h : '=' ∉ before) (behind : List Char) :
    (before ++ '=' :: behind).takeWhile (· ≠ '=') = before ∧
      (before ++ '=' :: behind).dropWhile (· ≠ '=') = '=' :: behind := by
  have hbefore : ∀ c ∈ before, decide (c ≠ '=') = true := by
    intro c hc
    exact decide_eq_true fun heq => h (heq ▸ hc)
  rw [List.takeWhile_append_of_pos hbefore, List.dropWhile_append_of_pos hbefore]
  simp

private theorem sign_unique {before before' behind behind' : List Char} (h : '=' ∉ before) (h' : '=' ∉ before')
    (heq : before ++ '=' :: behind = before' ++ '=' :: behind') : before = before' ∧ behind = behind' := by
  obtain ⟨hbefore, hbehind⟩ := takeWhile_sign h behind
  obtain ⟨hbefore', hbehind'⟩ := takeWhile_sign h' behind'
  rw [heq] at hbefore hbehind
  exact ⟨hbefore.symm.trans hbefore', (List.cons.inj (hbehind.symm.trans hbehind')).2⟩

private theorem findAssignment_of_assigns {name expr : String} {blanks : List Char}
    (h : Assigns cs name expr blanks rest) :
    findAssignment cs = some (name, expr) := by
  have hcs : cs = (name.toList ++ blanks) ++ '=' :: rest := by
    rw [h.eq, List.append_assoc]
  obtain ⟨hbefore, hbehind⟩ := takeWhile_sign h.sign_not_mem rest
  have hname : String.ofList (trimChars (name.toList ++ blanks)) = name := by
    have htrim := Text.trimChars_blanks [] _ (by simp) h.blank (trimChars_identifier h.identifier)
    rw [List.nil_append] at htrim
    rw [htrim, String.ofList_toList]
  -- the sign belongs to no comparison: its neighbours are a name or a blank and what is no other sign
  have hlast : ∀ c ∈ (name.toList ++ blanks).getLast?, (c = '=' || c = '!' || c = '<' || c = '>') = false := by
    intro c hc
    have hmem := List.mem_of_mem_getLast? hc
    have hne : ∀ d ∈ signs, c ≠ d := by
      rintro d hd rfl
      exact not_mem_identifier_blanks h.identifier h.blank hd hmem
    simp only [signs, List.forall_mem_cons] at hne
    simp [hne]
  unfold findAssignment
  rw [hcs, hbefore, hbehind]
  dsimp only
  rw [if_neg, hname, ← h.trimmed, if_pos]
  · simp [h.identifier, h.nonempty]
  · cases hc : (name.toList ++ blanks).getLast? with
    | none => simp [h.noComparison]
    | some c =>
      dsimp only
      rw [hlast c hc]
      simp [h.noComparison]

/-- Where a text does not start with a blank, the search for an assignment finds what the grammar says. -/
theorem findAssignment_eq_some_iff {name expr : String} (hhead : ∀ c ∈ cs.head?, isBlank c = false) :
    findAssignment cs = some (name, expr) ↔ ∃ blanks rest, Assigns cs name expr blanks rest := by
  constructor
  · intro h
    obtain ⟨before, behind, rfl, rfl, htrimmed, hcompare, hidentifier, hnonempty⟩ := findAssignment_spec h
    obtain ⟨blanks, hblanks, hbefore⟩ := Text.exists_dropBlanksEnd before
    have hfront : Text.dropBlanks before = before := Text.dropBlanks_eq_self fun c hc => hhead c (by
      rw [List.head?_append, Option.mem_def.mp hc]
      rfl)
    refine ⟨blanks, behind, ?_, hidentifier, hblanks, hcompare, htrimmed, hnonempty⟩
    rw [String.toList_ofList, trimChars, hfront, ← List.append_assoc, ← hbefore]
  · rintro ⟨blanks, rest, h⟩
    exact findAssignment_of_assigns h

end Cutting

/-! ## Section 3: Assignments -/

/-- The rules for a text that is complete and neither a command nor an exit request. -/
def classifyBinding (cs : List Char) : Input :=
  match splitDeclaration cs with
  | some (keyword, name, rest) => classifyDeclaration (String.ofList cs) keyword name rest
  | none =>
    match findAssignment cs with
    | some (name, expr) => .assignment name expr
    | none => .expression (String.ofList cs)

/-- Behind the first rules there is the count of the braces. -/
theorem classify_later {buffer : String} (hne : trimChars buffer.toList ≠ [])
    (hcolon : (trimChars buffer.toList).head? ≠ some ':')
    (hexit : isExitRequest (String.ofList (trimChars buffer.toList)) = false) :
    classify buffer =
      if isComplete (trimChars buffer.toList) then classifyBinding (trimChars buffer.toList) else .incomplete := by
  unfold classify
  dsimp only
  split
  · next hnil => exact absurd hnil hne
  · next rest hcons =>
    rw [hcons] at hcolon
    exact absurd rfl hcolon
  · rw [hexit]
    cases isComplete (trimChars buffer.toList) <;> rfl

/-- What has a canonical text has passed the first rules and is complete. -/
theorem passed_of_classify {buffer text : String} {input : Input} (h : classify buffer = input)
    (hcanonical : input.canonical? = some text) :
    (trimChars buffer.toList).head? ≠ some ':' ∧ isComplete (trimChars buffer.toList) = true ∧
      input = classifyBinding (trimChars buffer.toList) := by
  have hrules := firstRules buffer
  rw [h] at hrules
  cases hrules with
  | empty | command | exit => cases hcanonical
  | later hne hcolon hno =>
    have hlater := classify_later hne hcolon hno
    rw [h] at hlater
    split at hlater
    · next hcomplete => exact ⟨hcolon, hcomplete, hlater⟩
    · rw [hlater] at hcanonical
      cases hcanonical

/-- A text with an equals sign is no exit request. -/
theorem classify_of_sign {buffer : String} (hsign : '=' ∈ trimChars buffer.toList)
    (hcolon : (trimChars buffer.toList).head? ≠ some ':') (hcomplete : isComplete (trimChars buffer.toList) = true) :
    classify buffer = classifyBinding (trimChars buffer.toList) := by
  have hexit : isExitRequest (String.ofList (trimChars buffer.toList)) = false := by
    refine Bool.eq_false_iff.mpr fun hexit => ?_
    have hno := not_mem_of_isExitRequest (c := '=') hexit (by decide)
    rw [String.toList_ofList] at hno
    exact hno hsign
  rw [classify_later (List.ne_nil_of_mem hsign) hcolon hexit, if_pos hcomplete]

private theorem classifyBinding_eq_assignment_iff {cs : List Char} {name expr : String} :
    classifyBinding cs = .assignment name expr ↔
      splitDeclaration cs = none ∧ findAssignment cs = some (name, expr) := by
  unfold classifyBinding
  cases splitDeclaration cs with
  | some declaration =>
    obtain ⟨k, declared, rest⟩ := declaration
    rcases classifyDeclaration_cases (String.ofList cs) k declared rest with hother | ⟨_, _, _, hother⟩ | hother
    all_goals simp [hother]
  | none =>
    cases findAssignment cs with
    | none => simp
    | some found =>
      obtain ⟨name', expr'⟩ := found
      simp

/-- The assignments among the texts. -/
theorem classify_eq_assignment_iff (buffer name expr : String) :
    classify buffer = .assignment name expr ↔
      isComplete (trimChars buffer.toList) = true ∧ (trimChars buffer.toList).head? ≠ some ':' ∧
        ¬ StartsDeclaration (trimChars buffer.toList) ∧
          ∃ blanks rest, Assigns (trimChars buffer.toList) name expr blanks rest := by
  rw [← splitDeclaration_eq_none_iff, ← findAssignment_eq_some_iff (Text.isBlank_head?_trimChars _),
    ← classifyBinding_eq_assignment_iff]
  constructor
  · intro h
    obtain ⟨hcolon, hcomplete, hbinding⟩ := passed_of_classify h rfl
    exact ⟨hcomplete, hcolon, hbinding.symm⟩
  · rintro ⟨hcomplete, hcolon, hbinding⟩
    -- An assignment has a sign, so the tests that look for one do not stop before it.
    have hsign : '=' ∈ trimChars buffer.toList := by
      obtain ⟨before, behind, htext, _⟩ := findAssignment_spec (classifyBinding_eq_assignment_iff.mp hbinding).2
      rw [htext]
      simp
    rw [classify_of_sign hsign hcolon hcomplete, hbinding]

/-- The operators that are written with an equals sign behind another character. -/
def signedOperators : List Symbol :=
  [.equal, .notEqual, .lessEqual, .greaterEqual, .plusAssign, .minusAssign]

/-- A text whose first equals sign is part of a comparison or of a compound assignment is no assignment. -/
theorem classify_ne_assignment {buffer name expr : String} {s : Symbol} (hs : s ∈ signedOperators)
    {before behind : List Char} (hbuffer : buffer.toList = before ++ (s.word.toList ++ behind)) (hbefore : '=' ∉ before) :
    classify buffer ≠ .assignment name expr := by
  intro h
  obtain ⟨_, _, _, blanks, rest, hassigns⟩ := (classify_eq_assignment_iff buffer name expr).mp h
  obtain ⟨front, back, hfront, htrim⟩ := Text.exists_trimChars buffer.toList
  have hfirst : '=' ∉ front ++ (name.toList ++ blanks) := by
    rw [List.mem_append, not_or]
    exact ⟨fun hmem => Bool.false_ne_true ((hfront _ hmem).symm.trans (by decide)).symm, hassigns.sign_not_mem⟩
  have hbinding : buffer.toList = (front ++ (name.toList ++ blanks)) ++ '=' :: (rest ++ back) := by
    rw [htrim, hassigns.eq]
    simp
  rw [hbuffer] at hbinding
  have hoperator : s.word.toList = ['=', '='] ∨ ∃ c ∈ signs, s.word.toList = [c, '='] ∧ c ≠ '=' := by
    simp only [signedOperators, List.mem_cons, List.not_mem_nil, or_false] at hs
    rcases hs with rfl | rfl | rfl | rfl | rfl | rfl
    · exact .inl rfl
    · exact .inr ⟨'!', by simp [signs], rfl, by decide⟩
    · exact .inr ⟨'<', by simp [signs], rfl, by decide⟩
    · exact .inr ⟨'>', by simp [signs], rfl, by decide⟩
    · exact .inr ⟨'+', by simp [signs], rfl, by decide⟩
    · exact .inr ⟨'-', by simp [signs], rfl, by decide⟩
  rcases hoperator with hequal | ⟨c, hsign, hword, hne⟩
  · -- the second sign would start the rest, which starts with none and is not empty either
    rw [hequal] at hbinding
    obtain ⟨_, hrest⟩ := sign_unique hbefore hfirst hbinding
    cases rest with
    | nil => exact hassigns.nonempty hassigns.trimmed
    | cons c rest =>
      rw [List.cons_append] at hrest
      exact hassigns.noComparison (congrArg some (List.cons.inj hrest).1.symm)
  · -- the character before the sign would end a name or be a blank
    have hcut : (before ++ [c]) ++ '=' :: behind = front ++ (name.toList ++ blanks) ++ '=' :: (rest ++ back) := by
      rw [← hbinding, hword]
      simp
    have hno : '=' ∉ before ++ [c] := by simp [hbefore, hne.symm]
    obtain ⟨hsame, _⟩ := sign_unique hno hfirst hcut
    have hmem : c ∈ front ++ (name.toList ++ blanks) := hsame ▸ by simp
    rcases List.mem_append.mp hmem with hmem | hmem
    · exact Bool.false_ne_true ((separate_of_mem_signs hsign).1.symm.trans (hfront c hmem))
    · exact not_mem_identifier_blanks hassigns.identifier hassigns.blank hsign hmem

/-! ## Section 4: Canonical Texts -/

private theorem classify_trim (buffer : String) : classify (Text.trim buffer) = classify buffer := by
  have htrim : trimChars (Text.trim buffer).toList = trimChars buffer.toList := by
    rw [Text.toList_trim, Text.trimChars_trimChars]
  unfold classify
  rw [htrim]

private theorem isComplete_congr {cs ds : List Char} (h : ∀ c, isBlank c = false → cs.count c = ds.count c) :
    isComplete cs = isComplete ds := by
  unfold isComplete
  rw [h '\x7b' (by decide), h '\x7d' (by decide)]

private theorem classifyDeclaration_eq_declaration_iff {text name expr : String} {k k' : Keyword}
    {name' rest : List Char} :
    classifyDeclaration text k' name' rest = .declaration k name expr ↔
      k' = k ∧ String.ofList name' = name ∧ ∃ behind, rest = '=' :: behind ∧ behind.head? ≠ some '=' ∧
        expr = String.ofList (trimChars behind) ∧ expr ≠ "" := by
  constructor
  · intro h
    unfold classifyDeclaration at h
    split at h
    · cases h
    · split at h
      · next behind _ =>
        dsimp only at h
        split at h
        · next hexpr =>
          cases h
          -- A second sign would make it a comparison; with nothing behind the sign it is an expression.
          obtain ⟨hcompare, hnonempty⟩ := (Bool.and_eq_true _ _).mp hexpr
          exact ⟨rfl, rfl, behind, rfl, of_decide_eq_true hcompare, rfl, of_decide_eq_true hnonempty⟩
        · cases h
      · cases h
  · rintro ⟨rfl, rfl, behind, rfl, hcompare, rfl, hnonempty⟩
    unfold classifyDeclaration
    rw [if_neg (by simp)]
    exact if_pos (by simp [hcompare, hnonempty])

/-- A text that is written with blanks around its equals sign, and holds what another one holds but for the blanks. -/
theorem classify_respaced {buffer text : String} {front behind : List Char} {c : Char}
    (hcomplete : isComplete (trimChars buffer.toList) = true)
    (htext : text.toList = front ++ ' ' :: '=' :: ' ' :: trimChars behind) (hhead : front.head? = some c)
    (hblank : isBlank c = false) (hcolon : c ≠ ':') (hne : trimChars behind ≠ [])
    (hcount : ∀ d, isBlank d = false → (trimChars buffer.toList).count d = (front ++ '=' :: behind).count d) :
    classify text = classifyBinding text.toList := by
  have hstart : text.toList.head? = some c := by
    rw [htext, List.head?_append, hhead]
    rfl
  have hink : EndsInk text.toList := by
    have hink := (Text.endsInk_trimChars behind).append_left hne (front ++ [' ', '=', ' '])
    rw [htext]
    simpa using hink
  have htrim : trimChars text.toList = text.toList :=
    Text.trimChars_eq_self (fun d hd => Option.some.inj (hstart.symm.trans hd) ▸ hblank) hink
  -- the braces are those of the other text, since a brace is no blank
  have hsame : isComplete text.toList = true := by
    rw [← hcomplete]
    apply isComplete_congr
    intro d hd
    have hspace : [' '].count d = 0 := Text.count_blanks Text.isBlank_of_mem_space hd
    rw [hcount d hd, htext]
    simp only [List.count_append, List.count_cons, Text.count_trimChars _ hd] at hspace ⊢
    omega
  have hclass : classify text = classifyBinding (trimChars text.toList) := by
    apply classify_of_sign <;> rw [htrim]
    · rw [htext]
      simp
    · rw [hstart]
      simpa using hcolon
    · exact hsame
  rwa [htrim] at hclass

section Canonical

variable {cs : List Char}

private theorem splitDeclaration_canonical {k : Keyword} {name rest : List Char} (tail : List Char)
    (h : splitDeclaration cs = some (k, name, rest)) (htail : ∀ c ∈ tail.head?, isBlank c = false) :
    splitDeclaration (k.word.toList ++ (' ' :: (name ++ ' ' :: tail))) = some (k, name, tail) := by
  obtain ⟨hk, _⟩ := splitDeclaration_spec h
  obtain ⟨⟨_, _⟩, _, h⟩ := Option.bind_eq_some_iff.mp h
  obtain ⟨⟨_, _⟩, hname, h⟩ := Option.bind_eq_some_iff.mp h
  cases h
  obtain ⟨start, more, rfl, hstart, hmore⟩ := splitName_start hname
  have hkeyword := splitKeyword_word ' ' [] (start :: more ++ ' ' :: tail) hk
    Text.isBlank_of_mem_space fun c hc => Option.some.inj hc ▸ isBlank_of_start hstart
  have hblank : Text.isEstablishedContinue ' ' = false := isEstablishedContinue_of_isBlank (by decide)
  -- The blank ends the name, so the split is the same whatever stands behind.
  have hends : splitName (start :: more ++ ' ' :: tail) = some (start :: more, ' ' :: tail) := by
    rw [List.cons_append, splitName_cons hstart, List.takeWhile_append_of_pos hmore,
      List.dropWhile_append_of_pos hmore, List.takeWhile_cons_of_neg (by simp [hblank]),
      List.dropWhile_cons_of_neg (by simp [hblank]), List.append_nil]
  have hdrop : Text.dropBlanks (' ' :: tail) = tail := Text.dropBlanks_append Text.isBlank_of_mem_space htail
  rw [List.cons_append, List.nil_append] at hkeyword
  simp only [splitDeclaration, hkeyword, Option.bind_eq_bind, Option.bind_some, hends, hdrop]
  rfl

/-- A word, blanks and what comes behind them determine one another. -/
theorem dropBlanks_behind_word {word : List Char} {c : Char} (blanks rest : List Char)
    (hword : ∀ c ∈ word, isBlank c = false) (hblanks : ∀ c ∈ blanks, isBlank c = true) (hne : blanks ≠ [])
    (hc : isBlank c = false) :
    Text.dropBlanks ((word ++ (blanks ++ c :: rest)).dropWhile fun c => !isBlank c) = c :: rest := by
  obtain ⟨first, between, rfl⟩ := List.exists_cons_of_ne_nil hne
  rw [List.dropWhile_append_of_pos (by simpa using hword), List.cons_append,
    List.dropWhile_cons_of_neg (by simp [hblanks first List.mem_cons_self]), ← List.cons_append]
  exact Text.dropBlanks_append hblanks fun d hd => Option.some.inj hd ▸ hc

private theorem not_startsDeclaration_of_word {word : List Char} (hword : ∀ c ∈ word, isBlank c = false)
    (rest : List Char) :
    ¬ StartsDeclaration (word ++ ([' '] ++ '=' :: rest)) := by
  rintro ⟨k, first, start, between, tail, hk, hblanks, hstart, heq⟩
  have hkeyword : ∀ c ∈ k.word.toList, isBlank c = false := by
    have hall : (k.word.toList.any isBlank) = false := by rcases hk with rfl | rfl <;> decide
    simpa using hall
  -- Behind the first word and its blanks stands the sign, where a declaration has a name.
  have hsign := dropBlanks_behind_word [' '] rest hword Text.isBlank_of_mem_space (by simp)
    (show isBlank '=' = false by decide)
  have hname := dropBlanks_behind_word _ tail hkeyword hblanks (by simp) (isBlank_of_start hstart)
  rw [heq, hname] at hsign
  obtain ⟨rfl, _⟩ := List.cons.inj hsign
  rcases hstart with h | h
  · exact absurd h (by decide)
  · have hcontinue := Text.isIdentifierContinue_of_start (Text.isIdentifierStart_of_established h)
    obtain ⟨_, hnone⟩ := separate_of_mem_signs (show '=' ∈ signs by simp [signs])
    exact Bool.false_ne_true ((Bool.or_eq_false_iff.mp hnone).2.symm.trans hcontinue)

end Canonical

private theorem classify_canonical_declaration {buffer name expr : String} {k : Keyword}
    (h : classify buffer = .declaration k name expr) :
    classify (k.word ++ " " ++ name ++ " = " ++ expr) = .declaration k name expr := by
  obtain ⟨_, hcomplete, hbinding⟩ := passed_of_classify h rfl
  unfold classifyBinding at hbinding
  split at hbinding
  · next k' name' rest hsplit =>
    obtain ⟨rfl, rfl, behind, rfl, _, rfl, hnonempty⟩ := classifyDeclaration_eq_declaration_iff.mp hbinding.symm
    obtain ⟨hk, first, between, blanks, hbetween, hblanks, htext⟩ := splitDeclaration_spec hsplit
    obtain ⟨c, hhead, hblank, hcolon⟩ :
        ∃ c, (k'.word.toList ++ ' ' :: name').head? = some c ∧ isBlank c = false ∧ c ≠ ':' := by
      rcases hk with rfl | rfl
      · exact ⟨'d', rfl, by decide, by decide⟩
      · exact ⟨'v', rfl, by decide, by decide⟩
    have hchars : (k'.word ++ " " ++ String.ofList name' ++ " = " ++ String.ofList (trimChars behind)).toList =
        (k'.word.toList ++ ' ' :: name') ++ ' ' :: '=' :: ' ' :: trimChars behind := by
      simp
    have hne : trimChars behind ≠ [] := fun hnil => hnonempty (by rw [hnil])
    -- Rebuilding the text moves blanks only, so every other character is there as often as before.
    have hcount : ∀ d, isBlank d = false → (trimChars buffer.toList).count d =
        ((k'.word.toList ++ ' ' :: name') ++ '=' :: behind).count d := by
      intro d hd
      have hspace : [' '].count d = 0 := Text.count_blanks Text.isBlank_of_mem_space hd
      have hbetween : (first :: between).count d = 0 := Text.count_blanks hbetween hd
      rw [htext]
      simp only [List.count_append, List.count_cons, Text.count_blanks hblanks hd] at hspace hbetween ⊢
      omega
    have hdeclaration := splitDeclaration_canonical ('=' :: ' ' :: trimChars behind) hsplit fun d hd => by
      cases hd
      decide
    rw [classify_respaced hcomplete hchars hhead hblank hcolon hne hcount, hchars, List.append_assoc, List.cons_append,
      classifyBinding, hdeclaration]
    exact classifyDeclaration_eq_declaration_iff.mpr
      ⟨rfl, rfl, ' ' :: trimChars behind, rfl, by simp, by rw [Text.trimChars_space_cons], hnonempty⟩
  · split at hbinding <;> cases hbinding

private theorem classify_canonical_assignment {buffer name expr : String}
    (h : classify buffer = .assignment name expr) :
    classify (name ++ " = " ++ expr) = .assignment name expr := by
  obtain ⟨hcomplete, _, _, blanks, rest, hassigns⟩ := (classify_eq_assignment_iff buffer name expr).mp h
  obtain ⟨c, word, hword⟩ := List.exists_cons_of_ne_nil fun hnil : name.toList = [] => by
    have hidentifier := hassigns.identifier
    rw [Text.isIdentifier, hnil] at hidentifier
    cases hidentifier
  have hc : c ∈ name.toList := by simp [hword]
  have hcolon : c ≠ ':' := by
    rintro rfl
    exact Text.not_mem_of_isIdentifier hassigns.identifier (separate_of_mem_signs (by simp [signs])).2 hc
  have hexpr : expr.toList = trimChars rest := by rw [hassigns.trimmed, String.toList_ofList]
  have hchars : (name ++ " = " ++ expr).toList = name.toList ++ ' ' :: '=' :: ' ' :: trimChars rest := by
    simp [hexpr]
  have hne : trimChars rest ≠ [] := fun hnil => hassigns.nonempty (by rw [hassigns.trimmed, hnil])
  have hcount : ∀ d, isBlank d = false →
      (trimChars buffer.toList).count d = (name.toList ++ '=' :: rest).count d := by
    intro d hd
    rw [hassigns.eq]
    simp [List.count_append, Text.count_blanks hassigns.blank hd]
  -- the text is of the grammar, with one blank before the sign and one behind it
  have hform : Assigns (name.toList ++ ' ' :: '=' :: ' ' :: trimChars rest) name expr [' '] (' ' :: trimChars rest) := by
    refine ⟨rfl, hassigns.identifier, Text.isBlank_of_mem_space, by simp, ?_, hassigns.nonempty⟩
    rw [Text.trimChars_space_cons]
    exact hassigns.trimmed
  -- and no declaration, even if the name is a keyword: a sign is behind it where a name would have to be
  have hdeclaration := (splitDeclaration_eq_none_iff _).mpr (not_startsDeclaration_of_word
    (fun d hd => isBlank_of_mem_identifier hassigns.identifier hd) (' ' :: trimChars rest))
  rw [classify_respaced hcomplete hchars (by rw [hword]; rfl) (isBlank_of_mem_identifier hassigns.identifier hc) hcolon
    hne hcount, hchars]
  exact classifyBinding_eq_assignment_iff.mpr ⟨hdeclaration, findAssignment_of_assigns hform⟩

/-- Definitions and expressions are the typed text itself. -/
theorem trim_of_classifyBinding {buffer : String} :
    (∀ name source, classifyBinding (trimChars buffer.toList) = .functionDefinition name source →
      source = Text.trim buffer) ∧
      ∀ text, classifyBinding (trimChars buffer.toList) = .expression text → text = Text.trim buffer := by
  unfold classifyBinding
  cases splitDeclaration (trimChars buffer.toList) with
  | some declaration =>
    obtain ⟨k, name, rest⟩ := declaration
    rcases classifyDeclaration_cases (String.ofList (trimChars buffer.toList)) k name rest with
      hinput | ⟨_, _, _, hinput⟩ | hinput
    all_goals simp [hinput, Text.trim, eq_comm]
  | none =>
    cases findAssignment (trimChars buffer.toList) <;> simp [Text.trim, eq_comm]

/-- A class is the class of its canonical text. -/
theorem classify_canonical {buffer text : String} (h : (classify buffer).canonical? = some text) :
    classify text = classify buffer := by
  cases hinput : classify buffer with
  | declaration k name expr =>
    rw [hinput] at h
    cases h
    exact classify_canonical_declaration hinput
  | assignment name expr =>
    rw [hinput] at h
    cases h
    exact classify_canonical_assignment hinput
  | functionDefinition name source =>
    obtain ⟨_, _, hbinding⟩ := passed_of_classify hinput rfl
    rw [hinput] at h
    cases h
    -- the canonical text is the typed one, trimmed
    have htyped := trim_of_classifyBinding.1 _ _ hbinding.symm
    exact ((congrArg classify htyped).trans (classify_trim buffer)).trans hinput
  | expression typed =>
    obtain ⟨_, _, hbinding⟩ := passed_of_classify hinput rfl
    rw [hinput] at h
    cases h
    have htyped := trim_of_classifyBinding.2 _ hbinding.symm
    exact ((congrArg classify htyped).trans (classify_trim buffer)).trans hinput
  | _ =>
    rw [hinput] at h
    cases h

/-! ## Section 5: The Grammar of Every Text -/

/-- For every text: it is an assignment just when the grammar says so, it is none when its first equals sign is part of
a comparison or of a compound assignment, and its canonical text, if it has one, is of its class. -/
theorem classify_grammar (buffer : String) :
    (∀ name expr, classify buffer = .assignment name expr ↔
      (trimChars buffer.toList).count '\x7b' ≤ (trimChars buffer.toList).count '\x7d' ∧
        (trimChars buffer.toList).head? ≠ some ':' ∧ ¬ StartsDeclaration (trimChars buffer.toList) ∧
          ∃ blanks rest, Assigns (trimChars buffer.toList) name expr blanks rest) ∧
      (∀ s ∈ signedOperators, ∀ before behind, buffer.toList = before ++ (s.word.toList ++ behind) → '=' ∉ before →
        ∀ name expr, classify buffer ≠ .assignment name expr) ∧
      ∀ text, (classify buffer).canonical? = some text → classify text = classify buffer := by
  refine ⟨fun name expr => ?_, ?_, fun text => classify_canonical⟩
  · rw [classify_eq_assignment_iff, isComplete, decide_eq_true_eq]
  · exact fun s hs before behind hbuffer hbefore name expr => classify_ne_assignment hs hbuffer hbefore

/-- Blanks, a name that is a keyword and a rest that starts with a sign behind a blank: an assignment all the same. -/
theorem classify_grammar_keyword :
    classify "  def  = = \x7b 5 \x7d " = .assignment "def" "= \x7b 5 \x7d" ∧
      classify "def = = \x7b 5 \x7d" = classify "  def  = = \x7b 5 \x7d " ∧
      "x <= 5".toList = "x ".toList ++ (Symbol.lessEqual.word.toList ++ " 5".toList) ∧
      ∀ name expr, classify "x <= 5" ≠ .assignment name expr := by
  have hinput : classify "  def  = = \x7b 5 \x7d " = .assignment "def" "= \x7b 5 \x7d" := by decide +kernel
  refine ⟨hinput, ?_, rfl, ?_⟩
  · exact (classify_grammar "  def  = = \x7b 5 \x7d ").2.2 _ (by rw [hinput]; rfl)
  · exact (classify_grammar "x <= 5").2.1 .lessEqual (by decide) "x ".toList " 5".toList rfl (by decide)

end RowConsole.Session
