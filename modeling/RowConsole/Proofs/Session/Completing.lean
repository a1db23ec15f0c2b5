import Mathlib.Data.List.DropRight
import Mathlib.Data.String.Basic
import RowConsole.Proofs.Session.Notices
import RowConsole.Proofs.Session.Registry

/-!
# Completions

The candidates of a session are its commands, the exit words, its functions and the variables that the user is shown, in
ascending order. What is completed is the word before the cursor. Words are cut by a class of characters of their own,
which is not that of identifiers: an identifier may hold characters that are neither letters nor digits, as some
combining marks are, and a word ends at each of them. So a name is offered for its first characters just as long as no
such character is among them.

Main statement: `candidates_complete`.
-/

namespace RowConsole.Session

open Script (Runtime)

/-! ## Section 1: Candidates -/

variable {ctx : Context} {name : String}

private theorem mem_fixedCandidates :
    name ∈ fixedCandidates ↔ (∃ c ∈ Command.all, name = ":" ++ c.name) ∨ name = "exit" ∨ name = "quit" := by
  simp [fixedCandidates, eq_comm]

private theorem mem_candidates :
    name ∈ candidates ctx ↔ (∃ c ∈ Command.all, name = ":" ++ c.name) ∨ name = "exit" ∨ name = "quit" ∨
      name ∈ ctx.functions.keys ∨
        name ∈ ctx.bindings.names ∧ isReserved name = false ∧ name.toList.head? ≠ some '_' := by
  rw [candidates, (eraseReps_mergeSort _).2, List.mem_append, List.mem_append, mem_fixedCandidates,
    Bindings.userNames, List.mem_filter]
  simp [or_assoc]

/-! ## Section 2: The Word before the Cursor -/

/-- The bytes of a text are those of its string. -/
theorem byteLength_eq (cs : List Char) : byteLength cs = (String.ofList cs).utf8ByteSize := by
  have hfrom : ∀ n, cs.foldl (fun n c => n + c.utf8Size) n = n + String.utf8Len cs := by
    induction cs with
    | nil => simp
    | cons c rest ih =>
      intro n
      rw [List.foldl_cons, ih, String.utf8Len_cons]
      omega
  rw [byteLength, hfrom, String.utf8ByteSize_ofList, Nat.zero_add]

private theorem byteLength_cons (c : Char) (cs : List Char) : byteLength (c :: cs) = c.utf8Size + byteLength cs := by
  rw [byteLength_eq, byteLength_eq, String.utf8ByteSize_ofList, String.utf8ByteSize_ofList, String.utf8Len_cons,
    Nat.add_comm]

private theorem byteLength_append (cs ds : List Char) : byteLength (cs ++ ds) = byteLength cs + byteLength ds := by
  rw [byteLength_eq, byteLength_eq, byteLength_eq, String.ofList_append, String.utf8ByteSize_append]

/-- All bytes of a text are the whole text. -/
theorem takeBytes?_byteLength (cs : List Char) : takeBytes? cs (byteLength cs) = some cs := by
  induction cs with
  | nil => rfl
  | cons c rest ih =>
    have hpos := c.utf8Size_pos
    obtain ⟨n, hn⟩ : ∃ n, byteLength (c :: rest) = n + 1 :=
      Nat.exists_eq_add_one.mpr (by rw [byteLength_cons]; omega)
    -- the first character fits, and what it leaves are the bytes of the others
    have hcons := byteLength_cons c rest
    have hrest : n + 1 - c.utf8Size = byteLength rest := by omega
    rw [hn, takeBytes?, if_pos (by omega), hrest, ih]
    rfl

/-- The word before the cursor at the end of a line is the longest end of the line that consists of characters of
words, and what is in front of it counts for the start. -/
theorem completeWord_eq (line : String) (candidates : List String) :
    completeWord line line.utf8ByteSize candidates =
      (byteLength (line.toList.rdropWhile isWordChar),
        if (line.toList.rtakeWhile isWordChar).isEmpty then []
        else candidates.filter fun c => Text.startsWith (line.toList.rtakeWhile isWordChar) c.toList) := by
  have hbytes : line.utf8ByteSize = byteLength line.toList := by rw [byteLength_eq, String.ofList_toList]
  have hstart : byteLength line.toList - byteLength (line.toList.rtakeWhile isWordChar) =
      byteLength (line.toList.rdropWhile isWordChar) := by
    have hsum := byteLength_append (line.toList.rdropWhile isWordChar) (line.toList.rtakeWhile isWordChar)
    rw [List.rdropWhile_append_rtakeWhile] at hsum
    omega
  rw [completeWord, hbytes, takeBytes?_byteLength, ← hstart]
  show (if (line.toList.rtakeWhile isWordChar).isEmpty then _ else _) = _
  split <;> rfl

/-- What is completed at the end of a line starts between two characters, behind the last one that does not belong to
words, and the candidates that start with it are offered unless it is empty. -/
theorem completeWord_end (line : String) (candidates : List String) :
    ∃ front word, line.toList = front ++ word ∧ (∀ c ∈ front.getLast?, isWordChar c = false) ∧
      (∀ c ∈ word, isWordChar c = true) ∧
      (completeWord line line.utf8ByteSize candidates).1 = (String.ofList front).utf8ByteSize ∧
      ∀ name, name ∈ (completeWord line line.utf8ByteSize candidates).2 ↔
        name ∈ candidates ∧ word ≠ [] ∧ word <+: name.toList := by
  rw [completeWord_eq]
  refine ⟨_, _, List.rdropWhile_append_rtakeWhile.symm, fun c hc => ?_, fun c hc => List.mem_rtakeWhile_imp hc,
    byteLength_eq _, fun name => ?_⟩
  · obtain ⟨hne, rfl⟩ := List.mem_getLast?_eq_getLast hc
    exact Bool.eq_false_iff.mpr (List.rdropWhile_last_not isWordChar line.toList hne)
  · cases hword : line.toList.rtakeWhile isWordChar with
    | nil => simp
    | cons c rest => simp [Text.startsWith_iff]

/-! ## Section 3: Prefixes of Candidates -/

/-- A line that is not empty is completed as a whole just if it is a word. -/
theorem completeWord_prefix {candidates : List String} {typed : String} (hname : name ∈ candidates)
    (hne : typed ≠ "") (htyped : typed.toList <+: name.toList) :
    ((completeWord typed typed.utf8ByteSize candidates).1 = 0 ∧
      name ∈ (completeWord typed typed.utf8ByteSize candidates).2) ↔ ∀ c ∈ typed.toList, isWordChar c = true := by
  obtain ⟨front, word, hcut, hlast, hword, hstart, hoffered⟩ := completeWord_end typed candidates
  rw [hstart, hoffered]
  constructor
  · -- a line that starts with its word has nothing in front of it
    rintro ⟨hzero, -⟩
    have hfront : front = [] := by
      rw [← String.ofList_eq_empty_iff, ← String.utf8ByteSize_eq_zero_iff]
      exact hzero
    rw [hcut, hfront]
    exact hword
  · intro hall
    -- what is in front of the word would end with a character that does not belong to words
    have hfront : front = [] := by
      rw [← List.getLast?_eq_none_iff, Option.eq_none_iff_forall_not_mem]
      intro c hc
      have hchar := hall c (hcut ▸ List.mem_append_left _ (List.mem_of_mem_getLast? hc))
      rw [hlast c hc] at hchar
      contradiction
    subst hfront
    rw [List.nil_append] at hcut
    exact ⟨rfl, hname, fun h => hne (String.toList_eq_nil_iff.mp (hcut.trans h)), hcut ▸ htyped⟩

/-- The characters of candidates belong to words, or they continue identifiers. -/
theorem Context.Sound.mem_toList (h : ctx.Sound) (hname : name ∈ candidates ctx) {c : Char} (hc : c ∈ name.toList) :
    isWordChar c = true ∨ Text.isIdentifierContinue c = true := by
  have hchecked : ∀ {name : String}, checkName name = .ok () → c ∈ name.toList → Text.isIdentifierContinue c = true :=
    fun hok hc => Text.isIdentifierContinue_of_mem (checkName_eq_ok_iff.mp hok).1 hc
  have hall : fixedCandidates.all (fun name => name.toList.all isWordChar) = true := by decide +kernel
  have hfixed : name ∈ fixedCandidates → isWordChar c = true := fun hmem =>
    List.all_eq_true.mp (List.all_eq_true.mp hall name hmem) c hc
  rcases mem_candidates.mp hname with hmem | hmem | hmem | hmem | ⟨hmem, hreserved, -⟩
  · exact .inl (hfixed (mem_fixedCandidates.mpr (.inl hmem)))
  · exact .inl (hfixed (mem_fixedCandidates.mpr (.inr (.inl hmem))))
  · exact .inl (hfixed (mem_fixedCandidates.mpr (.inr (.inr hmem))))
  · exact .inr (hchecked (h.functions name hmem) hc)
  · rcases h.names name hmem with hreserved' | hok
    · exact absurd (hreserved.symm.trans hreserved') Bool.false_ne_true
    · exact .inr (hchecked hok hc)

/-- The candidates of a context that can be reached are in strictly ascending order, and they are the commands, the exit
words, the functions and the variables that are shown. The first characters of a candidate are completed, from the start
of the line on, just as long as all of them belong to words; otherwise one of them is a character that may continue an
identifier and that ends a word. -/
theorem candidates_complete (h : ctx.Reachable) :
    (candidates ctx).Pairwise (· < ·) ∧
      (∀ name, name ∈ candidates ctx ↔
        (∃ c ∈ Command.all, name = ":" ++ c.name) ∨ name = "exit" ∨ name = "quit" ∨ name ∈ ctx.functions.keys ∨
          name ∈ ctx.bindings.names ∧ isReserved name = false ∧ name.toList.head? ≠ some '_') ∧
      ∀ name ∈ candidates ctx,
        (∀ c ∈ name.toList, isWordChar c = true ∨ Text.isIdentifierContinue c = true) ∧
        ∀ typed, typed ≠ "" → typed.toList <+: name.toList →
          (((completeWord typed typed.utf8ByteSize (candidates ctx)).1 = 0 ∧
            name ∈ (completeWord typed typed.utf8ByteSize (candidates ctx)).2) ↔
              ∀ c ∈ typed.toList, isWordChar c = true) :=
  ⟨(eraseReps_mergeSort _).1, fun _ => mem_candidates, fun _ hname =>
    ⟨fun _ hc => h.grows.sound.mem_toList hname hc, fun _ hne htyped => completeWord_prefix hname hne htyped⟩⟩

/-- Variables and a function behind some interactions: hidden names and handles are no candidates, and the first letters
of `größe`, which take four bytes, are completed. -/
theorem candidates_complete_letters :
    let s₀ : Session Runtime := Session.new { fuel := 20 } {}
    let is : List Interaction := [.line "größe = 1", .line "_tmp = 2", .line "def f_1() \x7b 1 \x7d"]
    ∃ s, s₀.interactAll is = some s ∧ s.context.Reachable ∧ "größe" ∈ candidates s.context ∧
      "f_1" ∈ candidates s.context ∧ "_tmp" ∉ candidates s.context ∧ "repl" ∉ candidates s.context ∧
      (candidates s.context).Pairwise (· < ·) ∧
      (completeWord "grö" 4 (candidates s.context)).1 = 0 ∧
        "größe" ∈ (completeWord "grö" 4 (candidates s.context)).2 := by
  intro s₀ is
  have hrun : (s₀.interactAll is).map (fun s => (OrderedMap.keys s.context.functions, s.context.bindings.names)) =
      some (["f_1"], ["repl", "terminal", "reader", "größe", "_tmp", "f_1"]) := by decide +kernel
  obtain ⟨s, h, hstores⟩ := Option.map_eq_some_iff.mp hrun
  obtain ⟨hfunctions, hnames⟩ := Prod.mk.inj hstores
  have hreachable : s.context.Reachable := Context.Reachable.new.interactAll (s := s₀) h
  obtain ⟨hascending, hmem, hcomplete⟩ := candidates_complete hreachable
  simp only [hfunctions, hnames] at hmem
  have hvariable := (hmem "größe").mpr (by decide +kernel)
  have hletters : "grö".toList.all isWordChar = true := by decide +kernel
  -- All letters of the prefix belong to words, so the word to complete starts at the front.
  obtain ⟨hstart, hoffered⟩ :=
    ((hcomplete "größe" hvariable).2 "grö" (by decide) ⟨['ß', 'e'], rfl⟩).mpr (List.all_eq_true.mp hletters)
  exact ⟨s, h, hreachable, hvariable, (hmem "f_1").mpr (by decide +kernel), mt (hmem "_tmp").mp (by decide +kernel),
    mt (hmem "repl").mp (by decide +kernel), hascending, hstart, hoffered⟩

/-- A combining accent continues an identifier and ends a word. So a variable whose name ends with one is a candidate,
but where its name has been typed, the word before the cursor is empty and nothing is offered. -/
theorem candidates_complete_mark :
    let name := "cafe\u0301"
    ∃ ctx : Context, ctx.Reachable ∧ name ∈ candidates ctx ∧
      completeWord name name.utf8ByteSize (candidates ctx) = (6, []) := by
  intro name
  let s₀ : Session Runtime := Session.new { fuel := 20 } {}
  have hrun : (s₀.interactAll [.line "cafe\u0301 = 1"]).map (·.context.bindings.names) =
      some ["repl", "terminal", "reader", "cafe\u0301"] := by decide +kernel
  obtain ⟨s, h, hnames⟩ := Option.map_eq_some_iff.mp hrun
  refine ⟨s.context, Context.Reachable.new.interactAll (s := s₀) h, mem_candidates.mpr ?_, ?_⟩
  · rw [hnames]
    exact .inr (.inr (.inr (.inr (by decide +kernel))))
  · have hhead : takeBytes? name.toList name.utf8ByteSize = some name.toList := by decide +kernel
    -- The combining mark ends the word, so there is nothing left to complete.
    have hword : name.toList.reverse.takeWhile isWordChar = [] := by decide +kernel
    have hstart : byteLength name.toList = 6 := by decide +kernel
    simp only [completeWord, hhead, Option.getD_some, hword, hstart]
    rfl

end RowConsole.Session
