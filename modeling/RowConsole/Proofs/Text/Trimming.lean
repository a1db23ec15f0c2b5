import Mathlib.Data.List.DropRight
import RowConsole.Text.Blank

/-!
# Trimmed Texts

What trimming takes off a text, and what it leaves.
-/

namespace RowConsole.Text

variable {cs : List Char}

/-- What is dropped in front are blanks. -/
theorem exists_dropBlanks (cs : List Char) :
    ∃ blanks, (∀ c ∈ blanks, isBlank c = true) ∧ cs = blanks ++ dropBlanks cs :=
  ⟨cs.takeWhile isBlank, fun _ => List.mem_takeWhile_imp, List.takeWhile_append_dropWhile.symm⟩

/-- What is dropped at the end are blanks. -/
theorem exists_dropBlanksEnd (cs : List Char) :
    ∃ blanks, (∀ c ∈ blanks, isBlank c = true) ∧ cs = dropBlanksEnd cs ++ blanks :=
  ⟨cs.rtakeWhile isBlank, fun _ => List.mem_rtakeWhile_imp, (List.rdropWhile_append_rtakeWhile).symm⟩

/-- Nothing is dropped in front of a character that is no blank. -/
theorem dropBlanks_eq_self (h : ∀ c ∈ cs.head?, isBlank c = false) : dropBlanks cs = cs := by
  cases cs with
  | nil => rfl
  | cons c rest =>
    have hc : isBlank c = false := h c rfl
    exact List.dropWhile_cons_of_neg (by simp [hc])

/-- Blanks are dropped up to a character that is none. -/
theorem dropBlanks_append {blanks : List Char} (hblanks : ∀ c ∈ blanks, isBlank c = true)
    (h : ∀ c ∈ cs.head?, isBlank c = false) : dropBlanks (blanks ++ cs) = cs := by
  rw [dropBlanks, List.dropWhile_append_of_pos hblanks]
  exact dropBlanks_eq_self h

/-- A text that does not end in a blank. -/
def EndsInk (cs : List Char) : Prop :=
  ∀ c ∈ cs.getLast?, isBlank c = false

/-- Nothing is dropped behind a character that is no blank. -/
private theorem dropBlanksEnd_eq_self (h : EndsInk cs) : dropBlanksEnd cs = cs := by
  apply (List.rdropWhile_eq_self_iff).mpr
  intro hne hblank
  have hlast := h _ (List.getLast?_eq_some_getLast hne)
  rw [hlast] at hblank
  contradiction

/-- The end of a text is the end of its last part. -/
theorem EndsInk.of_append {front : List Char} (h : EndsInk (front ++ cs)) : EndsInk cs := by
  intro c hc
  apply h
  rw [List.getLast?_append, Option.mem_def.mp hc]
  rfl

/-- A trimmed text does not start with a blank. -/
theorem isBlank_head?_trimChars (cs : List Char) : ∀ c ∈ (trimChars cs).head?, isBlank c = false := by
  intro c hc
  have hprefix : trimChars cs <+: dropBlanks cs := List.rdropWhile_prefix isBlank _
  obtain ⟨tail, htail⟩ := hprefix
  have hhead := List.head?_dropWhile_not isBlank cs
  rw [show cs.dropWhile isBlank = trimChars cs ++ tail from htail.symm, List.head?_append, Option.mem_def.mp hc] at hhead
  simpa using hhead

/-- A trimmed text does not end in a blank. -/
theorem endsInk_trimChars (cs : List Char) : EndsInk (trimChars cs) := by
  intro c hc
  obtain ⟨hne, rfl⟩ := List.mem_getLast?_eq_getLast hc
  exact Bool.eq_false_iff.mpr (List.rdropWhile_last_not isBlank _ hne)

/-- What stands in front of a text does not change its end. -/
theorem EndsInk.append_left (h : EndsInk cs) (hne : cs ≠ []) (front : List Char) : EndsInk (front ++ cs) := by
  intro c hc
  apply h
  rwa [List.getLast?_append_of_ne_nil _ hne] at hc

/-- What does not end in a blank is trimmed in front only. -/
theorem exists_trimChars_of_endsInk (h : EndsInk cs) :
    ∃ blanks, (∀ c ∈ blanks, isBlank c = true) ∧ cs = blanks ++ trimChars cs := by
  obtain ⟨blanks, hblanks, hcs⟩ := exists_dropBlanks cs
  have hink : EndsInk (dropBlanks cs) := (hcs ▸ h : EndsInk (blanks ++ dropBlanks cs)).of_append
  refine ⟨blanks, hblanks, ?_⟩
  rw [trimChars, dropBlanksEnd_eq_self hink]
  exact hcs

/-- What trimming takes off are blanks. -/
theorem exists_trimChars (cs : List Char) :
    ∃ blanks blanks', (∀ c ∈ blanks, isBlank c = true) ∧ cs = blanks ++ (trimChars cs ++ blanks') := by
  obtain ⟨blanks, hblanks, hcs⟩ := exists_dropBlanks cs
  obtain ⟨blanks', _, hrest⟩ := exists_dropBlanksEnd (dropBlanks cs)
  exact ⟨blanks, blanks', hblanks, hcs.trans (congrArg (blanks ++ ·) hrest)⟩

/-- Trimming adds no characters. -/
private theorem mem_of_mem_trimChars {c : Char} (h : c ∈ trimChars cs) : c ∈ cs := by
  obtain ⟨blanks, blanks', _, hcs⟩ := exists_trimChars cs
  rw [hcs]
  exact List.mem_append_right _ (List.mem_append_left _ h)

/-- What is not blank is not trimmed off. -/
theorem mem_trimChars {c : Char} (h : c ∈ cs) (hc : isBlank c = false) : c ∈ trimChars cs := by
  obtain ⟨blanks, hblanks, hfront⟩ := exists_dropBlanks cs
  obtain ⟨blanks', hblanks', hback⟩ := exists_dropBlanksEnd (dropBlanks cs)
  rw [hfront, hback] at h
  rcases List.mem_append.mp h with h | h
  · exact absurd (hblanks c h) (Bool.eq_false_iff.mp hc)
  · rcases List.mem_append.mp h with h | h
    · exact h
    · exact absurd (hblanks' c h) (Bool.eq_false_iff.mp hc)

/-- A text that goes on starts, when it is trimmed, as it starts so far. -/
theorem head?_trimChars_append {more : List Char} {c : Char} (h : (trimChars cs).head? = some c) :
    (trimChars (cs ++ more)).head? = some c := by
  obtain ⟨blanks, hblanks, hfront⟩ := exists_dropBlanks cs
  obtain ⟨blanks', _, hback⟩ := exists_dropBlanksEnd (dropBlanks cs)
  have hc : isBlank c = false := isBlank_head?_trimChars cs c h
  obtain ⟨rest, hrest⟩ : ∃ rest, trimChars cs = c :: rest := List.head?_eq_some_iff.mp h
  have hdrop : dropBlanks (cs ++ more) = c :: (rest ++ blanks' ++ more) := by
    have hcs : cs ++ more = blanks ++ (c :: (rest ++ blanks' ++ more)) := by
      have htrim : trimChars cs = dropBlanksEnd (dropBlanks cs) := rfl
      rw [hfront, hback, ← htrim, hrest]
      simp
    rw [hcs]
    exact dropBlanks_append hblanks fun d hd => Option.some.inj hd ▸ hc
  -- trimming at the end stops at the first character at the latest
  obtain ⟨tail, htail⟩ : trimChars (cs ++ more) <+: dropBlanks (cs ++ more) := List.rdropWhile_prefix isBlank _
  have hmem : c ∈ trimChars (cs ++ more) := by
    apply mem_trimChars _ hc
    have hmem : c ∈ trimChars cs := hrest ▸ List.mem_cons_self
    exact List.mem_append_left _ (mem_of_mem_trimChars hmem)
  cases htrim : trimChars (cs ++ more) with
  | nil =>
    rw [htrim] at hmem
    contradiction
  | cons d ds =>
    rw [htrim, hdrop] at htail
    rw [(List.cons.inj htail).1]
    rfl

/-- A text without blanks at its ends is trimmed already. -/
theorem trimChars_eq_self (hhead : ∀ c ∈ cs.head?, isBlank c = false) (hink : EndsInk cs) : trimChars cs = cs := by
  rw [trimChars, dropBlanks_eq_self hhead, dropBlanksEnd_eq_self hink]

@[simp] theorem trimChars_trimChars (cs : List Char) : trimChars (trimChars cs) = trimChars cs :=
  trimChars_eq_self (isBlank_head?_trimChars cs) (endsInk_trimChars cs)

/-- Blanks at either end make no difference. -/
theorem trimChars_blanks (blanks blanks' : List Char) (hblanks : ∀ c ∈ blanks, isBlank c = true)
    (hblanks' : ∀ c ∈ blanks', isBlank c = true) (htrimmed : trimChars cs = cs) :
    trimChars (blanks ++ (cs ++ blanks')) = cs := by
  have hhead : dropBlanks (blanks ++ (cs ++ blanks')) = dropBlanks (cs ++ blanks') :=
    List.dropWhile_append_of_pos hblanks
  -- The text ends in ink, so dropping from the end stops there; without any text all of it is blank.
  have hend : dropBlanksEnd (cs ++ blanks') = cs := by
    have hink : EndsInk cs := htrimmed ▸ endsInk_trimChars cs
    have hdrop : dropBlanksEnd (cs ++ blanks') = dropBlanksEnd cs := by
      unfold dropBlanksEnd
      rw [List.reverse_append, List.dropWhile_append_of_pos fun c hc => hblanks' c (List.mem_reverse.mp hc)]
    rw [hdrop, dropBlanksEnd_eq_self hink]
  rw [trimChars, hhead]
  cases cs with
  | nil =>
    have hnone : dropBlanks ([] ++ blanks') = [] := List.dropWhile_eq_nil_iff.mpr hblanks'
    rw [hnone]
    rfl
  | cons c rest =>
    have hc : isBlank c = false := isBlank_head?_trimChars (c :: rest) c (by rw [htrimmed]; rfl)
    have hfront : dropBlanks (c :: rest ++ blanks') = c :: rest ++ blanks' :=
      dropBlanks_eq_self fun d hd => Option.some.inj hd ▸ hc
    rw [hfront, hend]

theorem isBlank_of_mem_space : ∀ c ∈ [' '], isBlank c = true :=
  List.forall_mem_singleton.mpr (by decide)

/-- A blank in front of a trimmed text is taken off again. -/
theorem trimChars_space_cons (cs : List Char) : trimChars (' ' :: trimChars cs) = trimChars cs := by
  have htrim := trimChars_blanks [' '] [] isBlank_of_mem_space (by simp) (trimChars_trimChars cs)
  rwa [List.append_nil] at htrim

/-- A character that is no blank does not occur among blanks. -/
theorem count_blanks {blanks : List Char} (h : ∀ c ∈ blanks, isBlank c = true) {c : Char} (hc : isBlank c = false) :
    blanks.count c = 0 :=
  List.count_eq_zero.mpr fun hmem => Bool.false_ne_true (hc.symm.trans (h c hmem))

/-- Trimming takes off nothing but blanks. -/
theorem count_trimChars (cs : List Char) {c : Char} (hc : isBlank c = false) : (trimChars cs).count c = cs.count c := by
  obtain ⟨blanks, hblanks, hfront⟩ := exists_dropBlanks cs
  obtain ⟨blanks', hblanks', hback⟩ := exists_dropBlanksEnd (dropBlanks cs)
  calc (trimChars cs).count c
    _ = blanks.count c + ((trimChars cs).count c + blanks'.count c) := by
      rw [count_blanks hblanks hc, count_blanks hblanks' hc, Nat.zero_add, Nat.add_zero]
    _ = (blanks ++ (trimChars cs ++ blanks')).count c := by
      rw [List.count_append, List.count_append]
    _ = cs.count c := congrArg (List.count c) (hfront.trans (congrArg (blanks ++ ·) hback)).symm

/-- Nothing is left of a blank text. -/
theorem trim_of_isBlankString {s : String} (h : isBlankString s = true) : trim s = "" := by
  have hblank : dropBlanks s.toList = [] := List.dropWhile_eq_nil_iff.mpr (List.all_eq_true.mp h)
  unfold trim trimChars
  rw [hblank]
  rfl

theorem toList_trim (s : String) : (trim s).toList = trimChars s.toList :=
  String.toList_ofList

end RowConsole.Text
