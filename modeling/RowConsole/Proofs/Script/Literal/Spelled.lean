import RowConsole.Proofs.Script.Grammar.Expressions
import RowConsole.Proofs.Script.Token.Cutting
import RowConsole.Script.Value.Text

/-!
# Values That Are Spelled by Their Text

The text of a value inside other values is that of tokens: brackets and commas around literals, a minus sign before
the digits of a negative number, and the keys of a map as plain words. Strings stand in quotes and are not escaped,
and so only values without quotes and backslashes can be read back.

Main statement: `cuts_repr`, that the text of such a value is cut into the tokens of the value.
-/

namespace RowConsole.Script

/-! ## Section 1: Values and Their Tokens -/

/-- Values whose text is a literal, at most `depth` of their lists and maps inside one another. -/
inductive Value.Spelled : Nat → Value → Prop where
  | null {depth : Nat} : Spelled depth .null
  | bool {depth : Nat} (b : Bool) : Spelled depth (.bool b)
  | int {depth : Nat} {n : Int64} : Int64.minValue < n → Spelled depth (.int n)
  | str {depth : Nat} {s : String} : '\x27' ∉ s.toList → '\\' ∉ s.toList → Spelled depth (.str s)
  | list {depth : Nat} {items : List Value} : (∀ v ∈ items, Spelled depth v) → Spelled (depth + 1) (.list items)
  | map {depth : Nat} {entries : List (String × Value)} : (OrderedMap.keys entries).Nodup →
      (∀ entry ∈ entries, isName entry.1 = true) → (∀ entry ∈ entries, Spelled depth entry.2) →
      Spelled (depth + 1) (.map entries)

mutual

/-- The tokens of a value. -/
def Value.spell : Value → List TokenKind
  | .null => [.keyword .nulls]
  | .bool b => [.keyword (if b then .trues else .falses)]
  | .int n => if n < 0 then [.symbol .minus, .int (-n)] else [.int n]
  | .str s => [.str s]
  | .list items => .symbol .bracketOpen :: (commas (spellItems items) ++ [.symbol .bracketClose])
  | .map [] => [.symbol .bracketOpen, .symbol .colon, .symbol .bracketClose]
  | .map entries => .symbol .bracketOpen :: (commas (spellFields entries) ++ [.symbol .bracketClose])
  | _ => []

/-- The tokens of the items of a list. -/
def spellItems : List Value → List (List TokenKind)
  | [] => []
  | v :: rest => v.spell :: spellItems rest

/-- The tokens of the entries of a map. -/
def spellFields : List (String × Value) → List (List TokenKind)
  | [] => []
  | (key, v) :: rest => (.ident key :: .symbol .colon :: v.spell) :: spellFields rest

end

/-! ## Section 2: Texts Cut into Tokens -/

/-- The marks of collections end words and numbers. -/
private theorem endsWord_mark {c : Char} (h : c ∈ [']', ',', ':']) {more : List Char} : EndsWord (c :: more) := by
  rintro _ ⟨⟩
  simp only [List.mem_cons, List.not_mem_nil, or_false] at h
  rcases h with rfl | rfl | rfl <;> exact ⟨isWordContinue_ascii (by decide), rfl, by decide⟩

/-- A text is cut into some tokens wherever nothing behind it continues a word or a number. -/
def Cuts (text : List Char) (kinds : List TokenKind) : Prop :=
  ∀ (finish : Pos) ⦃glyphs : List Glyph⦄ ⦃behind : List Char⦄, EndsWord behind →
    glyphs.map Glyph.char = text ++ behind →
    ∃ ts tail, ts.map Token.kind = kinds ∧ tail.map Glyph.char = behind ∧
      scanAll finish glyphs = (scanAll finish tail).map (ts ++ ·)

namespace Cuts

variable {text more : List Char} {kinds kinds' : List TokenKind}

/-- Nothing is cut into no tokens. -/
theorem nil : Cuts [] [] := by
  intro finish glyphs behind _ h
  refine ⟨[], glyphs, rfl, h, ?_⟩
  cases scanAll finish glyphs <;> rfl

/-- A text that starts with a token and is used up by it. -/
private theorem of_starts {kind : TokenKind}
    (h : ∀ ⦃glyphs : List Glyph⦄ ⦃behind : List Char⦄, EndsWord behind → glyphs.map Glyph.char = text ++ behind →
      Starts kind glyphs behind) : Cuts text [kind] := by
  intro finish glyphs behind hbehind hglyphs
  obtain ⟨g, rest, tail, rfl, hskip, htoken, htail⟩ := h hbehind hglyphs
  exact ⟨[⟨kind, g.pos⟩], tail, rfl, htail, scanAll_token hskip htoken⟩

/-- A text that starts with a character that continues no word is cut off from the text before. -/
theorem append (h : Cuts text kinds) (hmore : ∀ behind, EndsWord behind → EndsWord (more ++ behind))
    (h' : Cuts more kinds') : Cuts (text ++ more) (kinds ++ kinds') := by
  intro finish glyphs behind hbehind hglyphs
  rw [List.append_assoc] at hglyphs
  obtain ⟨ts, tail, rfl, htail, hscan⟩ := h finish (hmore behind hbehind) hglyphs
  obtain ⟨us, tail', rfl, htail', hscan'⟩ := h' finish hbehind htail
  refine ⟨ts ++ us, tail', List.map_append, htail', ?_⟩
  rw [hscan, hscan']
  cases scanAll finish tail' with
  | error e => rfl
  | ok rest => exact congrArg Except.ok (List.append_assoc ts us rest).symm

/-- A blank in front is skipped. -/
theorem blank (h : Cuts text kinds) : Cuts (' ' :: text) kinds := by
  intro finish glyphs behind hbehind hglyphs
  obtain ⟨g, rest, rfl, hg, hrest⟩ := List.map_eq_cons_iff.mp hglyphs
  obtain ⟨ts, tail, hts, htail, hscan⟩ := h finish hbehind hrest
  refine ⟨ts, tail, hts, htail, ?_⟩
  rw [← hscan]
  exact scanAll_congr (skipTrivia_cons_blank (by rw [hg]; decide))

/-- A symbol in front of a text with which it does not make a longer one. -/
theorem symbol {c : Char} {s : Symbol} (hword : s.word.toList = [c]) (hone : symbolOfOne? c = some s)
    (hslash : c ≠ '/') (htwo : ∀ behind, EndsWord behind → ∀ d ∈ (text ++ behind).head?, symbolOfTwo? c d = none)
    (h : Cuts text kinds) : Cuts (c :: text) (.symbol s :: kinds) := by
  intro finish glyphs behind hbehind hglyphs
  obtain ⟨g, rest, tail, rfl, hskip, htoken, htail⟩ := starts_symbol hword hone hslash (htwo behind hbehind) hglyphs
  obtain ⟨ts, tail', rfl, htail', hscan⟩ := h finish hbehind htail
  refine ⟨⟨.symbol s, g.pos⟩ :: ts, tail', rfl, htail', ?_⟩
  rw [scanAll_token hskip htoken, hscan]
  cases scanAll finish tail' <;> rfl

/-- The symbols between and around the parts of a collection. -/
theorem mark {c : Char} {s : Symbol} (hmark : (c, s) ∈ [('[', Symbol.bracketOpen), (']', .bracketClose), (',', .comma),
    (':', .colon)]) (h : Cuts text kinds) : Cuts (c :: text) (.symbol s :: kinds) := by
  simp only [List.mem_cons, Prod.mk.injEq, List.not_mem_nil, or_false] at hmark
  -- none of the four is the start of a longer symbol
  rcases hmark with ⟨rfl, rfl⟩ | ⟨rfl, rfl⟩ | ⟨rfl, rfl⟩ | ⟨rfl, rfl⟩ <;>
    exact symbol rfl rfl (by decide) (fun _ _ _ _ => rfl) h

/-- A keyword is one word. -/
theorem keyword (k : Keyword) : Cuts k.word.toList [.keyword k] := by
  obtain ⟨hof, c, cs, hword, hstart, hcontinue⟩ := keyword_word k
  have hkind : wordKind k.word = .keyword k := by rw [wordKind, hof]
  exact of_starts fun glyphs behind hbehind hglyphs => hkind ▸ starts_word hword hstart hcontinue hbehind hglyphs

/-- A name is one word. -/
theorem ident {name : String} (h : isName name = true) : Cuts name.toList [.ident name] := by
  obtain ⟨c, cs, hword, hstart, hcontinue, hkeyword⟩ := toList_of_isName h
  have hkind : wordKind name = .ident name := by rw [wordKind, hkeyword]
  exact of_starts fun glyphs behind hbehind hglyphs => hkind ▸ starts_word hword hstart hcontinue hbehind hglyphs

/-- A number that is not negative is its digits. -/
theorem int {n : Int64} (h : 0 ≤ n) : Cuts (Nat.toDigits 10 n.toInt.toNat) [.int n] :=
  of_starts fun _ _ hbehind hglyphs => starts_int h hbehind hglyphs

/-- A minus sign in front of digits is a symbol of its own. -/
theorem minus {n : Nat} (h : Cuts (Nat.toDigits 10 n) kinds) :
    Cuts ('-' :: Nat.toDigits 10 n) (.symbol .minus :: kinds) := by
  refine symbol rfl rfl (by decide) (fun behind _ d hd => ?_) h
  -- behind the sign there is a digit, with which it makes no longer symbol
  have hdigit : d.isDigit = true := by
    rw [List.head?_append_of_ne_nil _ Nat.toDigits_ne_nil] at hd
    exact Nat.isDigit_of_mem_toDigits (by decide) (by decide) (List.mem_of_mem_head? hd)
  have hne : ∀ e : Char, e.isDigit = false → d ≠ e := by
    rintro e he rfl
    exact Bool.false_ne_true (he.symm.trans hdigit)
  unfold symbolOfTwo?
  split
  all_goals first | rfl | exact absurd rfl (hne _ (by decide))

/-- Pieces of text with commas and blanks between them are cut into the tokens of the pieces with commas between
them. -/
theorem commas {ι : Type} {text : ι → String} {spell : ι → List TokenKind} {is : List ι}
    (h : ∀ i ∈ is, Cuts (text i).toList (spell i)) :
    Cuts (", ".intercalate (is.map text)).toList (Script.commas (is.map spell)) := by
  induction is with
  | nil => exact nil
  | cons i is ih =>
    have hi := h i List.mem_cons_self
    have his := ih fun j hj => h j (List.mem_cons_of_mem _ hj)
    cases is with
    | nil =>
      rw [List.map_singleton, String.intercalate_singleton]
      exact hi
    | cons next is =>
      -- The comma ends whatever word stands before it, so the parts are cut where they are joined.
      have htext : (", ".intercalate ((i :: next :: is).map text)).toList =
          (text i).toList ++ ',' :: ' ' :: (", ".intercalate ((next :: is).map text)).toList := by
        rw [List.map_cons, List.map_cons, String.intercalate_cons_cons, String.toList_append, String.toList_append,
          List.append_assoc]
        rfl
      rw [htext]
      exact hi.append (fun _ _ => endsWord_mark (by simp)) (mark (by simp) (blank his))

/-- A collection in brackets. -/
theorem brackets (h : Cuts text kinds) :
    Cuts ('[' :: (text ++ [']'])) (.symbol .bracketOpen :: (kinds ++ [.symbol .bracketClose])) :=
  mark (by simp) (h.append (fun _ _ => endsWord_mark (by simp)) (mark (by simp) nil))

end Cuts

/-! ## Section 3: The Text of a Value -/

/-- The characters of a text between two others. -/
private theorem toList_between (before text after : String) :
    (before ++ text ++ after).toList = before.toList ++ (text.toList ++ after.toList) := by
  rw [String.toList_append, String.toList_append, List.append_assoc]

/-- A number that is not negative is written by its digits. -/
private theorem toList_repr_int {n : Int64} (h : 0 ≤ n) :
    (Value.int n).repr.toList = Nat.toDigits 10 n.toInt.toNat := by
  have hnonneg : 0 ≤ n.toInt := Int64.le_iff_toInt_le.mp h
  show (toString n.toInt).toList = _
  obtain ⟨k, hk⟩ := Int.eq_ofNat_of_zero_le hnonneg
  rw [hk]
  exact Nat.toList_repr

/-- Of a negative number, all but the sign is the text of its negation, which is a number unless this is the
smallest one. -/
theorem neg_int {n : Int64} (hmin : Int64.minValue < n) (hneg : n < 0) :
    (-n).toInt = -n.toInt ∧ 0 ≤ -n ∧ (Value.int n).repr.toList = '-' :: Nat.toDigits 10 (-n).toInt.toNat := by
  have hmin : -2 ^ 63 < n.toInt := Int64.lt_iff_toInt_lt.mp hmin
  have hneg : n.toInt < 0 := Int64.lt_iff_toInt_lt.mp hneg
  have hvalue : (-n).toInt = -n.toInt := by
    rw [Int64.toInt_neg, Int.bmod_eq_of_le] <;> omega
  refine ⟨hvalue, Int64.le_iff_toInt_le.mpr (by rw [hvalue]; exact Int.neg_nonneg_of_nonpos (Int.le_of_lt hneg)), ?_⟩
  rw [hvalue]
  show (toString n.toInt).toList = _
  -- the text of a negative number is defined on the successors
  obtain ⟨k, hk⟩ := Int.eq_negSucc_of_lt_zero hneg
  rw [hk]
  exact (String.toList_append ..).trans (congrArg ('-' :: ·) Nat.toList_repr)

/-- Items are written one by one. -/
private theorem itemTexts_eq_map (items : List Value) : Value.itemTexts items = items.map Value.repr := by
  induction items with
  | nil => rfl
  | cons v items ih =>
    rw [Value.itemTexts, ih]
    rfl

/-- The tokens of items are those of each of them. -/
theorem spellItems_eq_map (items : List Value) : spellItems items = items.map Value.spell := by
  induction items with
  | nil => rfl
  | cons v items ih => rw [spellItems, ih, List.map_cons]

/-- The key of an entry as a word. -/
def keyIdent (entry : String × Value) : TokenKind := .ident entry.1

/-- The text of an entry. -/
def entryText (entry : String × Value) : String := entry.1 ++ ":" ++ entry.2.repr

/-- Entries are written one by one. -/
private theorem entryTexts_eq_map (entries : List (String × Value)) :
    Value.entryTexts entries = entries.map entryText := by
  induction entries with
  | nil => rfl
  | cons entry entries ih =>
    rw [Value.entryTexts, ih]
    rfl

/-- The tokens of entries are those of each of them. -/
theorem spellFields_eq_map (entries : List (String × Value)) :
    spellFields entries = entries.map (Grammar.spellEntry keyIdent fun entry => entry.2.spell) := by
  induction entries with
  | nil => rfl
  | cons entry entries ih =>
    rw [spellFields, ih]
    rfl

/-- A text without quotes and backslashes is written as it is. -/
private theorem escape_eq_self {cs : List Char} (hquote : '\x27' ∉ cs) (hslash : '\\' ∉ cs) : escape cs = cs := by
  induction cs with
  | nil => rfl
  | cons c cs ih =>
    obtain ⟨hc, hcs⟩ := not_or.mp (List.mem_cons.not.mp hquote)
    obtain ⟨hc', hcs'⟩ := not_or.mp (List.mem_cons.not.mp hslash)
    have hplain : ¬(c = '\x27' ∨ c = '\\') := fun h => h.elim (fun h => hc h.symm) fun h => hc' h.symm
    rw [escape, List.flatMap_cons, if_neg hplain]
    exact congrArg (c :: ·) (ih hcs hcs')

/-- The text of a value is cut into the tokens of the value. -/
theorem cuts_repr {depth : Nat} {v : Value} (h : v.Spelled depth) : Cuts v.repr.toList v.spell := by
  -- on the value: the parts of a collection are cut by the induction hypothesis, and the marks between them cut them off
  induction h with
  | null => exact Cuts.keyword .nulls
  | bool b =>
    cases b with
    | false => exact Cuts.keyword .falses
    | true => exact Cuts.keyword .trues
  | @int _ n hmin =>
    rw [Value.spell]
    split
    · next hneg =>
      obtain ⟨_, hnonneg, htext⟩ := neg_int hmin hneg
      rw [htext]
      exact (Cuts.int hnonneg).minus
    · next hneg =>
      have hnonneg : 0 ≤ n := Int64.not_lt.mp hneg
      rw [toList_repr_int hnonneg]
      exact Cuts.int hnonneg
  | @str _ s hquote hslash =>
    -- the text between its quotes, as nothing in it is escaped
    have htext : (Value.str s).repr.toList = '\x27' :: (escape s.toList ++ ['\x27']) := by
      rw [escape_eq_self hquote hslash]
      exact toList_between "'" s "'"
    rw [htext]
    exact Cuts.of_starts fun glyphs behind hbehind hglyphs => starts_str hglyphs
  | @list _ items _ ih =>
    have htext : (Value.list items).repr.toList = '[' :: ((", ".intercalate (items.map Value.repr)).toList ++ [']']) := by
      rw [← itemTexts_eq_map]
      exact toList_between "[" _ "]"
    rw [htext, Value.spell, spellItems_eq_map]
    exact (Cuts.commas ih).brackets
  | @map _ entries _ hnames _ ih =>
    have hentry : ∀ entry ∈ entries,
        Cuts (entryText entry).toList (Grammar.spellEntry keyIdent (fun entry => entry.2.spell) entry) := by
      intro entry hentry
      have htext : (entryText entry).toList = entry.1.toList ++ ':' :: entry.2.repr.toList :=
        toList_between entry.1 ":" entry.2.repr
      rw [htext]
      exact (Cuts.ident (hnames entry hentry)).append (fun _ _ => endsWord_mark (by simp))
        (Cuts.mark (by simp) (ih entry hentry))
    cases entries with
    | nil =>
      -- a colon tells the empty map from the empty list
      have htext : (Value.map []).repr.toList = ['[', ':', ']'] := rfl
      rw [htext]
      exact Cuts.mark (by simp) (Cuts.mark (by simp) (Cuts.mark (by simp) Cuts.nil))
    | cons entry entries =>
      have htext : (Value.map (entry :: entries)).repr.toList =
          '[' :: ((", ".intercalate ((entry :: entries).map entryText)).toList ++ [']']) := by
        rw [← entryTexts_eq_map]
        exact toList_between "[" _ "]"
      rw [htext, Value.spell, spellFields_eq_map]
      · exact (Cuts.commas hentry).brackets
      · simp

end RowConsole.Script
