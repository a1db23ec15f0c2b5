/-!
# Ordered Maps

Maps with string keys that keep the order in which keys were first written. Writing a key that is present
replaces its value and keeps its place; writing a new key appends it. Main statements: reading back what was
written, and the effect of a write on the list of keys.
-/

namespace RowConsole

/-- Entries in the order in which their keys were first written. -/
abbrev OrderedMap (α : Type) := List (String × α)

namespace OrderedMap

variable {α : Type}

/-! ## Section 1: Operations -/

/-- The value at a key. -/
def get? (m : OrderedMap α) (key : String) : Option α :=
  m.lookup key

/-- Whether a key is present. -/
def contains (m : OrderedMap α) (key : String) : Bool :=
  (m.get? key).isSome

/-- Writes a key. -/
def insert (m : OrderedMap α) (key : String) (value : α) : OrderedMap α :=
  match m with
  | [] => [(key, value)]
  | (k, v) :: rest => if k = key then (k, value) :: rest else (k, v) :: insert rest key value

/-- The keys in order. -/
def keys (m : OrderedMap α) : List String :=
  m.map Prod.fst

/-- The values in the order of their keys. -/
def values (m : OrderedMap α) : List α :=
  m.map Prod.snd

/-- Writes all entries of a second map, in order. -/
def merge (m other : OrderedMap α) : OrderedMap α :=
  other.foldl (fun m entry => insert m entry.1 entry.2) m

/-- The map that results from writing entries in order into an empty one. -/
def ofEntries (entries : List (String × α)) : OrderedMap α :=
  merge [] entries

/-! ## Section 2: Reading What Was Written -/

/-- A key that was just written has the value written. -/
@[simp] theorem get?_insert_self (m : OrderedMap α) (key : String) (value : α) :
    get? (insert m key value) key = some value := by
  induction m with
  | nil => simp [insert, get?]
  | cons entry rest ih =>
    obtain ⟨k, v⟩ := entry
    by_cases h : k = key
    · subst h; simp [insert, get?]
    · have h' : (key == k) = false := by simpa using fun e => h e.symm
      simp only [insert, h, if_false, get?, List.lookup_cons, h']
      exact ih

/-- Writing one key leaves the others alone. -/
theorem get?_insert_of_ne (m : OrderedMap α) {key other : String} (value : α) (h : other ≠ key) :
    get? (insert m key value) other = get? m other := by
  induction m with
  | nil =>
    have h' : (other == key) = false := by simpa using h
    simp [insert, get?, List.lookup_cons, h']
  | cons entry rest ih =>
    obtain ⟨k, v⟩ := entry
    by_cases hk : k = key
    · subst hk
      have h' : (other == k) = false := by simpa using h
      simp [insert, get?, List.lookup_cons, h']
    · by_cases ho : other = k
      · subst ho; simp [insert, hk, get?]
      · have h' : (other == k) = false := by simpa using ho
        simp only [insert, hk, if_false, get?, List.lookup_cons, h']
        exact ih

/-- What is read after a key was written. -/
theorem get?_insert (m : OrderedMap α) (key other : String) (value : α) :
    get? (insert m key value) other = if other = key then some value else get? m other := by
  split
  · next h => rw [h, get?_insert_self]
  · next h => exact get?_insert_of_ne m value h

theorem get?_cons (key name : String) (value : α) (rest : OrderedMap α) :
    get? ((key, value) :: rest) name = if name = key then some value else get? rest name := by
  by_cases h : name = key
  · simp [get?, h]
  · have hother : (name == key) = false := by simpa using h
    simp [get?, List.lookup_cons, hother, h]

theorem mem_of_get? {m : OrderedMap α} {key : String} {value : α} (h : get? m key = some value) :
    (key, value) ∈ m := by
  obtain ⟨before, after, rfl, _⟩ := List.lookup_eq_some_iff.mp h
  simp

/-- A write leaves no entry behind but its own and the earlier ones. -/
theorem eq_or_mem_of_mem_insert {m : OrderedMap α} {key : String} {value : α} {entry : String × α}
    (h : entry ∈ insert m key value) : entry = (key, value) ∨ entry ∈ m := by
  induction m with
  | nil => exact Or.inl (List.mem_singleton.mp h)
  | cons head rest ih =>
    obtain ⟨k, v⟩ := head
    simp only [insert] at h
    split at h
    · next hk =>
      subst hk
      rcases List.mem_cons.mp h with rfl | h
      · exact Or.inl rfl
      · exact Or.inr (List.mem_cons_of_mem _ h)
    · rcases List.mem_cons.mp h with rfl | h
      · exact Or.inr (List.mem_cons_self ..)
      · exact (ih h).imp_right (List.mem_cons_of_mem _)

/-! ## Section 3: Keys -/

/-- The keys after a write: a present key keeps its place and a new one comes last. -/
theorem keys_insert (m : OrderedMap α) (key : String) (value : α) :
    keys (insert m key value) = if key ∈ keys m then keys m else keys m ++ [key] := by
  induction m with
  | nil => simp [insert, keys]
  | cons entry rest ih =>
    obtain ⟨k, v⟩ := entry
    by_cases h : k = key
    · subst h; simp [insert, keys]
    · have hne : ¬ key = k := fun e => h e.symm
      simp only [insert, h, if_false]
      simp only [keys, List.map_cons, List.mem_cons, hne, false_or] at ih ⊢
      rw [ih]
      by_cases hm : key ∈ List.map Prod.fst rest <;> simp [hm]

/-- Keys stay distinct when a key is written. -/
theorem nodup_keys_insert {m : OrderedMap α} (h : (keys m).Nodup) (key : String) (value : α) :
    (keys (insert m key value)).Nodup := by
  rw [keys_insert]
  split
  · exact h
  · next hk =>
    refine List.nodup_append.mpr ⟨h, by simp, fun a ha b hb hab => ?_⟩
    rw [List.mem_singleton] at hb
    exact hk (hb ▸ hab ▸ ha)

/-- A new key comes last. -/
theorem insert_of_notMem {m : OrderedMap α} {key : String} (h : key ∉ keys m) (value : α) :
    insert m key value = m ++ [(key, value)] := by
  induction m with
  | nil => rfl
  | cons entry rest ih =>
    obtain ⟨k, v⟩ := entry
    have hne : ¬ k = key := fun heq => List.ne_of_not_mem_cons h heq.symm
    rw [insert, if_neg hne, ih (List.not_mem_of_not_mem_cons h), List.cons_append]

theorem get?_eq_none_of_notMem {m : OrderedMap α} {key : String} (h : key ∉ keys m) : get? m key = none := by
  rw [get?, List.lookup_eq_none_iff]
  intro entry hentry
  have hne : key ≠ entry.1 := fun heq => h (heq ▸ List.mem_map_of_mem hentry)
  simpa using hne

/-- What is read behind a merge: the second map goes first. -/
theorem get?_merge {m other : OrderedMap α} (h : (keys other).Nodup) (key : String) :
    get? (merge m other) key = (get? other key).or (get? m key) := by
  induction other generalizing m with
  | nil => rfl
  | cons entry rest ih =>
    obtain ⟨name, value⟩ := entry
    obtain ⟨hnew, hrest⟩ := List.nodup_cons.mp h
    have hmerge : merge m ((name, value) :: rest) = merge (insert m name value) rest := rfl
    rw [hmerge, ih hrest, get?_insert, get?_cons]
    split
    · next hkey =>
      -- the entry is not written over, as its key does not come again
      rw [hkey, get?_eq_none_of_notMem hnew]
      rfl
    · rfl

theorem nodup_keys_merge {m : OrderedMap α} (h : (keys m).Nodup) (other : OrderedMap α) :
    (keys (merge m other)).Nodup := by
  induction other generalizing m with
  | nil => exact h
  | cons entry rest ih => exact ih (nodup_keys_insert h entry.1 entry.2)

theorem merge_eq_append {m other : OrderedMap α} (h : (keys (m ++ other)).Nodup) : merge m other = m ++ other := by
  induction other generalizing m with
  | nil => exact (List.append_nil m).symm
  | cons entry other ih =>
    have hsplit : m ++ entry :: other = m ++ [entry] ++ other := by simp
    have hnew : entry.1 ∉ keys m := by
      rw [keys, List.map_append, List.map_cons] at h
      exact fun hmem => (List.nodup_append.mp h).2.2 entry.1 hmem entry.1 List.mem_cons_self rfl
    rw [hsplit] at h ⊢
    rw [← ih h, ← insert_of_notMem hnew]
    rfl

/-- Entries with distinct keys are a map already. -/
theorem ofEntries_eq_self {entries : List (String × α)} (h : (keys entries).Nodup) : ofEntries entries = entries :=
  @merge_eq_append _ [] entries h

/-! ## Section 4: Where Keys Stand -/

/-- Whether a key is present can be asked of the keys or by reading. -/
theorem mem_keys_iff {m : OrderedMap α} {key : String} : key ∈ keys m ↔ ∃ value, get? m key = some value := by
  constructor
  · intro h
    cases hfound : get? m key with
    | some value => exact ⟨value, rfl⟩
    | none =>
      obtain ⟨entry, hentry, rfl⟩ := List.mem_map.mp h
      have hne := List.lookup_eq_none_iff.mp hfound entry hentry
      simp at hne
  · rintro ⟨value, hfound⟩
    exact List.mem_map_of_mem (mem_of_get? hfound)

/-- If no key is repeated, then every entry is the one that is read at its key. -/
theorem get?_eq_some_iff {m : OrderedMap α} (h : (keys m).Nodup) {key : String} {value : α} :
    get? m key = some value ↔ (key, value) ∈ m := by
  refine ⟨mem_of_get?, fun hmem => ?_⟩
  induction m with
  | nil => contradiction
  | cons entry rest ih =>
    obtain ⟨hnew, hrest⟩ := List.nodup_cons.mp h
    rw [get?_cons]
    rcases List.mem_cons.mp hmem with heq | hmem
    · cases heq
      rw [if_pos rfl]
    · have hne : key ≠ entry.1 := fun heq => hnew (heq ▸ List.mem_map_of_mem hmem)
      rw [if_neg hne, ih hrest hmem]

/-- If no key is repeated, then a map can be read off its keys. -/
theorem map_keys_get? {m : OrderedMap α} (h : (keys m).Nodup) (fallback : α) :
    (keys m).map (fun key => (key, (get? m key).getD fallback)) = m := by
  have hentry : ∀ entry ∈ m, (entry.1, (get? m entry.1).getD fallback) = id entry := by
    intro entry hentry
    rw [(get?_eq_some_iff h).mpr hentry]
    rfl
  rw [keys, List.map_map]
  exact (List.map_congr_left hentry).trans (List.map_id m)

/-- A key is written as it should be: the value of a key that is present is replaced in its place, and a new key is
appended. -/
def Written (m : OrderedMap α) (key : String) (value : α) (made : OrderedMap α) : Prop :=
  (∃ before old after, m = before ++ (key, old) :: after ∧ key ∉ keys before ∧ made = before ++ (key, value) :: after) ∨
    key ∉ keys m ∧ made = m ++ [(key, value)]

theorem written_insert (m : OrderedMap α) (key : String) (value : α) : Written m key value (insert m key value) := by
  induction m with
  | nil => exact .inr ⟨List.not_mem_nil, rfl⟩
  | cons entry rest ih =>
    obtain ⟨k, v⟩ := entry
    by_cases hk : k = key
    · subst hk
      exact .inl ⟨[], v, rest, rfl, List.not_mem_nil, by simp [insert]⟩
    · have hinsert : insert ((k, v) :: rest) key value = (k, v) :: insert rest key value := if_neg hk
      have hne : ¬ key = k := fun heq => hk heq.symm
      rw [hinsert]
      rcases ih with ⟨before, old, after, rfl, hbefore, hmade⟩ | ⟨hnew, hmade⟩
      · refine .inl ⟨(k, v) :: before, old, after, rfl, ?_, by rw [hmade, List.cons_append]⟩
        simpa [keys, hne] using hbefore
      · refine .inr ⟨?_, by rw [hmade, List.cons_append]⟩
        simpa [keys, hne] using hnew

/-- The keys of a merge: those of the first map in their order, and behind them the new ones of the second map. -/
theorem keys_merge {m other : OrderedMap α} (h : (keys other).Nodup) :
    keys (merge m other) = keys m ++ (keys other).filter (· ∉ keys m) := by
  induction other generalizing m with
  | nil => exact (List.append_nil _).symm
  | cons entry rest ih =>
    obtain ⟨key, value⟩ := entry
    obtain ⟨hnew, hrest⟩ := List.nodup_cons.mp h
    have hmerge : merge m ((key, value) :: rest) = merge (insert m key value) rest := rfl
    have hkeys : keys ((key, value) :: rest) = key :: keys rest := rfl
    rw [hmerge, ih hrest, keys_insert, hkeys]
    split
    · next hkey => rw [List.filter_cons_of_neg (by simpa using hkey)]
    · next hkey =>
      -- what comes behind is new in the longer map if it was new in the shorter one
      have hsame : (keys rest).filter (· ∉ keys m ++ [key]) = (keys rest).filter (· ∉ keys m) := by
        apply List.filter_congr
        intro k hk
        have hne : k ≠ key := fun heq => hnew (heq ▸ hk)
        simp [hne]
      rw [List.filter_cons_of_pos (by simpa using hkey), hsame, List.append_assoc, List.singleton_append]

/-- A key that is repeated counts where it first stands. -/
theorem eraseDups_concat (ks : List String) (key : String) :
    (ks ++ [key]).eraseDups = if key ∈ ks then ks.eraseDups else ks.eraseDups ++ [key] := by
  rw [List.eraseDups_append]
  split <;> simp_all [List.removeAll, List.eraseDups_cons]

/-- The keys that have been written one after the other stand where they were first written. -/
theorem keys_foldl_insert {β : Type} (key : β → String) (value : OrderedMap α → β → α) (writes : List β) :
    keys (writes.foldl (fun m w => insert m (key w) (value m w)) []) = (writes.map key).eraseDups := by
  have hfold : ∀ (m : OrderedMap α) (written : List String), keys m = written.eraseDups →
      keys (writes.foldl (fun m w => insert m (key w) (value m w)) m) = (written ++ writes.map key).eraseDups := by
    induction writes with
    | nil => intro m written hm; simpa using hm
    | cons w rest ih =>
      intro m written hm
      have hw : keys (insert m (key w) (value m w)) = (written ++ [key w]).eraseDups := by
        rw [keys_insert, eraseDups_concat, hm]
        simp only [List.mem_eraseDups]
      simpa using ih _ _ hw
  simpa using hfold [] [] rfl

/-- The keys of entries stand where they first occur. -/
theorem keys_ofEntries (entries : List (String × α)) : keys (ofEntries entries) = (keys entries).eraseDups :=
  keys_foldl_insert Prod.fst (fun _ entry => entry.2) entries

/-- The last entry of a key counts. -/
theorem get?_ofEntries (entries : List (String × α)) (key : String) :
    get? (ofEntries entries) key = entries.reverse.lookup key := by
  have hmerge : ∀ m : OrderedMap α, get? (merge m entries) key = (entries.reverse.lookup key).or (get? m key) := by
    induction entries with
    | nil => intro m; rfl
    | cons entry rest ih =>
      intro m
      obtain ⟨name, value⟩ := entry
      have hstep : merge m ((name, value) :: rest) = merge (insert m name value) rest := rfl
      have hlast : List.lookup key [(name, value)] = if key = name then some value else none :=
        get?_cons name key value []
      rw [hstep, ih, get?_insert, List.reverse_cons, List.lookup_append, hlast, Option.or_assoc]
      by_cases h : key = name <;> simp [h]
  simpa [ofEntries, get?] using hmerge []

end OrderedMap

end RowConsole
