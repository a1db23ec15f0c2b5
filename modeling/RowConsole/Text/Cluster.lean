import RowConsole.Text.Cluster.Table

/-!
# Grapheme Clusters

The division of a text into grapheme clusters, which is what a reader takes for its characters: a letter with
its marks, a Hangul syllable, a conjunct of consonants, a flag, or an emoji that is put together from several.
Main statement: the clusters of a text make up the text.
-/

namespace RowConsole.Text.Cluster

/-! ## Section 1: Kinds of Characters -/

/-- What a character is for the division into clusters. -/
inductive Kind where
  | carriageReturn | lineFeed | control
  | extend | linker | nonJoiner | joiner | spacing | prepend
  | leading | vowel | trailing | openSyllable | closedSyllable
  | regional | consonant | pictograph | other
  deriving DecidableEq, Repr

/-- The kind of a Hangul character: a leading consonant, a vowel, a trailing consonant, or a syllable with or
without a trailing consonant. -/
def hangulKind? (n : Nat) : Option Kind :=
  let within := fun lo hi => lo ≤ n && n ≤ hi
  if within 0x1100 0x115f || within 0xa960 0xa97c then some .leading
  else if within 0x1160 0x11a7 || within 0xd7b0 0xd7c6 || n = 0x16d63 || within 0x16d67 0x16d6a then
    some .vowel
  else if within 0x11a8 0x11ff || within 0xd7cb 0xd7fb then some .trailing
  else if within 0xac00 0xd7a3 then
    some (if (n - 0xac00) % 28 = 0 then .openSyllable else .closedSyllable)
  else none

/-- The kind of a character. -/
def kind (c : Char) : Kind :=
  if c = '\r' then .carriageReturn
  else if c = '\n' then .lineFeed
  else if ' ' ≤ c && c ≤ '~' then .other
  else if c = '\u200c' then .nonJoiner
  else if c = '\u200d' then .joiner
  else if 0x1f1e6 ≤ c.toNat && c.toNat ≤ 0x1f1ff then .regional
  else
    match hangulKind? c.toNat with
    | some k => k
    | none =>
      if controlTable.contains c then .control
      else if extendTable.contains c then .extend
      else if linkerTable.contains c then .linker
      else if spacingTable.contains c then .spacing
      else if prependTable.contains c then .prepend
      else if consonantTable.contains c then .consonant
      else if pictographTable.contains c then .pictograph
      else .other

/-! ## Section 2: Boundaries -/

/-- How far a text has got with an emoji: a pictograph with its marks, and a joiner behind them. -/
inductive Emoji where
  | none | pictograph | joined
  deriving DecidableEq, Repr

/-- How far a text has got with a conjunct: a consonant with its marks, and a linker among them. -/
inductive Conjunct where
  | none | consonant | linked
  deriving DecidableEq, Repr

/-- What the division has to know of the text so far. -/
structure Progress where
  last : Kind
  emoji : Emoji
  conjunct : Conjunct
  /-- Whether the text ends in an odd number of regional indicators. -/
  oddRegional : Bool

/-- What to know before the first character. -/
def Progress.start : Progress :=
  ⟨.control, .none, .none, false⟩

/-- What to know after one more character. -/
def Progress.advance (p : Progress) (k : Kind) : Progress where
  last := k
  emoji :=
    match k, p.emoji with
    | .pictograph, _ => .pictograph
    | .extend, .pictograph | .linker, .pictograph | .nonJoiner, .pictograph => .pictograph
    | .joiner, .pictograph => .joined
    | _, _ => .none
  conjunct :=
    match k, p.conjunct with
    | .consonant, _ => .consonant
    | .linker, .consonant | .linker, .linked => .linked
    | .extend, state | .joiner, state => state
    | _, _ => .none
  oddRegional := k = .regional && !p.oddRegional

/-- Whether a character belongs to the cluster of the one before it. -/
def Progress.continues (p : Progress) (k : Kind) : Bool :=
  match p.last, k with
  | .carriageReturn, .lineFeed => true
  | .carriageReturn, _ | .lineFeed, _ | .control, _ => false
  | _, .carriageReturn | _, .lineFeed | _, .control => false
  | .leading, .leading | .leading, .vowel | .leading, .openSyllable | .leading, .closedSyllable => true
  | .openSyllable, .vowel | .openSyllable, .trailing | .vowel, .vowel | .vowel, .trailing => true
  | .closedSyllable, .trailing | .trailing, .trailing => true
  | _, .extend | _, .linker | _, .nonJoiner | _, .joiner | _, .spacing => true
  | .prepend, _ => true
  | _, .consonant => p.conjunct = .linked
  | _, .pictograph => p.emoji = .joined
  | _, .regional => p.oddRegional
  | _, _ => false

/-! ## Section 3: Clusters -/

/-- The clusters of a text; `cluster` holds the one being read, reversed. -/
def clustersFrom (p : Progress) (cluster : List Char) : List Char → List (List Char)
  | [] => if cluster.isEmpty then [] else [cluster.reverse]
  | c :: rest =>
    let k := kind c
    if p.continues k || cluster.isEmpty then clustersFrom (p.advance k) (c :: cluster) rest
    else cluster.reverse :: clustersFrom (p.advance k) [c] rest

/-- The clusters of a text. -/
def clusters (cs : List Char) : List (List Char) :=
  clustersFrom .start [] cs

/-- Reading on adds the text to the cluster being read. -/
theorem flatten_clustersFrom (p : Progress) (cluster cs : List Char) :
    (clustersFrom p cluster cs).flatten = cluster.reverse ++ cs := by
  induction cs generalizing p cluster with
  | nil => cases cluster <;> simp [clustersFrom]
  | cons c rest ih =>
    simp only [clustersFrom]
    split
    · simp [ih]
    · simp [ih]

/-- The clusters of a text make up the text. -/
theorem flatten_clusters (cs : List Char) : (clusters cs).flatten = cs := by
  simp [clusters, flatten_clustersFrom]

end RowConsole.Text.Cluster
