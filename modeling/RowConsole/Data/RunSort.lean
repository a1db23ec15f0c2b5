import RowConsole.Data.Comparisons

/-!
# Sorting by Runs

A stable sort that keeps the runs that are already in order, sorts what lies between them, and merges
neighbouring runs along a balanced tree. A short list is sorted by inserting.

The sort knows the items only through the question whether one comes before another. Where the answers are not
those of a strict weak order, which items come out where depends on what is asked, so every choice below is fixed:
the places that pivots are taken from, the end from which two runs are merged, and the shape of the tree. Such
answers may also be found out, and then the sort gives up.
-/

namespace RowConsole.RunSort

open Comparisons (less)

variable {α : Type}

/-! ## Section 1: Inserting -/

/-- Puts an item behind the sorted items before it, which are given from the last to the first: it goes back
over those that come after it. -/
def insertBackwards (item : α) : List α → Comparisons α (List α)
  | [] => return [item]
  | last :: before => do
    if ← less item last then return last :: (← insertBackwards item before)
    else return item :: last :: before

/-- Inserts items one by one behind sorted items, which are given from the last to the first, as is what comes
out. -/
def insertEach (done : List α) : List α → Comparisons α (List α)
  | [] => return done
  | item :: rest => do insertEach (← insertBackwards item done) rest

/-- Inserts items one by one into a sorted list. -/
def insertAll (sorted items : List α) : Comparisons α (List α) := do
  return (← insertEach sorted.reverse items).reverse

/-! ## Section 2: Merging -/

/-- Takes up to `count` items from the fronts of two lists, from the first one where `pick` says so. `taken` holds
those taken already, the last one first; the items taken and what is left of both lists. -/
def takeMerged (pick : α → α → Comparisons α Bool) :
    Nat → List α → List α → List α → Comparisons α (List α × List α × List α)
  | count + 1, taken, x :: left, y :: right => do
    if ← pick x y then takeMerged pick count (x :: taken) left (y :: right)
    else takeMerged pick count (y :: taken) (x :: left) right
  | _, taken, left, right => return (taken.reverse, left, right)

/-- Whether the front of the first list is taken before that of the second: items of which neither comes before
the other keep their order. -/
def pickFront (x y : α) : Comparisons α Bool := do
  return !(← less y x)

/-- Merges two sorted lists, from the front if the first is not longer than the second, and from the back
otherwise. -/
def merge (left right : List α) : Comparisons α (List α) := do
  let count := left.length + right.length
  if left.length ≤ right.length then
    let (taken, left, right) ← takeMerged pickFront count [] left right
    return taken ++ left ++ right
  else
    let (taken, left, right) ← takeMerged (fun x y => less y x) count [] left.reverse right.reverse
    return (taken ++ left ++ right).reverse

/-- Merges two sorted lists, half of the items from the front and half from the back; an item in the middle is
taken from the first list if the back has left one there. -/
def mergeToMiddle (left right : List α) : Comparisons α (List α) := do
  let count := left.length + right.length
  let (front, leftAfter, rightAfter) ← takeMerged pickFront (count / 2) [] left right
  let (back, leftBefore, _) ←
    takeMerged (fun x y => less y x) (count / 2) [] left.reverse right.reverse
  -- The middle item of an odd number is taken last, from the list that still has one to give.
  let takenBack := left.length - leftBefore.length
  let middle :=
    if count % 2 = 0 then []
    else if takenBack < leftAfter.length then leftAfter.take 1
    else rightAfter.take 1
  let middleOfLeft := if count % 2 = 1 && takenBack < leftAfter.length then 1 else 0
  -- The halves fail to meet only if the answers contradict each other.
  if leftAfter.length = takenBack + middleOfLeft then return front ++ middle ++ back.reverse
  else .contradiction

/-! ## Section 3: Small Lists -/

/-- Two items in order. -/
def sortTwo (x y : α) : Comparisons α (α × α) := do
  return if ← less y x then (y, x) else (x, y)

/-- Four items in order, found with five comparisons. -/
def sortFour (p q r s : α) : Comparisons α (List α) := do
  let (a, b) ← sortTwo p q
  let (c, d) ← sortTwo r s
  let (least, greatest, left, right) :=
    match ← less c a, ← less d b with
    | false, false => (a, d, b, c)
    | false, true => (a, b, c, d)
    | true, false => (c, d, a, b)
    | true, true => (c, b, a, d)
  -- The least and the greatest are known after four comparisons; the fifth settles the middle.
  let (second, third) ← sortTwo left right
  return [least, second, third, greatest]

/-- Half of a small list in order: the first four items at once if the whole list has eight, and the others by
inserting. -/
def sortHalf (whole : Nat) (items : List α) : Comparisons α (List α) :=
  match items with
  | p :: q :: r :: s :: rest =>
    if 8 ≤ whole then do insertAll (← sortFour p q r s) rest
    else insertAll [] items
  | _ => insertAll [] items

/-- The number of items up to which a list counts as small. -/
def smallLimit : Nat := 32

/-- A small list in order: both halves are sorted and merged. -/
def sortSmall (items : List α) : Comparisons α (List α) := do
  let half := items.length / 2
  let left ← sortHalf items.length (items.take half)
  let right ← sortHalf items.length (items.drop half)
  mergeToMiddle left right

/-! ## Section 4: Runs -/

/-- Neighbouring items, which may be in order already. -/
structure Run (α : Type) where
  items : List α
  sorted : Bool

/-- The items that continue a run, with the run before them, the last item first. -/
def continueRun (continues : α → α → Comparisons α Bool) (before : List α) (last : α) :
    List α → Comparisons α (List α)
  | [] => return last :: before
  | item :: rest => do
    if ← continues last item then continueRun continues (last :: before) item rest
    else return last :: before

/-- The longest run that a list starts with, in order; it may run upwards or strictly downwards. -/
def naturalRun (items : List α) : Comparisons α (List α) :=
  match items with
  | x :: y :: rest => do
    -- A run downwards has no two equal items, so turning it round keeps their order.
    if ← less y x then continueRun (fun last item => less item last) [x] y rest
    else return (← continueRun pickFront [x] y rest).reverse
  | _ => return items

/-- The next run of a list: the run it starts with if that is long enough; else a small piece, sorted at once,
or a piece to be sorted later. -/
def nextRun (longEnough : Nat) (atOnce : Bool) (items : List α) : Comparisons α (Run α) := do
  let natural ← if longEnough ≤ items.length then naturalRun items else pure []
  if longEnough ≤ natural.length then return ⟨natural, true⟩
  else if atOnce then return ⟨← sortSmall (items.take smallLimit), true⟩
  else return ⟨items.take longEnough, false⟩

/-- The length from which on a run is kept: half of a short list, at most 64, and about the square root of a
long one. -/
def keptLength (count : Nat) : Nat :=
  if count ≤ 64 * 64 then min (count - count / 2) 64
  else
    let shift := (1 + count.log2) / 2
    (Nat.pow 2 shift + count / Nat.pow 2 shift) / 2

/-- The depth in a balanced tree over `count` items at which two neighbouring runs meet: the number of leading
bits, of 64, that the midpoints of both have in common. -/
def meetingDepth (count start middle stop : Nat) : Nat :=
  let scale := (Nat.pow 2 62 + count - 1) / count
  let difference := (scale * (start + middle)) ^^^ (scale * (middle + stop))
  if difference = 0 then 64 else 63 - difference.log2

/-- Joins the last run to those before it, the nearest first, as long as they meet at a depth of at least
`depth`. -/
def joinDeeper (join : Run α → Run α → Comparisons α (Run α)) (depth : Nat) :
    List (Run α × Nat) → Run α → Comparisons α (List (Run α × Nat) × Run α)
  | [], last => return ([], last)
  | (run, meeting) :: before, last => do
    if depth ≤ meeting then joinDeeper join depth before (← join run last)
    else return ((run, meeting) :: before, last)

/-- Cuts a list of `count` items into runs and joins them. `rest` starts at `position`, behind the run `last`;
`before` holds the runs before that one, the nearest first, with the depth at which each meets the next. -/
def joinRuns (next : List α → Comparisons α (Run α)) (join : Run α → Run α → Comparisons α (Run α))
    (count fuel : Nat) (before : List (Run α × Nat)) (last : Run α) (position : Nat) (rest : List α) :
    Comparisons α (Run α) :=
  match fuel, rest with
  | 0, _ | _, [] => do return (← joinDeeper join 0 before last).2
  | fuel + 1, rest => do
    let run ← next rest
    let stop := position + run.items.length
    let depth := meetingDepth count (position - last.items.length) position stop
    -- Runs that meet deeper than this place are joined before the next one is put on the stack.
    let (before, last) ← joinDeeper join depth before last
    joinRuns next join count fuel ((last, depth) :: before) run stop (rest.drop run.items.length)

/-- A run in order, with `sort` for a piece that is not in order yet. -/
def finishRun (sort : List α → Comparisons α (List α)) (run : Run α) : Comparisons α (List α) :=
  if run.sorted then pure run.items else sort run.items

/-- Two neighbouring runs as one. Two unsorted pieces are joined as they are and sorted together later. -/
def joinPair (sort : List α → Comparisons α (List α)) (left right : Run α) : Comparisons α (Run α) :=
  if left.sorted || right.sorted then do
    return ⟨← merge (← finishRun sort left) (← finishRun sort right), true⟩
  else return ⟨left.items ++ right.items, false⟩

/-- The items in order, with `sort` for the pieces between the runs. -/
def sortRuns (sort : List α → Comparisons α (List α)) (atOnce : Bool) (items : List α) :
    Comparisons α (List α) := do
  let next := nextRun (keptLength items.length) atOnce
  let first ← next items
  let all ← joinRuns next (joinPair sort) items.length items.length [] first first.items.length
    (items.drop first.items.length)
  finishRun sort all

/-! ## Section 5: Partitioning -/

/-- Whether the item at one place comes before the item at another. -/
def lessAt (items : Array α) (i j : Nat) : Comparisons α Bool :=
  match items[i]?, items[j]? with
  | some x, some y => less x y
  | _, _ => return false

/-- The place, of three, of the item in the middle. -/
def middlePlace (items : Array α) (a b c : Nat) : Comparisons α Nat := do
  let x ← lessAt items a b
  if x = (← lessAt items a c) then
    return if (← lessAt items b c) = x then b else c
  else return a

/-- The middle of three places, each replaced first by the middle of three places in the `width` items behind
it when those are many. -/
def sampledPlace (items : Array α) (width a b c : Nat) : Comparisons α Nat :=
  if 64 ≤ width * 8 then do
    let part := width / 8
    let a ← sampledPlace items part a (a + part * 4) (a + part * 7)
    let b ← sampledPlace items part b (b + part * 4) (b + part * 7)
    let c ← sampledPlace items part c (c + part * 4) (c + part * 7)
    middlePlace items a b c
  else middlePlace items a b c
termination_by width

/-- The place of the pivot. -/
def pivotPlace (items : Array α) : Comparisons α Nat :=
  let part := items.size / 8
  if items.size < 64 then middlePlace items 0 (part * 4) (part * 7)
  else sampledPlace items part 0 (part * 4) (part * 7)

/-- Parts items from the place `i` on into those that `test` accepts and the others, both behind those parted
already, which are given from the last to the first. The item at `place` is not tested and goes to the first part if
`first` says so. -/
def partFrom (test : α → Comparisons α Bool) (place : Nat) (first : Bool) (i : Nat) (yes no : List α) :
    List α → Comparisons α (List α × List α)
  | [] => return (yes.reverse, no.reverse)
  | item :: rest => do
    let accepted ← if i = place then pure first else test item
    if accepted then partFrom test place first (i + 1) (item :: yes) no rest
    else partFrom test place first (i + 1) yes (item :: no) rest

/-- The items in order, by parting them around a pivot. `floor` is a pivot that none of the items comes before:
a pivot not above it heads a part of equal items, which is done. After `limit` partings the runs are used. The
bound on the recursion (`fuel`) is never reached when it exceeds the number of items. -/
def sortByParting (fuel limit : Nat) (floor : Option α) (items : List α) : Comparisons α (List α) :=
  match fuel with
  | 0 => return items
  | fuel + 1 =>
    if items.length ≤ smallLimit then sortSmall items
    else
      match limit with
      | 0 => sortRuns pure true items
      | limit + 1 => do
        let place ← pivotPlace items.toArray
        match items[place]? with
        | none => sortRuns pure true items
        | some pivot =>
          let onFloor ← match floor with
            | some x => pickFront pivot x
            | none => pure false
          let (below, above) ←
            if onFloor then pure ([], items)
            else partFrom (less · pivot) place false 0 [] [] items
          -- Nothing comes before the pivot, or it equals the floor: all its equals are done.
          if below.isEmpty then
            let (equal, above) ← partFrom (pickFront · pivot) place true 0 [] [] items
            return equal ++ (← sortByParting fuel limit none above)
          else
            let below ← sortByParting fuel limit floor below
            return below ++ (← sortByParting fuel limit (some pivot) above)

/-! ## Section 6: The Sort -/

/-- The number of items up to which a list is sorted by inserting alone. -/
def insertingLimit : Nat := 20

/-- The items in order; items of which neither comes before the other keep their order. -/
def sort (items : List α) : Comparisons α (List α) :=
  if items.length ≤ insertingLimit then insertAll [] items
  else
    let parted := fun piece : List α =>
      sortByParting (piece.length + 1) (2 * piece.length.log2) none piece
    sortRuns parted (items.length ≤ 2 * smallLimit) items

end RowConsole.RunSort
