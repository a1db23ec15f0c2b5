import RowConsole.Script.Method

/-!
# How Operations Fail

The operations on values know neither where they stand in a source nor which calls have led to them, and none of them
has to do with loops. So a failure of theirs is nothing but a cause: it has no position and no calls, and it is not
about a `break` or a `continue`.

Main statements: one for each operation that can fail, up to `failsPlainly_applyBinary`, `failsPlainly_builtin` and
`failsPlainly_stringMethod`.
-/

namespace RowConsole.Script

/-! ## Section 1: Plain Failures -/

/-- A failure that is nothing but a cause, which has nothing to do with loops. -/
def ScriptError.IsPlain (e : ScriptError) : Prop :=
  ∃ cause, cause ≠ .strayLoopControl ∧ e = { cause := cause }

/-- If an operation ends in an error, the error is plain. -/
def FailsPlainly {α : Type} (r : Attempt α) : Prop :=
  ∀ e, r = .error (.script e) → e.IsPlain

section Rules

variable {α β : Type}

/-- A success is no failure at all. -/
@[simp] theorem failsPlainly_ok (a : α) : FailsPlainly (.ok a : Attempt α) := by
  intro e he
  contradiction

@[simp] theorem failsPlainly_pure (a : α) : FailsPlainly (pure a : Attempt α) :=
  failsPlainly_ok a

/-- A failure for a cause is plain if the cause has nothing to do with loops. -/
@[simp] theorem failsPlainly_failure {cause : Cause} :
    FailsPlainly (failure cause : Attempt α) ↔ cause ≠ .strayLoopControl := by
  constructor
  · rintro h rfl
    obtain ⟨cause, hcause, he⟩ := h _ rfl
    cases he
    exact hcause rfl
  · intro hcause e he
    cases he
    exact ⟨cause, hcause, rfl⟩

/-- A crash is no error of scripts, so nothing is asked of it. -/
@[simp] theorem failsPlainly_crash (c : Crash) : FailsPlainly (crash c : Attempt α) := by
  intro e he
  cases he

/-- A failure of a sequence is one of its parts. -/
theorem failsPlainly_bind {r : Attempt α} {next : α → Attempt β} (h : FailsPlainly r)
    (hnext : ∀ a, FailsPlainly (next a)) : FailsPlainly (r >>= next) := by
  cases r with
  | ok a => exact hnext a
  | error e =>
    intro e' he'
    cases he'
    exact h e' rfl

end Rules

/-! ## Section 2: Operators -/

/-- A result that is out of range is an overflow. -/
theorem failsPlainly_checked (n : Int) : FailsPlainly (checked n) := by
  unfold checked
  split <;> simp

/-- Operands of the wrong types are a cause by themselves. -/
private theorem failsPlainly_operandFailure (op : BinaryOp) (left right : Value) :
    FailsPlainly (operandFailure op left right) := by
  simp [operandFailure]

/-- Integers overflow, or are divided by zero. Where the division itself crashes there is no error. -/
private theorem failsPlainly_intArithmetic (op : BinaryOp) (a b : Int64) : FailsPlainly (intArithmetic op a b) := by
  cases op <;> simp only [intArithmetic]
  case add | sub | mul => exact failsPlainly_checked _
  case div =>
    -- the divisor is zero, the remainder crashes, the quotient is no integer, or it is one
    split
    · simp
    · split
      · simp
      · split
        · simp
        · exact failsPlainly_checked _
  case rem =>
    split
    · simp
    · split
      · exact failsPlainly_checked _
      · simp
  all_goals exact failsPlainly_operandFailure _ _ _

/-- Floats are only divided by zero. -/
private theorem failsPlainly_floatArithmetic (op : BinaryOp) (left right : Value) (x y : Float) :
    FailsPlainly (floatArithmetic op left right x y) := by
  cases op <;> simp only [floatArithmetic]
  case add | sub | mul => exact failsPlainly_ok _
  case div | rem => split <;> simp
  all_goals exact failsPlainly_operandFailure _ _ _

/-- Two integers are computed exactly and other numbers as floats; there is no third way. -/
private theorem failsPlainly_arithmetic (op : BinaryOp) (left right : Value) :
    FailsPlainly (arithmetic op left right) := by
  unfold arithmetic
  split
  · exact failsPlainly_intArithmetic op _ _
  · split
    · exact failsPlainly_floatArithmetic op _ _ _ _
    · exact failsPlainly_operandFailure op _ _

/-- Values that have no order are refused by their types. -/
private theorem failsPlainly_ordered (holds : Ordering → Bool) (left right : Value) :
    FailsPlainly (ordered holds left right) := by
  unfold ordered
  split <;> simp

private theorem failsPlainly_add (left right : Value) : FailsPlainly (add left right) := by
  unfold add
  split
  case h_7 => exact failsPlainly_arithmetic .add _ _
  all_goals exact failsPlainly_ok _

private theorem failsPlainly_subtract (left right : Value) : FailsPlainly (subtract left right) := by
  unfold subtract
  split
  case h_3 => exact failsPlainly_arithmetic .sub _ _
  all_goals exact failsPlainly_ok _

/-- A text that grows beyond all memory crashes, which is no error of scripts. -/
private theorem failsPlainly_repeated (s : String) (n : Nat) : FailsPlainly (repeated s n) := by
  unfold repeated
  split
  · simp
  · split <;> simp

/-- A text times a number, which must not be negative, or a product. -/
private theorem failsPlainly_multiply (left right : Value) : FailsPlainly (multiply left right) := by
  unfold multiply
  split
  · split
    · simp
    · exact failsPlainly_bind (failsPlainly_repeated _ _) fun _ => failsPlainly_pure _
  · exact failsPlainly_arithmetic .mul _ _

/-- An operator fails as the operation behind it does. -/
theorem failsPlainly_applyBinary (op : BinaryOp) (left right : Value) :
    FailsPlainly (applyBinary op left right) := by
  cases op with
  | add => exact failsPlainly_add left right
  | sub => exact failsPlainly_subtract left right
  | mul => exact failsPlainly_multiply left right
  | div => exact failsPlainly_arithmetic .div left right
  | rem => exact failsPlainly_arithmetic .rem left right
  | eq | ne => exact failsPlainly_ok _
  | lt | le | gt | ge => exact failsPlainly_ordered _ left right

/-- Negation may overflow or be refused; `not` is defined on all values. -/
theorem failsPlainly_applyUnary (op : UnaryOp) (v : Value) : FailsPlainly (applyUnary op v) := by
  cases op with
  | not => exact failsPlainly_ok _
  | neg =>
    simp only [applyUnary, negate]
    split
    · exact failsPlainly_checked _
    · simp
    · simp

/-! ## Section 3: Parts of Values -/

/-- The member of each item in turn, up to the first that fails. -/
private theorem failsPlainly_memberOfEach {name : String} {items : List Value}
    (h : ∀ item ∈ items, FailsPlainly (member name item)) : FailsPlainly (memberOfEach name items) := by
  induction items with
  | nil => exact failsPlainly_ok []
  | cons item rest ih =>
    obtain ⟨hitem, hrest⟩ := List.forall_mem_cons.mp h
    rw [memberOfEach]
    apply failsPlainly_bind hitem
    intro first
    exact failsPlainly_bind (ih hrest) fun made => failsPlainly_pure (first :: made)

/-- On the sizes of values: the property of a list is made of those of its items. -/
theorem failsPlainly_member (name : String) (v : Value) : FailsPlainly (member name v) := by
  cases v with
  | list items =>
    rw [member]
    -- a list has the members of its items, which are smaller values
    have hitems : ∀ item ∈ items, FailsPlainly (member name item) := by
      intro item hitem
      have := List.sizeOf_lt_of_mem hitem
      exact failsPlainly_member name item
    exact failsPlainly_bind (failsPlainly_memberOfEach hitems) fun made => failsPlainly_pure (Value.list made)
  | _ => simp [member]
termination_by sizeOf v
decreasing_by
  simp only [Value.list.sizeOf_spec]
  omega

/-- An index may be of the wrong type or out of range. -/
theorem failsPlainly_elementAt (container index : Value) : FailsPlainly (elementAt container index) := by
  unfold elementAt
  split
  case h_3 =>
    dsimp only
    split <;> simp
  all_goals simp

/-- Only maps have members to be set. -/
theorem failsPlainly_setMember (container : Value) (name : String) (v : Value) :
    FailsPlainly (setMember container name v) := by
  unfold setMember
  split <;> simp

/-- An element is set where it can be read, and new ones only in maps. -/
theorem failsPlainly_setElement (container index v : Value) : FailsPlainly (setElement container index v) := by
  unfold setElement
  split
  · split
    · simp
    · split <;> simp
  · simp
  · simp

/-- Only lists, maps, texts and null can be gone through. -/
theorem failsPlainly_elements (v : Value) : FailsPlainly (elements v) := by
  unfold elements
  split <;> simp

/-! ## Section 4: Builtin Functions -/

/-- The number of arguments is checked before they are looked at. -/
theorem failsPlainly_checkArity (name : String) (args : List Value) (least most : Nat) :
    FailsPlainly (checkArity name args least most) := by
  unfold checkArity
  split <;> simp

theorem failsPlainly_oneArg (name : String) (args : List Value) : FailsPlainly (oneArg name args) := by
  unfold oneArg
  split <;> simp

theorem failsPlainly_intArg (name : String) (v : Value) : FailsPlainly (intArg name v) := by
  unfold intArg
  split <;> simp

private theorem failsPlainly_sizeOf? (v : Value) : FailsPlainly (sizeOf? v) := by
  unfold sizeOf?
  split <;> simp

/-- A conversion refuses texts that are no integers and floats that are not finite. -/
private theorem failsPlainly_toIntValue (v : Value) : FailsPlainly (toIntValue v) := by
  unfold toIntValue
  split
  · simp
  · split <;> simp
  · simp
  · split <;> simp
  · simp

private theorem failsPlainly_toFloatValue (v : Value) : FailsPlainly (toFloatValue v) := by
  unfold toFloatValue
  split <;> split <;> simp

theorem failsPlainly_keysOf (v : Value) : FailsPlainly (keysOf v) := by
  unfold keysOf
  split <;> simp

/-- A range that is too long is refused. -/
private theorem failsPlainly_rangeValue (start finish : Int64) : FailsPlainly (rangeValue start finish) := by
  unfold rangeValue
  dsimp only
  split <;> simp

/-- A builtin function fails like the operations that it is made of. -/
theorem failsPlainly_builtin (b : Builtin) (args : List Value) : FailsPlainly (b.apply args) := by
  -- All of them fail in two places at most: at the number of arguments and at the conversion of the one argument.
  have hone : ∀ {name : String} {made : Value → Attempt (Value × Option String)},
      (∀ v, FailsPlainly (made v)) → FailsPlainly (oneArg name args >>= made) := fun h =>
    failsPlainly_bind (failsPlainly_oneArg _ args) h
  have hvalue : ∀ {r : Attempt Value}, FailsPlainly r →
      FailsPlainly (r >>= fun v => (pure (v, none) : Attempt (Value × Option String))) := fun h =>
    failsPlainly_bind h fun v => failsPlainly_pure (v, none)
  cases b with
  | println | print => exact failsPlainly_ok _
  | len => exact hone fun v => failsPlainly_bind (failsPlainly_sizeOf? v) fun size => failsPlainly_pure _
  | str | type | inspect => exact hone fun v => failsPlainly_pure _
  | int => exact hone fun v => hvalue (failsPlainly_toIntValue v)
  | float => exact hone fun v => hvalue (failsPlainly_toFloatValue v)
  | keys => exact hone fun v => hvalue (failsPlainly_keysOf v)
  | range =>
    simp only [Builtin.apply]
    split
    · apply failsPlainly_bind (failsPlainly_intArg _ _)
      exact fun finish => hvalue (failsPlainly_rangeValue 0 finish)
    · apply failsPlainly_bind (failsPlainly_intArg _ _)
      intro start
      apply failsPlainly_bind (failsPlainly_intArg _ _)
      exact fun finish => hvalue (failsPlainly_rangeValue start finish)
    · simp

/-! ## Section 5: Methods That Call No Function -/

/-- A method that takes a function is refused anything else. -/
theorem failsPlainly_closureArg (method : String) (args : List Value) : FailsPlainly (closureArg method args) := by
  unfold closureArg
  split
  · split <;> simp
  · simp

private theorem failsPlainly_stringArg (method : String) (args : List Value) (place : Nat) :
    FailsPlainly (stringArg method args place) := by
  unfold stringArg
  split <;> simp

/-- A sum is a fold of additions, each of which may fail. -/
theorem failsPlainly_sumItems (items : List Value) : FailsPlainly (sumItems items) := by
  -- on the items, with whatever sum the ones before them have come to
  have hfold : ∀ sum : Value, FailsPlainly (items.foldlM add sum) := by
    induction items with
    | nil => exact fun sum => failsPlainly_pure sum
    | cons item rest ih =>
      intro sum
      rw [List.foldlM_cons]
      exact failsPlainly_bind (failsPlainly_add sum item) ih
  exact hfold (.int 0)

/-- Keys that cannot be compared are refused by their types. The sort may also crash, which is no error. -/
private theorem failsPlainly_sortByKey (keyed : List (Value × Value)) : FailsPlainly (sortByKey keyed) := by
  apply failsPlainly_bind
  · unfold sortPlaces
    split <;> simp
  · exact fun order => failsPlainly_pure _

theorem failsPlainly_sortedList (keyed : List (Value × Value)) : FailsPlainly (sortedList keyed) :=
  failsPlainly_bind (failsPlainly_sortByKey keyed) fun sorted => failsPlainly_pure (Value.list sorted)

/-- A method of texts checks its arguments; the rest of it does not fail, but for the conversion to a number. -/
theorem failsPlainly_stringMethod (s name : String) (args : List Value) :
    FailsPlainly (stringMethod s name args) := by
  -- most of them ask for one text and do not fail behind it
  have hstring : ∀ {place : Nat} {made : String → Attempt Value},
      (∀ text, FailsPlainly (made text)) → FailsPlainly (stringArg name args place >>= made) := fun h =>
    failsPlainly_bind (failsPlainly_stringArg _ args _) h
  unfold stringMethod
  split
  case h_7 | h_8 | h_9 => exact hstring fun text => failsPlainly_pure _
  case h_10 => exact hstring fun old => hstring fun new => failsPlainly_pure _
  case h_11 =>
    split
    · simp
    · exact hstring fun separator => failsPlainly_pure _
  case h_12 => exact failsPlainly_toIntValue _
  all_goals simp

end RowConsole.Script
