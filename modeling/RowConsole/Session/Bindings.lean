import RowConsole.Script.Machine
import RowConsole.Text.Identifier

/-!
# Bindings

The store of top-level names of a session: one flat namespace in the order of first binding. A name has to be
an identifier and no keyword, and the names of the session's own handles cannot be written.
-/

namespace RowConsole.Session

open Script (Globals Handle Value)

/-! ## Section 1: Names -/

/-- Whether a name belongs to one of the session's handles. -/
def isReserved (name : String) : Bool :=
  Handle.all.any fun h => h.name == name

/-- Why a name was not bound. -/
inductive BindingError where
  | reserved (name : String)
  | invalidName (name : String)
  deriving DecidableEq, Repr

/-- What the user is told about a name that was not bound. -/
def BindingError.message : BindingError → String
  | .reserved name => "Cannot assign to '" ++ name ++ "': it is a reserved name"
  | .invalidName name => "'" ++ name ++ "' is not a valid identifier"

/-- Whether a name may be bound by the user, and if not, why. -/
def checkName (name : String) : Except BindingError Unit :=
  if !Text.isIdentifier name || Script.isKeyword name then .error (.invalidName name)
  else if isReserved name then .error (.reserved name)
  else .ok ()

/-! ## Section 2: The Store -/

/-- Names and their values in the order in which the names were first bound. -/
structure Bindings where
  values : OrderedMap Value

namespace Bindings

/-- No bindings. -/
def empty : Bindings := ⟨[]⟩

/-- The value of a name. -/
def get? (b : Bindings) (name : String) : Option Value :=
  b.values.get? name

/-- Whether a name is bound. -/
def contains (b : Bindings) (name : String) : Bool :=
  b.values.contains name

/-- Binds or rebinds a name. -/
def set (b : Bindings) (name : String) (v : Value) : Except BindingError Bindings := do
  checkName name
  return ⟨b.values.insert name v⟩

/-- Binding a name that may be bound writes it. -/
theorem values_of_set {b b' : Bindings} {name : String} {v : Value} (h : b.set name v = .ok b') :
    b' = ⟨b.values.insert name v⟩ := by
  unfold set at h
  cases hname : checkName name with
  | error e => simp [hname, bind, Except.bind] at h
  | ok u => simpa [hname, bind, Except.bind, pure, Except.pure, eq_comm] using h

/-- Every bound name. -/
def names (b : Bindings) : List String :=
  b.values.keys

/-- The names that a user is shown: no reserved ones and none that starts with an underscore. -/
def userNames (b : Bindings) : List String :=
  b.names.filter fun name => !isReserved name && name.toList.head? != some '_'

/-- Binds the handles of the session to their own names. -/
def installReserved (b : Bindings) : Bindings :=
  ⟨Handle.all.foldl (fun m h => OrderedMap.insert m h.name (.handle h)) b.values⟩

end Bindings

/-- Scripts see the bindings as their globals, with the same checks on names. -/
instance : Globals Bindings where
  lookup := Bindings.get?
  assign b name v :=
    match b.set name v with
    | .ok b => .ok b
    | .error e => .error e.message
  lookup_assign := by
    intro b b' name v h other
    split at h
    · next hset =>
      cases h
      rw [Bindings.values_of_set hset]
      exact OrderedMap.get?_insert b.values name other v
    · contradiction

end RowConsole.Session
