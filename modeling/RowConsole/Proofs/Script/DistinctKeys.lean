import Mathlib.Data.List.Nodup
import RowConsole.Json.Basic
import RowConsole.Proofs.Script.Audited
import RowConsole.Proofs.Script.Moved.Values

/-!
# Distinct Keys

No map has a key twice. Maps are made by writing entries into maps, and a write either replaces the value of a key in
its place or appends a new key. So a program that starts with maps of distinct keys never holds any other map, at any
depth, in scopes, in the locals of closures or in what is given to a function. The maps that objects of a document stand
for are made in the same way.

Main statement: `runProgram_distinctKeys`.
-/

namespace RowConsole

namespace Script

/-! ## Section 1: Writing Keys -/

/-- The standard of values in which no map has a key twice. -/
def Standard.distinctKeys : Standard where
  routine _ := True
  keys := List.Nodup
  keys_nil := List.nodup_nil
  keys_snoc h hnew := List.concat_eq_append ▸ h.concat hnew

/-- A property is written into a map like any key. -/
theorem setMember_written (entries : OrderedMap Value) (name : String) (v : Value) :
    ∃ made, setMember (.map entries) name v = .ok (.map made) ∧ OrderedMap.Written entries name v made :=
  ⟨_, rfl, OrderedMap.written_insert entries name v⟩

/-- An element is written into a map at the text of its index. -/
theorem setElement_written (entries : OrderedMap Value) (index v : Value) :
    ∃ made, setElement (.map entries) index v = .ok (.map made) ∧
      OrderedMap.Written entries index.keyText v made :=
  ⟨_, rfl, OrderedMap.written_insert entries index.keyText v⟩

/-- The sum of two maps has the keys of the first one and behind them the new ones of the second one, which goes first
for the values. -/
theorem add_maps (a : OrderedMap Value) {b : OrderedMap Value} (hb : (OrderedMap.keys b).Nodup) :
    ∃ c, applyBinary .add (.map a) (.map b) = .ok (.map c) ∧
      OrderedMap.keys c = OrderedMap.keys a ++ (OrderedMap.keys b).filter (· ∉ OrderedMap.keys a) ∧
      ∀ key, OrderedMap.get? c key = (OrderedMap.get? b key).or (OrderedMap.get? a key) :=
  ⟨_, rfl, OrderedMap.keys_merge hb, OrderedMap.get?_merge hb⟩

end Script

/-! ## Section 2: Documents -/

namespace Json

open Script (EntriesMeet Standard Value get?_mapValues keys_mapValues mapValues ofEntries_mapValues)

variable {std : Standard}

mutual

/-- The value of a document has no functions, and its maps are made by writing members. -/
theorem toValue_meets : ∀ j : Json, j.toValue.Meets std
  | .null => .null
  | .bool b => .bool b
  | .int n => .int n
  | .float x => .float x
  | .string s => .str s
  | .array items => .list (itemValues_meet items)
  | .object members => .map (std.keys_ofEntries _) (memberValues_meet members).ofEntries

private theorem itemValues_meet : ∀ items : List Json, ∀ v ∈ itemValues items, v.Meets std
  | [] => by simp [itemValues]
  | j :: rest => List.forall_mem_cons.mpr ⟨toValue_meets j, itemValues_meet rest⟩

private theorem memberValues_meet : ∀ members : List (String × Json), EntriesMeet std (memberValues members)
  | [] => by simp [memberValues, EntriesMeet]
  | (_, j) :: rest => List.forall_mem_cons.mpr ⟨toValue_meets j, memberValues_meet rest⟩

end

private theorem memberValues_eq (members : List (String × Json)) :
    memberValues members = mapValues toValue members := by
  induction members with
  | nil => rfl
  | cons member rest ih =>
    rw [memberValues, ih]
    rfl

/-- The map of an object has the names of its members where they first stand, with the values that they have last. -/
theorem toValue_object (members : List (String × Json)) :
    ∃ made, (Json.object members).toValue = .map made ∧ OrderedMap.keys made = (members.map Prod.fst).eraseDups ∧
      ∀ key, OrderedMap.get? made key = (members.reverse.lookup key).map toValue := by
  refine ⟨_, rfl, ?_, fun key => ?_⟩
  · rw [memberValues_eq, ofEntries_mapValues, keys_mapValues, OrderedMap.keys_ofEntries]
    rfl
  · rw [memberValues_eq, ofEntries_mapValues, get?_mapValues, OrderedMap.get?_ofEntries]

end Json

namespace Script

/-! ## Section 3: Programs -/

variable {γ : Type} [Globals γ]

/-- A program is started with globals whose maps have distinct keys. Then it raises no alarm at any moment, whatever the
test is that is passed by machines and values whose maps have distinct keys: all maps that it holds have distinct keys,
and so have those that it leaves behind. The write of a key replaces the value of a key that is present in its place and
appends a new one. A sum of maps has the keys of the first map in their order and then the new keys of the second one,
with the values of the second one where it has any. The maps of documents have distinct keys as well. -/
theorem runProgram_distinctKeys (limit fuel serial : Nat) (globals : γ) (program : List Stmt)
    (hglobals : ∀ name v, Globals.lookup globals name = some v → v.Meets .distinctKeys) :
    (∀ audit : Audit γ, audit.PassedBy .distinctKeys →
        runAudited audit limit fuel program (Machine.start globals serial) =
          runProgram limit fuel program (Machine.start globals serial)) ∧
      (∀ r m', runProgram limit fuel program (Machine.start globals serial) = some (r, m') →
        m'.Meets .distinctKeys ∧ ∀ v, r = .ok v → v.Meets .distinctKeys) ∧
      (∀ (entries : OrderedMap Value) (v : Value),
        (∀ name, ∃ made, setMember (.map entries) name v = .ok (.map made) ∧ OrderedMap.Written entries name v made) ∧
          ∀ index, ∃ made, setElement (.map entries) index v = .ok (.map made) ∧
            OrderedMap.Written entries index.keyText v made) ∧
      (∀ a b : OrderedMap Value, (OrderedMap.keys b).Nodup →
        ∃ c, applyBinary .add (.map a) (.map b) = .ok (.map c) ∧
          OrderedMap.keys c = OrderedMap.keys a ++ (OrderedMap.keys b).filter (· ∉ OrderedMap.keys a) ∧
          ∀ key, OrderedMap.get? c key = (OrderedMap.get? b key).or (OrderedMap.get? a key)) ∧
      (∀ document : Json, document.toValue.Meets .distinctKeys) ∧
      ∀ members : List (String × Json), ∃ made, (Json.object members).toValue = .map made ∧
        OrderedMap.keys made = (members.map Prod.fst).eraseDups ∧
        ∀ key, OrderedMap.get? made key = (members.reverse.lookup key).map Json.toValue := by
  -- There are no local scopes at the start, so the condition on the globals is the whole invariant.
  have hstart : (Machine.start globals serial).Meets .distinctKeys :=
    ⟨hglobals, by simp [Machine.start], by simp [Machine.start]⟩
  have hroutine : ∀ r, Standard.distinctKeys.routine r := fun _ => trivial
  refine ⟨fun audit haudit => ?_, fun r m' hrun => ?_, fun entries v => ⟨fun name => ?_, fun index => ?_⟩,
    fun a b hb => add_maps a hb, Json.toValue_meets, Json.toValue_object⟩
  · exact runAudited_eq_runProgram hroutine haudit limit fuel program hstart
  · exact runProgram_keeps hroutine (invariant_meets .distinctKeys) hstart hrun
  · exact setMember_written entries name v
  · exact setElement_written entries index v

/-- A literal with a repeated key, writes of keys that are present and of new ones, a sum, groups, and loops over the
entries of a map, one of them with a builtin function. -/
def mapWrites : List Stmt :=
  [.assign (.var "made" ⟨1, 1⟩) .set (.map [("a", .int 1), ("b", .int 2), ("a", .int 3)]) ⟨1, 6⟩,
    .assign (.member (.var "made" ⟨2, 1⟩) "b" ⟨2, 5⟩) .set (.str "x") ⟨2, 8⟩,
    .assign (.index (.var "made" ⟨3, 1⟩) (.str "c") ⟨3, 5⟩) .set .null ⟨3, 10⟩,
    .assign (.var "made" ⟨4, 1⟩) .add (.var "given" ⟨4, 9⟩) ⟨4, 6⟩,
    .forLoop "entry" (.var "made" ⟨5, 15⟩)
      [.assign (.member (.var "entry" ⟨6, 1⟩) "value" ⟨6, 6⟩) .set (.bool true) ⟨6, 13⟩] ⟨5, 1⟩,
    .assign (.var "groups" ⟨7, 1⟩) .set
      (.method (.list [.int 1, .str "1", .int 2]) "groupBy" [.closure [] [.expr (.var "it" ⟨7, 38⟩)] ⟨7, 36⟩] ⟨7, 27⟩)
      ⟨7, 8⟩,
    .expr (.method (.var "made" ⟨8, 1⟩) "each" [.var "print" ⟨8, 11⟩] ⟨8, 5⟩)]

/-- The test that the maps among some values, and those that names stand for in the innermost frame, have distinct
keys. -/
def keysDiffer (m : Machine γ) (vs : List Value) : Bool :=
  (vs ++ m.frame.scopes.flatMap OrderedMap.values).all fun
    | .map entries => decide (OrderedMap.keys entries).Nodup
    | _ => true

theorem runProgram_distinctKeys_mapWrites :
    let given : OrderedMap Value := [("given", .map [("d", .int 4), ("a", .int 5)])]
    let run : Run (OrderedMap Value) Value := runProgram 10 20 mapWrites
    let audit : Audit (OrderedMap Value) := ⟨keysDiffer, fun _ => Run.fail .overflow⟩
    let m : Machine (OrderedMap Value) := Machine.start given 0
    (∀ name v, Globals.lookup given name = some v → v.Meets .distinctKeys) ∧ audit.PassedBy .distinctKeys ∧
      runAudited audit 10 20 mapWrites m = run m ∧
      (run m).map (fun o => o.2.globals.map fun (name, v) => (name, v.display)) =
        some [("given", "[d:4, a:5]"), ("made", "[a:5, b:'x', c:null, d:4]"), ("groups", "[1:[1, '1'], 2:[2]]")] := by
  intro given run audit m
  have hentries : EntriesMeet .distinctKeys given := by
    intro entry hentry
    rw [List.mem_singleton.mp hentry]
    have hkeys : (["d", "a"] : List String).Nodup := by decide
    exact .map hkeys (List.forall_mem_cons.mpr ⟨.int 4, List.forall_mem_singleton.mpr (.int 5)⟩)
  have hgiven : ∀ name v, Globals.lookup given name = some v → v.Meets .distinctKeys :=
    fun name v hv => hentries.lookup hv
  have haudit : audit.PassedBy .distinctKeys := by
    intro m vs hm hvs
    apply List.all_eq_true.mpr
    intro v hv
    -- the value is one of those that are given, or a name of the innermost frame stands for it
    have hmeets : v.Meets .distinctKeys := by
      rcases List.mem_append.mp hv with hv | hv
      · exact hvs v hv
      · obtain ⟨scope, hscope, hv⟩ := List.mem_flatMap.mp hv
        obtain ⟨entry, hentry, rfl⟩ := List.mem_map.mp hv
        exact hm.scopes scope hscope entry hentry
    cases hmeets with
    | map hkeys _ => exact decide_eq_true hkeys
    | _ => rfl
  obtain ⟨haudited, _⟩ := runProgram_distinctKeys 10 20 0 given mapWrites hgiven
  exact ⟨hgiven, haudit, haudited audit haudit, by decide +kernel⟩

end Script

end RowConsole
