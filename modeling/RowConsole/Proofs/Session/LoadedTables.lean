import Mathlib.Data.List.Nodup
import RowConsole.Proofs.Session.BindingStore
import RowConsole.Proofs.Session.Events
import RowConsole.Tables

/-!
# Loaded Tables

Tables pass through four steps until they are bound: a text names a source, the sources are read, the tables are
collected by name, and each of them is bound and then the map of all. The steps do not get in each other's way. A name
that the first step takes is one that the last step may bind, it is not that of the map, and where a name is repeated
its last source counts, at the place of its first.

Main statement: `seed_loaded`.
-/

namespace RowConsole.Tables

open Script (Runtime Value)
open Session (Bindings Console Context checkName classify completed? dispatchCommand)
open Session.Workspace (dataSourceName)

/-! ## Section 1: Sources -/

/-- The name of a source may be bound, and it is not that of the data source. -/
theorem Source.name_of_parse {text : String} {source : Source} (h : Source.parse text = .ok source) :
    checkName source.name = .ok () ∧ source.name ≠ dataSourceName := by
  unfold Source.parse at h
  dsimp only at h
  split at h
  · cases h
  · cases h
  · split at h
    · cases h
    · next hname =>
      split at h
      · cases h
      · next hother =>
        cases h
        exact ⟨hname, hother⟩

variable {sources : List Source} {content : String → Value}

/-- A table that is read comes before those that are read behind it. -/
theorem readAll_cons {read : String → Except FileFault String} {source : Source} {table : Value} (rest : List Source)
    (h : ofContent source.path (read source.path) = .ok table) :
    readAll (m := Id) read (source :: rest) =
      ((source, table) :: (readAll (m := Id) read rest).1, (readAll (m := Id) read rest).2) := by
  rw [readAll]
  simp only [bind, pure]
  rw [h]
  rfl

/-- Files that can all be read are all read. -/
theorem readAll_eq {read : String → Except FileFault String}
    (hread : ∀ source ∈ sources, ofContent source.path (read source.path) = .ok (content source.path)) :
    readAll (m := Id) read sources = (sources.map fun source => (source, content source.path), none) := by
  induction sources with
  | nil => rfl
  | cons source rest ih =>
    obtain ⟨hhead, hrest⟩ := List.forall_mem_cons.mp hread
    rw [readAll_cons rest hhead, ih hrest, List.map_cons]

/-! ## Section 2: Tables by Name -/

/-- The tables of some sources. -/
def tablesOf (sources : List Source) (content : String → Value) : OrderedMap Value :=
  byName (sources.map fun source => (source, content source.path))

/-- Each name stands where it occurs first. -/
theorem keys_tablesOf (sources : List Source) (content : String → Value) :
    OrderedMap.keys (tablesOf sources content) = (sources.map Source.name).eraseDups := by
  rw [tablesOf, byName, OrderedMap.keys_ofEntries]
  simp [OrderedMap.keys, Function.comp_def]

private theorem nodup_keys_tablesOf (sources : List Source) (content : String → Value) :
    (OrderedMap.keys (tablesOf sources content)).Nodup :=
  OrderedMap.nodup_keys_merge (m := []) List.nodup_nil _

/-- The last source of a name counts. -/
theorem get?_tablesOf {before after : List Source} {source : Source} (hlast : source.name ∉ after.map Source.name) :
    OrderedMap.get? (tablesOf (before ++ source :: after) content) source.name = some (content source.path) := by
  -- the entries are read from the last one on, and none behind this source has its name
  have hafter : (after.reverse.map fun source => (source.name, content source.path)).lookup source.name = none := by
    rw [List.lookup_eq_none_iff]
    intro entry hentry
    obtain ⟨other, hother, rfl⟩ := List.mem_map.mp hentry
    have hne : source.name ≠ other.name := fun heq => hlast (heq ▸ List.mem_map_of_mem (List.mem_reverse.mp hother))
    simpa using hne
  rw [tablesOf, byName, OrderedMap.get?_ofEntries]
  simp [Function.comp_def, List.lookup_append, ← List.map_reverse, hafter]

private theorem tablesOf_eq_nil_iff : tablesOf sources content = [] ↔ sources = [] := by
  constructor
  · intro h
    have hkeys := keys_tablesOf sources content
    rw [h] at hkeys
    cases sources with
    | nil => rfl
    | cons source rest =>
      have hmem : source.name ∈ ((source :: rest).map Source.name).eraseDups := by simp
      rw [← hkeys] at hmem
      contradiction
  · rintro rfl
    rfl

/-- Some tables with the data source behind them. -/
def withDataSource (tables : OrderedMap Value) : OrderedMap Value :=
  tables ++ [(dataSourceName, .map tables)]

private theorem keys_withDataSource (tables : OrderedMap Value) :
    OrderedMap.keys (withDataSource tables) = OrderedMap.keys tables ++ [dataSourceName] := by
  simp [withDataSource, OrderedMap.keys]

/-- Tables that can be bound: no name is repeated, each may be bound, and none is that of the data source. -/
structure Bindable (tables : OrderedMap Value) : Prop where
  nodup : (OrderedMap.keys tables).Nodup
  checked : ∀ name ∈ OrderedMap.keys tables, checkName name = .ok ()
  free : dataSourceName ∉ OrderedMap.keys tables

private theorem bindable_tablesOf
    (hnames : ∀ source ∈ sources, checkName source.name = .ok () ∧ source.name ≠ dataSourceName) :
    Bindable (tablesOf sources content) := by
  have hkeys : ∀ name ∈ OrderedMap.keys (tablesOf sources content),
      checkName name = .ok () ∧ name ≠ dataSourceName := by
    intro name hname
    rw [keys_tablesOf, List.mem_eraseDups] at hname
    obtain ⟨source, hsource, rfl⟩ := List.mem_map.mp hname
    exact hnames source hsource
  exact ⟨nodup_keys_tablesOf sources content, fun name h => (hkeys name h).1, fun h => (hkeys _ h).2 rfl⟩

namespace Bindable

variable {tables : OrderedMap Value}

private theorem nodup_withDataSource (h : Bindable tables) : (OrderedMap.keys (withDataSource tables)).Nodup := by
  rw [keys_withDataSource]
  exact List.concat_eq_append ▸ h.nodup.concat h.free

private theorem checked_withDataSource (h : Bindable tables) :
    ∀ name ∈ OrderedMap.keys (withDataSource tables), checkName name = .ok () := by
  intro name hname
  rw [keys_withDataSource, List.mem_append, List.mem_singleton] at hname
  rcases hname with hname | rfl
  · exact h.checked name hname
  · decide +kernel

/-- The data source is read behind the tables, and the tables are read as before. -/
theorem get?_withDataSource (h : Bindable tables) (name : String) :
    OrderedMap.get? (withDataSource tables) name =
      if name = dataSourceName then some (.map tables) else OrderedMap.get? tables name := by
  have hsplit : OrderedMap.get? (withDataSource tables) name =
      (OrderedMap.get? tables name).or (OrderedMap.get? [(dataSourceName, .map tables)] name) := List.lookup_append
  rw [hsplit, OrderedMap.get?_cons]
  split
  · next hname => rw [hname, OrderedMap.get?_eq_none_of_notMem h.free, Option.none_or]
  · exact Option.or_none

end Bindable

/-! ## Section 3: Binding -/

/-- Values whose names may be bound are all bound, one after the other. -/
theorem bindEach_eq {ε : Type} {entries : List (String × Value)}
    (hnames : ∀ name ∈ OrderedMap.keys entries, checkName name = .ok ()) (s : Session ε) :
    bindEach s entries =
      (.ok (), s.mapContext fun ctx => { ctx with bindings := ⟨OrderedMap.merge ctx.bindings.values entries⟩ }) := by
  induction entries generalizing s with
  | nil => rfl
  | cons entry rest ih =>
    obtain ⟨name, v⟩ := entry
    obtain ⟨hname, hrest⟩ := List.forall_mem_cons.mp hnames
    -- The name passes the check, so the entry is bound and the rest is merged behind it.
    have hset : s.workspace.context.bindings.set name v = .ok ⟨s.workspace.context.bindings.values.insert name v⟩ := by
      rw [Bindings.set, hname]
      rfl
    have hvariable : s.setVariable name v =
        (.ok (), s.mapContext fun ctx => { ctx with bindings := ⟨ctx.bindings.values.insert name v⟩ }) := by
      rw [Session.setVariable, Session.Workspace.setVariable, hset]
      rfl
    rw [bindEach, hvariable]
    exact ih hrest _

/-- A session in which tables have been bound and then the data source. -/
def bound {ε : Type} (s : Session ε) (tables : OrderedMap Value) : Session ε :=
  s.mapContext fun ctx =>
    { ctx with bindings := ⟨OrderedMap.merge ctx.bindings.values (withDataSource tables)⟩ }

private theorem seed_eq {ε : Type} {tables : OrderedMap Value} (h : Bindable tables) (hne : tables ≠ [])
    (s : Session ε) :
    seed s tables = (.ok (), bound s tables) := by
  have hfull : ¬ (tables.isEmpty = true) := fun hempty => hne (List.isEmpty_iff.mp hempty)
  rw [seed, if_neg hfull]
  exact bindEach_eq h.checked_withDataSource s

section Bound

variable {tables : OrderedMap Value} {s : Session Runtime}

private theorem not_mem_names_new {name : String} (h : checkName name = .ok ()) :
    name ∉ Context.new.bindings.names := by
  intro hmem
  have hfree := (Session.checkName_eq_ok_iff.mp h).2.2
  rw [Session.isReserved_of_mem_new hmem] at hfree
  cases hfree

/-- All names that are bound are new. -/
theorem names_bound (h : Bindable tables) (hnew : s.context.bindings = Context.new.bindings) :
    (bound s tables).context.bindings.names =
      s.context.bindings.names ++ (OrderedMap.keys tables ++ [dataSourceName]) := by
  -- the names that were bound are reserved, and none of the others is
  have hother : (OrderedMap.keys (withDataSource tables)).filter (· ∉ s.context.bindings.names) =
      OrderedMap.keys (withDataSource tables) := by
    refine List.filter_eq_self.mpr fun name hname => decide_eq_true ?_
    rw [hnew]
    exact not_mem_names_new (h.checked_withDataSource name hname)
  rw [← keys_withDataSource, ← hother]
  exact OrderedMap.keys_merge h.nodup_withDataSource

/-- What has been bound is read before what was bound, and the data source apart from the tables. -/
theorem get?_bound (h : Bindable tables) (name : String) :
    (bound s tables).context.bindings.get? name =
      (if name = dataSourceName then some (.map tables) else OrderedMap.get? tables name).or
        (s.context.bindings.get? name) := by
  rw [← h.get?_withDataSource]
  exact OrderedMap.get?_merge h.nodup_withDataSource name

private theorem get?_bound_dataSource (h : Bindable tables) :
    (bound s tables).context.bindings.get? dataSourceName = some (.map tables) := by
  rw [get?_bound h, if_pos rfl, Option.some_or]

private theorem get?_bound_of_mem (h : Bindable tables) {name : String} (hname : name ∈ OrderedMap.keys tables) :
    (bound s tables).context.bindings.get? name = OrderedMap.get? tables name := by
  have hne : name ≠ dataSourceName := fun heq => h.free (heq ▸ hname)
  -- a table is found, so what was bound before is not asked for
  obtain ⟨v, hv⟩ := OrderedMap.mem_keys_iff.mp hname
  rw [get?_bound h, if_neg hne, hv, Option.some_or]

/-- What was bound in a new session is left. -/
theorem get?_bound_of_new (h : Bindable tables) {name : String} (hname : name ∈ Context.new.bindings.names) :
    (bound s tables).context.bindings.get? name = s.context.bindings.get? name := by
  have hother : name ∉ OrderedMap.keys (withDataSource tables) :=
    fun hmem => not_mem_names_new (h.checked_withDataSource name hmem) hname
  rw [get?_bound h, ← h.get?_withDataSource, OrderedMap.get?_eq_none_of_notMem hother, Option.none_or]

private theorem tables_bound (h : Bindable tables) :
    (bound s tables).workspace.tables = .ok (some (OrderedMap.keys tables)) := by
  unfold Session.Workspace.tables
  rw [show (bound s tables).workspace.context.bindings.get? dataSourceName = _ from get?_bound_dataSource h]
  rfl

end Bound

/-- What the user is told about the tables of a data source, if there is one. -/
def tableLines : Option (List String) → List String
  | none => ["No database connection available"]
  | some [] => ["No tables found"]
  | some names => names.map fun name => "  " ++ name

private theorem tableLines_of_ne_nil {names : List String} (h : names ≠ []) :
    tableLines (some names) = names.map fun name => "  " ++ name := by
  cases names with
  | nil => contradiction
  | cons name rest => rfl

/-- The command for tables prints a line for each table of the data source, or a note. -/
theorem handleLine_tables {s : Session Runtime} (hpending : s.context.pending = "") {answer : Option (List String)}
    (htables : s.workspace.tables = .ok answer) :
    ∃ s', s.handleLine ":tables" = some s' ∧
      s'.console.events = s.console.events ++ (tableLines answer).map (.message .plain) := by
  have hcompleted : completed? s.context.pending (.line ":tables") = some (.command "tables" "") := by
    rw [hpending]
    decide +kernel
  rw [Session.handleLine_of_completed hcompleted]
  refine ⟨_, rfl, ?_⟩
  have htables' : (s.collected "" (Session.keepLine s.reader.history ":tables")).workspace.tables = .ok answer :=
    htables
  show (dispatchCommand _ s.console "tables" "").2.events = _
  -- Nothing else about the session matters from here on, only that its workspace lists the tables.
  generalize (s.collected "" (Session.keepLine s.reader.history ":tables")).workspace = w at htables' ⊢
  have hname : Session.Command.ofName? "tables" = some .tables := by decide +kernel
  rw [dispatchCommand, hname]
  simp only [Session.Command.execute, htables']
  rcases answer with _ | _ | ⟨name, rest⟩
  · rfl
  · rfl
  · exact Session.events_eachLine s.console _

/-! ## Section 4: Seeded Sessions -/

/-- What a session is after tables of some sources were bound. -/
structure Seeded (sources : List Source) (content : String → Value) (s s' : Session Runtime) : Prop where
  /-- Nothing but the bindings is changed. -/
  frame : ∃ bindings, s' = s.mapContext fun ctx => { ctx with bindings := bindings }
  /-- The names come behind those of before, in the order in which they occur first, and the data source comes last. -/
  names : s'.context.bindings.names =
    s.context.bindings.names ++ if sources = [] then [] else (sources.map Source.name).eraseDups ++ ["db"]
  /-- Each name has the table of its last source. -/
  table : ∀ before source after, sources = before ++ source :: after → source.name ∉ after.map Source.name →
    s'.context.bindings.get? source.name = some (content source.path)
  /-- The data source is the map of all names with the same tables. -/
  dataSource : sources ≠ [] → ∃ tables, s'.context.bindings.get? "db" = some (.map tables) ∧
    OrderedMap.keys tables = (sources.map Source.name).eraseDups ∧
    ∀ name ∈ sources.map Source.name, OrderedMap.get? tables name = s'.context.bindings.get? name
  kept : ∀ name ∈ s.context.bindings.names, s'.context.bindings.get? name = s.context.bindings.get? name
  nothing : sources = [] → s' = s
  /-- The command for tables lists their names in this order. -/
  listed : ∃ s'', s'.handleLine ":tables" = some s'' ∧ s''.console.events = s'.console.events ++
    (if sources = [] then ["No database connection available"]
      else (sources.map Source.name).eraseDups.map fun name => "  " ++ name).map (.message .plain)

/-- Without sources nothing is bound. -/
theorem seeded_nil {s : Session Runtime} (hfresh : s.Fresh) (hnew : s.context.bindings = Context.new.bindings) :
    Seeded [] content s s where
  frame := ⟨s.context.bindings, rfl⟩
  names := (List.append_nil _).symm
  table before source after h := by simp at h
  dataSource h := absurd rfl h
  kept _ _ := rfl
  nothing _ := rfl
  listed := by
    have htables : s.workspace.tables = .ok none := by
      unfold Session.Workspace.tables
      rw [show s.workspace.context.bindings = Context.new.bindings from hnew]
      rfl
    exact handleLine_tables hfresh.pending htables

/-- Tables that can be bound are found again where they have been bound, each of them and all of them together. -/
theorem seeded_bound (hne : sources ≠ []) (htables : Bindable (tablesOf sources content)) {s : Session Runtime}
    (hfresh : s.Fresh) (hnew : s.context.bindings = Context.new.bindings) :
    Seeded sources content s (bound s (tablesOf sources content)) where
  frame := ⟨_, rfl⟩
  names := by
    rw [names_bound htables hnew, keys_tablesOf, if_neg hne]
    rfl
  table := by
    rintro before source after rfl hlast
    rw [get?_bound_of_mem htables (by simp [keys_tablesOf]), get?_tablesOf hlast]
  dataSource := by
    refine fun _ => ⟨_, get?_bound_dataSource htables, keys_tablesOf sources content, fun name hname => ?_⟩
    rw [get?_bound_of_mem htables (by rwa [keys_tablesOf, List.mem_eraseDups])]
  kept name hname := get?_bound_of_new htables (hnew ▸ hname)
  nothing h := absurd h hne
  listed := by
    -- With a source there is a table, so the list is not the text for no tables.
    have hfull : OrderedMap.keys (tablesOf sources content) ≠ [] :=
      fun h => hne (tablesOf_eq_nil_iff.mp (List.map_eq_nil_iff.mp h))
    rw [if_neg hne, ← keys_tablesOf sources content, ← tableLines_of_ne_nil hfull]
    have hpending : (bound s (tablesOf sources content)).context.pending = "" := hfresh.pending
    exact handleLine_tables hpending (tables_bound htables)

/-- Sources that texts describe, and whose files can all be read, are loaded, and a new session is seeded with them.
Each name is bound to the table of its last source, and the data source to the map of all tables in the order in which
their names occur first. This is the order in which the command for tables lists them. Without sources nothing is
bound. -/
theorem seed_loaded {texts : List String} {sources : List Source} (hparse : texts.map Source.parse = sources.map .ok)
    {read : String → Except FileFault String} {content : String → Value}
    (hread : ∀ source ∈ sources, ofContent source.path (read source.path) = .ok (content source.path))
    {s : Session Runtime} (hfresh : s.Fresh) (hnew : s.context.bindings = Context.new.bindings) :
    ∃ tables s', readAll (m := Id) read sources = (tables, none) ∧ seed s (byName tables) = (.ok (), s') ∧
      Seeded sources content s s' := by
  -- whatever the text is, a name has been checked before it gets here
  have hnames : ∀ source ∈ sources, checkName source.name = .ok () ∧ source.name ≠ dataSourceName := by
    intro source hsource
    have hmem : Except.ok source ∈ texts.map Source.parse := hparse ▸ List.mem_map_of_mem hsource
    obtain ⟨text, _, htext⟩ := List.mem_map.mp hmem
    exact Source.name_of_parse htext
  by_cases hne : sources = []
  · subst hne
    exact ⟨_, s, readAll_eq hread, rfl, seeded_nil hfresh hnew⟩
  · have htables : Bindable (tablesOf sources content) := bindable_tablesOf hnames
    exact ⟨_, _, readAll_eq hread, seed_eq htables (mt tablesOf_eq_nil_iff.mp hne) s,
      seeded_bound hne htables hfresh hnew⟩

/-- A name that is given twice, once with blanks around it: the second file counts, and the name keeps the first
place. -/
theorem seed_loaded_repeated :
    let texts := [" users\t=a.json", "orders=b.json", "users=c.json"]
    let sources : List Source := [⟨"users", "a.json"⟩, ⟨"orders", "b.json"⟩, ⟨"users", "c.json"⟩]
    let read : String → Except FileFault String := fun path =>
      .ok (if path = "b.json" then "\x7b\x7d" else if path = "c.json" then "[1, 2]" else "null")
    let content : String → Value := fun path =>
      if path = "b.json" then .map [] else if path = "c.json" then .list [.int 1, .int 2] else .null
    let s : Session Runtime := Session.new {} {}
    texts.map Source.parse = sources.map .ok ∧
      (∀ source ∈ sources, ofContent source.path (read source.path) = .ok (content source.path)) ∧
      s.Fresh ∧ ∃ tables s', readAll (m := Id) read sources = (tables, none) ∧ seed s (byName tables) = (.ok (), s') ∧
        s'.context.bindings.names = ["repl", "terminal", "reader", "users", "orders", "db"] ∧
        s'.context.bindings.get? "users" = some (.list [.int 1, .int 2]) ∧
        ∃ s'', s'.handleLine ":tables" = some s'' ∧
          s''.console.events = [.message .plain "  users", .message .plain "  orders"] := by
  intro texts sources read content s
  have hparse : texts.map Source.parse = sources.map .ok := by decide +kernel
  have hnull : Json.read? "null" = some .null := by rfl
  have hobject : Json.read? "\x7b\x7d" = some (.object []) := by rfl
  have harray : Json.read? "[1, 2]" = some (.array [.int 1, .int 2]) := by rfl
  -- The three files are read as given; the table of the last one stands for its name.
  have hread : ∀ source ∈ sources, ofContent source.path (read source.path) = .ok (content source.path) := by
    intro source hsource
    simp only [sources, List.mem_cons, List.not_mem_nil, or_false] at hsource
    rcases hsource with rfl | rfl | rfl
    · simp [read, content, ofContent, hnull, Json.toValue]
    · simp [read, content, ofContent, hobject, Json.toValue, Json.memberValues, OrderedMap.ofEntries, OrderedMap.merge]
    · simp [read, content, ofContent, harray, Json.toValue, Json.itemValues]
  have hfresh : s.Fresh := ⟨rfl, rfl, rfl, rfl⟩
  obtain ⟨tables, s', hload, hseed, hseeded⟩ := seed_loaded hparse hread hfresh rfl
  have hdistinct : (sources.map Source.name).eraseDups = ["users", "orders"] := by decide +kernel
  have htable := hseeded.table [⟨"users", "a.json"⟩, ⟨"orders", "b.json"⟩] ⟨"users", "c.json"⟩ [] rfl (by simp)
  obtain ⟨s'', hline, hevents⟩ := hseeded.listed
  refine ⟨hparse, hread, hfresh, tables, s', hload, hseed, ?_, htable, s'', hline, ?_⟩
  · rw [hseeded.names, hdistinct]
    rfl
  · have hconsole : s'.console = s.console := by
      obtain ⟨_, rfl⟩ := hseeded.frame
      rfl
    rw [hevents, hconsole, hdistinct]
    rfl

end RowConsole.Tables
