import Mathlib.Data.List.Forall2
import Mathlib.Data.List.Nodup
import SchemaInstaller.Catalog.Memory
import SchemaInstaller.Introspection.Introspector

/-!
# What introspection captures

A catalog with fixed rows whose tables, views and procedures have distinct names is captured as a
whole: the manifest has an entity for every object whose name starts with the prefix and for no
other (`MemoryCatalog.manifest_captures`). An entity shows the rows of its own object, since looking
for an object by its name finds that object (`find?_name`), and its name is the object's name
without the prefix (`append_stripPrefix`).
-/

namespace SchemaInstaller

open Introspector (startsWith)

/-! ## What entities show -/

/-- A table that shows the rows of a table of the catalog. -/
structure Table.Shows (o : IntrospectionOptions) (database : String) (source : MemoryTable)
    (t : Table) : Prop where
  name : o.tablePrefix ++ t.name = source.name
  sourceName : t.sourceName = o.tablePrefix ++ t.name
  fullName : t.fullName = database ++ "." ++ t.sourceName
  comment : t.comment = Introspection.present? source.comment
  columns : t.columns = source.columns.map Introspection.column
  indexes : t.indexes = Introspection.indexes source.indexes
  constraints : t.constraints = Introspection.constraints source.constraints
  foreignKeys : t.foreignKeys = Introspection.foreignKeys o.tablePrefix source.foreignKeys
  seedData : t.seedData =
    if o.includeSeedData then MemoryCatalog.limited o.defaultRowLimit source.rows else []

/-- A view that shows a view of the catalog. -/
structure View.Shows (o : IntrospectionOptions) (database : String) (source : MemoryView)
    (v : View) : Prop where
  name : o.tablePrefix ++ v.name = source.name
  sourceName : v.sourceName = o.tablePrefix ++ v.name
  fullName : v.fullName = database ++ "." ++ v.sourceName
  definition : v.definition = source.definition

/-- A procedure that shows a procedure of the catalog. -/
structure Procedure.Shows (o : IntrospectionOptions) (database : String) (source : MemoryProcedure)
    (p : Procedure) : Prop where
  name : o.tablePrefix ++ p.name = source.name
  sourceName : p.sourceName = o.tablePrefix ++ p.name
  fullName : p.fullName = database ++ "." ++ p.sourceName
  definition : p.definition = source.definition
  parameters : p.parameters = Sql.parameters source.definition.toList

/-- A trigger that shows a row of the catalog. It is the trigger's table whose name starts with the
prefix; its own name need not. -/
structure Trigger.Shows (o : IntrospectionOptions) (database : String) (row : TriggerRow)
    (t : Trigger) : Prop where
  table : o.tablePrefix ++ t.table = row.table
  name : t.name = Sql.stripPrefix o.tablePrefix row.name
  sourceName : t.sourceName = row.name
  fullName : t.fullName = database ++ "." ++ t.sourceName
  event : t.event = Introspection.triggerEvent row
  definition : t.definition = row.statement

/-- The objects whose names start with a prefix, each of them once, in the order in which their
names are listed. -/
structure Selects (tablePrefix : String) (name : α → String) (listing : List String)
    (objects selected : List α) : Prop where
  perm : selected.Perm (objects.filter fun x => startsWith tablePrefix (name x))
  order : selected.map name = listing.filter (startsWith tablePrefix)

/-- A manifest that shows exactly the objects of a catalog that start with the prefix. -/
structure MemoryCatalog.Captured (c : MemoryCatalog) (o : IntrospectionOptions)
    (m : Manifest) : Prop where
  database : m.database = c.database
  defaultPrefix : m.defaultPrefix = o.tablePrefix
  tables : ∃ sources,
    Selects o.tablePrefix (·.name) ((c.relations .baseTable).map (·.name)) c.tables sources ∧
    List.Forall₂ (Table.Shows o c.database) sources m.tables
  views : ∃ sources,
    Selects o.tablePrefix (·.name) ((c.relations .view).map (·.name)) c.views sources ∧
    List.Forall₂ (View.Shows o c.database) sources m.views
  procedures : ∃ sources,
    Selects o.tablePrefix (·.name) (c.procedures.map (·.name)) c.procedures sources ∧
    List.Forall₂ (Procedure.Shows o c.database) sources m.storedProcedures
  triggers : List.Forall₂ (Trigger.Shows o c.database)
    (c.triggers.filter fun row => startsWith o.tablePrefix row.table) m.triggers

/-! ## Names -/

/-- A prefix and what it leaves of a name make up the name. -/
theorem append_stripPrefix {p name : String} (h : startsWith p name = true) :
    p ++ Sql.stripPrefix p name = name := by
  obtain ⟨rest, hrest⟩ := List.isPrefixOf_iff_prefix.1 h
  have hstrip : Sql.stripPrefix p name = String.ofList rest := by
    unfold Sql.stripPrefix
    rw [List.isPrefixOf?_eq_some_iff_append_eq.2 hrest]
  rw [hstrip, ← String.toList_inj, String.toList_append, String.toList_ofList, hrest]

/-- Among objects of distinct names, the first of a name is the only one. -/
theorem find?_name {name : α → String} {l : List α} (hl : (l.map name).Nodup) {x : α}
    (hx : x ∈ l) : l.find? (name · == name x) = some x := by
  induction l with
  | nil => cases hx
  | cons y l ih =>
    rw [List.map_cons, List.nodup_cons] at hl
    rcases List.mem_cons.1 hx with rfl | hx
    · simp
    · have hne : name y ≠ name x := fun h => hl.1 (h ▸ List.mem_map_of_mem hx)
      rw [List.find?_cons_of_neg (by simpa using hne), ih hl.2 hx]

/-! ## Listings -/

/-- Rows of relations in the order of their names, as the objects they are the rows of. -/
theorem inOrder_map (row : α → RelationRow) (l : List α) :
    MemoryCatalog.inOrder (l.map row) =
      (l.mergeSort fun a b => !decide ((row b).name < (row a).name)).map row :=
  Eq.symm (List.map_mergeSort (s := fun a b : RelationRow => !decide (b.name < a.name))
    fun _ _ _ _ => rfl)

namespace Introspector

/-! ## Runs that return -/

/-- A run that gives a value when the name of the database is known, and knows it afterwards. -/
def Returns (database : String) (x : Run Id α) (a : α) : Prop :=
  x.run.run (some database) = (.ok a, some database)

variable {d : String}

theorem returns_pure (a : α) : Returns d (pure a) a := rfl

theorem Returns.bind {x : Run Id α} {f : α → Run Id β} {a : α} {b : β} (hx : Returns d x a)
    (hf : Returns d (f a) b) : Returns d (x >>= f) b := by
  unfold Returns at *
  rw [ExceptT.run_bind, StateT.run_bind, hx]
  exact hf

/-- A run over the rows of objects gives, in their order, what it gives for each. -/
theorem exists_returns_mapM {R : α → γ → Prop} {f : β → Run Id γ} {row : α → β} {l : List α}
    (h : ∀ x ∈ l, ∃ y, Returns d (f (row x)) y ∧ R x y) :
    ∃ ys, Returns d ((l.map row).mapM f) ys ∧ List.Forall₂ R l ys := by
  induction l with
  | nil => exact ⟨[], returns_pure [], .nil⟩
  | cons x l ih =>
    obtain ⟨y, hy, hxy⟩ := h x List.mem_cons_self
    obtain ⟨ys, hys, hall⟩ := ih fun z hz => h z (List.mem_cons_of_mem _ hz)
    refine ⟨y :: ys, ?_, .cons hxy hall⟩
    rw [List.map_cons, List.mapM_cons]
    exact hy.bind (hys.bind (returns_pure _))

/-- A run over the rows of a listing that start with the prefix gives an entity for each of the
objects that do. -/
theorem exists_returns_listing {p : String} {R : α → γ → Prop} {f : RelationRow → Run Id γ}
    (row : α → RelationRow) {l : List α}
    (h : ∀ x ∈ l, startsWith p (row x).name = true → ∃ y, Returns d (f (row x)) y ∧ R x y) :
    ∃ sources ys,
      Returns d (((MemoryCatalog.inOrder (l.map row)).filter fun r => startsWith p r.name).mapM f)
        ys ∧
      Selects p (fun x => (row x).name) ((MemoryCatalog.inOrder (l.map row)).map (·.name)) l
        sources ∧
      List.Forall₂ R sources ys := by
  -- The listing sorts rows; sorting the objects by their rows' names comes to the same order.
  set listed := l.mergeSort fun a b => !decide ((row b).name < (row a).name) with hlisted
  have hmem : ∀ x ∈ listed.filter fun x => startsWith p (row x).name,
      ∃ y, Returns d (f (row x)) y ∧ R x y := by
    intro x hx
    obtain ⟨hx, hp⟩ := List.mem_filter.1 hx
    exact h x ((List.mergeSort_perm _ _).mem_iff.1 hx) hp
  obtain ⟨ys, hys, hall⟩ := exists_returns_mapM hmem
  refine ⟨_, ys, ?_, ⟨(List.mergeSort_perm _ _).filter _, ?_⟩, hall⟩
  · rw [inOrder_map, ← hlisted, List.filter_map]
    exact hys
  · rw [inOrder_map, ← hlisted, List.map_map, List.filter_map]
    rfl

end Introspector

namespace MemoryCatalog

open Introspector

/-- The introspector of a catalog that nothing cancels. -/
def introspector (c : MemoryCatalog) (o : IntrospectionOptions) (now : Instant) :
    Introspector Id :=
  ⟨c.toCatalog, o, pure false, pure now⟩

variable {c : MemoryCatalog} {o : IntrospectionOptions} {now : Instant} {d : String}

@[simp]
theorem introspector_options : (c.introspector o now).options = o := rfl

/-! ## The calls of an introspector -/

theorem returns_ask {call : CatalogCall α} {a : α} (h : c.answer call = .ok a) :
    Returns d ((c.introspector o now).ask call) a := by
  show (c.answer call, some d) = (.ok a, some d)
  rw [h]

theorem returns_checkpoint : Returns d (c.introspector o now).checkpoint () := rfl

theorem returns_now : Returns d (liftM (c.introspector o now).now) now := rfl

theorem returns_database : Returns d (c.introspector o now).database d := rfl

theorem answer_showCreateView (hc : (c.views.map (·.name)).Nodup) {v : MemoryView}
    (hv : v ∈ c.views) : c.answer (.showCreateView v.name) = .ok v.definition := by
  simp only [answer, find?_name hc hv]

theorem answer_showCreateProcedure (hc : (c.procedures.map (·.name)).Nodup) {p : MemoryProcedure}
    (hp : p ∈ c.procedures) : c.answer (.showCreateProcedure p.name) = .ok p.definition := by
  simp only [answer, find?_name hc hp]

theorem table_of_mem (hc : (c.tables.map (·.name)).Nodup) {t : MemoryTable} (ht : t ∈ c.tables)
    (hb : c.broken ≠ some t.name) : c.table t.name = .ok t := by
  unfold table
  rw [if_neg hb, find?_name hc ht]

/-! ## Entities -/

section OwnRows

variable {t : MemoryTable} (ht : c.table t.name = .ok t)

include ht

theorem returns_columns :
    Returns d ((c.introspector o now).columns t.name) (t.columns.map Introspection.column) :=
  (returns_ask (by simp only [answer, ht, Except.map])).bind (returns_pure _)

theorem returns_indexes :
    Returns d ((c.introspector o now).indexes t.name) (Introspection.indexes t.indexes) :=
  (returns_ask (by simp only [answer, ht, Except.map])).bind (returns_pure _)

theorem returns_constraints :
    Returns d ((c.introspector o now).constraints t.name)
      (Introspection.constraints t.constraints) :=
  (returns_ask (by simp only [answer, ht, Except.map])).bind (returns_pure _)

theorem returns_foreignKeys :
    Returns d ((c.introspector o now).foreignKeys t.name o.tablePrefix)
      (Introspection.foreignKeys o.tablePrefix t.foreignKeys) :=
  (returns_ask (by simp only [answer, ht, Except.map])).bind (returns_pure _)

/-- The rows to put into a table are those of the table that its name stands for. -/
theorem exists_returns_seedData :
    ∃ r, Returns d ((c.introspector o now).seedData t.name) r ∧
      r.1 = if o.includeSeedData then limited o.defaultRowLimit t.rows else [] := by
  have hrows : Returns d ((c.introspector o now).seedRows t.name o.defaultRowLimit)
      (limited o.defaultRowLimit t.rows) :=
    returns_checkpoint.bind (returns_ask (by simp only [answer, ht, Except.map]))
  unfold seedData
  by_cases hseed : o.includeSeedData = true
  · rw [introspector_options, if_pos hseed, if_pos hseed]
    generalize limited o.defaultRowLimit t.rows = rows at hrows
    have hlimit : ∃ limit, Returns d (if o.defaultRowLimit.toInt > 0
        then pure (rows, o.defaultRowLimit)
        else pure (rows, Int64.ofInt (min rows.length 9223372036854775807))) (rows, limit) := by
      split <;> exact ⟨_, returns_pure _⟩
    obtain ⟨limit, hlimit⟩ := hlimit
    exact ⟨(rows, limit), hrows.bind hlimit, rfl⟩
  · rw [introspector_options, if_neg hseed, if_neg hseed]
    exact ⟨([], 0), returns_pure _, rfl⟩

theorem exists_returns_loadTable (hp : startsWith o.tablePrefix t.name = true) :
    ∃ y, Returns d ((c.introspector o now).loadTable o.tablePrefix d ⟨t.name, t.comment⟩) y ∧
      Table.Shows o d t y := by
  obtain ⟨rows, hrows, hseed⟩ := exists_returns_seedData ht
  refine ⟨_, returns_checkpoint.bind <| (returns_columns ht).bind <| (returns_indexes ht).bind <|
    (returns_constraints ht).bind <| (returns_foreignKeys ht).bind <|
    hrows.bind (returns_pure _), ?_⟩
  have hname := append_stripPrefix hp
  exact ⟨hname, hname.symm, rfl, rfl, rfl, rfl, rfl, rfl, hseed⟩

end OwnRows

theorem exists_returns_loadView (hc : (c.views.map (·.name)).Nodup) {v : MemoryView}
    (hv : v ∈ c.views) (hp : startsWith o.tablePrefix v.name = true) (comment : Option String) :
    ∃ y, Returns d ((c.introspector o now).loadView o.tablePrefix d ⟨v.name, comment⟩) y ∧
      View.Shows o d v y := by
  refine ⟨_, returns_checkpoint.bind <|
    (returns_ask (answer_showCreateView hc hv)).bind (returns_pure _), ?_⟩
  have hname := append_stripPrefix hp
  exact ⟨hname, hname.symm, rfl, rfl⟩

theorem exists_returns_loadProcedure (hc : (c.procedures.map (·.name)).Nodup) {p : MemoryProcedure}
    (hm : p ∈ c.procedures) (hp : startsWith o.tablePrefix p.name = true) :
    ∃ y, Returns d ((c.introspector o now).loadProcedure o.tablePrefix d p.name) y ∧
      Procedure.Shows o d p y := by
  refine ⟨_, returns_checkpoint.bind <|
    (returns_ask (answer_showCreateProcedure hc hm)).bind (returns_pure _), ?_⟩
  have hname := append_stripPrefix hp
  exact ⟨hname, hname.symm, rfl, rfl, rfl⟩

theorem trigger_shows {row : TriggerRow} (hp : startsWith o.tablePrefix row.table = true) :
    Trigger.Shows o d row (Introspection.trigger o.tablePrefix d row) :=
  ⟨append_stripPrefix hp, rfl, rfl, rfl, rfl, rfl⟩

/-! ## Lists of entities -/

variable (now d)

theorem exists_returns_tables (hc : (c.tables.map (·.name)).Nodup)
    (hb : ∀ t ∈ c.tables, startsWith o.tablePrefix t.name = true → c.broken ≠ some t.name) :
    ∃ sources ts, Returns d ((c.introspector o now).tables o.tablePrefix) ts ∧
      Selects o.tablePrefix (·.name) ((c.relations .baseTable).map (·.name)) c.tables sources ∧
      List.Forall₂ (Table.Shows o d) sources ts := by
  obtain ⟨sources, ts, hts, h⟩ := exists_returns_listing
    (fun t : MemoryTable => ⟨t.name, t.comment⟩) fun t ht hp =>
      exists_returns_loadTable (c := c) (table_of_mem hc ht (hb t ht hp)) hp
  exact ⟨sources, ts,
    returns_checkpoint.bind (returns_database.bind ((returns_ask rfl).bind hts)), h⟩

theorem exists_returns_views (hc : (c.views.map (·.name)).Nodup) :
    ∃ sources vs, Returns d ((c.introspector o now).views o.tablePrefix) vs ∧
      Selects o.tablePrefix (·.name) ((c.relations .view).map (·.name)) c.views sources ∧
      List.Forall₂ (View.Shows o d) sources vs := by
  obtain ⟨sources, vs, hvs, h⟩ := exists_returns_listing
    (fun v : MemoryView => ⟨v.name, some (c.viewComment v.name)⟩) fun v hv hp =>
      exists_returns_loadView hc hv hp _
  exact ⟨sources, vs, returns_database.bind ((returns_ask rfl).bind hvs), h⟩

theorem exists_returns_procedures (hc : (c.procedures.map (·.name)).Nodup) :
    ∃ sources ps, Returns d ((c.introspector o now).procedures o.tablePrefix) ps ∧
      Selects o.tablePrefix (·.name) (c.procedures.map (·.name)) c.procedures sources ∧
      List.Forall₂ (Procedure.Shows o d) sources ps := by
  have hmem : ∀ p ∈ c.procedures.filter fun p => startsWith o.tablePrefix p.name,
      ∃ y, Returns d ((c.introspector o now).loadProcedure o.tablePrefix d p.name) y ∧
        Procedure.Shows o d p y := by
    intro p hp
    obtain ⟨hp, hs⟩ := List.mem_filter.1 hp
    exact exists_returns_loadProcedure hc hp hs
  obtain ⟨ps, hps, hall⟩ := exists_returns_mapM hmem
  have hnames : (c.procedures.map (·.name)).filter (startsWith o.tablePrefix) =
      (c.procedures.filter fun p => startsWith o.tablePrefix p.name).map (·.name) := by
    rw [List.filter_map]
    rfl
  refine ⟨_, ps, returns_database.bind ((returns_ask rfl).bind ?_), ⟨.refl _, hnames.symm⟩, hall⟩
  rw [hnames]
  exact hps

variable {now d}

theorem returns_triggers :
    Returns d ((c.introspector o now).triggers o.tablePrefix)
      ((c.triggers.filter fun row => startsWith o.tablePrefix row.table).map
        (Introspection.trigger o.tablePrefix d)) :=
  returns_checkpoint.bind (returns_database.bind ((returns_ask rfl).bind (returns_pure _)))

/-- What an introspector does once it knows the name of the database makes its manifest. -/
theorem manifest_of_returns {rest : String → Run Id Manifest} {m : Manifest}
    (hi : (c.introspector o now).introspect = (c.introspector o now).database >>= rest)
    (hm : Returns c.database (rest c.database) m) :
    (c.introspector o now).manifest = .ok m := by
  have hrun : (c.introspector o now).introspect.run.run none = (.ok m, some c.database) := by
    rw [hi, ExceptT.run_bind, StateT.run_bind]
    exact hm
  show ((c.introspector o now).introspect.run.run none).1 = .ok m
  rw [hrun]

/-! ## The whole catalog -/

/-- Introspection of a catalog whose tables, views and procedures have distinct names captures
exactly what starts with the prefix, whatever the prefix is, as long as no captured table is broken.
-/
theorem manifest_captures (c : MemoryCatalog) (o : IntrospectionOptions) (now : Instant)
    (ht : (c.tables.map (·.name)).Nodup) (hv : (c.views.map (·.name)).Nodup)
    (hp : (c.procedures.map (·.name)).Nodup)
    (hb : ∀ t ∈ c.tables, startsWith o.tablePrefix t.name = true → c.broken ≠ some t.name) :
    ∃ m, (c.introspector o now).manifest = .ok m ∧ c.Captured o m := by
  obtain ⟨tableSources, ts, hts, htables⟩ :=
    exists_returns_tables now c.database ht hb
  obtain ⟨viewSources, vs, hvs, hviews⟩ :=
    exists_returns_views (o := o) now c.database hv
  obtain ⟨procedureSources, ps, hps, hprocedures⟩ :=
    exists_returns_procedures (o := o) now c.database hp
  refine ⟨_, manifest_of_returns rfl (hts.bind <| hvs.bind <| hps.bind <| returns_triggers.bind <|
    returns_now.bind (returns_pure _)), rfl, rfl, ⟨_, htables⟩, ⟨_, hviews⟩, ⟨_, hprocedures⟩, ?_⟩
  refine List.forall₂_map_right_iff.2 (List.forall₂_same.2 fun row hrow => trigger_shows ?_)
  exact (List.mem_filter.1 hrow).2

/-- A catalog with a table named like the prefix, a broken table that does not start with it, and a
trigger on each side whose name says the opposite of its table's. -/
def guildCatalog : MemoryCatalog where
  database := "guild"
  tables := [
    ⟨"wp_users", some "Members", [⟨"id", "int(11)", "NO", "PRI", none, "auto_increment", none⟩],
      [⟨"PRIMARY", "id", false⟩], [⟨"PRIMARY", "PRIMARY KEY", some "id"⟩], [], []⟩,
    ⟨"log", none, [], [], [], [], []⟩,
    ⟨"wp_", none, [⟨"user_id", "int(11)", "YES", "MUL", none, "", none⟩], [], [],
      [⟨"fk_user", "user_id", "wp_users", "id", some "CASCADE", none⟩], []⟩]
  views := [⟨"wp_seen", "select 1 AS `one`", none⟩, ⟨"all_users", "select 2 AS `two`", none⟩]
  procedures := [⟨"sweep", "CREATE PROCEDURE sweep() BEGIN END"⟩,
    ⟨"wp_count", "CREATE PROCEDURE wp_count(OUT total INT) BEGIN END"⟩]
  triggers := [⟨"stamp", "INSERT", "wp_users", "BEGIN END", "BEFORE"⟩,
    ⟨"wp_trace", "DELETE", "log", "BEGIN END", "AFTER"⟩]
  broken := some "log"

theorem guildCatalog_captured :
    ∃ m, (guildCatalog.introspector .standard .epoch).manifest = .ok m ∧
      guildCatalog.Captured .standard m :=
  manifest_captures guildCatalog .standard _ (by decide) (by decide) (by decide) (by decide)

end MemoryCatalog

end SchemaInstaller
