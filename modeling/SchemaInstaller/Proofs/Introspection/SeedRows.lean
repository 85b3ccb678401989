import SchemaInstaller.Catalog.Memory
import SchemaInstaller.Proofs.Introspection.Yields

/-!
# Captured rows

A row limit of zero or less asks a catalog for all rows of a table, but keeps an installer from
putting any row into it. An introspector therefore gives each table a row limit of its own: the one
asked for, or if all rows were asked for, their number. Either way the limit lets through every row
that was captured (`IntrospectionOptions.take_rowLimit`), so of the rows of a catalog in memory just
those that the options ask for reach the manifest and the installer (`Trial.seedData_captured`).
-/

namespace SchemaInstaller

/-- As many rows as a limit asks for: the first ones, or all if it is zero or less. -/
def IntrospectionOptions.asked (o : IntrospectionOptions) (rows : List SeedRow) : List SeedRow :=
  if 0 < o.defaultRowLimit.toInt then rows.take o.defaultRowLimit.toInt.toNat else rows

theorem IntrospectionOptions.length_asked_le (o : IntrospectionOptions) (rows : List SeedRow) :
    (o.asked rows).length ≤ rows.length := by
  unfold asked
  split
  · exact List.length_take_le' _ _
  · exact Nat.le_refl _

/-- The row limit of a table lets through all rows that were asked for. -/
theorem IntrospectionOptions.take_rowLimit (o : IntrospectionOptions) {rows : List SeedRow}
    (h : rows.length ≤ 9223372036854775807) :
    (o.asked rows).take (o.rowLimit (o.asked rows)).toInt.toNat = o.asked rows := by
  refine List.take_of_length_le ?_
  unfold rowLimit
  by_cases hpos : o.defaultRowLimit.toInt > 0
  · rw [if_pos hpos]
    unfold asked
    rw [if_pos hpos]
    exact List.length_take_le _ _
  · have hlen := o.length_asked_le rows
    have hlimit : min ((o.asked rows).length : Int) 9223372036854775807 = (o.asked rows).length := by
      omega
    rw [if_neg hpos, hlimit, Int64.toInt_ofInt_of_le (by omega) (by omega)]
    omega

/-- The table of a name is the first one. -/
theorem MemoryCatalog.find?_of_table {c : MemoryCatalog} {name : String} {t : MemoryTable}
    (h : c.table name = .ok t) : c.tables.find? (·.name == name) = some t := by
  unfold table at h
  split at h
  · cases h
  · split at h
    · rename_i first hfind
      cases h
      exact hfind
    · cases h

namespace Trial

/-- The introspector of a trial, as cancellation of the trial stops it. -/
def introspector (t : Trial) (o : IntrospectionOptions) (now : Instant) :
    Introspector (StateM TrialState) :=
  ⟨t.toCatalog, o, (·.cancelled) <$> get, pure now⟩

variable {t : Trial} {o : IntrospectionOptions} {now : Instant}

/-- What a trial answers, if a call does not fail, its catalog answers. -/
theorem answer_of_canAnswer {call : CatalogCall α} {a : α}
    (h : t.toCatalog.CanAnswer call a) : t.catalog.answer call = .ok a := by
  obtain ⟨s, s', h⟩ := h
  have hanswer : t.answer call = .ok a := congrArg Prod.fst h
  unfold answer at hanswer
  split at hanswer
  · cases hanswer
  · exact hanswer

/-- The rows that a catalog in memory answers with are those of the first table of the name. -/
theorem exists_of_selectRows {table : String} {rows : List SeedRow}
    (h : t.catalog.answer (.selectRows table o.defaultRowLimit) = .ok rows) :
    ∃ source ∈ t.catalog.tables, t.catalog.tables.find? (·.name == table) = some source ∧
      rows = o.asked source.rows := by
  have hrows : (t.catalog.table table).map (fun source => o.asked source.rows) = .ok rows := h
  cases htable : t.catalog.table table with
  | error e =>
    rw [htable] at hrows
    cases hrows
  | ok source =>
    rw [htable] at hrows
    cases hrows
    have hfind := MemoryCatalog.find?_of_table htable
    exact ⟨source, List.mem_of_find?_eq_some hfind, hfind, rfl⟩

/-- Captured rows are neither lost nor added. Whichever calls to a catalog in memory fail and
whenever cancellation is asked for, every table of a manifest that an introspection gives has the
rows that the options ask for of the table of its name, and its row limit lets all of them through;
without seed data it has no rows and no positive limit. No table that fits into a memory has more
rows than a limit can say. -/
theorem seedData_captured (t : Trial) (o : IntrospectionOptions) (now : Instant)
    (hrows : ∀ source ∈ t.catalog.tables, source.rows.length ≤ 9223372036854775807)
    {s s' : TrialState} {m : Manifest}
    (h : (t.introspector o now).manifest.run s = (.ok m, s')) :
    ∀ x ∈ m.tables,
      (o.includeSeedData = true → ∃ source,
        t.catalog.tables.find? (·.name == x.sourceName) = some source ∧
          x.seedData = o.asked source.rows ∧ x.seedRowsToEmit = x.seedData) ∧
      (o.includeSeedData = false → x.seedData = [] ∧ x.rowLimit.toInt ≤ 0) := by
  obtain ⟨-, -, relations, -, hall⟩ := Introspector.of_manifest h
  intro x hx
  obtain ⟨relation, -, hloaded⟩ := exists_of_forall₂ hall hx
  refine ⟨fun hseed => ?_, fun hseed => ?_⟩
  · obtain ⟨hanswer, hlimit⟩ := hloaded.seeded hseed
    obtain ⟨source, hmem, hfind, hasked⟩ := exists_of_selectRows (answer_of_canAnswer hanswer)
    refine ⟨source, by rw [hloaded.sourceName]; exact hfind, hasked, ?_⟩
    unfold Table.seedRowsToEmit
    rw [hlimit, hasked]
    exact o.take_rowLimit (hrows source hmem)
  · obtain ⟨hnone, hlimit⟩ := hloaded.bare hseed
    exact ⟨hnone, by rw [hlimit]; decide⟩

/-! ## A run to the end -/

/-- The catalog of a trial with its relations listed in a given way. -/
def relisted (t : Trial) (listing : RelationKind → List RelationRow) :
    Catalog (StateM TrialState) where
  answer call := do
    modify (t.begun call.name)
    return if t.failing = some call.name then .error (.connectivity "connection lost" call.name)
      else match call with
        | .listRelations kind => .ok (listing kind)
        | call => t.catalog.answer call

theorem relisted_relations (t : Trial) : t.relisted t.catalog.relations = t.toCatalog := by
  unfold relisted toCatalog
  congr
  funext α call
  cases call <;> rfl

/-- A farm whose introspection is cancelled when its last call begins, too late to stop it. -/
def farmTrial : Trial where
  catalog :=
    { database := "farm"
      tables := [
        ⟨"log", none, [], [], [], [], [.ofCells [("line", .string "start")]]⟩,
        ⟨"wp_crops", none, [], [], [], [], []⟩,
        ⟨"wp_fields", none, [], [], [], [],
          [.ofCells [("name", .string "north")], .ofCells [("name", .string "south")]]⟩]
      views := [], procedures := [], triggers := [], broken := some "log" }
  failing := none
  cancelAt := some 15

/-- What the farm lists; its tables stand in order already. -/
def farmListing : RelationKind → List RelationRow
  | .baseTable => [⟨"log", none⟩, ⟨"wp_crops", none⟩, ⟨"wp_fields", none⟩]
  | .view => []

theorem farmTrial_relations : farmTrial.catalog.relations = farmListing := by
  funext kind
  cases kind
  · exact List.mergeSort_of_pairwise (by decide +kernel)
  · exact List.mergeSort_of_pairwise .nil

/-- All rows of the two tables that start with the prefix are captured when fewer than none are
asked for, and the installer puts all of them back. -/
theorem farmTrial_captured :
    let o := { IntrospectionOptions.standard with includeSeedData := true, defaultRowLimit := -1 }
    ∃ m s, (farmTrial.introspector o .epoch).manifest.run Trial.start = (.ok m, s) ∧
      s.cancelled = true ∧ m.tables.map (·.seedData.length) = [0, 2] ∧
      ∀ x ∈ m.tables, x.seedRowsToEmit = x.seedData := by
  intro o
  have hlisted : farmTrial.introspector o .epoch =
      ⟨farmTrial.relisted farmListing, o, (·.cancelled) <$> get, pure .epoch⟩ := by
    rw [← farmTrial_relations, relisted_relations]
    rfl
  have hok : ((farmTrial.introspector o .epoch).manifest.run Trial.start).1.toOption.map
      (fun m => m.tables.map (·.seedData.length)) = some [0, 2] := by
    rw [hlisted]
    decide +kernel
  have hcancelled : ((farmTrial.introspector o .epoch).manifest.run Trial.start).2.cancelled =
      true := by
    rw [hlisted]
    decide +kernel
  rcases hrun : (farmTrial.introspector o .epoch).manifest.run Trial.start with ⟨e | m, s⟩
  · rw [hrun] at hok
    cases hok
  · rw [hrun] at hok hcancelled
    refine ⟨m, s, rfl, hcancelled, Option.some.inj hok, fun x hx => ?_⟩
    obtain ⟨source, -, -, hemitted⟩ :=
      (seedData_captured farmTrial o .epoch (by decide) hrun x hx).1 rfl
    exact hemitted

end Trial

end SchemaInstaller
