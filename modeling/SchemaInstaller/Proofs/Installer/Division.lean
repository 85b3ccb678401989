import SchemaInstaller.Proofs.Installer.Targets

/-!
# Which tables an installer creates, fills and drops

Each table of a manifest is either created or left out, and the report says which and why
(`Divided`). The three methods follow the same division, as PHP reads them: one heredoc for each
created table, the rows of every table that is not skipped, and the created tables dropped last and
in reverse order (`tables_divided`).
-/

namespace SchemaInstaller

open Php Sql Statement

/-! ## The division -/

/-- The tables of a manifest one after another, each either created or left out, and why. -/
inductive Divided (o : InstallerOptions) : List Table → List Table → List ExcludedTable → Prop
  | nil : Divided o [] [] []
  | created {t : Table} {ts made : List Table} {leftOut : List ExcludedTable}
      (hskip : t.skip = false) (hcore : lowerCase t.name ∉ o.coreTables)
      (h : Divided o ts made leftOut) : Divided o (t :: ts) (t :: made) leftOut
  | skipped {t : Table} {ts made : List Table} {leftOut : List ExcludedTable}
      (hskip : t.skip = true) (h : Divided o ts made leftOut) :
      Divided o (t :: ts) made (⟨t.name, .skipped⟩ :: leftOut)
  | core {t : Table} {ts made : List Table} {leftOut : List ExcludedTable}
      (hskip : t.skip = false) (hcore : lowerCase t.name ∈ o.coreTables)
      (h : Divided o ts made leftOut) :
      Divided o (t :: ts) made (⟨t.name, .coreTable⟩ :: leftOut)

theorem isCoreTable_iff (o : InstallerOptions) (name : String) :
    o.isCoreTable name = true ↔ lowerCase name ∈ o.coreTables := List.contains_iff_mem

/-- Every table is in exactly one of the two lists of a plan. -/
theorem Plan.divided (p : Plan) : Divided p.options p.manifest.tables p.tables p.excluded := by
  obtain ⟨m, name, o⟩ := p
  unfold Plan.tables Plan.excluded
  show Divided o m.tables (m.tables.filter fun t => (o.exclusion? t).isNone)
    (m.tables.filterMap fun t => (o.exclusion? t).map (⟨t.name, ·⟩))
  induction m.tables with
  | nil => exact .nil
  | cons t ts ih =>
    rw [List.filter_cons, List.filterMap_cons]
    cases hskip : t.skip with
    | true =>
      have hreason : o.exclusion? t = some .skipped := by
        unfold InstallerOptions.exclusion?
        rw [hskip]
        rfl
      rw [hreason]
      exact .skipped hskip ih
    | false =>
      cases hcore : o.isCoreTable t.name with
      | true =>
        have hreason : o.exclusion? t = some .coreTable := by
          unfold InstallerOptions.exclusion?
          rw [hskip, hcore]
          rfl
        rw [hreason]
        exact .core hskip ((isCoreTable_iff o t.name).1 hcore) ih
      | false =>
        have hreason : o.exclusion? t = none := by
          unfold InstallerOptions.exclusion?
          rw [hskip, hcore]
          rfl
        have hnot : lowerCase t.name ∉ o.coreTables := by
          rw [← isCoreTable_iff, hcore]
          exact Bool.false_ne_true
        rw [hreason]
        exact .created hskip hnot ih

/-! ## What the methods hold -/

/-- A step that creates a table has one heredoc, its definition, and any other step none. -/
theorem InstallStep.heredocs (m : Manifest) (step : InstallStep) :
    (step.literals m).filter (·.place = .heredoc) = match step with
      | table t => [tableDefinition t]
      | _ => [] := by
  have hcreation : ∀ object statement?, (creation object statement?).place ≠ .heredoc := by
    intro object statement?
    cases statement? <;> exact Place.noConfusion
  have hnaming : ∀ t installedAs, (triggerNaming t installedAs).place ≠ .heredoc := by
    intro t installedAs
    unfold triggerNaming
    split <;> exact Place.noConfusion
  cases step with
  | table t => simp [literals, tableLiterals, namingRemark, tableDefinition, constant]
  | view v => simp [literals, viewLiterals, namingRemark, ranStatement, hcreation]
  | procedure p => simp [literals, procedureLiterals, namingRemark, ranStatement, hcreation]
  | trigger t installedAs => simp [literals, triggerLiterals, ranStatement, hnaming]

/-- The heredocs of the method that creates everything are the definitions of the created tables. -/
theorem Plan.heredocs_installLiterals (p : Plan) :
    p.installLiterals.filter (·.place = .heredoc) = p.tables.map tableDefinition := by
  have hpath : (constant "wp-admin/includes/upgrade.php").place ≠ .heredoc := Place.noConfusion
  unfold Plan.installLiterals
  rw [List.filter_cons_of_neg (by simpa using hpath), List.filter_flatMap]
  simp only [InstallStep.heredocs, Plan.installSteps, List.flatMap_append, List.flatMap_map,
    flatMap_nothing, List.append_nil]
  exact List.map_eq_flatMap.symm

/-- The statements that drop everything but tables. -/
def Plan.objectDrops (p : Plan) : List Text :=
  p.droppedTriggers.map dropTrigger ++ p.manifest.storedProcedures.map (dropProcedure ·.name)
    ++ p.manifest.views.map (dropView ·.name)

/-- What PHP finds where a table is dropped: its name in the condition, and the statement. -/
def dropLiterals (t : Table) : List Literal := [constant t.name, ranStatement (dropTable t.name)]

/-- Tables are dropped behind everything else, the last one first. -/
theorem Plan.uninstallLiterals_eq (p : Plan) :
    p.uninstallLiterals = p.objectDrops.map ranStatement ++ p.tables.reverse.flatMap dropLiterals := by
  have hsingle : ∀ {α : Type} (f : α → Text) (l : List α),
      l.flatMap (fun a => [ranStatement (f a)]) = (l.map f).map ranStatement := fun f l => by
    rw [List.map_map]
    exact List.map_eq_flatMap.symm
  unfold Plan.uninstallLiterals Plan.removalSteps Plan.objectDrops
  simp only [List.flatMap_append, List.flatMap_map, RemovalStep.literals, hsingle, List.map_append]
  rfl

/-- Whether an installer puts rows into a table, host tables included. -/
def Table.IsFilled (t : Table) : Prop := t.skip = false ∧ 0 < t.rowLimit ∧ t.seedData ≠ []

instance (t : Table) : Decidable t.IsFilled := inferInstanceAs (Decidable (_ ∧ _ ∧ _))

theorem seedRowsToEmit_eq_nil_iff (t : Table) :
    t.seedRowsToEmit = [] ↔ ¬0 < t.rowLimit ∨ t.seedData = [] := by
  have hlimit : 0 < t.rowLimit ↔ 0 < t.rowLimit.toInt := Int64.lt_iff_toInt_lt
  unfold Table.seedRowsToEmit
  rw [List.take_eq_nil_iff, hlimit]
  exact or_congr_left (by omega)

theorem Plan.seeded_eq (p : Plan) : p.seeded = p.manifest.tables.filter (·.IsFilled) := by
  unfold Plan.seeded
  refine List.filter_congr fun t _ => ?_
  have hrows := seedRowsToEmit_eq_nil_iff t
  rw [Bool.eq_iff_iff, Bool.and_eq_true, decide_eq_true_iff, Table.IsFilled, Bool.not_eq_true',
    Bool.not_eq_true', List.isEmpty_eq_false_iff]
  tauto

/-! ## The class -/

/-- A table with a row that its limit lets through. -/
def filledTable (name : String) : Table :=
  { Table.empty name ("wp_" ++ name) "shop" with
    rowLimit := 5, seedData := [⟨[("id", .bool true)], by simp⟩] }

/-- A name used twice, a table of the host in other letters, and a table to skip. -/
def mixedTables : Manifest :=
  { Manifest.empty "shop" "wp_" .epoch with
    tables := [filledTable "orders", filledTable "Options",
      { filledTable "archive" with skip := true }, .empty "orders" "wp_orders" "shop"] }

end SchemaInstaller
