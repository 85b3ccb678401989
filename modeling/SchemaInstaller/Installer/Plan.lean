import SchemaInstaller.Installer.Options
import SchemaInstaller.Installer.TriggerNames
import SchemaInstaller.Json.Basic

/-!
# What an installer contains

Every table of a manifest is either created or excluded. Rows are put into every table that the
manifest does not skip, tables of the host included. The report tells an author about these
decisions.
-/

namespace SchemaInstaller

/-- Why a table is not created. -/
inductive ExclusionReason
  | skipped
  | coreTable
  deriving Repr, DecidableEq

namespace ExclusionReason

/-- The reason in documents. -/
def key : ExclusionReason → String
  | skipped => "skipped"
  | coreTable => "coreTable"

/-- The reason on a terminal. -/
def label : ExclusionReason → String
  | skipped => "Skipped"
  | coreTable => "CoreTable"

end ExclusionReason

/-- A table that is not created. -/
structure ExcludedTable where
  name : String
  reason : ExclusionReason
  deriving Repr, DecidableEq

/-- A manifest, the class to compile it to, and how. -/
structure Plan where
  manifest : Manifest
  className : String
  options : InstallerOptions
  deriving Repr, DecidableEq

/-- Why a table is not created, if it is not. -/
def InstallerOptions.exclusion? (o : InstallerOptions) (t : Table) : Option ExclusionReason :=
  if t.skip then some .skipped
  else if o.isCoreTable t.name then some .coreTable
  else none

namespace Plan

/-- The tables to create and drop, in the order of the manifest. -/
def tables (p : Plan) : List Table :=
  p.manifest.tables.filter fun t => (p.options.exclusion? t).isNone

/-- The tables that are not created, in the order of the manifest. -/
def excluded (p : Plan) : List ExcludedTable :=
  p.manifest.tables.filterMap fun t => (p.options.exclusion? t).map (⟨t.name, ·⟩)

/-- The tables that rows are put into. -/
def seeded (p : Plan) : List Table :=
  p.manifest.tables.filter fun t => !t.skip && !t.seedRowsToEmit.isEmpty

/-- Every trigger with the name it is installed under. -/
def triggers (p : Plan) : List (Trigger × String) :=
  p.manifest.triggers.zip p.manifest.triggerNames

/-- The names under which triggers are dropped. -/
def droppedTriggers (p : Plan) : List String :=
  match p.options.triggerDrop with
  | .installed => p.manifest.triggerNames
  | .declared => p.manifest.triggers.map (·.name)

end Plan

/-- A trigger by its name in the manifest and the one it is installed under. -/
structure InstalledTrigger where
  name : String
  installedAs : String
  deriving Repr, DecidableEq

/-- What an installer contains, for its author. -/
structure InstallerReport where
  className : String
  tables : List String
  excludedTables : List ExcludedTable
  views : List String
  storedProcedures : List String
  triggers : List InstalledTrigger
  seedRows : Nat
  deriving Repr, DecidableEq

/-- The report about a plan. -/
def Plan.report (p : Plan) : InstallerReport where
  className := p.className
  tables := p.tables.map (·.name)
  excludedTables := p.excluded
  views := p.manifest.views.map (·.name)
  storedProcedures := p.manifest.storedProcedures.map (·.name)
  triggers := p.triggers.map fun t => ⟨t.1.name, t.2⟩
  seedRows := (p.seeded.flatMap (·.seedRowsToEmit)).length

namespace InstallerReport

/-- Why a table of a name is not created, if there is such a table. -/
def exclusion? (r : InstallerReport) (table : String) : Option ExclusionReason :=
  (r.excludedTables.find? (·.name == table)).map (·.reason)

/-- The report as a document. -/
def toJson (r : InstallerReport) : Json :=
  .object [("className", .string r.className), ("tables", .ofStrings r.tables),
    ("excludedTables", .array (r.excludedTables.map fun t =>
      .object [("name", .string t.name), ("reason", .string t.reason.key)])),
    ("views", .ofStrings r.views), ("storedProcedures", .ofStrings r.storedProcedures),
    ("triggers", .array (r.triggers.map fun t =>
      .object [("name", .string t.name), ("installedAs", .string t.installedAs)])),
    ("seedRows", .ofNat r.seedRows)]

end InstallerReport

end SchemaInstaller
