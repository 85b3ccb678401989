import SchemaInstaller.Installer.Plan
import SchemaInstaller.Installer.Statement
import SchemaInstaller.Php.Source

/-!
# The three methods of an installer

The class of an installer creates the objects of a manifest, puts rows into tables, and removes the
objects in reverse order. Each method is a list of steps, and each step is a block of lines.
-/

namespace SchemaInstaller

open Php

/-! ## Creating -/

/-- A step that creates an object. -/
inductive InstallStep
  | table (t : Table)
  | view (v : View)
  | procedure (p : Procedure)
  | trigger (t : Trigger) (installedAs : String)
  deriving Repr, DecidableEq

/-- The steps that create everything: tables first, triggers last. -/
def Plan.installSteps (p : Plan) : List InstallStep :=
  p.tables.map .table ++ p.manifest.views.map .view ++ p.manifest.storedProcedures.map .procedure
    ++ p.triggers.map fun t => .trigger t.1 t.2

/-- The condition that a table does not belong to the host. -/
def unlessCore (table : String) : Line :=
  ⟨2, [.code "if ( ! $this->is_core_table( $this->prefix . ", .singleQuoted table.toList,
    .code " ) ) \x7b"]⟩

/-- The lines between the parentheses of a table's definition, with commas between them. -/
def clauseLines : List Text → List Line
  | [] => []
  | [clause] => [⟨1, [.heredoc clause]⟩]
  | clause :: r => ⟨1, [.heredoc clause, .code ","]⟩ :: clauseLines r

/-- The definition of a table in a heredoc, handed to the host's upgrade function. -/
def tableLines (t : Table) : List Line :=
  [⟨2, [.code "// Table: ", .comment t.name.toList]⟩, .code 2 "$sql = <<<SQL",
    ⟨0, [.heredoc (Statement.createTableHead t.name)]⟩]
    ++ clauseLines (Statement.tableClauses t)
    ++ [.code 0 ") $charset_collate;", .code 0 "SQL;", unlessCore t.name,
      .code 3 "dbDelta( $sql );", .code 2 "\x7d"]

/-- The statement that creates an object, or a remark that there is none. -/
def createLine (object : String) : Option Text → Line
  | some statement => .runSql 2 statement
  | none => .code 2 ("// No definition was captured for this " ++ object ++ ".")

/-- A view dropped and created. -/
def viewLines (m : Manifest) (v : View) : List Line :=
  [⟨2, [.code "// View: ", .comment v.name.toList]⟩, .runSql 2 (Statement.dropView v.name),
    createLine "view" (Statement.createView? m v)]

/-- A procedure dropped and created. -/
def procedureLines (m : Manifest) (p : Procedure) : List Line :=
  [⟨2, [.code "// Stored procedure: ", .comment p.name.toList]⟩,
    .runSql 2 (Statement.dropProcedure p.name),
    createLine "procedure" (Statement.createProcedure? m p)]

/-- The remark above a trigger, with the name it is installed under if that is another one. -/
def triggerRemark (t : Trigger) (installedAs : String) : Line :=
  let name : List Fragment := [.code "// Trigger: ", .comment t.name.toList]
  if installedAs = t.name then ⟨2, name⟩
  else ⟨2, name ++ [.code " (installed as ", .comment installedAs.toList, .code ")"]⟩

/-- A trigger dropped and created. -/
def triggerLines (m : Manifest) (t : Trigger) (installedAs : String) : List Line :=
  [triggerRemark t installedAs, .runSql 2 (Statement.dropTrigger installedAs),
    .runSql 2 (Statement.createTrigger m t installedAs)]

/-- The lines of a step. -/
def InstallStep.lines (m : Manifest) : InstallStep → List Line
  | table t => tableLines t
  | view v => viewLines m v
  | procedure p => procedureLines m p
  | trigger t installedAs => triggerLines m t installedAs

/-! ## Filling -/

/-- The statements that fill a table. A row without columns has none. -/
def seedStatements (t : Table) : List Text :=
  (t.seedRowsToEmit.filter fun row => !row.cells.isEmpty).map (Statement.insertRow t.name)

/-- The rows of a table. -/
def seedLines (t : Table) : List Line :=
  ⟨2, [.code "// Seed data: ", .comment t.name.toList]⟩ :: (seedStatements t).map (.runSql 2)

/-! ## Removing -/

/-- A step that removes an object. -/
inductive RemovalStep
  | trigger (name : String)
  | procedure (name : String)
  | view (name : String)
  | table (name : String)
  deriving Repr, DecidableEq

/-- The steps that remove everything: triggers first, then tables in reverse order. -/
def Plan.removalSteps (p : Plan) : List RemovalStep :=
  p.droppedTriggers.map .trigger ++ p.manifest.storedProcedures.map (.procedure ·.name)
    ++ p.manifest.views.map (.view ·.name) ++ p.tables.reverse.map (.table ·.name)

/-- The lines of a step. -/
def RemovalStep.lines : RemovalStep → List Line
  | trigger name => [.runSql 2 (Statement.dropTrigger name)]
  | procedure name => [.runSql 2 (Statement.dropProcedure name)]
  | view name => [.runSql 2 (Statement.dropView name)]
  | table name => [unlessCore name, .runSql 3 (Statement.dropTable name), .code 2 "\x7d"]

/-! ## The methods -/

/-- The method that creates everything, a blank line before each step. -/
def Plan.installMethod (p : Plan) : List Line :=
  [.code 1 "public function install() \x7b",
    .code 2 "$charset_collate = $this->wpdb->get_charset_collate();",
    .code 2 "require_once( ABSPATH . 'wp-admin/includes/upgrade.php' );"]
    ++ p.installSteps.flatMap (fun step => .blank :: step.lines p.manifest)
    ++ [.code 1 "\x7d", .blank]

/-- The method that fills tables, a blank line between them. -/
def Plan.populateMethod (p : Plan) : List Line :=
  [.code 1 "public function populate() \x7b"] ++ [Line.blank].intercalate (p.seeded.map seedLines)
    ++ [.code 1 "\x7d", .blank]

/-- The method that removes everything. -/
def Plan.uninstallMethod (p : Plan) : List Line :=
  [.code 1 "public function uninstall() \x7b"] ++ p.removalSteps.flatMap RemovalStep.lines
    ++ [.code 1 "\x7d", .blank]

end SchemaInstaller
