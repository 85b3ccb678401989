import SchemaInstaller.Introspection.Grouping
import SchemaInstaller.Sql.Parameters

/-!
# Introspection

An introspector asks a catalog for everything whose name starts with a prefix and builds a manifest
of it. Triggers count by the table they belong to. The name of the database is asked for until it is
known, and then kept. Whether to stop is looked up before every object; the first error ends the
run.
-/

namespace SchemaInstaller

/-- What to capture. A row limit of zero or less captures all rows. How many tables may be loaded at
a time does not change the result. -/
structure IntrospectionOptions where
  tablePrefix : String
  includeSeedData : Bool
  defaultRowLimit : Int64
  installerClass : String
  parallelTables : Nat
  deriving Repr, DecidableEq

/-- The row limit when nothing else is said. -/
def standardRowLimit : Int64 := 100

/-- The number of tables that may be loaded at a time when nothing else is said. -/
def standardParallelTables : Nat := 4

/-- What is captured when nothing else is said. -/
def IntrospectionOptions.standard : IntrospectionOptions :=
  ⟨defaultTablePrefix, false, standardRowLimit, defaultInstallerClass, standardParallelTables⟩

/-- A catalog, what to capture of it, whether to stop, and the time. -/
structure Introspector (m : Type → Type) where
  catalog : Catalog m
  options : IntrospectionOptions
  isCancelled : m Bool
  now : m Instant

/-- A run of an introspector: it may fail, and it keeps the name of the database once it is known.
-/
abbrev Run (m : Type → Type) := ExceptT Error (StateT (Option String) m)

namespace Introspector

variable {m : Type → Type} [Monad m]

/-- The answer of the catalog to a call. -/
def ask (i : Introspector m) {α : Type} (call : CatalogCall α) : Run m α :=
  ExceptT.mk (StateT.lift (i.catalog.answer call))

/-- The run goes on unless it is to stop. -/
def checkpoint (i : Introspector m) : Run m Unit := do
  if ← i.isCancelled then throw .cancelled

/-- The name of the database, asked for if it is not known. -/
def database (i : Introspector m) : Run m String := do
  match ← get with
  | some name => return name
  | none =>
    let name ← i.ask .databaseName
    set (some name)
    return name

/-- The columns of a table. -/
def columns (i : Introspector m) (table : String) : Run m (List Column) := do
  return (← i.ask (.showColumns table)).map Introspection.column

/-- The indexes of a table. -/
def indexes (i : Introspector m) (table : String) : Run m (List Index) := do
  return Introspection.indexes (← i.ask (.showIndex table))

/-- The constraints of a table. -/
def constraints (i : Introspector m) (table : String) : Run m (List Constraint) := do
  return Introspection.constraints (← i.ask (.tableConstraints table))

/-- The foreign keys of a table. -/
def foreignKeys (i : Introspector m) (table tablePrefix : String) : Run m (List ForeignKey) := do
  return Introspection.foreignKeys tablePrefix (← i.ask (.foreignKeys table))

/-- As many rows of a table as a limit allows. -/
def seedRows (i : Introspector m) (table : String) (limit : Int64) : Run m (List SeedRow) := do
  i.checkpoint
  i.ask (.selectRows table limit)

/-- The rows to put into a table and its row limit, which is never less than their number. -/
def seedData (i : Introspector m) (table : String) : Run m (List SeedRow × Int64) := do
  if i.options.includeSeedData then
    let rows ← i.seedRows table i.options.defaultRowLimit
    if i.options.defaultRowLimit.toInt > 0 then return (rows, i.options.defaultRowLimit)
    else return (rows, Int64.ofInt (min rows.length 9223372036854775807))
  else return ([], 0)

/-- A table with everything that belongs to it. -/
def loadTable (i : Introspector m) (tablePrefix database : String) (relation : RelationRow) :
    Run m Table := do
  i.checkpoint
  let columns ← i.columns relation.name
  let indexes ← i.indexes relation.name
  let constraints ← i.constraints relation.name
  let foreignKeys ← i.foreignKeys relation.name tablePrefix
  let (rows, limit) ← i.seedData relation.name
  return {
    name := Sql.stripPrefix tablePrefix relation.name
    sourceName := relation.name
    fullName := Introspection.fullName database relation.name
    comment := Introspection.present? relation.comment
    rowLimit := limit
    skip := false
    columns, indexes, constraints, foreignKeys
    seedData := rows }

/-- Whether a name starts with a prefix. -/
def startsWith (tablePrefix name : String) : Bool := tablePrefix.toList.isPrefixOf name.toList

/-- The tables whose names start with a prefix, in the order of the catalog. -/
def tables (i : Introspector m) (tablePrefix : String) : Run m (List Table) := do
  i.checkpoint
  let database ← i.database
  let relations ← i.ask (.listRelations .baseTable)
  (relations.filter fun r => startsWith tablePrefix r.name).mapM (i.loadTable tablePrefix database)

/-- A view with its definition. -/
def loadView (i : Introspector m) (tablePrefix database : String) (relation : RelationRow) :
    Run m View := do
  i.checkpoint
  let definition ← i.ask (.showCreateView relation.name)
  return {
    name := Sql.stripPrefix tablePrefix relation.name
    sourceName := relation.name
    fullName := Introspection.fullName database relation.name
    definition
    comment := (Introspection.present? relation.comment).filter (· != "VIEW") }

/-- The views whose names start with a prefix, in the order of the catalog. -/
def views (i : Introspector m) (tablePrefix : String) : Run m (List View) := do
  let database ← i.database
  let relations ← i.ask (.listRelations .view)
  (relations.filter fun r => startsWith tablePrefix r.name).mapM (i.loadView tablePrefix database)

/-- A procedure with its definition and its parameters. -/
def loadProcedure (i : Introspector m) (tablePrefix database name : String) :
    Run m Procedure := do
  i.checkpoint
  let definition ← i.ask (.showCreateProcedure name)
  return {
    name := Sql.stripPrefix tablePrefix name
    sourceName := name
    fullName := Introspection.fullName database name
    parameters := Sql.parameters definition.toList
    definition
    comment := none }

/-- The procedures whose names start with a prefix, in the order of the catalog. -/
def procedures (i : Introspector m) (tablePrefix : String) : Run m (List Procedure) := do
  let database ← i.database
  let names ← i.ask .listProcedures
  (names.filter (startsWith tablePrefix)).mapM (i.loadProcedure tablePrefix database)

/-- The triggers whose tables start with a prefix, in the order of the catalog. -/
def triggers (i : Introspector m) (tablePrefix : String) : Run m (List Trigger) := do
  i.checkpoint
  let database ← i.database
  let rows ← i.ask .showTriggers
  return (rows.filter fun r => startsWith tablePrefix r.table).map
    (Introspection.trigger tablePrefix database)

/-- The manifest of everything that starts with the prefix. -/
def introspect (i : Introspector m) : Run m Manifest := do
  let database ← i.database
  let tables ← i.tables i.options.tablePrefix
  let views ← i.views i.options.tablePrefix
  let storedProcedures ← i.procedures i.options.tablePrefix
  let triggers ← i.triggers i.options.tablePrefix
  let generatedAt ← i.now
  return {
    database, generatedAt
    defaultPrefix := i.options.tablePrefix
    installerClass := i.options.installerClass
    includeSeedData := i.options.includeSeedData
    tables, views, storedProcedures, triggers }

/-- The manifest that an introspector builds when it has not asked for anything yet. -/
def manifest (i : Introspector m) : m (Except Error Manifest) := do
  return (← (i.introspect.run.run none)).1

end Introspector

end SchemaInstaller
