import SchemaInstaller.Manifest.Seed
import SchemaInstaller.Sql.Sanitize
import SchemaInstaller.Sql.TablePrefix
import SchemaInstaller.Time.Instant

/-!
# Manifests

A manifest records the tables, views, stored procedures and triggers of a database that share a name
prefix. It is what introspection produces and what an installer is compiled from.
-/

namespace SchemaInstaller

/-- A column of a table. -/
structure Column where
  name : String
  dataType : String
  nullable : Bool
  autoIncrement : Bool
  primaryKey : Bool
  default? : Option String
  comment : Option String
  deriving Repr, DecidableEq

/-- An index of a table. -/
structure Index where
  name : String
  columns : List String
  unique : Bool
  deriving Repr, DecidableEq

/-- A constraint of a table and its kind, such as a primary key or a check. -/
structure Constraint where
  name : String
  kind : String
  columns : List String
  deriving Repr, DecidableEq

/-- The side that a foreign key points to; its table is named without the prefix. -/
structure Reference where
  table : String
  columns : List String
  deriving Repr, DecidableEq

/-- A foreign key. -/
structure ForeignKey where
  name : String
  columns : List String
  references : Reference
  onUpdate : Option String
  onDelete : Option String
  deriving Repr, DecidableEq

/-- A table, named without the prefix and as the source has it, and the rows to put into it. A row
limit of zero or less puts none. -/
structure Table where
  name : String
  sourceName : String
  fullName : String
  comment : Option String
  rowLimit : Int64
  skip : Bool
  columns : List Column
  indexes : List Index
  constraints : List Constraint
  foreignKeys : List ForeignKey
  seedData : List SeedRow
  deriving Repr, DecidableEq

/-- A view with its definition as the source has it. -/
structure View where
  name : String
  sourceName : String
  fullName : String
  definition : String
  comment : Option String
  deriving Repr, DecidableEq

/-- The direction of a parameter. -/
inductive ParameterMode
  | input
  | output
  | both
  deriving Repr, DecidableEq

/-- A parameter of a stored procedure. -/
structure Parameter where
  mode : ParameterMode
  name : String
  dataType : String
  deriving Repr, DecidableEq

/-- A stored procedure with its definition as the source has it. -/
structure Procedure where
  name : String
  sourceName : String
  fullName : String
  parameters : List Parameter
  definition : String
  comment : Option String
  deriving Repr, DecidableEq

/-- A trigger: when it fires, such as BEFORE INSERT, the table it belongs to, named without the
prefix, and its body as the source has it. -/
structure Trigger where
  name : String
  sourceName : String
  fullName : String
  event : String
  table : String
  definition : String
  comment : Option String
  deriving Repr, DecidableEq

/-- The captured schema of a database. -/
structure Manifest where
  database : String
  generatedAt : Instant
  defaultPrefix : String
  installerClass : String
  includeSeedData : Bool
  tables : List Table
  views : List View
  storedProcedures : List Procedure
  triggers : List Trigger
  deriving Repr, DecidableEq

/-- The prefix of names when nothing else is said. -/
def defaultTablePrefix : String := "wp_"

/-- The name of the installer class when nothing else is said. -/
def defaultInstallerClass : String := "MyPluginInstaller"

namespace Manifest

/-- A manifest without objects. -/
def empty (database tablePrefix : String) (now : Instant) : Manifest :=
  ⟨database, now, tablePrefix, defaultInstallerClass, false, [], [], [], []⟩

/-- The first table of a name, in any case of ASCII letters. -/
def table? (m : Manifest) (name : String) : Option Table :=
  m.tables.find? fun t => sameName t.name name

/-- The number of tables, views, procedures and triggers. -/
def objectCount (m : Manifest) : Nat :=
  m.tables.length + m.views.length + m.storedProcedures.length + m.triggers.length

end Manifest

namespace Table

/-- A table without columns. -/
def empty (name sourceName database : String) : Table :=
  ⟨name, sourceName, database ++ "." ++ sourceName, none, 0, false, [], [], [], [], []⟩

/-- The columns of the primary key in the order of their declaration. -/
def primaryKeyColumns (t : Table) : List String :=
  (t.columns.filter (·.primaryKey)).map (·.name)

/-- The rows to put into the table: as many as the limit allows. -/
def seedRowsToEmit (t : Table) : List SeedRow := t.seedData.take t.rowLimit.toInt.toNat

end Table

namespace View

/-- The definition, fit to travel. -/
def sanitized (v : View) : Text := Sql.sanitizeView v.definition.toList

end View

namespace Procedure

/-- The definition, fit to travel. -/
def sanitized (p : Procedure) : Text := Sql.sanitizeRoutine p.definition.toList

end Procedure

namespace ParameterMode

/-- The keyword of a direction. -/
def keyword : ParameterMode → String
  | input => "IN"
  | output => "OUT"
  | both => "INOUT"

/-- The directions by their keywords. -/
def named : List (String × ParameterMode) := [("IN", input), ("OUT", output), ("INOUT", both)]

/-- The direction of a keyword in any case. -/
def ofWord? (word : Text) : Option ParameterMode :=
  named.lookup (String.ofList (Text.upperAscii word))

end ParameterMode

/-- When a trigger fires. -/
inductive TriggerTiming
  | before
  | after
  deriving Repr, DecidableEq

/-- What a trigger fires on. -/
inductive TriggerEvent
  | insert
  | update
  | delete
  deriving Repr, DecidableEq

namespace TriggerTiming

/-- The keyword of a timing. -/
def keyword : TriggerTiming → String
  | before => "BEFORE"
  | after => "AFTER"

/-- The timing of a keyword in any case. -/
def ofWord? (word : Text) : Option TriggerTiming :=
  [("BEFORE", before), ("AFTER", after)].lookup (String.ofList (Text.upperAscii word))

end TriggerTiming

namespace TriggerEvent

/-- The keyword of an event. -/
def keyword : TriggerEvent → String
  | insert => "INSERT"
  | update => "UPDATE"
  | delete => "DELETE"

/-- The event of a keyword in any case. -/
def ofWord? (word : Text) : Option TriggerEvent :=
  [("INSERT", insert), ("UPDATE", update), ("DELETE", delete)].lookup
    (String.ofList (Text.upperAscii word))

end TriggerEvent

namespace Trigger

/-- The body, fit to travel. -/
def sanitized (t : Trigger) : Text := Sql.sanitizeRoutine t.definition.toList

/-- The timing and the event by the first two words, AFTER and INSERT where a word says neither. -/
def timingAndEvent (t : Trigger) : TriggerTiming × TriggerEvent :=
  let words := Text.words t.event.toList
  ((words[0]?.bind TriggerTiming.ofWord?).getD .after,
    (words[1]?.bind TriggerEvent.ofWord?).getD .insert)

end Trigger

end SchemaInstaller
