import SchemaInstaller.Manifest.Basic
import SchemaInstaller.Sql.Routine
import SchemaInstaller.Sql.Timestamp

/-!
# Statements of an installer

Every name in a generated statement starts with the expression for the site's prefix, so that a
manifest installs under any prefix.
-/

namespace SchemaInstaller.Statement

open Sql

/-- A text of a manifest with the parts that tie it to its source taken out: the schema in front of
names, and the literal prefix. -/
def portable (m : Manifest) (definition : Text) : Text :=
  injectPrefix m.defaultPrefix.toList (stripSchema m.database.toList definition)

/-- The quoted name of an object of the site. -/
def siteName (name : String) : Text :=
  '\x60' :: prefixExpression ++ escapeIdentifier name.toList ++ ['\x60']

/-- The name of a table of the site. -/
def siteTable (name : String) : Text := prefixExpression ++ name.toList

/-- Names with commas between them. -/
def commaList (items : List Text) : Text := [',', ' '].intercalate items

/-! ## Tables -/

/-- The default clause of a column. A default that means the current time is written as such, and
the default NULL of a nullable column as the keyword. -/
def defaultClause (c : Column) : Text :=
  match c.default? with
  | none => []
  | some d =>
    match currentTimestamp? d.toList with
    | some t => " DEFAULT ".toList ++ t
    | none =>
      if c.nullable && sameName d "NULL" then " DEFAULT NULL".toList
      else " DEFAULT ".toList ++ quoteLiteral d.toList

/-- The definition of a column. -/
def columnClause (c : Column) : Text :=
  quoteIdentifier c.name.toList ++ ' ' :: Text.trim c.dataType.toList
    ++ (if c.nullable then [] else " NOT NULL".toList)
    ++ (if c.autoIncrement then " AUTO_INCREMENT".toList else [])
    ++ defaultClause c

/-- The primary key, if a table has one. -/
def primaryKeyClause (t : Table) : List Text :=
  match t.primaryKeyColumns with
  | [] => []
  | columns =>
    ["PRIMARY KEY (".toList ++ commaList (columns.map fun c => quoteIdentifier c.toList) ++ [')']]

/-- What stands between the parentheses of a table's definition. -/
def tableClauses (t : Table) : List Text := t.columns.map columnClause ++ primaryKeyClause t

/-- The start of a table's definition. -/
def createTableHead (name : String) : Text := "CREATE TABLE ".toList ++ siteTable name ++ [' ', '(']

/-- The statement that drops a table. -/
def dropTable (name : String) : Text := "DROP TABLE IF EXISTS ".toList ++ siteTable name

/-- The statement that puts a row into a table. -/
def insertRow (table : String) (row : SeedRow) : Text :=
  "INSERT INTO ".toList ++ siteTable table
    ++ " (".toList ++ commaList (row.columns.map fun c => quoteIdentifier c.toList)
    ++ ") VALUES (".toList ++ commaList (row.values.map SeedValue.toLiteral) ++ [')']

/-! ## Views and procedures -/

/-- The statement that drops a view. -/
def dropView (name : String) : Text := "DROP VIEW IF EXISTS ".toList ++ siteName name

/-- The statement that creates a view, unless its definition is blank. -/
def createView? (m : Manifest) (v : View) : Option Text :=
  let t := portable m v.sanitized
  if t.isBlankOnly then none else some t

/-- The statement that drops a procedure. -/
def dropProcedure (name : String) : Text := "DROP PROCEDURE IF EXISTS ".toList ++ siteName name

/-- The statement that creates a procedure, unless its definition is blank. The header is forced, so
that the procedure gets the name it is dropped under. -/
def createProcedure? (m : Manifest) (p : Procedure) : Option Text :=
  let t := portable m p.sanitized
  if t.isBlankOnly then none
  else some (forceHeader ("CREATE PROCEDURE ".toList ++ siteName p.name) t)

/-! ## Triggers -/

/-- The statement that drops a trigger. -/
def dropTrigger (name : String) : Text := "DROP TRIGGER IF EXISTS ".toList ++ siteName name

/-- A body as one block. -/
def asBlock (body : Text) : Text :=
  if startsWithBegin body then body
  else if body.getLast? == some ';' then "BEGIN ".toList ++ body ++ " END".toList
  else "BEGIN ".toList ++ body ++ "; END".toList

/-- The statement that creates a trigger. -/
def createTrigger (m : Manifest) (t : Trigger) (installedAs : String) : Text :=
  let (timing, event) := t.timingAndEvent
  "CREATE TRIGGER ".toList ++ siteName installedAs ++ ' ' :: timing.keyword.toList
    ++ ' ' :: event.keyword.toList ++ " ON ".toList ++ siteName t.table
    ++ " FOR EACH ROW ".toList ++ asBlock (Text.trim (portable m t.sanitized))

end SchemaInstaller.Statement
