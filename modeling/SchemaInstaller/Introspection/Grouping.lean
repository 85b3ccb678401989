import SchemaInstaller.Catalog.Basic
import SchemaInstaller.Manifest.Basic

/-!
# From catalog rows to entities

Rows that belong to one index, constraint or foreign key share its name. They are grouped by name,
in the order in which names appear first; what is said of the whole comes from the first row.
-/

namespace SchemaInstaller.Introspection

/-- Rows of one name: the first of them, and all of them in order. -/
structure Group (α : Type) where
  first : α
  rows : List α
  deriving Repr, DecidableEq

/-- A row added to the group of its name, or as a new group behind all others. -/
def addRow (name : α → String) (row : α) : List (Group α) → List (Group α)
  | [] => [⟨row, [row]⟩]
  | g :: r =>
    if name g.first = name row then ⟨g.first, g.rows ++ [row]⟩ :: r else g :: addRow name row r

/-- Rows grouped by their names. -/
def grouped (name : α → String) (rows : List α) : List (Group α) :=
  rows.foldl (fun groups row => addRow name row groups) []

/-- A text that is not empty. -/
def present? : Option String → Option String
  | some s => if s.isEmpty then none else some s
  | none => none

/-- A column. -/
def column (row : ColumnRow) : Column where
  name := row.field
  dataType := row.dataType
  nullable := sameName row.null "YES"
  autoIncrement := Text.holds "auto_increment".toList (Text.lowerAscii row.extra.toList)
  primaryKey := sameName row.key "PRI"
  default? := row.default?
  comment := present? row.comment

/-- The indexes. -/
def indexes (rows : List IndexRow) : List Index :=
  (grouped (·.keyName) rows).map fun g =>
    ⟨g.first.keyName, g.rows.map (·.columnName), !g.first.nonUnique⟩

/-- The constraints. -/
def constraints (rows : List ConstraintRow) : List Constraint :=
  (grouped (·.name) rows).map fun g =>
    ⟨g.first.name, g.first.kind, g.rows.filterMap (·.column)⟩

/-- The foreign keys, with the prefix taken off the tables they point to. -/
def foreignKeys (tablePrefix : String) (rows : List ForeignKeyRow) : List ForeignKey :=
  (grouped (·.name) rows).map fun g =>
    { name := g.first.name
      columns := g.rows.map (·.column)
      references :=
        ⟨Sql.stripPrefix tablePrefix g.first.referencedTable, g.rows.map (·.referencedColumn)⟩
      onUpdate := present? g.first.updateRule
      onDelete := present? g.first.deleteRule }

/-- When a trigger fires, in upper case. -/
def triggerEvent (row : TriggerRow) : String :=
  let words := Text.trim row.timing.toList ++ ' ' :: Text.trim row.event.toList
  String.ofList (Text.upperAscii (Text.trim words))

/-- The name of an object with its database. -/
def fullName (database name : String) : String := database ++ "." ++ name

/-- A trigger. -/
def trigger (tablePrefix database : String) (row : TriggerRow) : Trigger where
  name := Sql.stripPrefix tablePrefix row.name
  sourceName := row.name
  fullName := fullName database row.name
  event := triggerEvent row
  table := Sql.stripPrefix tablePrefix row.table
  definition := row.statement
  comment := none

end SchemaInstaller.Introspection
