import SchemaInstaller.Manifest.Seed
import SchemaInstaller.Error

/-!
# Catalogs

A catalog tells what a database holds: its relations, their columns, indexes, constraints and rows,
and the definitions of its views, procedures and triggers. It answers calls one at a time and may
fail. What kind of effect an answer has is left open: a catalog answers in some monad.
-/

namespace SchemaInstaller

/-- The kinds of relation. -/
inductive RelationKind
  | baseTable
  | view
  deriving Repr, DecidableEq

/-- The kind as catalogs call it. -/
def RelationKind.name : RelationKind → String
  | baseTable => "BASE TABLE"
  | view => "VIEW"

/-! ## Rows -/

/-- A table or a view. -/
structure RelationRow where
  name : String
  comment : Option String
  deriving Repr, DecidableEq

/-- A column of a relation. -/
structure ColumnRow where
  field : String
  dataType : String
  null : String
  key : String
  default? : Option String
  extra : String
  comment : Option String
  deriving Repr, DecidableEq

/-- One column of an index. -/
structure IndexRow where
  keyName : String
  columnName : String
  nonUnique : Bool
  deriving Repr, DecidableEq

/-- One column of a constraint; a check has none. -/
structure ConstraintRow where
  name : String
  kind : String
  column : Option String
  deriving Repr, DecidableEq

/-- One pair of columns of a foreign key. -/
structure ForeignKeyRow where
  name : String
  column : String
  referencedTable : String
  referencedColumn : String
  updateRule : Option String
  deleteRule : Option String
  deriving Repr, DecidableEq

/-- A trigger. -/
structure TriggerRow where
  name : String
  event : String
  table : String
  statement : String
  timing : String
  deriving Repr, DecidableEq

/-! ## Calls -/

/-- A call, indexed by the type of its answer. -/
inductive CatalogCall : Type → Type
  | databaseName : CatalogCall String
  | listRelations (kind : RelationKind) : CatalogCall (List RelationRow)
  | showColumns (table : String) : CatalogCall (List ColumnRow)
  | showIndex (table : String) : CatalogCall (List IndexRow)
  | tableConstraints (table : String) : CatalogCall (List ConstraintRow)
  | foreignKeys (table : String) : CatalogCall (List ForeignKeyRow)
  | selectRows (table : String) (limit : Int64) : CatalogCall (List SeedRow)
  | showCreateView (view : String) : CatalogCall String
  | listProcedures : CatalogCall (List String)
  | showCreateProcedure (name : String) : CatalogCall String
  | showTriggers : CatalogCall (List TriggerRow)

/-- The name of a call, without its arguments except for a kind of relation. -/
def CatalogCall.name : {α : Type} → CatalogCall α → String
  | _, .databaseName => "database_name"
  | _, .listRelations kind => "list_relations:" ++ kind.name
  | _, .showColumns _ => "show_columns"
  | _, .showIndex _ => "show_index"
  | _, .tableConstraints _ => "table_constraints"
  | _, .foreignKeys _ => "foreign_keys"
  | _, .selectRows _ _ => "select_rows"
  | _, .showCreateView _ => "show_create_view"
  | _, .listProcedures => "list_procedures"
  | _, .showCreateProcedure _ => "show_create_procedure"
  | _, .showTriggers => "show_triggers"

/-- Something that answers calls. -/
structure Catalog (m : Type → Type) where
  answer : {α : Type} → CatalogCall α → m (Except Error α)

end SchemaInstaller
