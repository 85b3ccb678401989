import SchemaInstaller.Catalog.Basic

/-!
# Catalogs in memory

A catalog with fixed rows. Its relations are listed in the order of their names. For trials, one of
its tables may be broken, calls of one kind may fail, and cancellation may be asked for at the start
of a call.
-/

namespace SchemaInstaller

/-- A table and what its catalog says about it. -/
structure MemoryTable where
  name : String
  comment : Option String
  columns : List ColumnRow
  indexes : List IndexRow
  constraints : List ConstraintRow
  foreignKeys : List ForeignKeyRow
  rows : List SeedRow
  deriving Repr, DecidableEq

/-- A view; its comment stands for all views of the same name that follow no later one. -/
structure MemoryView where
  name : String
  definition : String
  comment : Option String
  deriving Repr, DecidableEq

/-- A procedure. -/
structure MemoryProcedure where
  name : String
  definition : String
  deriving Repr, DecidableEq

/-- A catalog with fixed rows, one of whose tables may be broken. -/
structure MemoryCatalog where
  database : String
  tables : List MemoryTable
  views : List MemoryView
  procedures : List MemoryProcedure
  triggers : List TriggerRow
  broken : Option String
  deriving Repr, DecidableEq

namespace MemoryCatalog

/-- The first table of a name. -/
def table (c : MemoryCatalog) (name : String) : Except Error MemoryTable :=
  if c.broken = some name then .error (.introspection name "simulated catalog failure")
  else match c.tables.find? (·.name == name) with
    | some t => .ok t
    | none => .error (.introspection name "table does not exist")

/-- Relations in the order of their names. -/
def inOrder (rows : List RelationRow) : List RelationRow :=
  rows.mergeSort fun a b => !decide (b.name < a.name)

/-- The comment of the views of a name: the last one given, or else the word that says it is a
view. -/
def viewComment (c : MemoryCatalog) (name : String) : String :=
  ((c.views.filter (·.name == name)).filterMap (·.comment)).getLast?.getD "VIEW"

/-- The relations of a kind. -/
def relations (c : MemoryCatalog) : RelationKind → List RelationRow
  | .baseTable => inOrder (c.tables.map fun t => ⟨t.name, t.comment⟩)
  | .view => inOrder (c.views.map fun v => ⟨v.name, some (c.viewComment v.name)⟩)

/-- As many rows as a limit allows; zero and less allow all. -/
def limited (limit : Int64) (rows : List SeedRow) : List SeedRow :=
  if limit.toInt > 0 then rows.take limit.toInt.toNat else rows

/-- The answer to a call. -/
def answer (c : MemoryCatalog) : {α : Type} → CatalogCall α → Except Error α
  | _, .databaseName => .ok c.database
  | _, .listRelations kind => .ok (c.relations kind)
  | _, .showColumns name => (c.table name).map (·.columns)
  | _, .showIndex name => (c.table name).map (·.indexes)
  | _, .tableConstraints name => (c.table name).map (·.constraints)
  | _, .foreignKeys name => (c.table name).map (·.foreignKeys)
  | _, .selectRows name limit => (c.table name).map fun t => limited limit t.rows
  | _, .showCreateView name =>
    match c.views.find? (·.name == name) with
    | some v => .ok v.definition
    | none => .error (.introspection name "view does not exist")
  | _, .listProcedures => .ok (c.procedures.map (·.name))
  | _, .showCreateProcedure name =>
    match c.procedures.find? (·.name == name) with
    | some p => .ok p.definition
    | none => .error (.introspection name "procedure does not exist")
  | _, .showTriggers => .ok c.triggers

/-- The catalog without any effect. -/
def toCatalog (c : MemoryCatalog) : Catalog Id := ⟨c.answer⟩

end MemoryCatalog

/-! ## Trials -/

/-- A catalog in memory whose calls of one name fail, and the number of the call that cancellation
is asked for at. -/
structure Trial where
  catalog : MemoryCatalog
  failing : Option String
  cancelAt : Option Nat
  deriving Repr, DecidableEq

/-- The names of the calls that have begun, in their order, and whether cancellation has been asked
for. -/
structure TrialState where
  calls : List String
  cancelled : Bool
  deriving Repr, DecidableEq

namespace Trial

/-- No call yet. -/
def start : TrialState := ⟨[], false⟩

/-- What the beginning of a call changes. -/
def begun (t : Trial) (call : String) (s : TrialState) : TrialState :=
  ⟨s.calls ++ [call], s.cancelled || t.cancelAt = some (s.calls.length + 1)⟩

/-- The answer to a call. -/
def answer (t : Trial) {α : Type} (call : CatalogCall α) : Except Error α :=
  if t.failing = some call.name then .error (.connectivity "connection lost" call.name)
  else t.catalog.answer call

/-- The catalog of a trial. -/
def toCatalog (t : Trial) : Catalog (StateM TrialState) where
  answer call := do
    modify (t.begun call.name)
    return t.answer call

end Trial

end SchemaInstaller
