import SchemaInstaller.Catalog.Connector
import SchemaInstaller.Text.Utf8

/-!
# Catalogs of a MySQL server

The calls of a catalog as statements to a server, and the server's replies as their answers. The
server is a script: it has a reply for every statement and keeps a list of those it has received.
Cells are bytes; a column is read by its name, and one that is not there is null.
-/

namespace SchemaInstaller

/-! ## Statements -/

/-- A statement. -/
inductive Statement
  | ping
  | currentDatabase
  | relations (kind : RelationKind)
  | columns (table : String)
  | indexes (table : String)
  | constraints (table : String)
  | foreignKeys (table : String)
  | rows (table : String) (limit : Int64)
  | createView (view : String)
  | procedures
  | createProcedure (name : String)
  | triggers
  deriving Repr, DecidableEq

namespace Statement

/-- What a statement is for, in errors. -/
def purpose : Statement → String
  | ping => "testing MySQL source connection"
  | currentDatabase => "reading current database"
  | relations _ => "listing tables"
  | columns _ => "loading columns"
  | indexes _ => "loading indexes"
  | constraints _ => "loading constraints"
  | foreignKeys _ => "loading foreign keys"
  | rows _ _ => "reading seed rows"
  | createView _ => "reading view definition"
  | procedures => "listing procedures"
  | createProcedure _ => "reading procedure definition"
  | triggers => "listing triggers"

/-- A statement about a quoted name. -/
def about (start name : String) : Except Error String :=
  match Sql.quoteName? name with
  | .ok quoted => .ok (start ++ quoted)
  | .error fault => .error (.config fault.message)

/-- The text of a statement, or for one with a bound parameter what it asks for and the parameter. A
name that cannot be quoted is an error. -/
def text : Statement → Except Error String
  | ping => .ok "SELECT 1"
  | currentDatabase => .ok "SELECT DATABASE()"
  | relations kind => .ok ("relations:" ++ kind.name)
  | columns table => about "SHOW FULL COLUMNS FROM " table
  | indexes table => about "SHOW INDEX FROM " table
  | constraints table => .ok ("constraints:" ++ table)
  | foreignKeys table => .ok ("foreign_keys:" ++ table)
  | rows table limit =>
    (about "SELECT * FROM " table).map fun s =>
      if limit.toInt > 0 then s ++ " LIMIT " ++ toString limit.toInt else s
  | createView view => about "SHOW CREATE VIEW " view
  | procedures => .ok "SHOW PROCEDURE STATUS WHERE Db = DATABASE()"
  | createProcedure name => about "SHOW CREATE PROCEDURE " name
  | triggers => .ok "SHOW TRIGGERS"

end Statement

/-! ## Replies -/

/-- A column of a reply. -/
structure ResultColumn where
  name : String
  type : String
  deriving Repr, DecidableEq

/-- A row of a reply: columns and their cells. -/
abbrev ResultRow := List (ResultColumn × Option (List UInt8))

namespace ResultRow

/-- The text of a column by its name. -/
def text? (row : ResultRow) (name : String) : Option String :=
  ((row.find? (·.1.name == name)).bind (·.2)).map fun bytes => String.ofList (Utf8.decode bytes)

/-- The text of a column by its name, empty for null. -/
def text (row : ResultRow) (name : String) : String := (row.text? name).getD ""

/-- The row as a seed row. -/
def toSeedRow (row : ResultRow) : SeedRow :=
  SeedRow.ofCells <| row.map fun (column, cell) =>
    (column.name, SeedValue.ofCatalog column.type
      (cell.map fun bytes => String.ofList (Utf8.decode bytes)))

end ResultRow

/-- A statement that a server refuses. -/
structure Refusal where
  code : Nat
  state : String
  message : String
  deriving Repr, DecidableEq

/-- The refusal in words. -/
def Refusal.text (r : Refusal) : String :=
  "error returned from database: " ++ toString r.code ++ " (" ++ r.state ++ "): " ++ r.message

/-- What a server does with a statement. -/
inductive Reply
  | rows (rows : List ResultRow)
  | refused (refusal : Refusal)
  | dropped
  deriving Repr, DecidableEq

/-- The text of a connection that closes before its reply. -/
def droppedText : String :=
  "error communicating with database: expected to read 4 bytes, got 0 bytes at EOF"

/-- The text of a reply without the row that it should have. -/
def noRowText : String := "no rows returned by a query that expected to return at least one row"

/-- A server: whether it takes a login, whether it is slow, and its replies to texts of
statements. -/
structure Server where
  login : Option Refusal
  slow : Bool
  replies : List (String × Reply)
  deriving Repr, DecidableEq

namespace Server

/-- The statements that a server has received, the last one first. -/
abbrev Received := List String

variable {m : Type → Type} [Monad m]

/-- The reply to a statement. One that there is none for gives no rows, except that a ping gives
one. -/
def reply (s : Server) (text : String) : Reply :=
  (s.replies.lookup text).getD (.rows (if text == "SELECT 1" then [[]] else []))

/-- The modes of encryption that need a server with encryption. -/
def strictModes : List String := ["required", "verify_ca", "verify_identity"]

/-- A connection is made, tested by a ping. The server knows no encryption. -/
def connect (s : Server) (source : SourceConfig) : StateT Received m (Except Error Unit) := do
  if strictModes.contains (lowerCase source.sslMode) then
    return .error (.connectivity
      "error occurred while attempting to establish a TLS connection: server does not support TLS"
      connecting)
  match s.login with
  | some refusal => return .error (.connectivity refusal.text connecting)
  | none =>
    modify ("SELECT 1" :: ·)
    let failed (message : String) : Except Error Unit :=
      .error (.connectivity message Statement.ping.purpose)
    match s.reply "SELECT 1" with
    | .rows (_ :: _) => return .ok ()
    | .rows [] => return failed noRowText
    | .refused refusal => return failed refusal.text
    | .dropped => return failed droppedText

/-- The rows of a reply to a statement. A slow server that may take no time does not get it. -/
def ask (s : Server) (timeout : Nat) (statement : Statement) :
    StateT Received m (Except Error (List ResultRow)) := do
  match statement.text with
  | .error e => return .error e
  | .ok text =>
    if s.slow && timeout == 0 then return .error (.timeout statement.purpose timeout)
    modify (text :: ·)
    match s.reply text with
    | .rows rows => return .ok rows
    | .refused refusal => return .error (.introspection statement.purpose refusal.text)
    | .dropped => return .error (.connectivity droppedText statement.purpose)

/-- A row about a column. -/
def columnRow (row : ResultRow) : ColumnRow :=
  ⟨row.text "Field", row.text "Type", row.text "Null", row.text "Key", row.text? "Default",
    row.text "Extra", row.text? "Comment"⟩

/-- A row about a column of an index; a part that is no column has none. -/
def indexRow? (row : ResultRow) : Option IndexRow :=
  (row.text? "Column_name").map fun column =>
    ⟨row.text "Key_name", column, row.text? "Non_unique" != some "0"⟩

/-- A row about a column of a constraint. -/
def constraintRow (row : ResultRow) : ConstraintRow :=
  ⟨row.text "CONSTRAINT_NAME", row.text "CONSTRAINT_TYPE", row.text? "COLUMN_NAME"⟩

/-- A row about a pair of columns of a foreign key. -/
def foreignKeyRow (row : ResultRow) : ForeignKeyRow :=
  ⟨row.text "CONSTRAINT_NAME", row.text "COLUMN_NAME", row.text "REFERENCED_TABLE_NAME",
    row.text "REFERENCED_COLUMN_NAME", row.text? "UPDATE_RULE", row.text? "DELETE_RULE"⟩

/-- A row about a trigger. -/
def triggerRow (row : ResultRow) : TriggerRow :=
  ⟨row.text "Trigger", row.text "Event", row.text "Table", row.text "Statement",
    row.text "Timing"⟩

/-- The text of the first cell of a reply. -/
def firstText? (rows : List ResultRow) : Option String :=
  (rows.head?.bind fun row => row.head?.bind (·.2)).map fun b => String.ofList (Utf8.decode b)

/-- The definition of a view from a reply. -/
def viewDefinition (view : String) (rows : List ResultRow) : Except Error String :=
  match rows.head?.bind (·.text? "Create View") with
  | some s => .ok s
  | none => .error (.introspection view "SHOW CREATE VIEW returned no definition")

/-- The answer to a call. -/
def answer (s : Server) (source : SourceConfig) (timeout : Nat) :
    {α : Type} → CatalogCall α → StateT Received m (Except Error α)
  | _, .databaseName => do
    return (← s.ask timeout .currentDatabase).map fun r => (firstText? r).getD source.database
  | _, .listRelations kind => do
    return (← s.ask timeout (.relations kind)).map
      (·.map fun row => ⟨row.text "TABLE_NAME", row.text? "TABLE_COMMENT"⟩)
  | _, .showColumns table => do return (← s.ask timeout (.columns table)).map (·.map columnRow)
  | _, .showIndex table => do
    return (← s.ask timeout (.indexes table)).map (·.filterMap indexRow?)
  | _, .tableConstraints table => do
    return (← s.ask timeout (.constraints table)).map (·.map constraintRow)
  | _, .foreignKeys table => do
    return (← s.ask timeout (.foreignKeys table)).map (·.map foreignKeyRow)
  | _, .selectRows table limit => do
    return (← s.ask timeout (.rows table limit)).map (·.map ResultRow.toSeedRow)
  | _, .showCreateView view => do
    return (← s.ask timeout (.createView view)).bind (viewDefinition view)
  | _, .listProcedures => do
    return (← s.ask timeout .procedures).map (·.filterMap (·.text? "Name"))
  | _, .showCreateProcedure name => do
    return (← s.ask timeout (.createProcedure name)).map
      fun rows => (rows.head?.bind (·.text? "Create Procedure")).getD ""
  | _, .showTriggers => do return (← s.ask timeout .triggers).map (·.map triggerRow)

/-- The server as something to connect to. -/
def connector (s : Server) : Connector (StateT Received m) where
  connect source _ := s.connect source
  catalog source introspection := ⟨s.answer source introspection.queryTimeoutSecs⟩

end Server

end SchemaInstaller
