import SchemaInstaller.Manifest.Basic
import SchemaInstaller.Time.Reader

/-!
# Manifests as documents

Every entity has a decoder and a writer. Field names are in camel case, and an optional text that is
absent is left out. A manifest that does not say when it was generated was generated now.
-/

namespace SchemaInstaller

open Json

/-- A field that is left out when there is no text. -/
def optionalField (name : String) : Option String → Json.Fields
  | some s => [(name, .string s)]
  | none => []

/-- The decoder of an optional text. -/
def optionalText (name : String) : Record (Option String) :=
  .optional name (Decode.option Decode.string) none

/-- The decoder of a text that may be missing. -/
def textOr (name default : String) : Record String := .optional name Decode.string default

/-- The decoder of a list that may be missing. -/
def listOf (name : String) (d : Decoder α) : Record (List α) := .optional name (Decode.list d) []

/-- The decoder of a flag that is off when it is missing. -/
def flag (name : String) : Record Bool := .optional name Decode.bool false

namespace Column

/-- A column from a document. -/
def decode : Decoder Column :=
  Record.decoder (Column.mk <$> .required "name" Decode.string <*> .required "type" Decode.string
    <*> flag "nullable" <*> flag "autoIncrement" <*> flag "primaryKey" <*> optionalText "default"
    <*> optionalText "comment") "Column"

/-- A column as a document. -/
def toJson (c : Column) : Json :=
  .object ([("name", .string c.name), ("type", .string c.dataType), ("nullable", .bool c.nullable),
    ("autoIncrement", .bool c.autoIncrement), ("primaryKey", .bool c.primaryKey)]
    ++ optionalField "default" c.default? ++ optionalField "comment" c.comment)

end Column

namespace Index

/-- An index from a document. -/
def decode : Decoder Index :=
  Record.decoder (Index.mk <$> .required "name" Decode.string <*> listOf "columns" Decode.string
    <*> flag "unique") "Index"

/-- An index as a document. -/
def toJson (i : Index) : Json :=
  .object [("name", .string i.name), ("columns", .ofStrings i.columns), ("unique", .bool i.unique)]

end Index

namespace Constraint

/-- A constraint from a document. -/
def decode : Decoder Constraint :=
  Record.decoder (Constraint.mk <$> .required "name" Decode.string
    <*> .required "type" Decode.string <*> listOf "columns" Decode.string) "Constraint"

/-- A constraint as a document. -/
def toJson (c : Constraint) : Json :=
  .object [("name", .string c.name), ("type", .string c.kind), ("columns", .ofStrings c.columns)]

end Constraint

namespace Reference

/-- The side that a foreign key points to, from a document. -/
def decode : Decoder Reference :=
  Record.decoder (Reference.mk <$> .required "table" Decode.string
    <*> listOf "columns" Decode.string) "ForeignKeyReference"

/-- The side that a foreign key points to, as a document. -/
def toJson (r : Reference) : Json :=
  .object [("table", .string r.table), ("columns", .ofStrings r.columns)]

end Reference

namespace ForeignKey

/-- A foreign key from a document. -/
def decode : Decoder ForeignKey :=
  Record.decoder (ForeignKey.mk <$> .required "name" Decode.string
    <*> listOf "columns" Decode.string <*> .required "references" Reference.decode
    <*> optionalText "onUpdate" <*> optionalText "onDelete") "ForeignKey"

/-- A foreign key as a document. -/
def toJson (k : ForeignKey) : Json :=
  .object ([("name", .string k.name), ("columns", .ofStrings k.columns),
    ("references", k.references.toJson)]
    ++ optionalField "onUpdate" k.onUpdate ++ optionalField "onDelete" k.onDelete)

end ForeignKey

namespace Table

/-- A table from a document. -/
def decode : Decoder Table :=
  Record.decoder (Table.mk <$> .required "name" Decode.string <*> textOr "nameOriginal" ""
    <*> textOr "fullName" "" <*> optionalText "comment" <*> .optional "rowLimit" Decode.int64 0
    <*> flag "skip" <*> listOf "columns" Column.decode <*> listOf "indexes" Index.decode
    <*> listOf "constraints" Constraint.decode <*> listOf "foreignKeys" ForeignKey.decode
    <*> listOf "seedData" SeedRow.decode) "Table"

/-- A table as a document. -/
def toJson (t : Table) : Json :=
  .object ([("name", .string t.name), ("nameOriginal", .string t.sourceName),
    ("fullName", .string t.fullName)] ++ optionalField "comment" t.comment
    ++ [("rowLimit", .ofInt64 t.rowLimit), ("skip", .bool t.skip),
      ("columns", .array (t.columns.map Column.toJson)),
      ("indexes", .array (t.indexes.map Index.toJson)),
      ("constraints", .array (t.constraints.map Constraint.toJson)),
      ("foreignKeys", .array (t.foreignKeys.map ForeignKey.toJson)),
      ("seedData", .array (t.seedData.map SeedRow.toJson))])

end Table

namespace View

/-- A view from a document. -/
def decode : Decoder View :=
  Record.decoder (View.mk <$> .required "name" Decode.string <*> textOr "nameOriginal" ""
    <*> textOr "fullName" "" <*> textOr "definition" "" <*> optionalText "comment") "View"

/-- A view as a document. -/
def toJson (v : View) : Json :=
  .object ([("name", .string v.name), ("nameOriginal", .string v.sourceName),
    ("fullName", .string v.fullName), ("definition", .string v.definition)]
    ++ optionalField "comment" v.comment)

end View

namespace Parameter

/-- A parameter from a document. -/
def decode : Decoder Parameter :=
  Record.decoder (Parameter.mk <$> .optional "mode" (Decode.variant ParameterMode.named) .input
    <*> .required "name" Decode.string <*> .required "type" Decode.string) "Parameter"

/-- A parameter as a document. -/
def toJson (p : Parameter) : Json :=
  .object [("mode", .string p.mode.keyword), ("name", .string p.name), ("type", .string p.dataType)]

end Parameter

namespace Procedure

/-- A stored procedure from a document. -/
def decode : Decoder Procedure :=
  Record.decoder (Procedure.mk <$> .required "name" Decode.string <*> textOr "nameOriginal" ""
    <*> textOr "fullName" "" <*> listOf "parameters" Parameter.decode <*> textOr "definition" ""
    <*> optionalText "comment") "StoredProcedure"

/-- A stored procedure as a document. -/
def toJson (p : Procedure) : Json :=
  .object ([("name", .string p.name), ("nameOriginal", .string p.sourceName),
    ("fullName", .string p.fullName), ("parameters", .array (p.parameters.map Parameter.toJson)),
    ("definition", .string p.definition)] ++ optionalField "comment" p.comment)

end Procedure

namespace Trigger

/-- A trigger from a document. -/
def decode : Decoder Trigger :=
  Record.decoder (Trigger.mk <$> .required "name" Decode.string <*> textOr "nameOriginal" ""
    <*> textOr "fullName" "" <*> textOr "event" "" <*> .required "table" Decode.string
    <*> textOr "definition" "" <*> optionalText "comment") "Trigger"

/-- A trigger as a document. -/
def toJson (t : Trigger) : Json :=
  .object ([("name", .string t.name), ("nameOriginal", .string t.sourceName),
    ("fullName", .string t.fullName), ("event", .string t.event), ("table", .string t.table),
    ("definition", .string t.definition)] ++ optionalField "comment" t.comment)

end Trigger

/-- An instant from a document. -/
def Instant.decode : Decoder Instant
  | .string s => (Instant.ofText s).mapError fun e => .unreadable e.message
  | j => .error (.wrongType j.found "an RFC 3339 formatted date and time string")

namespace Manifest

/-- A manifest from a document with the exact field names. -/
def decode (now : Instant) : Decoder Manifest :=
  Record.decoder (Manifest.mk <$> textOr "database" ""
    <*> .optional "generatedAt" Instant.decode now
    <*> textOr "defaultPrefix" defaultTablePrefix <*> textOr "installerClass" defaultInstallerClass
    <*> flag "includeSeedData" <*> listOf "tables" Table.decode <*> listOf "views" View.decode
    <*> listOf "storedProcedures" Procedure.decode <*> listOf "triggers" Trigger.decode) "Manifest"

/-- A manifest as a document. -/
def toJson (m : Manifest) : Json :=
  .object [("database", .string m.database), ("generatedAt", .string m.generatedAt.toText),
    ("defaultPrefix", .string m.defaultPrefix), ("installerClass", .string m.installerClass),
    ("includeSeedData", .bool m.includeSeedData), ("tables", .array (m.tables.map Table.toJson)),
    ("views", .array (m.views.map View.toJson)),
    ("storedProcedures", .array (m.storedProcedures.map Procedure.toJson)),
    ("triggers", .array (m.triggers.map Trigger.toJson))]

end Manifest

end SchemaInstaller
