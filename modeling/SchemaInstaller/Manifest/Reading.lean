import SchemaInstaller.Manifest.Fields
import SchemaInstaller.Json.Reader
import SchemaInstaller.Json.Printer
import SchemaInstaller.Error

/-!
# Reading manifests of any key casing

Keys of entities are matched without regard to the case of ASCII letters and renamed to their
canonical spelling before the manifest is decoded. A foreign key may name its one column instead of
a list of columns; a list wins over that. Keys of seed rows are column names and stay as they are.
-/

namespace SchemaInstaller

open Json

/-- The kinds of object in a manifest. -/
inductive Entity
  | manifest
  | table
  | column
  | index
  | constraint
  | foreignKey
  | reference
  | view
  | procedure
  | parameter
  | trigger
  deriving Repr, DecidableEq

/-- What a field holds: nothing with keys to rename, one entity, a list of entities, or one value of
the list that another field holds. -/
inductive Content
  | plain
  | one (e : Entity)
  | many (e : Entity)
  | single (list : String)
  deriving Repr, DecidableEq

namespace Entity

/-- The fields of an entity. -/
def fields : Entity → List (String × Content)
  | manifest => [("database", .plain), ("generatedAt", .plain), ("defaultPrefix", .plain),
      ("installerClass", .plain), ("includeSeedData", .plain), ("tables", .many table),
      ("views", .many view), ("storedProcedures", .many procedure), ("triggers", .many trigger)]
  | table => [("name", .plain), ("nameOriginal", .plain), ("fullName", .plain),
      ("comment", .plain), ("rowLimit", .plain), ("skip", .plain), ("columns", .many column),
      ("indexes", .many index), ("constraints", .many constraint),
      ("foreignKeys", .many foreignKey), ("seedData", .plain)]
  | column => [("name", .plain), ("type", .plain), ("nullable", .plain), ("autoIncrement", .plain),
      ("primaryKey", .plain), ("default", .plain), ("comment", .plain)]
  | index => [("name", .plain), ("columns", .plain), ("unique", .plain)]
  | constraint => [("name", .plain), ("type", .plain), ("columns", .plain)]
  | foreignKey => [("name", .plain), ("columns", .plain), ("column", .single "columns"),
      ("references", .one reference), ("onUpdate", .plain), ("onDelete", .plain)]
  | reference => [("table", .plain), ("columns", .plain), ("column", .single "columns")]
  | view => [("name", .plain), ("nameOriginal", .plain), ("fullName", .plain),
      ("definition", .plain), ("comment", .plain)]
  | procedure => [("name", .plain), ("nameOriginal", .plain), ("fullName", .plain),
      ("parameters", .many parameter), ("definition", .plain), ("comment", .plain)]
  | parameter => [("mode", .plain), ("name", .plain), ("type", .plain)]
  | trigger => [("name", .plain), ("nameOriginal", .plain), ("fullName", .plain),
      ("event", .plain), ("table", .plain), ("definition", .plain), ("comment", .plain)]

/-- The canonical name of a key and what its field holds. An unknown key stays as it is. -/
def place (e : Entity) (key : String) : String × Content :=
  (e.fields.find? fun f => sameName f.1 key).getD (key, .plain)

end Entity

/-- A field added to an object: under its canonical name, or, if it is one value of a list, as that
list unless the list is there. -/
def addField (fields : Fields) (name : String) (content : Content) (j : Json) : Fields :=
  match content, j with
  | .single _, .null => fields
  | .single list, .array items =>
    if fields.has list then fields else fields ++ [(list, .array items)]
  | .single list, j => if fields.has list then fields else fields ++ [(list, .array [j])]
  | _, j => fields.set name j

mutual

/-- A value with the keys of its entities in canonical spelling. -/
def canonicalValue (content : Content) : Json → Json
  | .object fields =>
    match content with
    | .one e => .object (canonicalFields e [] fields)
    | _ => .object fields
  | .array items =>
    match content with
    | .many e => .array (canonicalItems e items)
    | _ => .array items
  | j => j

/-- The fields of an entity added to those that are already canonical. -/
def canonicalFields (e : Entity) (done : Fields) : Fields → Fields
  | [] => done
  | f :: r => canonicalFields e (canonicalField e done f) r

/-- One field of an entity added to those that are already canonical. -/
def canonicalField (e : Entity) (done : Fields) : String × Json → Fields
  | (key, j) =>
    addField done (e.place key).1 (e.place key).2 (canonicalValue (e.place key).2 j)

/-- Entities of one kind, each in canonical spelling. -/
def canonicalItems (e : Entity) : List Json → List Json
  | [] => []
  | j :: r => canonicalValue (.one e) j :: canonicalItems e r

end

namespace Manifest

/-- A manifest from a document whose keys may have any casing. -/
def ofJson (now : Instant) (j : Json) : Except Error Manifest :=
  match j with
  | .object _ => (decode now (canonicalValue (.one .manifest) j)).mapError Error.ofMismatch
  | _ => .error (.invalidManifest "manifest document must be a JSON object")

/-- A manifest from a text. -/
def ofText (now : Instant) (s : String) : Except Error Manifest := do
  let j ← (Json.read s).mapError Error.ofSyntax
  ofJson now j

/-- The text of a manifest: one field a line, two spaces for each level. -/
def toText (m : Manifest) : String := m.toJson.pretty

end Manifest

end SchemaInstaller
