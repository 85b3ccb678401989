import SchemaInstaller.Json.Shape
import SchemaInstaller.Sql.Identifier

/-!
# Seed data

A seed row is a row of a table as the installer puts it back: column names with scalar values, in
the order of the columns.
-/

namespace SchemaInstaller

/-- A scalar value of a seed row. Decimals, dates and binary data are texts. -/
inductive SeedValue
  | null
  | bool (b : Bool)
  | number (n : Number)
  | string (s : String)
  deriving Repr, DecidableEq

/-- The cells of a row: column names and values in the order of the columns. -/
abbrev SeedCells := List (String × SeedValue)

/-- A row, in which no column stands twice. -/
structure SeedRow where
  cells : SeedCells
  distinct : (cells.map (·.1)).Nodup
  deriving Repr, DecidableEq

namespace SeedValue

/-- Whether the value is SQL's null. -/
def isNull (v : SeedValue) : Bool := v == null

/-- The value as a literal. -/
def toLiteral : SeedValue → Text
  | null => "NULL".toList
  | bool b => if b then "'1'".toList else "'0'".toList
  | number n => Sql.quoteLiteral n.toText
  | string s => Sql.quoteLiteral s.toList

/-- The value as a document. -/
def toJson : SeedValue → Json
  | null => .null
  | bool b => .bool b
  | number n => .number n
  | string s => .string s

/-- A scalar document as a value. -/
def decode : Json.Decoder SeedValue
  | .null => .ok null
  | .bool b => .ok (bool b)
  | .number n => .ok (number n)
  | .string s => .ok (string s)
  | _ => .error (.noVariant "SeedValue")

/-! ## Values from a catalog -/

/-- How the text of a column is read. -/
inductive ColumnClass
  | truth
  | integer
  | real
  | text
  deriving Repr, DecidableEq

/-- The class of a column type, told from its first word. -/
def ColumnClass.ofType (type : String) : ColumnClass :=
  let base := String.ofList (Text.upperAscii ((Text.words type.toList).headD []))
  if base == "BOOLEAN" || base == "BOOL" then truth
  else if ["TINYINT", "SMALLINT", "MEDIUMINT", "INT", "INTEGER", "BIGINT"].contains base then
    integer
  else if base == "FLOAT" || base == "DOUBLE" || base == "REAL" then real
  else text

/-- The value of a text that a catalog gives for a column of some type; no text is null. A text that
is no number of the column's class stays a text. -/
def ofCatalog (type : String) : Option String → SeedValue
  | none => null
  | some s =>
    let t := Text.trim s.toList
    match ColumnClass.ofType type with
    | .truth => bool (t != ['0'])
    | .integer =>
      match Number.readInteger? t with
      | some n => number (.integer n)
      | none => string s
    | .real =>
      match Number.readReal? t with
      | some x => number (.real x)
      | none => string s
    | .text => string s

end SeedValue

/-! ## Rows -/

namespace SeedCells

/-- The cells with one column set: in its place if it is there, at the end if not. -/
def set : SeedCells → String → SeedValue → SeedCells
  | [], column, value => [(column, value)]
  | (c, v) :: r, column, value =>
    if c = column then (c, value) :: r else (c, v) :: set r column value

/-- Setting a column that is there keeps the columns; any other column comes last. -/
theorem columns_set (cells : SeedCells) (column : String) (value : SeedValue) :
    (set cells column value).map (·.1) =
      if column ∈ cells.map (·.1) then cells.map (·.1) else cells.map (·.1) ++ [column] := by
  induction cells with
  | nil => simp [set]
  | cons cell r ih =>
    obtain ⟨c, v⟩ := cell
    by_cases h : c = column
    · simp [set, h]
    · have h' : ¬column = c := fun e => h e.symm
      by_cases hr : column ∈ r.map (·.1)
      · rw [if_pos hr] at ih
        simp only [set, if_neg h, List.map_cons, ih, List.mem_cons, h', hr, or_true, if_true]
      · rw [if_neg hr] at ih
        simp only [set, if_neg h, List.map_cons, ih, List.mem_cons, h', hr, or_false, if_false,
          List.cons_append]

/-- Setting a column keeps the columns distinct. -/
theorem nodup_set {cells : SeedCells} (h : (cells.map (·.1)).Nodup) (column : String)
    (value : SeedValue) : ((set cells column value).map (·.1)).Nodup := by
  rw [columns_set]
  split
  · exact h
  · next hn =>
    rw [List.nodup_append]
    refine ⟨h, by simp, fun a ha b hb e => hn ?_⟩
    rw [List.mem_singleton.1 hb] at e
    exact e ▸ ha

end SeedCells

namespace SeedRow

/-- A row without columns. -/
def empty : SeedRow := ⟨[], by simp⟩

instance : Inhabited SeedRow := ⟨empty⟩

/-- The row with one column set. -/
def set (row : SeedRow) (column : String) (value : SeedValue) : SeedRow :=
  ⟨SeedCells.set row.cells column value, SeedCells.nodup_set row.distinct column value⟩

/-- The row that results from setting columns one after another. -/
def ofCells (cells : SeedCells) : SeedRow :=
  cells.foldl (fun row cell => row.set cell.1 cell.2) empty

/-- The names of the columns. -/
def columns (row : SeedRow) : List String := row.cells.map (·.1)

/-- The values of the columns. -/
def values (row : SeedRow) : List SeedValue := row.cells.map (·.2)

/-- The row as a document. -/
def toJson (row : SeedRow) : Json := .object (row.cells.map fun (c, v) => (c, v.toJson))

/-- An object of scalars as a row. -/
def decode : Json.Decoder SeedRow
  | .object fields =>
    (fields.mapM fun f => (SeedValue.decode f.2).map fun v => (f.1, v)).map ofCells
  | j => .error (.wrongType j.found "a map")

end SeedRow

end SchemaInstaller
