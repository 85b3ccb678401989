import SchemaInstaller.Number.Basic

/-!
# Documents

A document is a JSON value whose objects keep their keys in order. Setting a key that is already
there replaces its value and leaves it in its place.
-/

namespace SchemaInstaller

/-- A document. -/
inductive Json
  | null
  | bool (b : Bool)
  | number (n : Number)
  | string (s : String)
  | array (items : List Json)
  | object (fields : List (String × Json))
  deriving Inhabited

namespace Json

/-- The fields of an object, in order. -/
abbrev Fields := List (String × Json)

/-- The value of a key, if the key is there. -/
def Fields.get? (fields : Fields) (key : String) : Option Json :=
  (fields.find? fun f => f.1 == key).map (·.2)

/-- Whether the key is there. -/
def Fields.has (fields : Fields) (key : String) : Bool := fields.any fun f => f.1 == key

/-- The fields with one key set: in its place if it is there, at the end if not. -/
def Fields.set : Fields → String → Json → Fields
  | [], key, value => [(key, value)]
  | (k, v) :: r, key, value =>
    if k == key then (k, value) :: r else (k, v) :: Fields.set r key value

/-- The value of a key of an object. -/
def get? : Json → String → Option Json
  | object fields, key => Fields.get? fields key
  | _, _ => none

/-- A whole number. -/
def ofNat (n : Nat) : Json := number (.integer ((Integer.ofInt? n).getD default))

/-- A signed 64-bit number. -/
def ofInt64 (n : Int64) : Json := number (.integer (Integer.ofInt64 n))

/-- A list of texts. -/
def ofStrings (items : List String) : Json := array (items.map string)

/-- A text or null. -/
def ofString? (s : Option String) : Json := (s.map string).getD null

end Json

end SchemaInstaller
