import SchemaInstaller.Json.Basic
import SchemaInstaller.Text.Quoted

/-!
# Typed values from documents

A decoder takes a document of the right shape to a value and says what is wrong with any other. A
record is read from an object, whose unknown keys do not matter, or from a list of its fields in
order. The fields that are there are checked in the order of the document; a field that is missing
is noticed after that.
-/

namespace SchemaInstaller.Json

/-! ## What does not fit -/

/-- A value as an error names it. -/
inductive Found
  | null
  | bool (b : Bool)
  | number (n : Number)
  | string (s : String)
  | array
  | object
  deriving Repr, DecidableEq

/-- What an error says about a document. -/
def found : Json → Found
  | .null => .null
  | .bool b => .bool b
  | .number n => .number n
  | .string s => .string s
  | .array _ => .array
  | .object _ => .object

/-- The value in words. -/
def Found.text : Found → String
  | .null => "null"
  | .bool b => "boolean `" ++ (if b then "true" else "false") ++ "`"
  | .number (.integer n) => "integer `" ++ toString n.val ++ "`"
  | .number (.real x) => "floating point `" ++ String.ofList x.toText ++ "`"
  | .string s => "string " ++ quoteName s
  | .array => "sequence"
  | .object => "map"

/-- Why a document has not the shape that is asked for. -/
inductive Mismatch
  | wrongType (found : Found) (expected : String)
  | wrongValue (found : Found) (expected : String)
  | wrongLength (length : Nat) (expected : String)
  | tooMany (length count : Nat)
  | missingField (name : String)
  | unknownVariant (name : String) (known : List String)
  | noVariant (type : String)
  | unreadable (reason : String)
  deriving Repr, DecidableEq

/-- The names that are possible, in words. -/
def oneOf : List String → String
  | [] => "there are no variants"
  | [a] => "expected `" ++ a ++ "`"
  | [a, b] => "expected `" ++ a ++ "` or `" ++ b ++ "`"
  | names => "expected one of " ++ ", ".intercalate (names.map fun n => "`" ++ n ++ "`")

/-- The mismatch in words. -/
def Mismatch.message : Mismatch → String
  | wrongType f expected => "invalid type: " ++ f.text ++ ", expected " ++ expected
  | wrongValue f expected => "invalid value: " ++ f.text ++ ", expected " ++ expected
  | wrongLength n expected => "invalid length " ++ toString n ++ ", expected " ++ expected
  | tooMany n _ => "invalid length " ++ toString n ++ ", expected fewer elements in array"
  | missingField name => "missing field `" ++ name ++ "`"
  | unknownVariant name known => "unknown variant `" ++ name ++ "`, " ++ oneOf known
  | noVariant type => "data did not match any variant of untagged enum " ++ type
  | unreadable reason => reason

/-! ## Simple values -/

/-- A way to read a value from a document. -/
abbrev Decoder (α : Type) := Json → Except Mismatch α

namespace Decode

/-- Any document. -/
def any : Decoder Json := .ok

/-- A text. -/
def string : Decoder String
  | .string s => .ok s
  | j => .error (.wrongType j.found "a string")

/-- The name of a file or directory. -/
def path : Decoder String
  | .string s => .ok s
  | j => .error (.wrongType j.found "path string")

/-- A truth value. -/
def bool : Decoder Bool
  | .bool b => .ok b
  | j => .error (.wrongType j.found "a boolean")

/-- An integer from `low` to `high`; `type` names the range in errors. -/
def integer (low high : Int) (type : String) : Decoder Int
  | .number (.integer n) =>
    if low ≤ n.val && n.val ≤ high then .ok n.val
    else .error (.wrongValue (.number (.integer n)) type)
  | j => .error (.wrongType j.found type)

/-- A signed 64-bit number. -/
def int64 : Decoder Int64 := fun j =>
  (integer (-9223372036854775808) 9223372036854775807 "i64" j).map Int64.ofInt

/-- A natural number below two to the 16. -/
def nat16 : Decoder Nat := fun j => (integer 0 65535 "u16" j).map Int.toNat

/-- A natural number below two to the 32. -/
def nat32 : Decoder Nat := fun j => (integer 0 4294967295 "u32" j).map Int.toNat

/-- A natural number below two to the 64. -/
def nat64 : Decoder Nat := fun j => (integer 0 18446744073709551615 "u64" j).map Int.toNat

/-- A natural number that can count things in memory. -/
def size : Decoder Nat := fun j => (integer 0 18446744073709551615 "usize" j).map Int.toNat

/-- A value, or null for none. -/
def option (d : Decoder α) : Decoder (Option α)
  | .null => .ok none
  | j => (d j).map some

/-- A list of values. -/
def list (d : Decoder α) : Decoder (List α)
  | .array items => items.mapM d
  | j => .error (.wrongType j.found "a sequence")

/-- One of several names: a string, or an object whose one key is the name and whose value is
null. -/
def variant (known : List (String × α)) : Decoder α
  | .string s => pick s
  | .object [(s, v)] => do
    let a ← pick s
    match v with
    | .null => return a
    | v => throw (.wrongType v.found "unit")
  | .object _ => .error (.wrongValue .object "map with a single key")
  | j => .error (.wrongType j.found "string or map")
where
  /-- The value of a name. -/
  pick (s : String) : Except Mismatch α :=
    match known.lookup s with
    | some a => .ok a
    | none => .error (.unknownVariant s (known.map (·.1)))

end Decode

/-! ## Records -/

/-- Where the fields of a record are taken from: by place or by name, with the error for a field
that is not there. -/
structure Source where
  field? : Nat → String → Option Json
  absent : Nat → String → Mismatch

/-- How a record is read: its fields in order, each with a check of its value, and the record built
from a source, where the first field has the given place. -/
structure Record (α : Type) where
  checks : List (String × (Json → Option Mismatch))
  build : Nat → Source → Except Mismatch α

namespace Record

/-- A check that keeps only what is wrong. -/
def complaint (d : Decoder α) (j : Json) : Option Mismatch :=
  match d j with
  | .ok _ => none
  | .error e => some e

/-- One field, with the value it has when it is missing, if it may be. -/
def field (name : String) (d : Decoder α) (default? : Option α) : Record α where
  checks := [(name, complaint d)]
  build i source :=
    match source.field? i name, default? with
    | some j, _ => d j
    | none, some a => .ok a
    | none, none => .error (source.absent i name)

/-- A field that must be there. -/
def required (name : String) (d : Decoder α) : Record α := field name d none

/-- A field with a value for when it is missing. -/
def optional (name : String) (d : Decoder α) (default : α) : Record α := field name d (some default)

instance : Functor Record where
  map f r := ⟨r.checks, fun i s => (r.build i s).map f⟩

instance : Seq Record where
  seq f r :=
    let r := r ()
    ⟨f.checks ++ r.checks, fun i s => do
      let g ← f.build i s
      let a ← r.build (i + f.checks.length) s
      return g a⟩

/-- The first fault of the fields that are there, in the order of the document. -/
def firstFault (r : Record α) (fields : Fields) : Option Mismatch :=
  fields.findSome? fun (k, v) => (r.checks.lookup k).bind (· v)

/-- The record from the fields of an object. -/
def ofFields (r : Record α) (fields : Fields) : Except Mismatch α :=
  match r.firstFault fields with
  | some e => .error e
  | none => r.build 0 ⟨fun _ name => fields.get? name, fun _ name => .missingField name⟩

/-- The record from a list of its fields. -/
def ofItems (r : Record α) (name : String) (items : List Json) : Except Mismatch α := do
  let count := r.checks.length
  let expected := "struct " ++ name ++ " with " ++ toString count
    ++ (if count == 1 then " element" else " elements")
  let a ← r.build 0 ⟨fun i _ => items[i]?, fun i _ => .wrongLength i expected⟩
  if items.length > count then throw (.tooMany items.length count)
  return a

/-- The record from a document. -/
def decoder (r : Record α) (name : String) : Decoder α
  | .object fields => r.ofFields fields
  | .array items => r.ofItems name items
  | j => .error (.wrongType j.found ("struct " ++ name))

end Record

end SchemaInstaller.Json
