import SchemaInstaller.Config.Validation
import SchemaInstaller.Yaml.Node

/-!
# Configurations in YAML

A section is a mapping; keys that are not known do not matter, and known ones must not come twice.
An empty scalar stands for a section, a list or an option that is left out. A text may be spelled as
any scalar. Numbers and truth values are plain scalars, or literal blocks whose tag says so.
-/

namespace SchemaInstaller

open Yaml

/-- A way to read a value from a node of a document. -/
abbrev NodeDecoder (α : Type) := Document → Node → Option α

namespace NodeDecoder

/-- Whether a scalar of some style and tag may be a number or a truth value. -/
def mayBeTyped (type : String) (style : Style) (tag : Option Text) : Bool :=
  style == .plain || (style == .literal && tag == some ("tag:yaml.org,2002:" ++ type).toList)

/-- The words for null. -/
def isNullWord (t : Text) : Bool := ["null", "Null", "NULL", "~"].contains (String.ofList t)

/-- A text. -/
def string : NodeDecoder String := fun d n =>
  match d.resolve n with
  | .scalar _ _ t => some (String.ofList t)
  | _ => none

/-- A truth value. -/
def bool : NodeDecoder Bool := fun d n =>
  match d.resolve n with
  | .scalar style tag t =>
    if !mayBeTyped "bool" style tag then none
    else if ["true", "True", "TRUE"].contains (String.ofList t) then some true
    else if ["false", "False", "FALSE"].contains (String.ofList t) then some false
    else none
  | _ => none

/-! ## Numbers -/

/-- The number that digits of a base stand for; there must be some. -/
def digits? (base : Nat) (t : Text) : Option Nat :=
  if t.isEmpty then none
  else t.foldlM (fun n c => do
    let d ← hexDigit? c
    if d < base then some (base * n + d) else none) 0

/-- A number with the mark of its base. -/
def marked? (t : Text) : Option Nat :=
  match t with
  | '0' :: 'x' :: r => digits? 16 r
  | '0' :: 'o' :: r => digits? 8 r
  | '0' :: 'b' :: r => digits? 2 r
  | _ => none

/-- A decimal number; a zero in front is not allowed. -/
def decimal? (t : Text) : Option Nat :=
  if t.length > 1 && t.head? == some '0' then none else digits? 10 t

/-- A number without a minus. -/
def natural? (t : Text) : Option Nat :=
  let t := if t.head? == some '+' then t.tail else t
  (marked? t).or (decimal? t)

/-- A number. -/
def whole? (t : Text) : Option Int :=
  if t.head? == some '-' then ((marked? t.tail).or (decimal? t.tail)).map fun n => -(n : Int)
  else (natural? t).map Int.ofNat

/-- The number of a scalar within bounds, read by one of the two rules. -/
def number (read : Text → Option Int) (low high : Int) : NodeDecoder Int := fun d n =>
  match d.resolve n with
  | .scalar style tag t =>
    if !mayBeTyped "int" style tag then none
    else (read t).bind fun k => if low ≤ k && k ≤ high then some k else none
  | _ => none

/-- A natural number up to a bound. -/
def nat (high : Nat) : NodeDecoder Nat := fun d n =>
  (number (fun t => (natural? t).map Int.ofNat) 0 high d n).map Int.toNat

/-- A signed 64-bit number. -/
def int64 : NodeDecoder Int64 := fun d n =>
  (number whole? (-9223372036854775808) 9223372036854775807 d n).map Int64.ofInt

/-! ## Options, lists and choices -/

/-- Whether a scalar says that there is nothing. -/
def isNothing (style : Style) (tag : Option Text) (t : Text) : Option Bool :=
  if style != .plain then some false
  else match tag with
    | some tag =>
      if tag != "tag:yaml.org,2002:null".toList then some false
      else if isNullWord t then some true else none
    | none => some (t.isEmpty || isNullWord t)

/-- A value that may be left out. -/
def option (a : NodeDecoder α) : NodeDecoder (Option α) := fun d n =>
  match d.resolve n with
  | .scalar style tag t =>
    match isNothing style tag t with
    | some true => some none
    | some false => (a d n).map some
    | none => none
  | _ => (a d n).map some

/-- A list. -/
def list (a : NodeDecoder α) : NodeDecoder (List α) := fun d n =>
  match d.resolve n with
  | .sequence _ items => items.mapM (a d)
  | .scalar .plain _ [] => some []
  | _ => none

/-- One of several names: as a text, or as a tag of the document's own in front of nothing. -/
def choice (known : List (String × α)) : NodeDecoder α := fun d n =>
  match d.resolve n with
  | .scalar style (some ('!' :: name)) t =>
    if style == .plain && (t.isEmpty || isNullWord t) then known.lookup (String.ofList name)
    else none
  | .scalar _ _ t => known.lookup (String.ofList t)
  | _ => none

/-! ## Sections -/

/-- The keys and values of a section. Every key must be a scalar. -/
def pairs : NodeDecoder (List (String × Node)) := fun d n =>
  match d.resolve n with
  | .mapping _ pairs => pairs.mapM fun p => (string d p.1).map fun k => (k, p.2)
  | .scalar .plain _ [] => some []
  | _ => none

/-- A section with some known keys, none of which may come twice. -/
def sectionOf (known : List String) : NodeDecoder (List (String × Node)) := fun d n => do
  let ps ← pairs d n
  if known.all fun k => (ps.filter (·.1 == k)).length ≤ 1 then some ps else none

/-- The value of a field, if it is there. -/
def field? (d : Document) (ps : List (String × Node)) (name : String) (a : NodeDecoder α) :
    Option (Option α) :=
  match ps.lookup name with
  | some n => (a d n).map some
  | none => some none

/-- The value of a field, or the one it has when it is left out. -/
def fieldOr (d : Document) (ps : List (String × Node)) (name : String) (a : NodeDecoder α)
    (default : α) : Option α :=
  (field? d ps name a).map (·.getD default)

/-- The value of a field that must be there. -/
def required (d : Document) (ps : List (String × Node)) (name : String) (a : NodeDecoder α) :
    Option α :=
  (field? d ps name a).join

end NodeDecoder

open NodeDecoder in
/-- A source from a node. -/
def SourceConfig.ofNode : NodeDecoder SourceConfig := fun d n => do
  let ps ← sectionOf ["type", "host", "port", "database", "user", "password", "ssl_mode"] d n
  return {
    kind := ← fieldOr d ps "type" string standardKind
    host := ← required d ps "host" string
    portNumber := ← fieldOr d ps "port" (nat 65535) standardPortNumber
    database := ← required d ps "database" string
    user := ← required d ps "user" string
    password := ← fieldOr d ps "password" string ""
    sslMode := ← fieldOr d ps "ssl_mode" string standardSslMode }

open NodeDecoder in
/-- What is captured, from a node. -/
def IntrospectionConfig.ofNode : NodeDecoder IntrospectionConfig := fun d n => do
  let s := standard
  let ps ← sectionOf ["prefix", "include_seed_data", "default_row_limit", "query_timeout_secs",
    "max_connections", "parallel_tables"] d n
  return {
    tablePrefix := ← fieldOr d ps "prefix" string s.tablePrefix
    includeSeedData := ← fieldOr d ps "include_seed_data" bool s.includeSeedData
    defaultRowLimit := ← fieldOr d ps "default_row_limit" int64 s.defaultRowLimit
    queryTimeoutSecs :=
      ← fieldOr d ps "query_timeout_secs" (nat 18446744073709551615) s.queryTimeoutSecs
    maxConnections := ← fieldOr d ps "max_connections" (nat 4294967295) s.maxConnections
    parallelTables :=
      ← fieldOr d ps "parallel_tables" (nat 18446744073709551615) s.parallelTables }

open NodeDecoder in
/-- How the installer is generated, from a node. -/
def InstallerConfig.ofNode : NodeDecoder InstallerConfig := fun d n => do
  let s := standard
  let ps ← sectionOf ["class_name", "output_dir", "core_tables", "trigger_drop"] d n
  return {
    className := ← fieldOr d ps "class_name" string s.className
    outputDir := ← fieldOr d ps "output_dir" string s.outputDir
    coreTables := ← fieldOr d ps "core_tables" (option (list string)) s.coreTables
    triggerDrop := ← fieldOr d ps "trigger_drop" (choice TriggerDrop.named) s.triggerDrop }

namespace Config

open NodeDecoder in
/-- A configuration from a node. -/
def ofNode : NodeDecoder Config := fun d n => do
  let ps ← sectionOf ["source", "introspection", "installer"] d n
  return {
    source := ← fieldOr d ps "source" (option SourceConfig.ofNode) none
    introspection := ← fieldOr d ps "introspection" IntrospectionConfig.ofNode .standard
    installer := ← fieldOr d ps "installer" InstallerConfig.ofNode .standard }

/-- A configuration from a text, not checked yet. A text without a document says nothing. -/
def parse (s : String) : Except Error Config :=
  match Yaml.read s.toList with
  | none => .error .yaml
  | some none => .ok standard
  | some (some d) =>
    match ofNode d d.root with
    | some c => .ok c
    | none => .error .yaml

/-- A configuration from a text. -/
def ofText (s : String) : Except Error Config := do
  (← parse s).checked

end Config

end SchemaInstaller
