import SchemaInstaller.Manifest.Basic
import SchemaInstaller.Php.Name
import SchemaInstaller.Text.Quoted
import SchemaInstaller.Error

/-!
# Checking manifests

Errors keep a manifest from being compiled. Warnings are about what an installer survives but its
author would want to know.
-/

namespace SchemaInstaller

namespace Manifest

/-! ## The installer class -/

/-- Why there is no name for the installer class. -/
inductive ClassFault
  | missing
  | illegal (name : String)
  deriving Repr, DecidableEq

/-- The fault in words. -/
def ClassFault.message : ClassFault → String
  | missing => "manifest has no installer class name and no override was supplied"
  | illegal name => "installer class name " ++ quoteName name ++ " is not a valid PHP identifier"

/-- The fault as an error. -/
def ClassFault.toError (f : ClassFault) : Error := .invalidManifest f.message

/-- The name asked for, if it is not blank, and else the manifest's, without blanks around it. -/
def chosenClass (m : Manifest) (className? : Option String) : Text :=
  match className?.map fun s => Text.trim s.toList with
  | some (c :: r) => c :: r
  | _ => Text.trim m.installerClass.toList

/-- The name of the installer class. -/
def resolveClass (m : Manifest) (className? : Option String) : Except ClassFault String :=
  let name := chosenClass m className?
  if name.isEmpty then .error .missing
  else if Php.isName name then .ok (String.ofList name)
  else .error (.illegal (String.ofList name))

/-! ## Findings -/

/-- What keeps a manifest from being compiled, and table names that cannot be right. -/
inductive Problem
  | className (fault : ClassFault)
  | emptyPrefix
  | blankTableName (sourceName : String)
  | duplicateTable (name : String)
  deriving Repr, DecidableEq

/-- The text of an empty prefix, as a problem and as an error. -/
def emptyPrefixMessage : String := "manifest default prefix is empty"

/-- The problem in words. -/
def Problem.message : Problem → String
  | className fault => fault.toError.message
  | emptyPrefix => emptyPrefixMessage
  | blankTableName sourceName => "table " ++ quoteName sourceName ++ " has an empty name"
  | duplicateTable name => "table " ++ quoteName name ++ " appears more than once"

/-- What an installer survives. -/
inductive Warning
  | noColumns (table : String)
  | noSeedRows (table : String) (limit : Int)
  | unknownSeedColumn (table column : String)
  | unknownReference (key table target : String)
  | unknownTriggerTable (trigger table : String)
  | skippedTriggerTable (trigger table : String)
  deriving Repr, DecidableEq

/-- The warning in words. -/
def Warning.message : Warning → String
  | noColumns table => "table " ++ quoteName table ++ " has no columns"
  | noSeedRows table limit =>
    "table " ++ quoteName table ++ " has rowLimit " ++ toString limit ++ " but no seed rows"
  | unknownSeedColumn table column =>
    "seed data for table " ++ quoteName table ++ " references unknown column " ++ quoteName column
  | unknownReference key table target =>
    "foreign key " ++ quoteName key ++ " on table " ++ quoteName table ++ " references table "
      ++ quoteName target ++ " which is not in the manifest"
  | unknownTriggerTable trigger table =>
    "trigger " ++ quoteName trigger ++ " is attached to table " ++ quoteName table
      ++ " which is not in the manifest"
  | skippedTriggerTable trigger table =>
    "trigger " ++ quoteName trigger ++ " is attached to skipped table " ++ quoteName table

/-- The findings of a check. -/
structure Report where
  errors : List Problem
  warnings : List Warning
  deriving Repr, DecidableEq

/-- Whether a manifest can be compiled. -/
def Report.isValid (r : Report) : Bool := r.errors.isEmpty

/-- The errors in words. -/
def Report.errorMessages (r : Report) : List String := r.errors.map Problem.message

/-- The warnings in words. -/
def Report.warningMessages (r : Report) : List String := r.warnings.map Warning.message

/-- The findings as a document. -/
def Report.toJson (r : Report) : Json :=
  .object [("errors", .ofStrings r.errorMessages), ("warnings", .ofStrings r.warningMessages)]

/-! ## The checks -/

/-- Whether a table has a name that can be seen. -/
def isNamed (t : Table) : Bool := !Text.isBlankOnly t.name.toList

/-- Problems with the names of tables, given the names seen before. -/
def nameProblems : List String → List Table → List Problem
  | _, [] => []
  | seen, t :: r =>
    if !isNamed t then .blankTableName t.sourceName :: nameProblems seen r
    else if seen.any (sameName · t.name) then .duplicateTable t.name :: nameProblems seen r
    else nameProblems (t.name :: seen) r

/-- Warnings about the rows of a table. -/
def seedWarnings (t : Table) : List Warning :=
  t.seedData.flatMap fun row =>
    (row.columns.filter fun c => !t.columns.any (·.name == c)).map (.unknownSeedColumn t.name ·)

/-- Warnings about a table. -/
def tableWarnings (m : Manifest) (t : Table) : List Warning :=
  (if !t.skip && t.columns.isEmpty then [.noColumns t.name] else [])
    ++ (if t.rowLimit.toInt > 0 && t.seedData.isEmpty then
          [.noSeedRows t.name t.rowLimit.toInt] else [])
    ++ seedWarnings t
    ++ (t.foreignKeys.filter fun k => (m.table? k.references.table).isNone).map fun k =>
        .unknownReference k.name t.name k.references.table

/-- Warnings about a trigger. -/
def triggerWarnings (m : Manifest) (t : Trigger) : List Warning :=
  match m.table? t.table with
  | none => [.unknownTriggerTable t.name t.table]
  | some table => if table.skip then [.skippedTriggerTable t.name t.table] else []

/-- Problems with the class name. -/
def classProblems (m : Manifest) (className? : Option String) : List Problem :=
  match m.resolveClass className? with
  | .ok _ => []
  | .error fault => [.className fault]

/-- The findings about a manifest. A warning that comes twice in a row is reported once. -/
def validate (m : Manifest) (className? : Option String) : Report where
  errors := classProblems m className?
    ++ (if m.defaultPrefix.isEmpty then [.emptyPrefix] else [])
    ++ nameProblems [] m.tables
  warnings := ((m.tables.filter isNamed).flatMap (tableWarnings m)
    ++ m.triggers.flatMap (triggerWarnings m)).eraseReps

end Manifest

end SchemaInstaller
