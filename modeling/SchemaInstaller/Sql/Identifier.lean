import SchemaInstaller.Text.Substitution
import SchemaInstaller.Text.Quoted

/-!
# Identifiers and literals of SQL

An identifier is put between backticks and a literal between single quotes. Inside, the quote is
written twice; a literal writes the backslash twice as well.
-/

namespace SchemaInstaller.Sql

open Scan

/-- The content of a literal with its quotes and backslashes written twice. -/
def escapeLiteral (t : Text) : Text :=
  Text.replaceChar '\x27' ['\x27', '\x27'] (Text.replaceChar '\\' ['\\', '\\'] t)

/-- A string literal. -/
def quoteLiteral (t : Text) : Text := '\x27' :: escapeLiteral t ++ ['\x27']

/-- A name with its backticks written twice. -/
def escapeIdentifier (t : Text) : Text := Text.replaceChar '\x60' ['\x60', '\x60'] t

/-- A name between backticks. -/
def quoteIdentifier (t : Text) : Text := '\x60' :: escapeIdentifier t ++ ['\x60']

/-- What keeps a name from being used in a catalog statement. -/
inductive NameFault
  | empty
  | holdsNull (name : String)
  | tooLong (name : String)
  deriving Repr, DecidableEq

/-- The longest name that a server takes, in characters. -/
def maxNameLength : Nat := 64

/-- The fault in words. -/
def NameFault.message : NameFault → String
  | empty => "Identifier cannot be empty"
  | holdsNull name =>
    "SECURITY: Identifier contains null byte (possible injection attempt): " ++ quoteName name
  | tooLong name =>
    "Identifier exceeds maximum length of " ++ toString maxNameLength ++ " characters: "
      ++ quoteName name

/-- A name that a catalog statement may hold: not empty, without a null character, and not longer
than servers allow. -/
def checkName (name : String) : Except NameFault Unit :=
  if name.isEmpty then .error .empty
  else if name.toList.contains '\x00' then .error (.holdsNull name)
  else if name.length > maxNameLength then .error (.tooLong name)
  else .ok ()

/-- A name quoted for a catalog statement. -/
def quoteName? (name : String) : Except NameFault String :=
  (checkName name).map fun _ => String.ofList (quoteIdentifier name.toList)

/-! ## Qualified names -/

/-- The qualifier `database.` with blanks around its point. -/
def schemaQualifier (database : Text) : Scan := fun t => do
  let t ← literal (quoteIdentifier database) t
  let t ← literal ['.'] (Text.skipBlanks t)
  return Text.skipBlanks t

/-- Names without the qualifier of their database, so that a definition runs in any. -/
def stripSchema (database t : Text) : Text :=
  if database.isEmpty then t
  else t.substitute fun _ t => (schemaQualifier database t).map ([], ·)

end SchemaInstaller.Sql
