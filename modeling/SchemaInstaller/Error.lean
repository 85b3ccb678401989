import SchemaInstaller.Json.Reader
import SchemaInstaller.Json.Shape

/-!
# Errors

Everything that can end an operation, by its cause. Each kind has a message and a process exit code.
-/

namespace SchemaInstaller

/-- What a file system refuses. -/
inductive FileFault
  | notFound
  | exists
  | notDirectory
  | isDirectory
  | nameTooLong
  | nullInName
  | notUtf8
  | other (message : String)
  deriving Repr, DecidableEq

/-- The fault in the system's words. -/
def FileFault.message : FileFault → String
  | notFound => "No such file or directory (os error 2)"
  | «exists» => "File exists (os error 17)"
  | notDirectory => "Not a directory (os error 20)"
  | isDirectory => "Is a directory (os error 21)"
  | nameTooLong => "File name too long (os error 36)"
  | nullInName => "file name contained an unexpected NUL byte"
  | notUtf8 => "stream did not contain valid UTF-8"
  | other message => message

/-- What is wrong with a JSON document: its text, or its shape. -/
inductive JsonFault
  | unreadable (error : Json.SyntaxError)
  | misshapen (mismatch : Json.Mismatch)
  deriving Repr, DecidableEq

/-- The fault in words. -/
def JsonFault.message : JsonFault → String
  | unreadable e => e.message
  | misshapen m => m.message

/-- What can end an operation. -/
inductive Error
  | config (message : String)
  | connectivity (message context : String)
  | introspection (object message : String)
  | timeout (operation : String) (seconds : Nat)
  | invalidManifest (message : String)
  | file (fault : FileFault)
  | yaml
  | json (fault : JsonFault)
  | cancelled
  deriving Repr, DecidableEq

namespace Error

/-- The error in words. -/
def message : Error → String
  | config m => "Configuration error: " ++ m
  | connectivity m context => "Connectivity error: " ++ m ++ "\n  Context: " ++ context
  | introspection object m => "Introspection failed for " ++ object ++ ": " ++ m
  | timeout operation seconds => "Timed out after " ++ toString seconds ++ "s while " ++ operation
  | invalidManifest m => "Manifest validation failed: " ++ m
  | file fault => "IO error: " ++ fault.message
  | yaml => "YAML error"
  | json fault => "JSON error: " ++ fault.message
  | cancelled => "Operation cancelled"

/-- The exit code of a process that ends with the error. -/
def exitCode : Error → Nat
  | config _ => 1
  | yaml => 1
  | connectivity _ _ => 2
  | introspection _ _ => 3
  | invalidManifest _ => 4
  | json _ => 4
  | timeout _ _ => 5
  | cancelled => 6
  | file _ => 7

/-- The message of what caused the error, if something else did. -/
def cause? : Error → Option String
  | file fault => some fault.message
  | json fault => some fault.message
  | _ => none

/-- The error with its cause, for a terminal. -/
def detailed (e : Error) : String :=
  "Error: " ++ e.message ++ "\n" ++ match e.cause? with
    | some cause => "\nCaused by:\n  1: " ++ cause
    | none => ""

/-- A shape error of a document. -/
def ofMismatch (m : Json.Mismatch) : Error := json (.misshapen m)

/-- A syntax error of a document. -/
def ofSyntax (e : Json.SyntaxError) : Error := json (.unreadable e)

end Error

end SchemaInstaller
