import Std.Time.DateTime.Timestamp
import SchemaInstaller.Command.Run

/-!
# The program

The commands on the files, the input and the clock of the process. No server can be reached from
here: introspecting a source ends with the error of a network that is not there.
-/

namespace SchemaInstaller.Process

/-- The code of an error of the system. Some of its calls give it with its sign turned. -/
def errorNumber (code : UInt32) : Nat :=
  if code.toNat < 2147483648 then code.toNat else 4294967296 - code.toNat

/-- The code and the words of an error of the system. -/
def codeAndWords? : IO.Error → Option (UInt32 × String)
  | .alreadyExists _ code words => some (code, words)
  | .noFileOrDirectory _ code words => some (code, words)
  | .inappropriateType _ code words => some (code, words)
  | .invalidArgument _ code words => some (code, words)
  | .permissionDenied _ code words => some (code, words)
  | .resourceExhausted _ code words => some (code, words)
  | .resourceBusy code words => some (code, words)
  | .noSuchThing _ code words => some (code, words)
  | .otherError code words => some (code, words)
  | _ => none

/-- The fault that an error of the system stands for. -/
def faultOf (e : IO.Error) : FileFault :=
  match (codeAndWords? e).map fun (code, words) => (errorNumber code, words) with
  | some (2, _) => .notFound
  | some (17, _) => .exists
  | some (20, _) => .notDirectory
  | some (21, _) => .isDirectory
  | some (36, _) => .nameTooLong
  | some (number, words) => .other (words ++ " (os error " ++ toString number ++ ")")
  | none => .other (toString e)

/-- What the system answers. -/
def ask (act : IO α) : IO (Except FileFault α) := do
  try return .ok (← act) catch e => return .error (faultOf e)

/-- Whether a path leads to a directory: then there is a place in it that can be opened. -/
def isDirectory (path : String) : IO Bool := do
  try
    let _ ← IO.FS.Handle.mk (Path.join path ".") .read
    return true
  catch _ => return false

/-- The files of the system. -/
def files : Files IO where
  read path := ask (IO.FS.readBinFile path)
  write path content := ask (IO.FS.writeBinFile path content)
  makeDirectory path := ask (IO.FS.createDir path)
  isDirectory := isDirectory

/-- The time. -/
def now : IO Instant := do
  let nanos := (← Std.Time.Timestamp.now).toNanosecondsSinceUnixEpoch.val
  let seconds := nanos / 1000000000
  return ⟨seconds / 86400, (seconds % 86400).toNat, (nanos % 1000000000).toNat⟩

/-- All of the input. -/
def input : IO (Except FileFault String) := do
  match ← ask (do (← IO.getStdin).readBinToEnd) with
  | .ok bytes => return Files.textOf bytes
  | .error fault => return .error fault

/-- The process as a host. -/
def host : Host IO where
  files := files
  connector := .none "Network is unreachable (os error 101)"
  now := now
  isCancelled := return false
  input := input

end SchemaInstaller.Process

open SchemaInstaller in
/-- The program. -/
def main (args : List String) : IO UInt32 := do
  let outcome ← Command.run Process.host args
  (← IO.getStdout).putStr outcome.output
  (← IO.getStderr).putStr outcome.diagnostics
  return outcome.exitCode.toUInt32
