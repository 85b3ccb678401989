import SchemaInstaller.Error
import SchemaInstaller.Text.Substitution

/-!
# Files

What the program asks of a file system: to read a file, to write one, to make a directory, and
whether there is one. The effect of an answer is left open, as it is for catalogs. Paths are texts
whose parts are separated by slashes.
-/

namespace SchemaInstaller

/-- A file system. -/
structure Files (m : Type → Type) where
  read : String → m (Except FileFault ByteArray)
  write : String → ByteArray → m (Except FileFault Unit)
  makeDirectory : String → m (Except FileFault Unit)
  isDirectory : String → m Bool

/-- An operation with effects that may fail. -/
abbrev Action (m : Type → Type) := ExceptT Error m

/-! ## Paths -/

namespace Path

/-- Whether a path starts at the root. -/
def isAbsolute (path : String) : Bool := path.toList.head? == some '/'

/-- Whether a path ends in a slash. -/
def endsInSlash (path : String) : Bool := path.toList.getLast? == some '/'

/-- The parts of a path, without empty ones. -/
def parts (path : String) : List String :=
  ((Text.splitOn ['/'] path.toList).filter (!·.isEmpty)).map String.ofList

/-- The parts of a path without those that mean the place itself; only a first one is kept. -/
def plainParts (path : String) : List String :=
  match parts path, isAbsolute path with
  | "." :: r, false => "." :: r.filter (· != ".")
  | ps, _ => ps.filter (· != ".")

/-- The directory that holds what a path names. The path of the root and the empty one have none. -/
def parent? (path : String) : Option String :=
  match plainParts path with
  | [] => none
  | ps => some ((if isAbsolute path then "/" else "") ++ "/".intercalate ps.dropLast)

/-- The path of a name in a directory. -/
def join (directory name : String) : String :=
  if directory.isEmpty || endsInSlash directory then directory ++ name
  else directory ++ "/" ++ name

end Path

namespace Files

variable {m : Type → Type} [Monad m]

/-- An answer of the file system as an operation. -/
def act (answer : m (Except FileFault α)) : Action m α := do
  match ← answer with
  | .ok a => return a
  | .error fault => throw (.file fault)

/-- A directory made, or an existing one kept; the fault if it is neither. -/
def orDirectory (f : Files m) (path : String) (made : Except FileFault Unit) :
    m (Except FileFault Unit) := do
  match made with
  | .ok () => return .ok ()
  | .error fault => return if ← f.isDirectory path then .ok () else .error fault

/-- A directory made unless it is there, after those above it as far as they are missing. The fuel
bounds how many are made; the empty path is there already. -/
def makeDirectoriesFrom (f : Files m) : Nat → String → m (Except FileFault Unit)
  | 0, _ => return .error .notFound
  | fuel + 1, path => do
    if path.isEmpty then return .ok ()
    match ← f.makeDirectory path with
    | .error .notFound =>
      match Path.parent? path with
      | none => return .error (.other "failed to create whole tree")
      | some parent =>
        match ← f.makeDirectoriesFrom fuel parent with
        | .ok () => f.orDirectory path (← f.makeDirectory path)
        | .error fault => return .error fault
    | made => f.orDirectory path made

/-- A directory made unless it is there, after those above it as far as they are missing. What has
been made stays also when a later one cannot be. -/
def makeDirectories (f : Files m) (path : String) : m (Except FileFault Unit) :=
  f.makeDirectoriesFrom (path.length + 1) path

/-- The text of bytes, which must be well formed. -/
def textOf (bytes : ByteArray) : Except FileFault String :=
  match String.fromUTF8? bytes with
  | some s => .ok s
  | none => .error .notUtf8

/-- The text of a file. -/
def readText (f : Files m) (path : String) : Action m String := do
  act (pure (textOf (← act (f.read path))))

/-- A text written to a file. -/
def writeText (f : Files m) (path text : String) : Action m Unit := act (f.write path text.toUTF8)

/-- A text written to a file, the directories above it made first. -/
def save (f : Files m) (path text : String) : Action m Unit := do
  match Path.parent? path with
  | some p => if !p.isEmpty then act (f.makeDirectories p)
  | none => pure ()
  f.writeText path text

end Files

end SchemaInstaller
