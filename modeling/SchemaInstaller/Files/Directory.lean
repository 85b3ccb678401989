import SchemaInstaller.Files.Basic

/-!
# A file tree

A file system as a value: a tree of directories and files without links, and a working directory
in it. Faults are those of a system that looks at the parts of a path one after another.
-/

namespace SchemaInstaller

/-- A file or a directory. -/
inductive FileTree
  | file (content : ByteArray)
  | directory (entries : List (String × FileTree))
  deriving Inhabited

namespace FileTree

/-- A directory without entries. -/
def empty : FileTree := .directory []

/-- What lies at the end of some names. -/
def get? : FileTree → List String → Option FileTree
  | t, [] => some t
  | .file _, _ :: _ => none
  | .directory entries, name :: r => (entries.lookup name).bind (get? · r)

/-- Entries with one set: in its place if it is there, at the end if not. -/
def setEntry (name : String) (t : FileTree) : List (String × FileTree) → List (String × FileTree)
  | [] => [(name, t)]
  | (n, u) :: r => if n == name then (n, t) :: r else (n, u) :: setEntry name t r

/-- The tree with something put at the end of some names; directories on the way must be there. -/
def put (new : FileTree) : List String → FileTree → FileTree
  | [], _ => new
  | _ :: _, .file content => .file content
  | name :: r, .directory entries =>
    match entries.lookup name with
    | some t => .directory (setEntry name (put new r t) entries)
    | none => if r.isEmpty then .directory (setEntry name new entries) else .directory entries

mutual

/-- The files of a tree with their paths, which start with `path`. -/
def files (path : List String) : FileTree → List (List String × ByteArray)
  | .file content => [(path, content)]
  | .directory entries => filesOf path entries

/-- The files of some entries. -/
def filesOf (path : List String) : List (String × FileTree) → List (List String × ByteArray)
  | [] => []
  | (name, t) :: r => files (path ++ [name]) t ++ filesOf path r

end

end FileTree

/-- A file tree, and the names that lead to its working directory. -/
structure Directory where
  root : FileTree
  working : List String
  deriving Inhabited

namespace Directory

/-- An empty working directory below another one. -/
def empty : Directory := ⟨.directory [("work", .directory [])], ["work"]⟩

/-- The longest name of a part of a path, in bytes. -/
def maxNameLength : Nat := 255

/-- What lies at the end of some names. -/
def get? (d : Directory) (names : List String) : Option FileTree := d.root.get? names

/-- The names that one part of a path leads to from some names on. -/
def step (d : Directory) (names : List String) (part : String) : Except FileFault (List String) :=
  match d.get? names with
  | some (.directory entries) =>
    if part == "." then .ok names
    else if part == ".." then .ok names.dropLast
    else if part.utf8ByteSize > maxNameLength then .error .nameTooLong
    else if (entries.lookup part).isSome then .ok (names ++ [part])
    else .error .notFound
  | some (.file _) => .error .notDirectory
  | none => .error .notFound

/-- The names that parts of a path lead to. -/
def walk (d : Directory) (names : List String) (parts : List String) :
    Except FileFault (List String) :=
  parts.foldlM d.step names

/-- Where the parts of a path start. -/
def origin (d : Directory) (path : String) : List String :=
  if Path.isAbsolute path then [] else d.working

/-- A path that a system can be asked for at all. -/
def check (path : String) : Except FileFault Unit :=
  if path.toList.contains '\x00' then .error .nullInName
  else if path.isEmpty then .error .notFound
  else if path.utf8ByteSize ≥ 4096 then .error .nameTooLong
  else .ok ()

/-- What lies at the end of a path. A slash at its end asks for a directory. -/
def resolve (d : Directory) (path : String) : Except FileFault (List String) := do
  check path
  d.walk (d.origin path) (Path.parts path ++ if Path.endsInSlash path then ["."] else [])

/-- Whether a path leads to a directory. -/
def isDirectory (d : Directory) (path : String) : Bool :=
  match d.resolve path with
  | .ok names =>
    match d.get? names with
    | some (.directory _) => true
    | _ => false
  | .error _ => false

/-- The content of a file. -/
def read (d : Directory) (path : String) : Except FileFault ByteArray := do
  match d.get? (← d.resolve path) with
  | some (.file content) => return content
  | some (.directory _) => throw .isDirectory
  | none => throw .notFound

/-- The directory that a path's last part belongs to, and that part. -/
def place (d : Directory) (path : String) : Except FileFault (List String × String) := do
  check path
  let parts := Path.parts path
  let names ← d.walk (d.origin path) parts.dropLast
  match d.get? names with
  | some (.directory _) => return (names, parts.getLast?.getD ".")
  | some (.file _) => throw .notDirectory
  | none => throw .notFound

/-- Whether a part of a path names a directory by its place. -/
def isDots (part : String) : Bool := part == "." || part == ".."

/-- The tree with a file written. -/
def write (d : Directory) (path : String) (content : ByteArray) : Except FileFault Directory := do
  let (names, name) ← d.place path
  if isDots name then throw .isDirectory
  if name.utf8ByteSize > maxNameLength then throw .nameTooLong
  match d.get? (names ++ [name]) with
  | some (.directory _) => throw .isDirectory
  | some (.file _) => if Path.endsInSlash path then throw .notDirectory
  | none => if Path.endsInSlash path then throw .isDirectory
  return { d with root := FileTree.put (.file content) (names ++ [name]) d.root }

/-- The tree with a directory made. -/
def makeDirectory (d : Directory) (path : String) : Except FileFault Directory := do
  let (names, name) ← d.place path
  if isDots name then throw .exists
  if name.utf8ByteSize > maxNameLength then throw .nameTooLong
  match d.get? (names ++ [name]) with
  | some _ => throw .exists
  | none => return { d with root := FileTree.put .empty (names ++ [name]) d.root }

/-- The paths of the files below the working directory, with their content. -/
def listing (d : Directory) : List (String × ByteArray) :=
  match d.get? d.working with
  | some t => (t.files []).map fun (path, content) => ("/".intercalate path, content)
  | none => []

/-- A change of the tree that may fail, as an operation on it. -/
def update (change : Directory → Except FileFault Directory) :
    StateM Directory (Except FileFault Unit) := do
  match change (← get) with
  | .ok d =>
    set d
    return .ok ()
  | .error fault => return .error fault

/-- The tree as a file system that keeps what is written. -/
def files : Files (StateM Directory) where
  read path := do return (← get).read path
  write path content := update (·.write path content)
  makeDirectory path := update (·.makeDirectory path)
  isDirectory path := do return (← get).isDirectory path

end Directory

end SchemaInstaller
