import SchemaInstaller.Files.Basic
import SchemaInstaller.Installer.Compile

/-!
# Installers in files

The files of an installer are written one after another into one directory, which is made first.
-/

namespace SchemaInstaller.CompiledInstaller

variable {m : Type → Type} [Monad m]

/-- A file written into a directory; its path. -/
def writeFile (f : Files m) (directory : String) (file : OutputFile) : Action m String := do
  let path := Path.join directory file.fileName
  f.writeText path file.content
  return path

/-- The files written into a directory; their paths. -/
def writeTo (f : Files m) (directory : String) (c : CompiledInstaller) :
    Action m (List String) := do
  Files.act (f.makeDirectories directory)
  c.files.mapM (writeFile f directory)

end SchemaInstaller.CompiledInstaller
