import SchemaInstaller.Host
import SchemaInstaller.Config.Reading

/-!
# Configurations in files
-/

namespace SchemaInstaller.Config

variable {m : Type → Type} [Monad m]

/-- The configuration in a file, checked. -/
def load (h : Host m) (path : String) : Action m Config := do
  let text ← h.files.readText path
  Action.of (ofText text)

end SchemaInstaller.Config
