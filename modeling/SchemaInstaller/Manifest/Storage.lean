import SchemaInstaller.Host
import SchemaInstaller.Manifest.Reading

/-!
# Manifests in files
-/

namespace SchemaInstaller.Manifest

variable {m : Type → Type} [Monad m]

/-- The manifest in a file. -/
def load (h : Host m) (path : String) : Action m Manifest := do
  let text ← h.files.readText path
  let now ← h.now
  Action.of (ofText now text)

/-- A manifest written to a file, the directories above it made first. -/
def save (h : Host m) (manifest : Manifest) (path : String) : Action m Unit :=
  h.files.save path manifest.toText

end SchemaInstaller.Manifest
