import SchemaInstaller.Files.Basic
import SchemaInstaller.Catalog.Connector

/-!
# What operations need from where they run

Files, sources, the time, the input of the process, and whether to stop. All effects of the program
go through here; everything else is computed.
-/

namespace SchemaInstaller

/-- Where operations run. -/
structure Host (m : Type → Type) where
  files : Files m
  connector : Connector m
  now : m Instant
  isCancelled : m Bool
  input : m (Except FileFault String)

namespace Action

/-- A result without effects as an operation. -/
def of {m : Type → Type} [Monad m] (r : Except Error α) : Action m α := ExceptT.mk (pure r)

end Action

end SchemaInstaller
