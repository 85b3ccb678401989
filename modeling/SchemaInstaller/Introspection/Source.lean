import SchemaInstaller.Host
import SchemaInstaller.Introspection.Introspector

/-!
# Introspecting a configured source
-/

namespace SchemaInstaller.Config

variable {m : Type → Type} [Monad m]

/-- The introspector of a catalog under a configuration. -/
def introspector (c : Config) (h : Host m) (catalog : Catalog m) : Introspector m :=
  ⟨catalog, c.introspectionOptions, h.isCancelled, h.now⟩

/-- The manifest of the source, after a connection has been made to it. -/
def introspect (c : Config) (h : Host m) : Action m Manifest := do
  let source ← Action.of c.requiredSource
  ExceptT.mk (h.connector.connect source c.introspection)
  ExceptT.mk (c.introspector h (h.connector.catalog source c.introspection)).manifest

end SchemaInstaller.Config
