import SchemaInstaller.Catalog.Basic
import SchemaInstaller.Config.Basic

/-!
# Connecting to a source

A connector logs in to a source. The catalog of a source answers once that has succeeded.
-/

namespace SchemaInstaller

/-- How sources are reached. -/
structure Connector (m : Type → Type) where
  connect : SourceConfig → IntrospectionConfig → m (Except Error Unit)
  catalog : SourceConfig → IntrospectionConfig → Catalog m

/-- What connecting is called in errors. -/
def connecting : String := "creating MySQL source pool"

/-- The error of a source that no connection can be made to. -/
def unreachable (reason : String) : Error :=
  .connectivity ("error communicating with database: " ++ reason) connecting

/-- A connector that reaches no source, for one reason. -/
def Connector.none {m : Type → Type} [Monad m] (reason : String) : Connector m where
  connect _ _ := return .error (unreachable reason)
  catalog _ _ := ⟨fun _ => return .error (unreachable reason)⟩

end SchemaInstaller
