import SchemaInstaller.Config.Basic
import SchemaInstaller.Php.Name

/-!
# Checking configurations

The first problem of a configuration, in the order of its sections and their fields.
-/

namespace SchemaInstaller

/-- Why a configuration cannot be used. -/
inductive ConfigProblem
  | noHost
  | noDatabase
  | noUser
  | kind (kind : String)
  | sslMode (mode : String)
  | noPrefix
  | noQueryTimeout
  | noConnections
  | noParallelTables
  | className (name : String)
  deriving Repr, DecidableEq

/-- The modes of encryption. -/
def sslModes : List String :=
  ["disable", "disabled", "preferred", "required", "verify_ca", "verify_identity"]

namespace ConfigProblem

/-- The problem in words. -/
def message : ConfigProblem → String
  | noHost => "source.host is required"
  | noDatabase => "source.database is required"
  | noUser => "source.user is required"
  | kind other => "source.type must be 'mysql', got '" ++ other ++ "'"
  | sslMode mode => "source.ssl_mode '" ++ mode
      ++ "' is not one of disable, preferred, required, verify_ca, verify_identity"
  | noPrefix => "introspection.prefix must not be empty"
  | noQueryTimeout => "introspection.query_timeout_secs must be at least 1"
  | noConnections => "introspection.max_connections must be at least 1"
  | noParallelTables => "introspection.parallel_tables must be at least 1"
  | className name => "installer.class_name '" ++ name ++ "' is not a valid PHP class name"

end ConfigProblem

/-- The first problem of a source. -/
def SourceConfig.problem? (s : SourceConfig) : Option ConfigProblem :=
  let mode := lowerCase s.sslMode
  if s.host.isEmpty then some .noHost
  else if s.database.isEmpty then some .noDatabase
  else if s.user.isEmpty then some .noUser
  else if s.kind != standardKind then some (.kind s.kind)
  else if !sslModes.contains mode then some (.sslMode mode)
  else none

/-- The first problem of what is captured. -/
def IntrospectionConfig.problem? (i : IntrospectionConfig) : Option ConfigProblem :=
  if i.tablePrefix.isEmpty then some .noPrefix
  else if i.queryTimeoutSecs == 0 then some .noQueryTimeout
  else if i.maxConnections == 0 then some .noConnections
  else if i.parallelTables == 0 then some .noParallelTables
  else none

/-- The first problem of how the installer is generated. -/
def InstallerConfig.problem? (i : InstallerConfig) : Option ConfigProblem :=
  if Php.isClassName i.className then none else some (.className i.className)

namespace Config

/-- The first problem of a configuration. -/
def problem? (c : Config) : Option ConfigProblem :=
  ((c.source.bind SourceConfig.problem?).or c.introspection.problem?).or c.installer.problem?

/-- The configuration if it can be used. -/
def checked (c : Config) : Except Error Config :=
  match c.problem? with
  | none => .ok c
  | some p => .error (.config p.message)

end Config

end SchemaInstaller
