import SchemaInstaller.Installer.Options
import SchemaInstaller.Introspection.Introspector
import SchemaInstaller.Text.Quoted

/-!
# Configuration

Where the source database is, what to capture of it, and how to generate the installer. Each section
has values for everything that is left out, except for the address of the source.
-/

namespace SchemaInstaller

/-- The source database and how to log in to it. -/
structure SourceConfig where
  kind : String
  host : String
  portNumber : Nat
  database : String
  user : String
  password : String
  sslMode : String
  deriving Repr, DecidableEq

/-- What is captured, and how the source is asked. -/
structure IntrospectionConfig where
  tablePrefix : String
  includeSeedData : Bool
  defaultRowLimit : Int64
  queryTimeoutSecs : Nat
  maxConnections : Nat
  parallelTables : Nat
  deriving Repr, DecidableEq

/-- How the installer is generated and where its files go. -/
structure InstallerConfig where
  className : String
  outputDir : String
  coreTables : Option (List String)
  triggerDrop : TriggerDrop
  deriving Repr, DecidableEq

/-- A configuration. The source is only needed to introspect it. -/
structure Config where
  source : Option SourceConfig
  introspection : IntrospectionConfig
  installer : InstallerConfig
  deriving Repr, DecidableEq

/-- The kind of a source when nothing else is said. -/
def standardKind : String := "mysql"

/-- Where the server of a source listens when nothing else is said. -/
def standardPortNumber : Nat := 3306

/-- The mode of encryption when nothing else is said. -/
def standardSslMode : String := "preferred"

/-- What is captured when nothing else is said. -/
def IntrospectionConfig.standard : IntrospectionConfig :=
  ⟨defaultTablePrefix, false, standardRowLimit, 30, 4, standardParallelTables⟩

/-- How an installer is generated when nothing else is said. -/
def InstallerConfig.standard : InstallerConfig := ⟨defaultInstallerClass, "build", none, .installed⟩

namespace SourceConfig

/-- The address of the source with its password hidden. -/
def displayUrl (s : SourceConfig) : String :=
  "mysql://" ++ s.user ++ ":***@" ++ s.host ++ ":" ++ toString s.portNumber ++ "/" ++ s.database

/-- The section in messages, with its password hidden. -/
def description (s : SourceConfig) : String :=
  "SourceConfig \x7b type: " ++ quoteName s.kind ++ ", host: " ++ quoteName s.host ++ ", port: "
    ++ toString s.portNumber ++ ", database: " ++ quoteName s.database ++ ", user: " ++ quoteName s.user
    ++ ", password: \"[REDACTED]\", ssl_mode: " ++ quoteName s.sslMode ++ " \x7d"

end SourceConfig

namespace Config

/-- The configuration when nothing is said. -/
def standard : Config := ⟨none, .standard, .standard⟩

/-- The source, which must be there to introspect it. -/
def requiredSource (c : Config) : Except Error SourceConfig :=
  match c.source with
  | some s => .ok s
  | none => .error (.config "source section is required to introspect")

/-- What an introspector captures. -/
def introspectionOptions (c : Config) : IntrospectionOptions where
  tablePrefix := c.introspection.tablePrefix
  includeSeedData := c.introspection.includeSeedData
  defaultRowLimit := c.introspection.defaultRowLimit
  installerClass := c.installer.className
  parallelTables := c.introspection.parallelTables

/-- What an installer is compiled with. -/
def installerOptions (c : Config) : InstallerOptions :=
  let options := { InstallerOptions.standard with triggerDrop := c.installer.triggerDrop }
  match c.installer.coreTables with
  | some names => options.withCoreTables names
  | none => options

end Config

end SchemaInstaller
