import SchemaInstaller.Config.Basic
import SchemaInstaller.Json.Shape

/-!
# Configurations as documents

Every section has a decoder and a writer for JSON, with field names in snake case.
-/

namespace SchemaInstaller

open Json

namespace SourceConfig

/-- A source from a document. -/
def decode : Decoder SourceConfig :=
  Record.decoder (SourceConfig.mk <$> .optional "type" Decode.string standardKind
    <*> .required "host" Decode.string <*> .optional "port" Decode.nat16 standardPortNumber
    <*> .required "database" Decode.string <*> .required "user" Decode.string
    <*> .optional "password" Decode.string ""
    <*> .optional "ssl_mode" Decode.string standardSslMode)
    "SourceConfig"

/-- A source as a document, its password included. -/
def toJson (s : SourceConfig) : Json :=
  .object [("type", .string s.kind), ("host", .string s.host), ("port", .ofNat s.portNumber),
    ("database", .string s.database), ("user", .string s.user), ("password", .string s.password),
    ("ssl_mode", .string s.sslMode)]

end SourceConfig

namespace IntrospectionConfig

/-- What is captured, from a document. -/
def decode : Decoder IntrospectionConfig :=
  let d := standard
  Record.decoder (IntrospectionConfig.mk <$> .optional "prefix" Decode.string d.tablePrefix
    <*> .optional "include_seed_data" Decode.bool d.includeSeedData
    <*> .optional "default_row_limit" Decode.int64 d.defaultRowLimit
    <*> .optional "query_timeout_secs" Decode.nat64 d.queryTimeoutSecs
    <*> .optional "max_connections" Decode.nat32 d.maxConnections
    <*> .optional "parallel_tables" Decode.size d.parallelTables) "IntrospectionConfig"

/-- What is captured, as a document. -/
def toJson (i : IntrospectionConfig) : Json :=
  .object [("prefix", .string i.tablePrefix), ("include_seed_data", .bool i.includeSeedData),
    ("default_row_limit", .ofInt64 i.defaultRowLimit),
    ("query_timeout_secs", .ofNat i.queryTimeoutSecs),
    ("max_connections", .ofNat i.maxConnections), ("parallel_tables", .ofNat i.parallelTables)]

end IntrospectionConfig

namespace InstallerConfig

/-- How the installer is generated, from a document. -/
def decode : Decoder InstallerConfig :=
  let d := standard
  Record.decoder (InstallerConfig.mk <$> .optional "class_name" Decode.string d.className
    <*> .optional "output_dir" Decode.path d.outputDir
    <*> .optional "core_tables" (Decode.option (Decode.list Decode.string)) d.coreTables
    <*> .optional "trigger_drop" (Decode.variant TriggerDrop.named) d.triggerDrop)
    "InstallerConfig"

/-- How the installer is generated, as a document. -/
def toJson (i : InstallerConfig) : Json :=
  .object [("class_name", .string i.className), ("output_dir", .string i.outputDir),
    ("core_tables", (i.coreTables.map Json.ofStrings).getD .null),
    ("trigger_drop", .string i.triggerDrop.name)]

end InstallerConfig

namespace Config

/-- A configuration from a document. -/
def decode : Decoder Config :=
  Record.decoder (Config.mk <$> .optional "source" (Decode.option SourceConfig.decode) none
    <*> .optional "introspection" IntrospectionConfig.decode .standard
    <*> .optional "installer" InstallerConfig.decode .standard) "Config"

/-- A configuration as a document. -/
def toJson (c : Config) : Json :=
  .object [("source", (c.source.map SourceConfig.toJson).getD .null),
    ("introspection", c.introspection.toJson), ("installer", c.installer.toJson)]

end Config

end SchemaInstaller
