import SchemaInstaller.Catalog.Memory
import SchemaInstaller.Catalog.Server
import SchemaInstaller.Files.Directory
import SchemaInstaller.Main
import SchemaInstaller.Proofs.Installer.Inert
import SchemaInstaller.Proofs.Installer.SeedRows
import SchemaInstaller.Proofs.Installer.Targets
import SchemaInstaller.Proofs.Installer.TriggerNames
import SchemaInstaller.Proofs.Manifest.KeyOrder
import SchemaInstaller.Proofs.Manifest.RoundTrip
import SchemaInstaller.Proofs.Sql.NormalForm
import SchemaInstaller.Proofs.Sql.ViewHeader
import SchemaInstaller.Proofs.Installer.Views
import SchemaInstaller.Proofs.Sql.SimpleNames
import SchemaInstaller.Proofs.Sql.Renaming
import SchemaInstaller.Proofs.Number.Numerals
import SchemaInstaller.Proofs.Sql.Values
import SchemaInstaller.Proofs.Installer.Skipping
import SchemaInstaller.Proofs.Introspection.Capture
import SchemaInstaller.Proofs.Introspection.Stopping
import SchemaInstaller.Proofs.Introspection.SeedRows
import SchemaInstaller.Proofs.Introspection.Validity
import SchemaInstaller.Proofs.Introspection.Loading
import SchemaInstaller.Proofs.Sql.StringLiterals
import SchemaInstaller.Proofs.Sql.Edits
import SchemaInstaller.Proofs.Installer.Reporting
import SchemaInstaller.Proofs.Command.Agreement
import SchemaInstaller.Proofs.Installer.ColumnDefaults
import SchemaInstaller.Proofs.Installer.TableBodies
import SchemaInstaller.Proofs.Manifest.CapturedValues
import SchemaInstaller.Proofs.Sql.Parameters
import SchemaInstaller.Proofs.Introspection.Grouping
import SchemaInstaller.Proofs.Sql.Quoting
import SchemaInstaller.Proofs.Installer.Procedures
import SchemaInstaller.Proofs.Installer.TriggerBodies
import SchemaInstaller.Proofs.Text.Quoted
import SchemaInstaller.Proofs.Manifest.Errors
import SchemaInstaller.Proofs.Php.Names
import SchemaInstaller.Proofs.Manifest.Warnings
import SchemaInstaller.Proofs.Installer.PluginNames
import SchemaInstaller.Proofs.Sql.Timestamp
import SchemaInstaller.Proofs.Introspection.DatabaseName
import SchemaInstaller.Proofs.Introspection.References
import SchemaInstaller.Proofs.Sql.PrefixTwice
import SchemaInstaller.Proofs.Sql.SchemaQualifiers
import SchemaInstaller.Proofs.Php.Slugs
import SchemaInstaller.Proofs.Sql.ParameterScans
