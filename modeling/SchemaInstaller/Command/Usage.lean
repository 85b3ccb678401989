import SchemaInstaller.Command.Arguments

/-!
# How the program is used

The texts that explain the program and its commands.
-/

namespace SchemaInstaller.Command

/-- The name of the program. -/
def programName : String := "schemapress"

/-- The version of the program. -/
def version : String := "0.1.0"

/-- Lines as a text. -/
def unlines (lines : List String) : String := String.join (lines.map (· ++ "\n"))

namespace Usage

/-- The program in general. -/
def program : List String := [
  "Compile a MySQL schema into a prefix-agnostic WordPress plugin installer",
  "",
  "Usage: schemapress [OPTIONS] <COMMAND>",
  "",
  "Commands:",
  "  manifest   Introspect the source database into a manifest file",
  "  installer  Compile a manifest into installer files",
  "  validate   Check a manifest without compiling it",
  "  request    Answer one JSON request read from stdin",
  "  help       Print this message or the help of the given subcommand(s)",
  "",
  "Options:",
  "  -c, --config <CONFIG>          Path to YAML configuration file (defaults apply when omitted)",
  "      --output-json              Output JSON result to stdout",
  "      --log-format <LOG_FORMAT>  Log format: text or json [default: text]",
  "      --verbosity <VERBOSITY>    Log verbosity: debug, info, warn, error [default: info]",
  "  -h, --help                     Print help",
  "  -V, --version                  Print version"]

/-- The command that writes a manifest. -/
def manifest : List String := [
  "Introspect the source database into a manifest file",
  "",
  "Usage: schemapress manifest [OPTIONS]",
  "",
  "Options:",
  "  -o, --output <OUTPUT>        Manifest file to write [default: manifest.json]",
  "      --prefix <PREFIX>        Override the table prefix",
  "      --include-seed-data      Capture seed rows",
  "      --row-limit <ROW_LIMIT>  Seed rows per table (0 captures every row)",
  "  -h, --help                   Print help"]

/-- The command that writes an installer. -/
def installer : List String := [
  "Compile a manifest into installer files",
  "",
  "Usage: schemapress installer [OPTIONS] <MANIFEST>",
  "",
  "Arguments:",
  "  <MANIFEST>  Manifest file to compile",
  "",
  "Options:",
  "      --class <CLASS>            Override the installer class name",
  "  -o, --output-dir <OUTPUT_DIR>  Directory to write the generated files to",
  "  -h, --help                     Print help"]

/-- The command that checks a manifest. -/
def validate : List String := [
  "Check a manifest without compiling it",
  "",
  "Usage: schemapress validate [OPTIONS] <MANIFEST>",
  "",
  "Arguments:",
  "  <MANIFEST>  Manifest file to check",
  "",
  "Options:",
  "      --class <CLASS>  Installer class name to check instead of the manifest's",
  "  -h, --help           Print help"]

/-- The command that answers a request. -/
def request : List String := [
  "Answer one JSON request read from stdin",
  "",
  "Usage: schemapress request",
  "",
  "Options:",
  "  -h, --help  Print help"]

/-- The command that explains commands. -/
def help : List String := [
  "Print this message or the help of the given subcommand(s)",
  "",
  "Usage: schemapress help [COMMAND]...",
  "",
  "Arguments:",
  "  [COMMAND]...  Print help for the subcommand(s)"]

/-- The commands that can be explained. -/
def topics : List (String × List String) :=
  [("manifest", manifest), ("installer", installer), ("validate", validate), ("request", request),
    ("help", help)]

/-- The text about a command, or about the program in general. -/
def about (topic : Option String) : String :=
  unlines ((topic.bind fun name => topics.lookup name).getD program)

end Usage

end SchemaInstaller.Command
