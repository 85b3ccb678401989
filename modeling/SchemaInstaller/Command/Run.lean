import SchemaInstaller.Command.Invocation
import SchemaInstaller.Command.Usage
import SchemaInstaller.Config.Storage
import SchemaInstaller.Request.Handling

/-!
# Running the program

What an invocation writes to its output and how it ends. The configuration comes first; a command
that fails before it has anything to say leaves the output empty.
-/

namespace SchemaInstaller.Command

variable {m : Type → Type} [Monad m]

/-- How the program ends. -/
inductive Ending
  | done
  | failed (error : Error)
  | misused (reason : Misuse)
  deriving Repr, DecidableEq

/-- What the program writes to its output, and how it ends. -/
structure Outcome where
  output : String
  ending : Ending
  deriving Repr, DecidableEq

namespace Outcome

/-- The program ends well. -/
def done (output : String) : Outcome := ⟨output, .done⟩

/-- The exit code of the process. -/
def exitCode (o : Outcome) : Nat :=
  match o.ending with
  | .done => 0
  | .failed e => e.exitCode
  | .misused _ => 2

/-- The error that the program ends with. -/
def error? (o : Outcome) : Option Error :=
  match o.ending with
  | .failed e => some e
  | _ => none

/-- What the program writes besides its output. -/
def diagnostics (o : Outcome) : String :=
  match o.ending with
  | .done => ""
  | .failed e => e.detailed ++ "\n"
  | .misused reason =>
    unlines ["error: " ++ reason.message, "", "For more information, try '--help'."]

/-- The outcome of a reading of arguments that has ended early. -/
def ofStop : Stop → Outcome
  | .version => done (unlines [programName ++ " " ++ version])
  | .help topic => done (Usage.about topic)
  | .misuse reason => ⟨"", .misused reason⟩

/-- The outcome of an operation. -/
def ofResult : Except Error Outcome → Outcome
  | .ok o => o
  | .error e => ⟨"", .failed e⟩

end Outcome

/-- The configuration that settings name. -/
def Settings.load (s : Settings) (h : Host m) : Action m Config :=
  match s.config with
  | some path => Config.load h path
  | none => return .standard

/-! ## Writing a manifest -/

/-- The configuration with what the arguments say. -/
def WriteManifest.over (t : WriteManifest) (c : Config) : Config :=
  { c with
    introspection :=
      { c.introspection with
        tablePrefix := t.tablePrefix.getD c.introspection.tablePrefix
        includeSeedData := t.includeSeedData || c.introspection.includeSeedData
        defaultRowLimit := t.rowLimit.getD c.introspection.defaultRowLimit } }

/-- What is said about a manifest that has been written. -/
def WriteManifest.summary (t : WriteManifest) (manifest : Manifest) : List String :=
  ["Manifest written to " ++ t.output,
    "  Database: " ++ manifest.database,
    "  Tables: " ++ toString manifest.tables.length,
    "  Views: " ++ toString manifest.views.length,
    "  Procedures: " ++ toString manifest.storedProcedures.length,
    "  Triggers: " ++ toString manifest.triggers.length]

/-- The source introspected and the manifest written. -/
def WriteManifest.run (t : WriteManifest) (h : Host m) (s : Settings) (c : Config) :
    Action m Outcome := do
  let c ← Action.of (t.over c).checked
  let manifest ← c.introspect h
  manifest.save h t.output
  return .done (unlines (if s.outputJson then [manifest.toText] else t.summary manifest))

/-! ## Writing an installer -/

/-- What is said about an installer that has been written. -/
def installerSummary (report : InstallerReport) (written : List String) : List String :=
  ["Installer " ++ report.className ++ " generated:"]
    ++ written.map ("  " ++ ·)
    ++ ["  Tables: " ++ toString report.tables.length]
    ++ report.excludedTables.map (fun t =>
      "    skipped " ++ t.name ++ " (" ++ t.reason.label ++ ")")
    ++ ["  Views: " ++ toString report.views.length,
      "  Procedures: " ++ toString report.storedProcedures.length,
      "  Triggers: " ++ toString report.triggers.length,
      "  Seed rows: " ++ toString report.seedRows]

/-- A manifest compiled and the files written. -/
def WriteInstaller.run (t : WriteInstaller) (h : Host m) (s : Settings) (c : Config) :
    Action m Outcome := do
  let manifest ← Manifest.load h t.manifest
  let directory := t.outputDir.getD c.installer.outputDir
  let (compiled, written) ← c.compile h manifest t.className (some directory)
  let report := compiled.report
  return .done (unlines
    (if s.outputJson then [report.toJson.pretty] else installerSummary report written))

/-! ## Checking a manifest -/

/-- What is said about a manifest that has been checked. -/
def checkSummary (report : Manifest.Report) : List String :=
  report.warningMessages.map ("  warning: " ++ ·) ++ report.errorMessages.map ("  error: " ++ ·)
    ++ if report.isValid then ["Manifest is valid"] else []

/-- The outcome of a check. -/
def checkOutcome (s : Settings) (report : Manifest.Report) : Outcome where
  output := unlines (if s.outputJson then [report.toJson.pretty] else checkSummary report)
  ending :=
    if report.isValid then .done
    else .failed (.invalidManifest ("; ".intercalate report.errorMessages))

/-- A manifest checked. -/
def CheckManifest.run (t : CheckManifest) (h : Host m) (s : Settings) : Action m Outcome := do
  let manifest ← Manifest.load h t.manifest
  return checkOutcome s (manifest.validate t.className)

/-! ## All commands -/

/-- The request in the input answered. -/
def answerInput (h : Host m) (c : Config) : Action m Outcome := do
  let text ← Files.act h.input
  let response ← (Request.handle h c text : m Response)
  return .done (unlines [response.toJson.compact])

/-- A task under a configuration. -/
def Task.run (h : Host m) (s : Settings) (c : Config) : Task → Action m Outcome
  | manifest t => t.run h s c
  | installer t => t.run h s c
  | validate t => t.run h s
  | request => answerInput h c

/-- An invocation with its configuration. -/
def Invocation.run (i : Invocation) (h : Host m) : Action m Outcome := do
  let c ← i.settings.load h
  i.task.run h i.settings c

/-- The program with its arguments. -/
def run (h : Host m) (args : List String) : m Outcome :=
  match Invocation.ofArguments args with
  | .ok i => do return .ofResult (← (i.run h).run)
  | .error stop => return .ofStop stop

end SchemaInstaller.Command
