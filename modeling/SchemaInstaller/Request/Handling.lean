import SchemaInstaller.Request.Basic
import SchemaInstaller.Config.Validation
import SchemaInstaller.Introspection.Source
import SchemaInstaller.Installer.Output
import SchemaInstaller.Manifest.Storage

/-!
# Answering requests

Every text gets a response. What a request says comes before the configuration, which is checked
again before a source is introspected.
-/

namespace SchemaInstaller

variable {m : Type → Type} [Monad m]

/-- The configuration with what the details of an introspection say. -/
def IntrospectDetails.over (d : IntrospectDetails) (c : Config) : Config :=
  { c with
    source := d.connection.or c.source
    introspection :=
      { c.introspection with
        tablePrefix := d.tablePrefix.getD c.introspection.tablePrefix
        includeSeedData := d.includeSeedData.getD c.introspection.includeSeedData
        defaultRowLimit := d.rowLimit.getD c.introspection.defaultRowLimit } }

/-- The manifest of a source, as a document. -/
def IntrospectDetails.run (d : IntrospectDetails) (h : Host m) (c : Config) : Action m Json := do
  let c ← Action.of (d.over c).checked
  return (← c.introspect h).toJson

/-- The manifest in a document of a request. -/
def requestedManifest (h : Host m) (j : Json) : Action m Manifest := do
  let now ← h.now
  Action.of (Manifest.ofJson now j)

/-- A manifest compiled and written into a directory, if there is one; the paths of the files
written. -/
def Config.compile (c : Config) (h : Host m) (manifest : Manifest) (className : Option String)
    (directory : Option String) : Action m (CompiledInstaller × List String) := do
  let compiled ← Action.of (manifest.compile className c.installerOptions)
  match directory with
  | some directory => return (compiled, ← compiled.writeTo h.files directory)
  | none => return (compiled, [])

/-- The files of an installer and where they have been written, as a document. -/
def CompileDetails.run (d : CompileDetails) (h : Host m) (c : Config) : Action m Json := do
  let manifest ← requestedManifest h d.manifest
  let (compiled, written) ← c.compile h manifest d.className d.outputDir
  return .object (compiled.fields ++ [("written", .ofStrings written)])

/-- The response that reports on a manifest. -/
def ValidateDetails.response (d : ValidateDetails) (requestId : Option String)
    (manifest : Except Error Manifest) : Response :=
  match manifest with
  | .error e => .failed requestId e
  | .ok manifest =>
    let report := manifest.validate d.className
    let error := if report.isValid then none else some ("; ".intercalate report.errorMessages)
    ⟨error.isNone, some report.toJson, error, requestId⟩

/-- The response to a payload or an error. -/
def Response.of (requestId : Option String) : Except Error Json → Response
  | .ok payload => .ok requestId payload
  | .error e => .failed requestId e

/-- The response to a request. -/
def Request.answer (h : Host m) (c : Config) (requestId : Option String) : Request → m Response
  | introspect d => do return .of requestId (← (d.run h c).run)
  | compile d => do return .of requestId (← (d.run h c).run)
  | validateManifest d => do
    return d.response requestId (← (requestedManifest h d.manifest).run)

/-- The response to the text of a request. -/
def Request.handle (h : Host m) (c : Config) (text : String) : m Response :=
  match Request.ofText text with
  | (requestId, .ok request) => request.answer h c requestId
  | (requestId, .error e) => return .failed requestId e

end SchemaInstaller
