import SchemaInstaller.Installer.ClassFile
import SchemaInstaller.Installer.Companions
import SchemaInstaller.Manifest.Validation

/-!
# Compiling a manifest

A manifest with a prefix and a legal class name becomes three files and a report.
-/

namespace SchemaInstaller

/-- The role of a generated file. -/
inductive OutputKind
  | installerClass
  | installerStub
  | mainPlugin
  deriving Repr, DecidableEq

/-- The role in documents. -/
def OutputKind.key : OutputKind → String
  | installerClass => "installerClass"
  | installerStub => "installerStub"
  | mainPlugin => "mainPlugin"

/-- A generated file. -/
structure OutputFile where
  kind : OutputKind
  fileName : String
  content : String
  deriving Repr, DecidableEq

/-- The file as a document. -/
def OutputFile.toJson (f : OutputFile) : Json :=
  .object [("kind", .string f.kind.key), ("fileName", .string f.fileName),
    ("content", .string f.content)]

/-- What a manifest is compiled to. -/
structure CompiledInstaller where
  installerClass : OutputFile
  installerStub : OutputFile
  mainPlugin : OutputFile
  report : InstallerReport
  deriving Repr, DecidableEq

namespace CompiledInstaller

/-- The files in the order in which they are written. -/
def files (c : CompiledInstaller) : List OutputFile :=
  [c.installerClass, c.installerStub, c.mainPlugin]

/-- Files and report as fields of a document. -/
def fields (c : CompiledInstaller) : Json.Fields :=
  [("installerClass", c.installerClass.toJson), ("installerStub", c.installerStub.toJson),
    ("mainPlugin", c.mainPlugin.toJson), ("report", c.report.toJson)]

/-- Files and report as a document. -/
def toJson (c : CompiledInstaller) : Json := .object c.fields

end CompiledInstaller

/-- The files and the report of a plan. -/
def Plan.compiled (p : Plan) : CompiledInstaller :=
  let slug := Php.slug p.className
  { installerClass :=
      ⟨.installerClass, classFileName slug, Php.render (ClassFile.lines p)⟩
    installerStub := ⟨.installerStub, stubFileName slug, Php.render (Companions.stubLines p)⟩
    mainPlugin := ⟨.mainPlugin, mainFileName slug, Php.render (Companions.mainLines p)⟩
    report := p.report }

namespace Manifest

/-- The plan for a manifest, with the class name asked for or else its own. -/
def plan (m : Manifest) (className? : Option String) (o : InstallerOptions) :
    Except Error Plan := do
  let className ← (m.resolveClass className?).mapError ClassFault.toError
  if m.defaultPrefix.isEmpty then throw (.invalidManifest emptyPrefixMessage)
  return ⟨m, className, o⟩

/-- A manifest compiled, with the class name asked for or else its own. -/
def compile (m : Manifest) (className? : Option String) (o : InstallerOptions) :
    Except Error CompiledInstaller :=
  (m.plan className? o).map Plan.compiled

end Manifest

end SchemaInstaller
