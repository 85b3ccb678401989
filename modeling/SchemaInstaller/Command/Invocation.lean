import SchemaInstaller.Command.Arguments
import SchemaInstaller.Number.Basic

/-!
# Invocations

What the arguments of the program ask for: one of its commands, with a configuration. The switches
that all commands share come before the command.
-/

namespace SchemaInstaller.Command

/-- To introspect the source into a manifest file. -/
structure WriteManifest where
  output : String
  tablePrefix : Option String
  includeSeedData : Bool
  rowLimit : Option Int64
  deriving Repr, DecidableEq

/-- To compile a manifest file into the files of an installer. -/
structure WriteInstaller where
  manifest : String
  className : Option String
  outputDir : Option String
  deriving Repr, DecidableEq

/-- To check a manifest file. -/
structure CheckManifest where
  manifest : String
  className : Option String
  deriving Repr, DecidableEq

/-- What the program is asked to do. -/
inductive Task
  | manifest (task : WriteManifest)
  | installer (task : WriteInstaller)
  | validate (task : CheckManifest)
  | request
  deriving Repr, DecidableEq

/-- What all commands share. -/
structure Settings where
  config : Option String
  outputJson : Bool
  deriving Repr, DecidableEq

/-- An invocation of the program. -/
structure Invocation where
  settings : Settings
  task : Task
  deriving Repr, DecidableEq

/-- The commands, by what their names stand for. -/
inductive Name
  | manifest
  | installer
  | validate
  | request
  | help
  deriving Repr, DecidableEq

/-- The names of the commands. -/
def Name.all : List (String × Name) :=
  [("manifest", manifest), ("installer", installer), ("validate", validate), ("request", request),
    ("help", help)]

/-! ## Values -/

/-- A path, which is not empty. -/
def path? (s : String) : Option String := if s.isEmpty then none else some s

/-- A number of rows. -/
def rowLimit? (s : String) : Option Int64 := do
  let n ← Number.readInteger? s.toList
  if n.val ≤ 9223372036854775807 then return Int64.ofInt n.val else none

/-! ## Switches -/

/-- A switch that shows how the program or a command of it is used. -/
def helpSwitch (topic : Option String) : Switch σ := ⟨"help", some 'h', .stop (.help topic)⟩

/-- What is known in front of the command. How much is logged, and how, can be said, but there is no
log. -/
def Grammar.settings : Grammar Settings where
  switches := [
    ⟨"config", some 'c', .value fun v s => (path? v).map fun p => { s with config := some p }⟩,
    ⟨"output-json", none, .mark fun s => { s with outputJson := true }⟩,
    ⟨"log-format", none, .value fun _ s => some s⟩,
    ⟨"verbosity", none, .value fun _ s => some s⟩,
    helpSwitch none,
    ⟨"version", some 'V', .stop .version⟩]
  operands := []
  commands := Name.all.map (·.1)

/-- What is known after `manifest`. -/
def Grammar.writeManifest : Grammar WriteManifest where
  switches := [
    ⟨"output", some 'o', .value fun v t => (path? v).map fun p => { t with output := p }⟩,
    ⟨"prefix", none, .value fun v t => some { t with tablePrefix := some v }⟩,
    ⟨"include-seed-data", none, .mark fun t => { t with includeSeedData := true }⟩,
    ⟨"row-limit", none,
      .value fun v t => (rowLimit? v).map fun n => { t with rowLimit := some n }⟩,
    helpSwitch (some "manifest")]
  operands := []
  commands := []

/-- What is known after `installer`. -/
def Grammar.writeInstaller : Grammar WriteInstaller where
  switches := [
    ⟨"class", none, .value fun v t => some { t with className := some v }⟩,
    ⟨"output-dir", some 'o',
      .value fun v t => (path? v).map fun p => { t with outputDir := some p }⟩,
    helpSwitch (some "installer")]
  operands := [⟨"<MANIFEST>", fun v t => (path? v).map fun p => { t with manifest := p }⟩]
  commands := []

/-- What is known after `validate`. -/
def Grammar.checkManifest : Grammar CheckManifest where
  switches := [
    ⟨"class", none, .value fun v t => some { t with className := some v }⟩,
    helpSwitch (some "validate")]
  operands := [⟨"<MANIFEST>", fun v t => (path? v).map fun p => { t with manifest := p }⟩]
  commands := []

/-- What is known after `request`. -/
def Grammar.answerRequest : Grammar Unit := ⟨[helpSwitch (some "request")], [], []⟩

/-! ## Reading -/

/-- A path that an operand must have given; given paths are not empty. -/
def required (path : String) : Except Stop Unit :=
  if path.isEmpty then .error (.misuse (.missing "<MANIFEST>")) else .ok ()

/-- The task of a command. The words after `help` are names of commands; after the first there are
none to name. -/
def Name.task : Name → List String → Except Stop Task
  | manifest, args =>
    (Grammar.writeManifest.read ⟨"manifest.json", none, false, none⟩ args).map .manifest
  | installer, args => do
    let t ← Grammar.writeInstaller.read ⟨"", none, none⟩ args
    required t.manifest
    return .installer t
  | validate, args => do
    let t ← Grammar.checkManifest.read ⟨"", none⟩ args
    required t.manifest
    return .validate t
  | request, args => (Grammar.answerRequest.read () args).map fun _ => .request
  | help, [] => .error (.help none)
  | help, [word] =>
    if (Name.all.lookup word).isSome then .error (.help (some word))
    else .error (.misuse (.unknownCommand word))
  | help, _ :: word :: _ => .error (.misuse (.unknownCommand word))

/-- The invocation that arguments stand for. -/
def Invocation.ofArguments (args : List String) : Except Stop Invocation := do
  let (r, command) ← (Reading.start Grammar.settings ⟨none, false⟩).arguments .settings args
  match command.bind fun (word, rest) => (Name.all.lookup word).map fun name => (name, rest) with
  | some (name, rest) =>
    let task ← name.task rest
    return ⟨(← r.settle).values, task⟩
  | none =>
    let _ ← r.settle
    throw (.misuse .missingCommand)

end SchemaInstaller.Command
