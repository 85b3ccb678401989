import SchemaInstaller.Config.Fields

/-!
# Requests

A request is a document with a command and its details, and an id that its response repeats. Details
that stand before the command are put aside until the command is known; of a list that is too long
for a record they then name the length that is right.
-/

namespace SchemaInstaller

open Json

/-- What to introspect, over the configuration. -/
structure IntrospectDetails where
  connection : Option SourceConfig
  tablePrefix : Option String
  includeSeedData : Option Bool
  rowLimit : Option Int64
  deriving Repr, DecidableEq

/-- What to compile, and where the files go if they go anywhere. -/
structure CompileDetails where
  manifest : Json
  className : Option String
  outputDir : Option String

/-- What to check. -/
structure ValidateDetails where
  manifest : Json
  className : Option String

/-- A request. -/
inductive Request
  | introspect (details : IntrospectDetails)
  | compile (details : CompileDetails)
  | validateManifest (details : ValidateDetails)

/-- The commands. -/
inductive RequestCommand
  | introspect
  | compile
  | validateManifest
  deriving Repr, DecidableEq

/-- The commands by their names. -/
def RequestCommand.named : List (String × RequestCommand) :=
  [("introspect", introspect), ("compile", compile), ("validateManifest", validateManifest)]

/-! ## Reading -/

/-- A field that may be missing or null. -/
def maybe (name : String) (d : Decoder α) : Record (Option α) :=
  .optional name (Decode.option d) none

/-- Details of an introspection from a document. -/
def IntrospectDetails.decode : Decoder IntrospectDetails :=
  Record.decoder (IntrospectDetails.mk <$> maybe "connection" SourceConfig.decode
    <*> maybe "prefix" Decode.string <*> maybe "includeSeedData" Decode.bool
    <*> maybe "rowLimit" Decode.int64) "IntrospectDetails"

/-- Details of a compilation from a document. -/
def CompileDetails.decode : Decoder CompileDetails :=
  Record.decoder (CompileDetails.mk <$> .required "manifest" Decode.any
    <*> maybe "className" Decode.string <*> maybe "outputDir" Decode.path) "CompileDetails"

/-- Details of a check from a document. -/
def ValidateDetails.decode : Decoder ValidateDetails :=
  Record.decoder (ValidateDetails.mk <$> .required "manifest" Decode.any
    <*> maybe "className" Decode.string) "ValidateDetails"

/-- A command's request from its details. -/
def RequestCommand.request : RequestCommand → Decoder Request
  | introspect, j => (IntrospectDetails.decode j).map .introspect
  | compile, j => (CompileDetails.decode j).map .compile
  | validateManifest, j => (ValidateDetails.decode j).map .validateManifest

/-- A mismatch in details that were put aside. -/
def putAside : Mismatch → Mismatch
  | .tooMany n count =>
    .wrongLength n (toString count ++ (if count == 1 then " element" else " elements")
      ++ " in sequence")
  | m => m

namespace Request

/-- What a request is called in errors. -/
def expected : String := "adjacently tagged enum Request"

/-- A command from a document. -/
def command : Decoder RequestCommand := Decode.variant RequestCommand.named

/-- A request from the fields of an object that matter. -/
def ofFields : Fields → Except Mismatch Request
  | ("command", c) :: r => do
    let command ← command c
    match r with
    | (_, details) :: _ => command.request details
    | [] => throw (.missingField "details")
  | (_, details) :: (_, c) :: _ => do
    let command ← command c
    (command.request details).mapError putAside
  | _ => .error (.missingField "command")

/-- A request from a list of command and details. -/
def ofItems : List Json → Except Mismatch Request
  | [] => .error (.wrongLength 0 expected)
  | c :: r => do
    let command ← command c
    match r with
    | [] => throw (.wrongLength 1 expected)
    | details :: more =>
      let request ← command.request details
      if !more.isEmpty then throw (.tooMany (more.length + 2) 2)
      return request

/-- A request from a document. -/
def decode : Decoder Request
  | .object fields => ofFields (fields.filter fun f => f.1 == "command" || f.1 == "details")
  | .array items => ofItems items
  | j => .error (.wrongType j.found expected)

/-- The id of a request document: a text, or a number as its text. -/
def id? (j : Json) : Option String :=
  match j.get? "requestId" with
  | some (.string s) => some s
  | some (.number n) => some (String.ofList n.toText)
  | _ => none

/-- A request and its id from a text. The id is known also when the request is not. -/
def ofText (text : String) : Option String × Except Error Request :=
  match Json.read text with
  | .ok j => (id? j, (decode j).mapError Error.ofMismatch)
  | .error e => (none, .error (Error.ofSyntax e))

/-! ## Writing -/

/-- A request as a document. -/
def toJson : Request → Json
  | introspect d => document "introspect"
      [("connection", (d.connection.map SourceConfig.toJson).getD .null),
        ("prefix", .ofString? d.tablePrefix),
        ("includeSeedData", (d.includeSeedData.map Json.bool).getD .null),
        ("rowLimit", (d.rowLimit.map Json.ofInt64).getD .null)]
  | compile d => document "compile"
      [("manifest", d.manifest), ("className", .ofString? d.className),
        ("outputDir", .ofString? d.outputDir)]
  | validateManifest d => document "validateManifest"
      [("manifest", d.manifest), ("className", .ofString? d.className)]
where
  /-- A command and its details. -/
  document (command : String) (details : Fields) : Json :=
    .object [("command", .string command), ("details", .object details)]

end Request

/-- The answer to a request. -/
structure Response where
  success : Bool
  payload : Option Json
  error : Option String
  requestId : Option String

namespace Response

/-- A successful answer. -/
def ok (requestId : Option String) (payload : Json) : Response :=
  ⟨true, some payload, none, requestId⟩

/-- An answer that there was an error. -/
def failed (requestId : Option String) (e : Error) : Response :=
  ⟨false, none, some e.message, requestId⟩

/-- The answer as a document; what is absent is left out. -/
def toJson (r : Response) : Json :=
  .object ([("success", .bool r.success)]
    ++ (r.payload.map fun p => ("payload", p)).toList
    ++ (r.error.map fun e => ("error", .string e)).toList
    ++ (r.requestId.map fun i => ("requestId", .string i)).toList)

end Response

end SchemaInstaller
