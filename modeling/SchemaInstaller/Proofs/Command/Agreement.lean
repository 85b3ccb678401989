import SchemaInstaller.Command.Run
import SchemaInstaller.Proofs.Json.Embedding
import SchemaInstaller.Proofs.Request.Responses

/-!
# The commands and the requests about a manifest

A manifest can be checked and compiled from a file, by a command, or from a request that carries it.
A request may carry the very text of the file, which is then read as a part of the request, or any
text that comes to the same document (`Request.Carries`). Both ways lead to the same manifest, and
from there to the same report and the same files (`Command.agrees_with_request`).
-/

namespace SchemaInstaller

open Json

/-! ## Requests that carry a manifest -/

/-- The name of a command. -/
def RequestCommand.name : RequestCommand → String
  | introspect => "introspect"
  | compile => "compile"
  | validateManifest => "validateManifest"

namespace Request

/-- The text of a request about a manifest that is given as a text. -/
def textAbout (command : RequestCommand) (className? : Option String) (manifest : Text) : Text :=
  lastField ("command", .string command.name) "details"
    (lastField ("className", .ofString? className?) "manifest" (manifest ++ braces 2))

/-- The commands about a manifest, and the request that each of them is. -/
inductive Asks (className? : Option String) (manifest : Json) : RequestCommand → Request → Prop
  | compile : Asks className? manifest .compile (.compile ⟨manifest, className?, none⟩)
  | validateManifest :
    Asks className? manifest .validateManifest (.validateManifest ⟨manifest, className?⟩)

/-- The texts of requests that carry a manifest, which is given as a text. What stands behind a
document would be read as a part of the request around it, so such a text cannot be put in as it is. -/
inductive Carries (command : RequestCommand) (className? : Option String) (manifest : String) :
    String → Prop
  | spliced (hwhole : ∀ e, Json.read manifest = .error e → e.fault ≠ .trailingCharacters) :
    Carries command className? manifest
      (String.ofList (textAbout command className? manifest.toList))
  | parsed {text : String} {j : Json} {requestId : Option String} {request : Request}
    (hmanifest : Json.read manifest = .ok j) (htext : ofText text = (requestId, .ok request))
    (hrequest : request.Asks className? j command) : Carries command className? manifest text

theorem readable_ofString? (depth : Nat) (s : Option String) : Readable depth (.ofString? s) := by
  cases s with
  | none => exact .null depth
  | some s => exact .string depth s

theorem decode_textAbout {command : RequestCommand} (hcommand : command ≠ .introspect)
    (className? : Option String) (j : Json) :
    ∃ request : Request, decode (.object [("command", .string command.name),
      ("details", .object [("className", .ofString? className?), ("manifest", j)])]) = .ok request ∧
      request.Asks className? j command := by
  cases command with
  | introspect => exact absurd rfl hcommand
  | compile => exact ⟨_, by cases className? <;> rfl, .compile⟩
  | validateManifest => exact ⟨_, by cases className? <;> rfl, .validateManifest⟩

section Carries

variable {command : RequestCommand} {manifest text : String} {className? : Option String}
  {depth : Nat}

theorem readText_textAbout (command : RequestCommand) (className? : Option String)
    (hnested : NestedWithin depth manifest.toList) (hdepth : depth ≤ maxDepth - 2) {j : Json}
    (hmanifest : Json.read manifest = .ok j) :
    readText (textAbout command className? manifest.toList) =
      .ok (.object [("command", .string command.name),
        ("details", .object [("className", .ofString? className?), ("manifest", j)])]) := by
  have hkeys : "command" ≠ "details" ∧ "className" ≠ "manifest" := by decide
  exact readText_nested (.string _ command.name) (readable_ofString? _ className?) hkeys.1 hkeys.2
    hnested hdepth (read_eq_ok.1 hmanifest)

theorem readText_textAbout_error (command : RequestCommand) (className? : Option String)
    (hnested : NestedWithin depth manifest.toList) (hdepth : depth ≤ maxDepth - 2)
    {e : SyntaxError} (hmanifest : Json.read manifest = .error e)
    (he : e.fault ≠ .trailingCharacters) :
    ∃ s, readText (textAbout command className? manifest.toList) = .error s := by
  have hkeys : "command" ≠ "details" ∧ "className" ≠ "manifest" := by decide
  obtain ⟨stop, hstop, hfault⟩ := read_eq_error hmanifest
  exact readText_nested_error (.string _ command.name) (readable_ofString? _ className?) hkeys.1
    hkeys.2 hnested hdepth hstop (hfault ▸ he)

/-- A request that carries a document is about that document. -/
theorem Carries.asks (h : Carries command className? manifest text)
    (hcommand : command ≠ .introspect)
    (hnested : NestedWithin depth manifest.toList) (hdepth : depth ≤ maxDepth - 2) {j : Json}
    (hmanifest : Json.read manifest = .ok j) :
    ∃ requestId request, ofText text = (requestId, .ok request) ∧
      request.Asks className? j command := by
  cases h with
  | @parsed _ j' requestId request hread htext hrequest =>
    obtain rfl := Except.ok.inj (hread.symm.trans hmanifest)
    exact ⟨requestId, request, htext, hrequest⟩
  | spliced =>
    have htext := readText_textAbout command className? hnested hdepth hmanifest
    obtain ⟨request, hdecode, hasks⟩ := decode_textAbout hcommand className? j
    refine ⟨none, request, ?_, hasks⟩
    rw [ofText, Json.read, String.toList_ofList, htext]
    exact congrArg (Prod.mk none ∘ Except.mapError Error.ofMismatch) hdecode

/-- A text that is no document is none inside a request either. -/
theorem Carries.unreadable (h : Carries command className? manifest text)
    (hnested : NestedWithin depth manifest.toList) (hdepth : depth ≤ maxDepth - 2)
    {e : SyntaxError} (hmanifest : Json.read manifest = .error e) :
    ∃ requestId e', ofText text = (requestId, .error e') := by
  cases h with
  | parsed hread => cases hread.symm.trans hmanifest
  | spliced hwhole =>
    obtain ⟨s, hs⟩ := readText_textAbout_error command className? hnested hdepth hmanifest
      (hwhole e hmanifest)
    exact ⟨none, _, by rw [ofText, Json.read, String.toList_ofList, hs]; rfl⟩

end Carries

end Request

/-! ## Actions over a state -/

section Action

variable {σ α β : Type} {x : Action (StateM σ) α} {f : α → Action (StateM σ) β} {s s' : σ}

theorem Action.run_bind_ok {a : α} (h : x.run.run s = (.ok a, s')) :
    (x >>= f).run.run s = (f a).run.run s' := by
  rw [ExceptT.run_bind, StateT.run_bind, h]
  rfl

theorem Action.run_bind_error {e : Error} (h : x.run.run s = (.error e, s')) :
    (x >>= f).run.run s = (.error e, s') := by
  rw [ExceptT.run_bind, StateT.run_bind, h]
  rfl

end Action

/-! ## Both ways to a manifest -/

namespace Manifest

/-- What a document that says when it was made is as a manifest does not depend on the clock. -/
theorem ofJson_of_dated {j : Json}
    (hj : ∀ fields, j = .object fields → Fields.names "generatedAt" fields = true)
    (now later : Instant) : ofJson later j = ofJson now j := by
  cases j with
  | object fields =>
    have hdated : isDated (.object fields) = true := hj fields rfl
    rw [ofJson_later now, hdated]
    cases ofJson now (.object fields) <;> rfl
  | _ => rfl

theorem ofText_of_read {text : String} {j : Json} (h : Json.read text = .ok j) (now : Instant) :
    ofText now text = ofJson now j := by
  rw [ofText, h]
  rfl

theorem ofText_of_unreadable {text : String} {e : SyntaxError} (h : Json.read text = .error e)
    (now : Instant) : ofText now text = .error (Error.ofSyntax e) := by
  rw [ofText, h]
  rfl

theorem run_load {σ : Type} {h : Host (StateM σ)} {path text : String} {now : Instant} {s s₁ s₂ : σ}
    (hfile : (h.files.readText path).run.run s = (.ok text, s₁))
    (hnow : h.now.run s₁ = (now, s₂)) :
    (load h path).run.run s = (ofText now text, s₂) := by
  have hclock : (liftM h.now : Action (StateM σ) Instant).run.run s₁ = (.ok now, s₂) := by
    show (((h.now.run s₁).1 |> Except.ok), (h.now.run s₁).2) = _
    rw [hnow]
  rw [load, Action.run_bind_ok hfile]
  exact Action.run_bind_ok hclock

end Manifest

/-- A request that carries a text is about the manifest in it, whenever that is read. If there is no
document in the text, there is none in the request. -/
theorem Request.Carries.manifest {command : RequestCommand} {className? : Option String}
    {depth : Nat} {manifest text : String} (h : Carries command className? manifest text)
    (hcommand : command ≠ .introspect) (hnested : NestedWithin depth manifest.toList)
    (hdepth : depth ≤ maxDepth - 2)
    (hdated : ∀ fields, Json.read manifest = .ok (.object fields) →
      Fields.names "generatedAt" fields = true) (now later : Instant) :
    (∃ e requestId e', Manifest.ofText now manifest = .error e ∧
      ofText text = (requestId, .error e')) ∨
    ∃ j requestId request, Manifest.ofText now manifest = Manifest.ofJson later j ∧
      ofText text = (requestId, .ok request) ∧ request.Asks className? j command := by
  cases hread : Json.read manifest with
  | error e =>
    obtain ⟨requestId, e', htext⟩ := h.unreadable hnested hdepth hread
    exact .inl ⟨_, requestId, e', Manifest.ofText_of_unreadable hread now, htext⟩
  | ok j =>
    obtain ⟨requestId, request, htext, hasks⟩ := h.asks hcommand hnested hdepth hread
    have hlater := Manifest.ofJson_of_dated (fun fields hj => hdated fields (hj ▸ hread)) now later
    exact .inr ⟨j, requestId, request, (Manifest.ofText_of_read hread now).trans hlater.symm, htext,
      hasks⟩

/-! ## Both ways from a manifest -/

namespace Command

/-- The check of a manifest by a command, and the response to a request to check it: both are about
one report, or there is no report. -/
inductive SameCheck (settings : Settings) : Except Error Outcome → Response → Prop
  | report (report : Manifest.Report) (requestId : Option String) :
    SameCheck settings (.ok (checkOutcome settings report))
      ⟨report.isValid, some report.toJson,
        if report.isValid then none else some ("; ".intercalate report.errorMessages), requestId⟩
  | failed (e e' : Error) (requestId : Option String) :
    SameCheck settings (.error e) (.failed requestId e')

/-- The compilation of a manifest by a command that writes into a directory from the state `s` on,
and the response to a request to compile it: both are about the same files and the same report, or
there are none. -/
inductive SameFiles {σ : Type} (settings : Settings) (f : Files (StateM σ)) (directory : String)
    (s : σ) : Except Error Outcome × σ → Response → Prop
  | compiled {compiled : CompiledInstaller} {written : List String} {s' : σ}
    (hwritten : (compiled.writeTo f directory).run.run s = (.ok written, s'))
    (requestId : Option String) :
    SameFiles settings f directory s
      (.ok (.done (unlines (if settings.outputJson then [compiled.report.toJson.pretty]
        else installerSummary compiled.report written))), s')
      (.ok requestId (.object (compiled.fields ++ [("written", .ofStrings [])])))
  | failed (e e' : Error) (requestId : Option String) :
    SameFiles settings f directory s (.error e, s) (.failed requestId e')

theorem exitCode_ofResult_error (e : Error) :
    (Outcome.ofResult (.error e)).exitCode ≠ 0 := by
  cases e <;> exact Nat.succ_ne_zero _

theorem SameCheck.success {settings : Settings} {check : Except Error Outcome} {r : Response}
    (h : SameCheck settings check r) :
    (Outcome.ofResult check).exitCode = 0 ↔ r.success = true := by
  cases h with
  | failed e => exact iff_of_false (exitCode_ofResult_error e) Bool.false_ne_true
  | report report =>
    show (Outcome.exitCode (checkOutcome settings report)) = 0 ↔ report.isValid = true
    unfold Outcome.exitCode checkOutcome
    cases report.isValid <;> simp [Error.exitCode]

theorem SameFiles.success {σ : Type} {settings : Settings} {f : Files (StateM σ)}
    {directory : String} {s : σ} {result : Except Error Outcome × σ} {r : Response}
    (h : SameFiles settings f directory s result r) :
    (Outcome.ofResult result.1).exitCode = 0 ↔ r.success = true := by
  cases h with
  | failed e => exact iff_of_false (exitCode_ofResult_error e) Bool.false_ne_true
  | compiled => exact iff_of_true rfl rfl

section Runs

variable {σ : Type} {h : Host (StateM σ)} {className? outputDir? : Option String} {path : String}
  {s s' : σ}

theorem run_check {manifest : Except Error Manifest} (settings : Settings)
    (hload : (Manifest.load h path).run.run s = (manifest, s')) :
    (CheckManifest.run ⟨path, className?⟩ h settings).run.run s =
      (manifest.map fun m => checkOutcome settings (m.validate className?), s') := by
  cases manifest with
  | error e => exact Action.run_bind_error hload
  | ok m => exact Action.run_bind_ok hload

theorem sameCheck (settings : Settings) (manifest : Except Error Manifest) (j : Json)
    (requestId : Option String) :
    SameCheck settings (manifest.map fun m => checkOutcome settings (m.validate className?))
      (ValidateDetails.response ⟨j, className?⟩ requestId manifest) := by
  cases manifest with
  | error e => exact .failed e e requestId
  | ok m =>
    rw [ValidateDetails.response_ok]
    exact .report _ requestId

theorem run_of {α : Type} (r : Except Error α) (s : σ) :
    (Action.of (m := StateM σ) r).run.run s = (r, s) := rfl

section Compile

variable {c : Config} {m : Manifest} {compiled : CompiledInstaller}

theorem run_compile_error {e : Error} (hcompile : m.compile className? c.installerOptions = .error e)
    (h : Host (StateM σ)) (directory : Option String) (s : σ) :
    (c.compile h m className? directory).run.run s = (.error e, s) :=
  Action.run_bind_error (hcompile ▸ run_of _ s)

theorem run_compile_none (hcompile : m.compile className? c.installerOptions = .ok compiled)
    (h : Host (StateM σ)) (s : σ) :
    (c.compile h m className? none).run.run s = (.ok (compiled, []), s) :=
  Action.run_bind_ok (hcompile ▸ run_of _ s)

theorem run_compile_some (hcompile : m.compile className? c.installerOptions = .ok compiled)
    {directory : String} {written : List String}
    (hwritten : (compiled.writeTo h.files directory).run.run s = (.ok written, s')) :
    (c.compile h m className? (some directory)).run.run s = (.ok (compiled, written), s') :=
  (Action.run_bind_ok (hcompile ▸ run_of _ s)).trans (Action.run_bind_ok hwritten)

end Compile

/-- A manifest that is loaded and compiled, and a request to compile the same manifest. -/
theorem sameFiles {σ' : Type} {h' : Host (StateM σ')} {manifest : Except Error Manifest} {j : Json}
    {t : σ'} (settings : Settings) (c : Config) (requestId : Option String)
    (hload : (Manifest.load h path).run.run s = (manifest, s'))
    (hrequested : ((requestedManifest h' j).run.run t).1 = manifest)
    (hwritable : ∀ m compiled, manifest = .ok m →
      m.compile className? c.installerOptions = .ok compiled →
      ∃ written s'', (compiled.writeTo h.files (outputDir?.getD c.installer.outputDir)).run.run s' =
        (.ok written, s'')) :
    SameFiles settings h.files (outputDir?.getD c.installer.outputDir) s'
      ((WriteInstaller.run ⟨path, className?, outputDir?⟩ h settings c).run.run s)
      (Response.of requestId ((CompileDetails.run ⟨j, className?, none⟩ h' c).run.run t).1) := by
  rcases hread : (requestedManifest h' j).run.run t with ⟨manifest', t'⟩
  obtain rfl : manifest' = manifest := by rw [← hrequested, hread]
  unfold WriteInstaller.run CompileDetails.run
  dsimp only
  cases manifest' with
  | error e =>
    rw [Action.run_bind_error hload, Action.run_bind_error hread]
    exact .failed e e requestId
  | ok m =>
    rw [Action.run_bind_ok hload, Action.run_bind_ok hread]
    cases hcompile : m.compile className? c.installerOptions with
    | error e =>
      rw [Action.run_bind_error (run_compile_error hcompile h _ s'),
        Action.run_bind_error (run_compile_error hcompile h' none t')]
      exact .failed e e requestId
    | ok compiled =>
      obtain ⟨written, s'', hwritten⟩ := hwritable m compiled rfl hcompile
      rw [Action.run_bind_ok (run_compile_some hcompile hwritten),
        Action.run_bind_ok (run_compile_none hcompile h' t')]
      exact .compiled hwritten requestId

end Runs

/-- A command about the manifest in a file and a request that carries the text of the file succeed
alike. A check gives one report in both, and an installer has the same files and the same report in
both, wherever the command can write it. -/
theorem agrees_with_request {σ σ' : Type} {h : Host (StateM σ)} {path text : String}
    {now : Instant} {s s₁ s₂ : σ}
    (hfile : (h.files.readText path).run.run s = (.ok text, s₁)) (hnow : h.now.run s₁ = (now, s₂))
    (hnested : NestedWithin 100 text.toList)
    (hdated : ∀ fields, Json.read text = .ok (.object fields) →
      Fields.names "generatedAt" fields = true)
    (settings : Settings) (c : Config) (className? outputDir? : Option String)
    (hwritable : ∀ m compiled, Manifest.ofText now text = .ok m →
      m.compile className? c.installerOptions = .ok compiled →
      ∃ written s₃, (compiled.writeTo h.files (outputDir?.getD c.installer.outputDir)).run.run s₂ =
        (.ok written, s₃))
    (h' : Host (StateM σ')) (t : σ') :
    (∀ request, Request.Carries .validateManifest className? text request →
      let check := ((Task.validate ⟨path, className?⟩).run h settings c).run.run s
      let response := ((Request.handle h' c request).run t).1
      ((Outcome.ofResult check.1).exitCode = 0 ↔ response.success = true) ∧
        SameCheck settings check.1 response) ∧
    ∀ request, Request.Carries .compile className? text request →
      let installer := ((Task.installer ⟨path, className?, outputDir?⟩).run h settings c).run.run s
      let response := ((Request.handle h' c request).run t).1
      ((Outcome.ofResult installer.1).exitCode = 0 ↔ response.success = true) ∧
        SameFiles settings h.files (outputDir?.getD c.installer.outputDir) s₂ installer
          response := by
  have hload := Manifest.run_load hfile hnow
  have hdepth : 100 ≤ maxDepth - 2 := by decide
  have hcheck : ∀ request, Request.Carries .validateManifest className? text request →
      SameCheck settings ((CheckManifest.run ⟨path, className?⟩ h settings).run.run s).1
        ((Request.handle h' c request).run t).1 := by
    intro request hrequest
    rw [run_check settings hload, Request.handle]
    obtain ⟨e, requestId, e', hmanifest, htext⟩ | ⟨j, requestId, _, hmanifest, htext, hasks⟩ :=
      hrequest.manifest (by decide) hnested hdepth hdated now (h'.now.run t).1
    · rw [hmanifest, htext]
      exact .failed e e' requestId
    · cases hasks
      rw [hmanifest, htext]
      exact sameCheck settings _ j requestId
  have hcompile : ∀ request, Request.Carries .compile className? text request →
      SameFiles settings h.files (outputDir?.getD c.installer.outputDir) s₂
        ((WriteInstaller.run ⟨path, className?, outputDir?⟩ h settings c).run.run s)
        ((Request.handle h' c request).run t).1 := by
    intro request hrequest
    rw [Request.handle]
    obtain ⟨e, requestId, e', hmanifest, htext⟩ | ⟨j, requestId, _, hmanifest, htext, hasks⟩ :=
      hrequest.manifest (by decide) hnested hdepth hdated now (h'.now.run t).1
    · rw [hmanifest] at hload
      have hrun : (WriteInstaller.run ⟨path, className?, outputDir?⟩ h settings c).run.run s =
          (.error e, s₂) := Action.run_bind_error hload
      rw [hrun, htext]
      exact .failed e e' requestId
    · cases hasks
      rw [htext]
      exact sameFiles settings c requestId hload hmanifest.symm hwritable
  exact ⟨fun request hrequest => ⟨(hcheck request hrequest).success, hcheck request hrequest⟩,
    fun request hrequest => ⟨(hcompile request hrequest).success, hcompile request hrequest⟩⟩

/-- A host with one text in every file, which takes whatever is written. -/
def oneTextHost (text : String) : Host (StateM (List (String × ByteArray))) where
  files := ⟨fun _ => return .ok text.toUTF8, fun path content => do
    modify (· ++ [(path, content)])
    return .ok (), fun _ => return .ok (), fun _ => return true⟩
  connector := .none "no source"
  now := pure .epoch
  isCancelled := pure false
  input := return .ok ""

/-- A manifest of a database without tables. -/
def emptyShop : Json :=
  .object [("generatedAt", .string "2026-01-01T00:00:00Z"), ("database", .string "shop"),
    ("installerClass", .string "ShopInstaller"), ("defaultPrefix", .string "wp_")]

theorem readable_emptyShop (depth : Nat) : Readable (depth + 1) emptyShop := by
  refine .object (by decide) ?_
  intro f hf
  simp only [List.mem_cons, List.not_mem_nil, or_false] at hf
  rcases hf with rfl | rfl | rfl | rfl <;> exact .string _ _

theorem textOf_toUTF8 (s : String) : Files.textOf s.toUTF8 = .ok s := by
  have h : String.fromUTF8? s.toUTF8 = some s := dif_pos s.isValidUTF8
  rw [Files.textOf, h]

/-- A manifest that the command line reads from a file and a request carries as it is. -/
theorem emptyShop_agrees :
    let text := emptyShop.pretty
    let request command := String.ofList (Request.textAbout command none text.toList)
    SameCheck ⟨none, true⟩
        (((Task.validate ⟨"manifest.json", none⟩).run (oneTextHost text) ⟨none, true⟩
          .standard).run.run []).1
        ((Request.handle (oneTextHost text) .standard (request .validateManifest)).run []).1 ∧
      SameFiles ⟨none, true⟩ (oneTextHost text).files "build" []
        (((Task.installer ⟨"manifest.json", none, some "build"⟩).run (oneTextHost text) ⟨none, true⟩
          .standard).run.run [])
        ((Request.handle (oneTextHost text) .standard (request .compile)).run []).1 := by
  intro text request
  have hread : Json.read text = .ok emptyShop := read_pretty (readable_emptyShop _)
  have hfile : ((oneTextHost text).files.readText "manifest.json").run.run [] = (.ok text, []) := by
    have hbytes : (Files.act ((oneTextHost text).files.read "manifest.json")).run.run [] =
        (.ok text.toUTF8, []) := rfl
    rw [Files.readText, Action.run_bind_ok hbytes, textOf_toUTF8]
    rfl
  have hagree := agrees_with_request hfile rfl (nestedWithin_pretty (readable_emptyShop 99))
    (fun fields hfields => by
      obtain rfl := Json.object.inj (Except.ok.inj (hread.symm.trans hfields))
      decide)
    ⟨none, true⟩ .standard none (some "build") (fun m compiled _ _ => ⟨_, _, rfl⟩)
    (oneTextHost text) []
  have hwhole : ∀ e, Json.read text = .error e → e.fault ≠ .trailingCharacters :=
    fun e he => absurd (hread.symm.trans he) nofun
  exact ⟨(hagree.1 _ (.spliced hwhole)).2, (hagree.2 _ (.spliced hwhole)).2⟩

end Command

end SchemaInstaller
