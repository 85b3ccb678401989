import SchemaInstaller.Proofs.Manifest.Clock
import SchemaInstaller.Request.Handling

/-!
# What every response has

A response is one of three things: a payload, an error, or a report on a manifest that has errors,
which is both. Which of them it is and what its id is can be said from the text of the request
(`Request.handle_wellFormed`), however the request is found wanting and whatever its command does.
-/

namespace SchemaInstaller

/-- A response with an id that succeeds unless it has an error. On failure it has a payload exactly
if it reports. -/
structure Response.WellFormed (requestId : Option String) (reports : Prop) (r : Response) : Prop where
  success_iff : r.success = true ↔ r.error = none
  payload_iff : r.payload ≠ none ↔ r.success = true ∨ reports
  failure : reports → r.success = false
  requestId : r.requestId = requestId

namespace Response

variable {requestId : Option String} {reports : Prop}

theorem wellFormed_failed (e : Error) (h : ¬reports) :
    WellFormed requestId reports (failed requestId e) :=
  ⟨by simp [failed], by simp [failed, h], fun hr => absurd hr h, rfl⟩

theorem wellFormed_of (result : Except Error Json) (h : ¬reports) :
    WellFormed requestId reports (of requestId result) := by
  cases result with
  | error e => exact wellFormed_failed e h
  | ok payload => exact ⟨by simp [of, ok], by simp [of, ok], fun hr => absurd hr h, rfl⟩

end Response

theorem ValidateDetails.response_ok (d : ValidateDetails) (requestId : Option String)
    (m : Manifest) :
    d.response requestId (.ok m) =
      ⟨(m.validate d.className).isValid, some (m.validate d.className).toJson,
        if (m.validate d.className).isValid then none
        else some ("; ".intercalate (m.validate d.className).errorMessages), requestId⟩ := by
  unfold response
  dsimp only
  cases (m.validate d.className).isValid <;> rfl

/-- The response about a manifest reports exactly if the manifest could be read and has errors. -/
theorem ValidateDetails.response_wellFormed (d : ValidateDetails) (requestId : Option String)
    (manifest : Except Error Manifest) :
    (d.response requestId manifest).WellFormed requestId
      (∃ m, manifest = .ok m ∧ (m.validate d.className).errors ≠ []) := by
  cases manifest with
  | error e => exact Response.wellFormed_failed e nofun
  | ok m =>
    have hreports : (∃ m', Except.ok m = Except.ok (ε := Error) m' ∧
        (m'.validate d.className).errors ≠ []) ↔ (m.validate d.className).isValid = false := by
      rw [← Bool.not_eq_true, Manifest.Report.isValid, List.isEmpty_iff]
      exact ⟨fun ⟨_, hm, hne⟩ => Except.ok.inj hm ▸ hne, fun hne => ⟨m, rfl, hne⟩⟩
    rw [hreports, response_ok]
    cases (m.validate d.className).isValid with
    | true => exact ⟨by simp, by simp, nofun, rfl⟩
    | false => exact ⟨by simp, by simp, fun _ => rfl, rfl⟩

namespace Request

/-- A request to check a manifest that can be read and has errors. -/
def ReportsErrors : Request → Prop
  | .validateManifest d => ∃ now m, Manifest.ofJson now d.manifest = .ok m ∧
      (m.validate d.className).errors ≠ []
  | _ => False

/-- The id of a text: that of the document in it, which is a text or the text of a number. -/
def Identifies (text id : String) : Prop :=
  ∃ j, Json.read text = .ok j ∧ (j.get? "requestId" = some (.string id) ∨
    ∃ n, j.get? "requestId" = some (.number n) ∧ String.ofList n.toText = id)

variable {σ : Type} (h : Host (StateM σ)) (c : Config)

theorem answer_wellFormed (requestId : Option String) (request : Request) (s : σ) :
    ((request.answer h c requestId).run s).1.WellFormed requestId request.ReportsErrors := by
  cases request with
  | introspect d => exact Response.wellFormed_of _ id
  | compile d => exact Response.wellFormed_of _ id
  | validateManifest d =>
    have hreports : (∃ m, Manifest.ofJson (h.now.run s).1 d.manifest = .ok m ∧
        (m.validate d.className).errors ≠ []) ↔ (validateManifest d).ReportsErrors := by
      constructor
      · rintro ⟨m, hm⟩
        exact ⟨(h.now.run s).1, m, hm⟩
      · -- the manifest of another time has the same errors
        rintro ⟨now, m, hm, hne⟩
        refine ⟨m.readAgain (Manifest.isDated d.manifest) (h.now.run s).1, ?_, ?_⟩
        · rw [Manifest.ofJson_later now, hm]
          rfl
        · rw [Manifest.validate_readAgain]
          exact hne
    rw [← hreports]
    exact d.response_wellFormed requestId (Manifest.ofJson (h.now.run s).1 d.manifest)

theorem ofText_id (text id : String) : (ofText text).1 = some id ↔ Identifies text id := by
  unfold ofText Identifies
  cases Json.read text with
  | error e => exact ⟨nofun, nofun⟩
  | ok j =>
    have hfield : id? j = some id ↔ j.get? "requestId" = some (.string id) ∨
        ∃ n, j.get? "requestId" = some (.number n) ∧ String.ofList n.toText = id := by
      unfold id?
      cases j.get? "requestId" with
      | none => simp
      | some v => cases v <;> simp
    rw [hfield]
    exact ⟨fun hid => ⟨j, rfl, hid⟩, fun ⟨_, hj, hid⟩ => Except.ok.inj hj ▸ hid⟩

/-- The response to a text succeeds unless it has an error; it has a payload if it succeeds, and
else exactly if the text asks to check a manifest that has errors; and its id is that of the
document in the text. -/
theorem handle_wellFormed (text : String) (s : σ) :
    let r := ((handle h c text).run s).1
    let reports := ∃ request, (ofText text).2 = .ok request ∧ request.ReportsErrors
    (r.success = true ↔ r.error = none) ∧
      (r.success = true → r.payload ≠ none) ∧
      (r.success = false → (r.payload ≠ none ↔ reports)) ∧
      (reports → r.success = false) ∧
      ∀ id, r.requestId = some id ↔ Identifies text id := by
  have hwell : ((handle h c text).run s).1.WellFormed (ofText text).1
      (∃ request, (ofText text).2 = .ok request ∧ request.ReportsErrors) := by
    unfold handle
    rcases hread : ofText text with ⟨requestId, _ | request⟩
    · exact Response.wellFormed_failed _ nofun
    · have hreports : (∃ request', Except.ok request = Except.ok (ε := Error) request' ∧
          request'.ReportsErrors) ↔ request.ReportsErrors :=
        ⟨fun ⟨_, hr, hreports⟩ => Except.ok.inj hr ▸ hreports, fun hr => ⟨request, rfl, hr⟩⟩
      rw [hreports]
      exact answer_wellFormed h c requestId request s
  intro r reports
  refine ⟨hwell.success_iff, fun hs => hwell.payload_iff.2 (.inl hs), fun hs => ?_, hwell.failure,
    fun id => ?_⟩
  · rw [hwell.payload_iff, hs]
    exact or_iff_right Bool.false_ne_true
  · rw [hwell.requestId]
    exact ofText_id text id

end Request

end SchemaInstaller
