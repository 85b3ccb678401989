import SchemaInstaller.Manifest.Validation
import SchemaInstaller.Proofs.Manifest.Lookup

/-!
# What the clock means to a manifest

A manifest that does not say when it was made was made now. Nothing else depends on the clock:
neither whether a document is a manifest, nor what is wrong with it, nor the rest of what is in it
(`Manifest.ofJson_later`).
-/

namespace SchemaInstaller

open Json

/-! ## Records that differ in a default -/

/-- Two outcomes of which both are values that fit together or both are the same error. -/
inductive Alongside (R : α → β → Prop) : Except ε α → Except ε β → Prop
  | ok {a : α} {b : β} (h : R a b) : Alongside R (.ok a) (.ok b)
  | error (e : ε) : Alongside R (.error e) (.error e)

theorem Alongside.refl (x : Except ε α) : Alongside Eq x x := by
  cases x with
  | ok a => exact .ok rfl
  | error e => exact .error e

/-- A function of the values on one side. -/
theorem Alongside.eq_map {f : α → β} {x : Except ε α} {y : Except ε β}
    (h : Alongside (fun a b => b = f a) x y) : y = x.map f := by
  cases h with
  | ok h =>
    rw [h]
    rfl
  | error e => rfl

namespace Json.Record

/-- Two records that check the fields of an object alike and are built alongside. -/
structure Alongside (fields : Fields) (R : α → β → Prop) (r : Record α) (s : Record β) : Prop where
  checks : r.checks = s.checks
  build : ∀ i, SchemaInstaller.Alongside R (r.build i (byName fields)) (s.build i (byName fields))

namespace Alongside

variable {fields : Fields}

theorem refl (r : Record α) : r.Alongside fields Eq r :=
  ⟨rfl, fun i => .refl (r.build i (byName fields))⟩

theorem map {R : β → β' → Prop} {f : α → β} {f' : α → β'} (h : ∀ a, R (f a) (f' a))
    (r : Record α) : (f <$> r).Alongside fields R (f' <$> r) := by
  refine ⟨rfl, fun i => ?_⟩
  show SchemaInstaller.Alongside R ((r.build i (byName fields)).map f)
    ((r.build i (byName fields)).map f')
  cases r.build i (byName fields) with
  | ok a => exact .ok (h a)
  | error e => exact .error e

/-- A default counts only where the field is missing. -/
theorem optional {R : α → α → Prop} (name : String) (d : Decoder α) {a b : α}
    (hmissing : fields.get? name = none → R a b) (hthere : fields.has name = true → ∀ c, R c c) :
    (Record.optional name d a).Alongside fields R (Record.optional name d b) := by
  refine ⟨rfl, fun i => ?_⟩
  unfold Record.optional field byName
  dsimp only
  cases hget : fields.get? name with
  | none => exact .ok (hmissing hget)
  | some j =>
    have hhas : fields.has name = true := by
      rw [Fields.has_eq, hget]
      rfl
    dsimp only
    cases d j with
    | ok c => exact .ok (hthere hhas c)
    | error e => exact .error e

theorem seq {S : α → α' → Prop} {R : β → β' → Prop} {f : Record (α → β)} {f' : Record (α' → β')}
    {r : Record α} {r' : Record α'}
    (hf : f.Alongside fields (fun g g' => ∀ a a', S a a' → R (g a) (g' a')) f')
    (hr : r.Alongside fields S r') : (f <*> r).Alongside fields R (f' <*> r') where
  checks := by
    show f.checks ++ r.checks = f'.checks ++ r'.checks
    rw [hf.checks, hr.checks]
  build i := by
    show SchemaInstaller.Alongside R
      ((f.build i (byName fields)).bind fun g =>
        (r.build (i + f.checks.length) (byName fields)).bind fun a => .ok (g a))
      ((f'.build i (byName fields)).bind fun g =>
        (r'.build (i + f'.checks.length) (byName fields)).bind fun a => .ok (g a))
    have hfun := hf.build i
    have harg := hr.build (i + f.checks.length)
    rw [hf.checks] at harg ⊢
    generalize f.build i _ = x, f'.build i _ = y at hfun ⊢
    generalize r.build _ _ = u, r'.build _ _ = v at harg ⊢
    cases hfun with
    | error e => exact .error e
    | ok hg =>
      cases harg with
      | error e => exact .error e
      | ok ha => exact .ok (hg _ _ ha)

/-- A field that both records have. -/
theorem seq_same {R : β → β' → Prop} {f : Record (α → β)} {f' : Record (α → β')} (r : Record α)
    (hf : f.Alongside fields (fun g g' => ∀ a, R (g a) (g' a)) f') :
    (f <*> r).Alongside fields R (f' <*> r) := by
  refine seq ⟨hf.checks, fun i => ?_⟩ (refl r)
  have hfun := hf.build i
  generalize f.build i _ = x, f'.build i _ = y at hfun ⊢
  cases hfun with
  | error e => exact .error e
  | ok hg =>
    refine .ok ?_
    rintro a a' rfl
    exact hg a

theorem decoder {R : α → β → Prop} {r : Record α} {s : Record β} (h : r.Alongside fields R s)
    (name : String) : SchemaInstaller.Alongside R (r.decoder name (.object fields))
      (s.decoder name (.object fields)) := by
  have hfault : r.firstFault fields = s.firstFault fields := by
    unfold firstFault
    rw [h.checks]
  show SchemaInstaller.Alongside R (r.ofFields fields) (s.ofFields fields)
  unfold ofFields
  rw [hfault]
  cases s.firstFault fields with
  | some e => exact .error e
  | none => exact h.build 0

end Alongside

end Json.Record

/-! ## Names among canonical fields -/

/-- Whether there is a key of this name, in any casing. -/
def Json.Fields.names (name : String) (fields : Fields) : Bool :=
  fields.any fun f => sameName f.1 name

/-- A field that is written and cannot be given by one value of its list is among the canonical
fields exactly if there is a key of its name. -/
theorem has_canonicalFields {e : Entity} {name : String} {c : Content}
    (hf : (name, c) ∈ e.writtenFields) (halias : e.alias? name = none) (fields done : Fields) :
    (canonicalFields e done fields).has name = (done.has name || fields.names name) := by
  obtain ⟨hmem, hwritten⟩ := List.mem_filter.1 hf
  induction fields generalizing done with
  | nil => rw [canonicalFields, Fields.names, List.any_nil, Bool.or_false]
  | cons f r ih =>
    obtain ⟨key, j⟩ := f
    have hnames : Fields.names name ((key, j) :: r) = (sameName key name || Fields.names name r) :=
      rfl
    rw [canonicalFields, ih, hnames, ← Bool.or_assoc]
    congr 1
    rw [Fields.has_eq, Fields.has_eq]
    by_cases hname : sameName key name = true
    · rw [canonicalField, Entity.place_of_same hmem hname, addField_written hwritten,
        Fields.get?_set, if_pos rfl, hname, Bool.or_true]
      rfl
    · have hlist : (e.place key).2 ≠ .single name := by
        intro hc
        obtain ⟨-, hplace | hplain⟩ := e.same_place key
        · have hsome : e.alias? name = some (e.place key).1 := Entity.alias?_of_mem (hc ▸ hplace)
          rw [halias] at hsome
          cases hsome
        · rw [hplain] at hc
          cases hc
      rw [get?_canonicalField_of_ne (f := (key, j)) hname hlist, Bool.eq_false_iff.2 hname,
        Bool.or_false]

/-! ## Manifests -/

namespace Manifest

/-- A manifest as it is read later, given whether it says when it was made. -/
def readAgain (dated : Bool) (later : Instant) (m : Manifest) : Manifest :=
  if dated then m else { m with generatedAt := later }

theorem decode_later (now later : Instant) (fields : Fields) :
    decode later (.object fields) =
      (decode now (.object fields)).map (readAgain (fields.has "generatedAt") later) := by
  refine Alongside.eq_map (Record.Alongside.decoder ?_ "Manifest")
  iterate 7 refine .seq_same _ ?_
  refine .seq (S := fun t u => u = if fields.has "generatedAt" then t else later) ?_
    (.optional _ _ ?_ ?_)
  · refine .map (fun name t u htime a b c d e f g => ?_) _
    rw [htime]
    unfold readAgain
    split <;> rfl
  · intro hget
    rw [Fields.has_eq, hget]
    rfl
  · intro hhas t
    rw [if_pos hhas]

/-- What a check finds does not depend on when the manifest was made. -/
theorem validate_readAgain (dated : Bool) (later : Instant) (m : Manifest)
    (className? : Option String) :
    (m.readAgain dated later).validate className? = m.validate className? := by
  cases dated <;> rfl

/-- Whether a document says when the manifest in it was made. -/
def isDated : Json → Bool
  | .object fields => Fields.names "generatedAt" fields
  | _ => false

/-- What a document is as a manifest depends on the clock only if it does not say when it was made;
then only the time of the manifest does. -/
theorem ofJson_later (now later : Instant) (j : Json) :
    ofJson later j = (ofJson now j).map (readAgain (isDated j) later) := by
  cases j with
  | object fields =>
    have hhas : (canonicalFields .manifest [] fields).has "generatedAt" =
        Fields.names "generatedAt" fields :=
      has_canonicalFields (c := .plain) (by decide) rfl fields []
    unfold ofJson
    dsimp only
    rw [canonicalValue, decode_later now later, hhas]
    cases decode now (.object (canonicalFields .manifest [] fields)) <;> rfl
  | _ => rfl

end Manifest

end SchemaInstaller
