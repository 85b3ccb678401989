import Mathlib.Data.List.Nodup
import SchemaInstaller.Json.Shape

/-!
# Records from fields by name

What a record needs of an object is one statement for each of its fields: the field is there and its
decoder takes it (`Reads.present`), or it is missing and has a default (`Reads.absent`). A record
that is put together from such fields is then decoded (`Reads.ofFields`).
-/

namespace SchemaInstaller.Json

/-- What stands only once under its key is found by it. -/
theorem find?_of_mem [BEq κ] [LawfulBEq κ] {key : α → κ} {l : List α} (hkeys : (l.map key).Nodup)
    {a : α} (ha : a ∈ l) : l.find? (fun b => key b == key a) = some a := by
  induction l with
  | nil => exact nomatch ha
  | cons b r ih =>
    rw [List.map_cons, List.nodup_cons] at hkeys
    rcases List.mem_cons.1 ha with rfl | hr
    · rw [List.find?_cons_of_pos (by simp)]
    · have hne : key b ≠ key a := fun h => hkeys.1 (List.mem_map.2 ⟨a, hr, h.symm⟩)
      rw [List.find?_cons_of_neg (by simpa using hne)]
      exact ih hkeys.2 hr

theorem Fields.get?_of_mem {fields : Fields} (hkeys : (fields.map (·.1)).Nodup)
    {f : String × Json} (hf : f ∈ fields) : fields.get? f.1 = some f.2 := by
  rw [get?, find?_of_mem hkeys hf]
  rfl

namespace Record

/-- The fields of an object, looked up by name. -/
def byName (fields : Fields) : Source :=
  ⟨fun _ name => fields.get? name, fun _ name => .missingField name⟩

/-- A record that takes a value from the fields of an object and finds no fault in any of them. -/
structure Reads (r : Record α) (fields : Fields) (a : α) : Prop where
  checks : ∀ f ∈ fields, ∀ check, r.checks.lookup f.1 = some check → check f.2 = none
  build : ∀ i, r.build i (byName fields) = .ok a

namespace Reads

variable {fields : Fields}

theorem lookup_field {name key : String} {d : Decoder α} {default? : Option α}
    {check : Json → Option Mismatch}
    (h : (field name d default?).checks.lookup key = some check) :
    key = name ∧ check = complaint d := by
  unfold field at h
  rw [List.lookup_cons] at h
  by_cases hkey : key = name
  · rw [beq_iff_eq.2 hkey] at h
    exact ⟨hkey, (Option.some.inj h).symm⟩
  · rw [beq_eq_false_iff_ne.2 hkey] at h
    exact nomatch h

/-- A field that is there. -/
theorem present (hkeys : (fields.map (·.1)).Nodup) {name : String} {d : Decoder α}
    (default? : Option α) {j : Json} {a : α} (hget : fields.get? name = some j) (hd : d j = .ok a) :
    Reads (field name d default?) fields a where
  checks f hf check hcheck := by
    obtain ⟨hname, rfl⟩ := lookup_field hcheck
    have hvalue := Fields.get?_of_mem hkeys hf
    rw [hname, hget] at hvalue
    rw [← Option.some.inj hvalue, complaint, hd]
  build i := by
    simp only [field, byName, hget, hd]

/-- A field that is missing. -/
theorem absent {name : String} (d : Decoder α) {a : α} (hget : fields.get? name = none) :
    Reads (field name d (some a)) fields a where
  checks f hf check hcheck := by
    have hnone : fields.find? (fun g => g.1 == name) = none := Option.map_eq_none_iff.1 hget
    exact absurd (beq_iff_eq.2 (lookup_field hcheck).1) (List.find?_eq_none.1 hnone f hf)
  build i := by
    simp only [field, byName, hget]

theorem map {r : Record α} {a : α} (h : Reads r fields a) (f : α → β) :
    Reads (f <$> r) fields (f a) where
  checks := h.checks
  build i := by
    show (r.build i (byName fields)).map f = _
    rw [h.build i]
    rfl

theorem seq {f : Record (α → β)} {r : Record α} {g : α → β} {a : α} (hf : Reads f fields g)
    (hr : Reads r fields a) : Reads (f <*> r) fields (g a) where
  checks x hx check hcheck := by
    have hlookup : (f.checks ++ r.checks).lookup x.1 = some check := hcheck
    rw [List.lookup_append, Option.or_eq_some_iff] at hlookup
    rcases hlookup with hleft | ⟨-, hright⟩
    · exact hf.checks x hx check hleft
    · exact hr.checks x hx check hright
  build i := by
    show ((f.build i (byName fields)).bind fun g =>
      (r.build (i + f.checks.length) (byName fields)).bind fun a => .ok (g a)) = _
    rw [hf.build i, Except.bind, hr.build (i + f.checks.length)]
    rfl

/-- The record is decoded from the object. -/
theorem decoder {r : Record α} {a : α} (h : Reads r fields a) (name : String) :
    r.decoder name (object fields) = .ok a := by
  have hfault : r.firstFault fields = none := by
    rw [firstFault, List.findSome?_eq_none_iff]
    rintro ⟨key, v⟩ hf
    show (r.checks.lookup key).bind (fun check => check v) = none
    cases hlookup : r.checks.lookup key with
    | none => rfl
    | some check => exact h.checks (key, v) hf check hlookup
  show r.ofFields fields = .ok a
  rw [ofFields, hfault]
  exact h.build 0

end Reads

end Record

end SchemaInstaller.Json
