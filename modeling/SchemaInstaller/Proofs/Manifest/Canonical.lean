import SchemaInstaller.Manifest.Reading
import SchemaInstaller.Proofs.Json.Records
import SchemaInstaller.Proofs.Json.RoundTrip

/-!
# Canonical documents

Renaming leaves a document alone in which every key of an entity has its canonical name, and which
lists what it could name one by one.
-/

namespace SchemaInstaller

open Json

/-- A key without regard to the case of letters. -/
def lowerKey (key : String) : Text := Text.lowerAscii key.toList

theorem sameName_iff {a b : String} : sameName a b = true ↔ lowerKey a = lowerKey b := beq_iff_eq

/-- A field that a written manifest may have. One value in place of a list is only ever read. -/
def Content.isWritten : Content → Bool
  | single _ => false
  | _ => true

namespace Entity

/-- The fields that a written entity may have. -/
def writtenFields (e : Entity) : List (String × Content) := e.fields.filter (·.2.isWritten)

/-- The names of an entity's fields differ in more than the case of letters. -/
theorem nodup_lowerNames (e : Entity) :
    (e.fields.map fun f => lowerKey f.1).Nodup := by
  cases e <;>
    simp only [fields, List.map_cons, List.map_nil, lowerKey] <;>
    repeat rw [String.toList_ofList]
  all_goals decide +kernel

theorem nodup_writtenNames (e : Entity) : (e.writtenFields.map (·.1)).Nodup := by
  have hnames : (e.fields.map (·.1)).Nodup := by
    have hmap : (e.fields.map (·.1)).map lowerKey = e.fields.map fun f => lowerKey f.1 :=
      List.map_map
    have hlower := nodup_lowerNames e
    rw [← hmap] at hlower
    exact hlower.of_map _
  exact hnames.sublist (List.filter_sublist.map _)

/-- A key is at the place of a field if it is the name of the field in some case. -/
theorem place_of_same {e : Entity} {key name : String} {c : Content} (hf : (name, c) ∈ e.fields)
    (h : sameName key name = true) : e.place key = (name, c) := by
  have hkey : (fun f : String × Content => sameName f.1 key) = fun f => sameName f.1 name := by
    funext f
    rw [Bool.eq_iff_iff, sameName_iff, sameName_iff, sameName_iff.1 h]
  have hfind : e.fields.find? (fun f => sameName f.1 name) = some (name, c) :=
    find?_of_mem e.nodup_lowerNames hf
  rw [place, hkey, hfind]
  rfl

/-- A canonical name is its own place. -/
theorem place_of_mem {e : Entity} {f : String × Content} (hf : f ∈ e.fields) : e.place f.1 = f :=
  place_of_same hf (sameName_iff.2 rfl)

end Entity

theorem addField_written {c : Content} (hc : c.isWritten = true) (done : Fields) (name : String)
    (j : Json) : addField done name c j = done.set name j := by
  cases c with
  | single _ => exact nomatch hc
  | plain => rfl
  | one _ => rfl
  | many _ => rfl

/-- Canonical fields are added as they are. -/
theorem canonicalFields_eq_append {e : Entity} {done fs : Fields}
    (hkeys : ((done ++ fs).map (·.1)).Nodup)
    (h : ∀ f ∈ fs, ∃ c, (f.1, c) ∈ e.writtenFields ∧ canonicalValue c f.2 = f.2) :
    canonicalFields e done fs = done ++ fs := by
  induction fs generalizing done with
  | nil => rw [canonicalFields, List.append_nil]
  | cons f r ih =>
    obtain ⟨c, hc, hvalue⟩ := h f List.mem_cons_self
    obtain ⟨hmem, hwritten⟩ := List.mem_filter.1 hc
    have hnew : f.1 ∉ done.map (·.1) := by
      rw [List.map_append, List.map_cons, List.nodup_append] at hkeys
      exact fun h => hkeys.2.2 f.1 h f.1 List.mem_cons_self rfl
    have hfield : canonicalField e done f = done ++ [f] := by
      obtain ⟨key, j⟩ := f
      rw [canonicalField, Entity.place_of_mem hmem, hvalue, addField_written hwritten,
        Fields.set_eq_append hnew]
    rw [List.append_cons] at hkeys
    rw [canonicalFields, hfield, ih hkeys fun g hg => h g (List.mem_cons_of_mem f hg),
      List.append_assoc]
    rfl

theorem canonicalItems_eq {e : Entity} {vs : List Json}
    (h : ∀ v ∈ vs, canonicalValue (.one e) v = v) : canonicalItems e vs = vs := by
  induction vs with
  | nil => rw [canonicalItems]
  | cons v r ih =>
    rw [canonicalItems, h v List.mem_cons_self, ih fun w hw => h w (List.mem_cons_of_mem v hw)]

end SchemaInstaller
