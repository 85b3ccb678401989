import SchemaInstaller.Proofs.Manifest.Lookup

/-!
# Rearranged documents

Two documents are `Alike` if one comes of the other by changing the case of keys and moving fields
within the objects of entities, at any depth. A decoder is `Indifferent` if it takes alike documents,
made canonical, to the same value or to none. A record of indifferent decoders is indifferent, since
the canonical fields of both objects hold the same under every name
(`Rearranged.get?_canonicalFields`).
-/

namespace SchemaInstaller

open Json

/-! ## Alike documents -/

/-- A document of some content, and the same with the keys of entities in other cases and at other
places. An object in which this is done has no two keys that are the same up to case. -/
inductive Alike : Content → Json → Json → Prop
  | same (c : Content) (j : Json) : Alike c j j
  | entity {e : Entity} {fields renamed moved : Fields} (length : fields.length = renamed.length)
    (keys : ∀ p ∈ fields.zip renamed, sameName p.1.1 p.2.1 = true)
    (values : ∀ p ∈ fields.zip renamed, Alike (e.place p.1.1).2 p.1.2 p.2.2)
    (perm : renamed.Perm moved) (differ : KeysDiffer fields) :
    Alike (.one e) (.object fields) (.object moved)
  | items {e : Entity} {items others : List Json} (length : items.length = others.length)
    (values : ∀ p ∈ items.zip others, Alike (.one e) p.1 p.2) :
    Alike (.many e) (.array items) (.array others)

/-- The fields of an entity under keys in other cases, and then at other places. -/
structure Rearranged (e : Entity) (fields renamed moved : Fields) : Prop where
  length : fields.length = renamed.length
  keys : ∀ p ∈ fields.zip renamed, sameName p.1.1 p.2.1 = true
  values : ∀ p ∈ fields.zip renamed, Alike (e.place p.1.1).2 p.1.2 p.2.2
  perm : renamed.Perm moved
  differ : KeysDiffer fields

namespace Rearranged

variable {e : Entity} {fields renamed moved : Fields}

theorem differ_moved (h : Rearranged e fields renamed moved) : KeysDiffer moved := by
  have hpairs : (fields.zip renamed).map (fun p => lowerKey p.1.1) =
      (fields.zip renamed).map fun p => lowerKey p.2.1 :=
    List.map_congr_left fun p hp => sameName_iff.1 (h.keys p hp)
  have hfields : (fields.zip renamed).map (fun p => lowerKey p.1.1) =
      fields.map fun f => lowerKey f.1 := by
    rw [← List.map_fst_zip (Nat.le_of_eq h.length), List.map_map, List.map_fst_zip
      (Nat.le_of_eq h.length)]
    rfl
  have hrenamed : (fields.zip renamed).map (fun p => lowerKey p.2.1) =
      renamed.map fun f => lowerKey f.1 := by
    rw [← List.map_snd_zip (Nat.le_of_eq h.length.symm), List.map_map, List.map_snd_zip
      (Nat.le_of_eq h.length.symm)]
    rfl
  have hdiffer := h.differ
  unfold KeysDiffer at hdiffer ⊢
  rw [← hfields, hpairs, hrenamed] at hdiffer
  exact (h.perm.map _).nodup_iff.1 hdiffer

/-- Under each name alike values are given, or none. -/
theorem alike_given (h : Rearranged e fields renamed moved) (name : String) :
    Option.Rel (fun j j' => ∃ key, sameName key name = true ∧ Alike (e.place key).2 j j')
      (given name fields) (given name moved) := by
  by_cases hsome : ∃ f ∈ fields, sameName f.1 name = true
  · obtain ⟨f, hf, hsame⟩ := hsome
    rw [← List.map_fst_zip (Nat.le_of_eq h.length)] at hf
    obtain ⟨p, hp, rfl⟩ := List.mem_map.1 hf
    have hmoved : p.2 ∈ moved := h.perm.subset (List.of_mem_zip hp).2
    have hsame' : sameName p.2.1 name = true :=
      sameName_iff.2 ((sameName_iff.1 (h.keys p hp)).symm.trans (sameName_iff.1 hsame))
    rw [given_of_mem h.differ (List.of_mem_zip hp).1 hsame, given_of_mem h.differ_moved hmoved hsame']
    exact .some ⟨p.1.1, hsame, h.values p hp⟩
  · have hfields : given name fields = none :=
      given_eq_none_iff.2 fun f hf hsame => hsome ⟨f, hf, hsame⟩
    have hmoved : given name moved = none := by
      refine given_eq_none_iff.2 fun g hg hsame => hsome ?_
      have hg := h.perm.symm.subset hg
      rw [← List.map_snd_zip (Nat.le_of_eq h.length.symm)] at hg
      obtain ⟨p, hp, rfl⟩ := List.mem_map.1 hg
      refine ⟨p.1, (List.of_mem_zip hp).1, sameName_iff.2 ?_⟩
      exact (sameName_iff.1 (h.keys p hp)).trans (sameName_iff.1 hsame)
    rw [hfields, hmoved]
    exact .none

/-- One value for a list is the same in both. -/
theorem spelled (h : Rearranged e fields renamed moved) (list : String) :
    e.spelled list fields = e.spelled list moved := by
  unfold Entity.spelled
  cases halias : e.alias? list with
  | none => rfl
  | some a =>
    have hgiven := h.alike_given a
    rw [Option.bind_some, Option.bind_some]
    generalize given a fields = x, given a moved = y at hgiven ⊢
    cases hgiven with
    | none => rfl
    | some hvalue =>
      obtain ⟨key, hsame, hvalue⟩ := hvalue
      rw [Entity.place_of_same (Entity.mem_fields_of_alias? halias) hsame] at hvalue
      cases hvalue
      rfl

end Rearranged

/-! ## Decoders -/

/-- A decoder takes both documents to the same value, or none of them to any. -/
def SameResult {α : Type} (d : Decoder α) (j j' : Json) : Prop := ∀ a, d j = .ok a ↔ d j' = .ok a

/-- A decoder for which it makes no difference how the keys of a document are cased and ordered. -/
def Indifferent {α : Type} (c : Content) (d : Decoder α) : Prop :=
  ∀ j j', Alike c j j' → SameResult d (canonicalValue c j) (canonicalValue c j')

section

variable {α β : Type} {e : Entity}

theorem SameResult.refl (d : Decoder α) (j : Json) : SameResult d j j := fun _ => Iff.rfl

theorem indifferent_plain (d : Decoder α) : Indifferent .plain d := by
  intro j j' h
  cases h
  exact .refl d _

theorem mapError_eq_ok {ε ε' : Type} {f : ε → ε'} {x : Except ε α} {a : α} :
    x.mapError f = .ok a ↔ x = .ok a := by
  cases x with
  | error e => exact ⟨nofun, nofun⟩
  | ok b => simp [Except.mapError]

theorem mapM_cons_eq_ok {d : Decoder α} {j : Json} {r : List Json} {as : List α} :
    (j :: r).mapM d = .ok as ↔ ∃ a as', d j = .ok a ∧ r.mapM d = .ok as' ∧ as = a :: as' := by
  rw [List.mapM_cons]
  cases hj : d j with
  | error err => exact ⟨nofun, nofun⟩
  | ok a =>
    cases hr : r.mapM d with
    | error err => exact ⟨nofun, nofun⟩
    | ok as' =>
      constructor
      · intro h
        cases h
        exact ⟨a, as', rfl, rfl, rfl⟩
      · rintro ⟨-, -, ⟨⟩, ⟨⟩, rfl⟩
        rfl

/-- A list of entities. -/
theorem Indifferent.list {d : Decoder α} (h : Indifferent (.one e) d) :
    Indifferent (.many e) (Decode.list d) := by
  have hitems : ∀ items others : List Json, items.length = others.length →
      (∀ p ∈ items.zip others, Alike (.one e) p.1 p.2) →
      ∀ as, (canonicalItems e items).mapM d = .ok as ↔ (canonicalItems e others).mapM d = .ok as := by
    intro items
    induction items with
    | nil =>
      intro others hlength _ as
      rw [List.eq_nil_of_length_eq_zero hlength.symm]
    | cons j items ih =>
      rintro (_ | ⟨j', others⟩) hlength halike as
      · cases hlength
      have hrest := ih others (Nat.succ.inj hlength) fun p hp =>
        halike p (List.mem_cons_of_mem _ hp)
      have hhead := h j j' (halike (j, j') List.mem_cons_self)
      rw [canonicalItems, canonicalItems, mapM_cons_eq_ok, mapM_cons_eq_ok]
      simp only [hhead _, hrest]
  intro j j' hj as
  cases hj with
  | same => rfl
  | @items _ items others hlength halike =>
    rw [canonicalValue, canonicalValue]
    exact hitems items others hlength halike as

/-! ## Records -/

namespace Json.Record

/-- What a record builds from a field that is there. -/
theorem build_field {fields : Fields} {name : String} {d : Decoder α}
    {default? : Option α} {i : Nat} {j : Json} {a : α} (hget : fields.get? name = some j)
    (h : (field name d default?).build i (byName fields) = .ok a) : d j = .ok a := by
  unfold field byName at h
  simp only [hget] at h
  exact h

theorem build_map_eq_ok {r : Record α} {f : α → β} {i : Nat} {s : Source} {b : β} :
    (f <$> r).build i s = .ok b ↔ ∃ a, r.build i s = .ok a ∧ f a = b := by
  show (r.build i s).map f = .ok b ↔ _
  cases r.build i s with
  | error err => exact ⟨nofun, nofun⟩
  | ok a => simp [Except.map]

theorem build_seq_eq_ok {f : Record (α → β)} {r : Record α} {i : Nat} {s : Source} {b : β} :
    (f <*> r).build i s = .ok b ↔
      ∃ g a, f.build i s = .ok g ∧ r.build (i + f.checks.length) s = .ok a ∧ g a = b := by
  show ((f.build i s).bind fun g => (r.build (i + f.checks.length) s).bind fun a => .ok (g a)) =
    .ok b ↔ _
  cases f.build i s with
  | error err => exact ⟨nofun, nofun⟩
  | ok g =>
    cases r.build (i + f.checks.length) s with
    | error err => exact ⟨nofun, nofun⟩
    | ok a => simp [Except.bind]

/-- A fault of some field is one of the value that is found by its key. -/
theorem firstFault_eq_none_iff {r : Record α} {fields : Fields} (h : (fields.map (·.1)).Nodup) :
    r.firstFault fields = none ↔
      ∀ key check, r.checks.lookup key = some check → (fields.get? key).bind check = none := by
  rw [firstFault, List.findSome?_eq_none_iff]
  constructor
  · intro hnone key check hlookup
    cases hget : fields.get? key with
    | none => rfl
    | some j =>
      obtain ⟨⟨key', j⟩, hf, rfl⟩ := Option.map_eq_some_iff.1 hget
      obtain rfl : key' = key := by simpa using List.find?_some hf
      have hfault : (r.checks.lookup key').bind (fun check => check j) = none :=
        hnone (key', j) (List.mem_of_find?_eq_some hf)
      rw [hlookup] at hfault
      exact hfault
  · rintro hnone ⟨key, j⟩ hf
    show (r.checks.lookup key).bind (fun check => check j) = none
    have hget := Fields.get?_of_mem h hf
    cases hlookup : r.checks.lookup key with
    | none => rfl
    | some check =>
      have hfault := hnone key check hlookup
      rw [hget] at hfault
      exact hfault

theorem ofFields_eq_ok_iff {r : Record α} {fields : Fields} {a : α} :
    r.ofFields fields = .ok a ↔ r.firstFault fields = none ∧ r.build 0 (byName fields) = .ok a := by
  unfold ofFields
  cases r.firstFault fields with
  | some err => exact ⟨nofun, fun h => nomatch h.1⟩
  | none => exact ⟨fun h => ⟨rfl, h⟩, fun h => h.2⟩

/-- A record finds a fault in a field of both objects or of none, and takes both to the same value. -/
structure Same (r : Record α) (fields others : Fields) : Prop where
  checks : ∀ key check, r.checks.lookup key = some check →
    ((fields.get? key).bind check = none ↔ (others.get? key).bind check = none)
  build : ∀ i a, r.build i (byName fields) = .ok a ↔ r.build i (byName others) = .ok a

namespace Same

variable {fields others : Fields}

theorem field {name : String} {d : Decoder α} (default? : Option α)
    (h : Option.Rel (SameResult d) (fields.get? name) (others.get? name)) :
    Same (field name d default?) fields others where
  checks key check hlookup := by
    obtain ⟨rfl, rfl⟩ := Reads.lookup_field hlookup
    generalize fields.get? key = x, others.get? key = y at h ⊢
    cases h with
    | none => rfl
    | @some j j' hsame =>
      rw [Option.bind_some, Option.bind_some]
      unfold complaint
      cases hj : d j with
      | ok a => rw [(hsame a).1 hj]
      | error err =>
        cases hj' : d j' with
        | ok a =>
          rw [(hsame a).2 hj'] at hj
          cases hj
        | error err' => exact ⟨nofun, nofun⟩
  build i a := by
    unfold Record.field byName
    dsimp only
    generalize fields.get? name = x, others.get? name = y at h ⊢
    cases h with
    | none => rfl
    | some hsame => exact hsame a

theorem map {r : Record α} (h : r.Same fields others) (f : α → β) :
    (f <$> r).Same fields others where
  checks := h.checks
  build i b := by simp only [build_map_eq_ok, h.build]

theorem seq {f : Record (α → β)} {r : Record α} (hf : f.Same fields others)
    (hr : r.Same fields others) : (f <*> r).Same fields others where
  checks key check hlookup := by
    have happend : (f.checks ++ r.checks).lookup key = some check := hlookup
    rw [List.lookup_append, Option.or_eq_some_iff] at happend
    rcases happend with hleft | ⟨-, hright⟩
    · exact hf.checks key check hleft
    · exact hr.checks key check hright
  build i b := by simp only [build_seq_eq_ok, hf.build, hr.build]

theorem decoder {r : Record α} (h : r.Same fields others) (hfields : (fields.map (·.1)).Nodup)
    (hothers : (others.map (·.1)).Nodup) (name : String) :
    SameResult (r.decoder name) (.object fields) (.object others) := by
  have hfault : r.firstFault fields = none ↔ r.firstFault others = none := by
    rw [firstFault_eq_none_iff hfields, firstFault_eq_none_iff hothers]
    exact forall₃_congr h.checks
  intro a
  show r.ofFields fields = .ok a ↔ r.ofFields others = .ok a
  rw [ofFields_eq_ok_iff, ofFields_eq_ok_iff, hfault, h.build]

end Same

end Json.Record

/-- A record of declared fields that is the same for the canonical fields of an entity, however keys
are cased and ordered. -/
structure IndifferentRecord (e : Entity) (declared : List (String × Content)) (r : Record α) :
    Prop where
  same {fields renamed moved : Fields} : Rearranged e fields renamed moved →
    declared ⊆ e.writtenFields → r.Same (canonicalFields e [] fields) (canonicalFields e [] moved)

/-- Under the name of a field both canonical objects hold what a decoder takes to the same value. -/
theorem Rearranged.get?_canonicalFields {fields renamed moved : Fields}
    (h : Rearranged e fields renamed moved) {name : String} {c : Content}
    (hc : (name, c) ∈ e.writtenFields) {d : Decoder α} (hd : Indifferent c d) :
    Option.Rel (SameResult d) ((canonicalFields e [] fields).get? name)
      ((canonicalFields e [] moved).get? name) := by
  have hgiven := h.alike_given name
  rw [SchemaInstaller.get?_canonicalFields hc h.differ,
    SchemaInstaller.get?_canonicalFields hc h.differ_moved, ← h.spelled name]
  generalize given name fields = x, given name moved = y at hgiven ⊢
  cases hgiven with
  | none =>
    have hspelled : Option.Rel (SameResult d) (e.spelled name fields) (e.spelled name fields) := by
      cases e.spelled name fields with
      | none => exact .none
      | some j => exact .some (.refl d j)
    exact hspelled
  | some hvalue =>
    obtain ⟨key, hsame, hvalue⟩ := hvalue
    rw [Entity.place_of_same (List.mem_filter.1 hc).1 hsame] at hvalue
    exact .some (hd _ _ hvalue)

namespace IndifferentRecord

variable {declared more : List (String × Content)}

theorem field (name : String) {c : Content} {d : Decoder α} (hd : Indifferent c d)
    (default? : Option α) : IndifferentRecord e [(name, c)] (.field name d default?) where
  same h hdeclared := .field default? (h.get?_canonicalFields (hdeclared List.mem_cons_self) hd)

theorem plain (name : String) (d : Decoder α) (default? : Option α) :
    IndifferentRecord e [(name, .plain)] (.field name d default?) :=
  field name (indifferent_plain d) default?

theorem map {r : Record α} (h : IndifferentRecord e declared r) (f : α → β) :
    IndifferentRecord e declared (f <$> r) where
  same hfields hdeclared := (h.same hfields hdeclared).map f

theorem seq {f : Record (α → β)} {r : Record α} (hf : IndifferentRecord e declared f)
    (hr : IndifferentRecord e more r) : IndifferentRecord e (declared ++ more) (f <*> r) where
  same hfields hdeclared :=
    (hf.same hfields (List.Subset.trans (List.subset_append_left declared more) hdeclared)).seq
      (hr.same hfields (List.Subset.trans (List.subset_append_right declared more) hdeclared))

/-- An entity whose written fields are declared. -/
theorem indifferent {r : Record α} (h : IndifferentRecord e declared r)
    (hdeclared : declared = e.writtenFields) (name : String) :
    Indifferent (.one e) (r.decoder name) := by
  intro j j' hj
  cases hj with
  | same => exact .refl _ _
  | @entity _ fields renamed moved hlength hkeys hvalues hperm hdiffer =>
    have hsame := h.same ⟨hlength, hkeys, hvalues, hperm, hdiffer⟩ (hdeclared ▸ List.Subset.refl _)
    rw [canonicalValue, canonicalValue]
    exact hsame.decoder (nodup_canonicalFields e fields List.nodup_nil)
      (nodup_canonicalFields e moved List.nodup_nil) name

end IndifferentRecord

end

end SchemaInstaller
