import SchemaInstaller.Proofs.Manifest.Canonical

/-!
# What canonical fields hold

The keys of an entity are read in any case and in any order. What the canonical fields hold under a
name can be said without going through them: the value that is given under this name in some case,
or else, for a list that may be named by its one value, that value as a list
(`get?_canonicalFields`).
-/

namespace SchemaInstaller

open Json

/-! ## Fields by key -/

namespace Json.Fields

theorem get?_cons (key : String) (j : Json) (fields : Fields) (name : String) :
    get? ((key, j) :: fields) name = if key = name then some j else fields.get? name := by
  unfold get?
  by_cases h : key = name
  · rw [if_pos h, List.find?_cons_of_pos (by simpa using h)]
    rfl
  · rw [if_neg h, List.find?_cons_of_neg (by simpa using h)]

theorem get?_append (fields more : Fields) (name : String) :
    get? (fields ++ more) name = (fields.get? name).or (more.get? name) := by
  unfold get?
  rw [List.find?_append]
  cases fields.find? fun f => f.1 == name <;> rfl

theorem get?_set (fields : Fields) (key : String) (j : Json) (name : String) :
    (fields.set key j).get? name = if key = name then some j else fields.get? name := by
  induction fields with
  | nil => exact get?_cons key j [] name
  | cons f r ih =>
    obtain ⟨k, v⟩ := f
    rw [set]
    by_cases hk : k = key
    · subst hk
      rw [if_pos (beq_self_eq_true k), get?_cons, get?_cons]
      by_cases hname : k = name
      · rw [if_pos hname, if_pos hname]
      · rw [if_neg hname, if_neg hname, if_neg hname]
    · rw [if_neg (by simpa using hk), get?_cons, ih, get?_cons]
      by_cases hname : k = name
      · subst hname
        rw [if_pos rfl, if_neg (Ne.symm hk), if_pos rfl]
      · rw [if_neg hname, if_neg hname]

theorem has_eq (fields : Fields) (key : String) : fields.has key = (fields.get? key).isSome := by
  induction fields with
  | nil => rfl
  | cons f r ih =>
    obtain ⟨k, v⟩ := f
    rw [get?_cons]
    by_cases hk : k = key
    · rw [if_pos hk]
      simp [has, hk]
    · rw [if_neg hk, ← ih]
      simp [has, hk]

theorem get?_isSome_iff {fields : Fields} {key : String} :
    (fields.get? key).isSome = true ↔ key ∈ fields.map (·.1) := by
  rw [← has_eq]
  simp [has]

/-- Setting a key keeps the keys distinct. -/
theorem nodup_set {fields : Fields} (h : (fields.map (·.1)).Nodup) (key : String) (j : Json) :
    ((fields.set key j).map (·.1)).Nodup := by
  have hkeys : (fields.set key j).map (·.1) =
      if key ∈ fields.map (·.1) then fields.map (·.1) else fields.map (·.1) ++ [key] := by
    clear h
    induction fields with
    | nil => rfl
    | cons f r ih =>
      obtain ⟨k, v⟩ := f
      rw [set]
      by_cases hk : k = key
      · simp [hk]
      · have hk' : ¬key = k := Ne.symm hk
        by_cases hr : key ∈ r.map (·.1)
        · rw [if_pos hr] at ih
          simp [hk, hr, ih]
        · rw [if_neg hr] at ih
          simp [hk, hk', hr, ih]
  rw [hkeys]
  by_cases hmem : key ∈ fields.map (·.1)
  · rw [if_pos hmem]
    exact h
  · rw [if_neg hmem]
    refine List.nodup_append.2 ⟨h, List.nodup_singleton key, fun a ha b hb hab => hmem ?_⟩
    obtain rfl := List.mem_singleton.1 hb
    exact hab ▸ ha

end Json.Fields

/-! ## Fields by key in any case -/

/-- Fields whose keys differ in more than the case of letters. -/
def KeysDiffer (fields : Fields) : Prop := (fields.map fun f => lowerKey f.1).Nodup

/-- The value that is given under a name in some case. -/
def given (name : String) (fields : Fields) : Option Json :=
  (fields.find? fun f => sameName f.1 name).map (·.2)

theorem given_cons_of_same {key name : String} (h : sameName key name = true) (j : Json)
    (fields : Fields) : given name ((key, j) :: fields) = some j := by
  simp [given, h]

theorem given_cons_of_ne {key name : String} (h : ¬sameName key name = true) (j : Json)
    (fields : Fields) : given name ((key, j) :: fields) = given name fields := by
  simp [given, h]

theorem given_eq_none_iff {name : String} {fields : Fields} :
    given name fields = none ↔ ∀ f ∈ fields, ¬sameName f.1 name = true := by
  unfold given
  rw [Option.map_eq_none_iff, List.find?_eq_none]

/-- A name is given once at most. -/
theorem given_of_mem {name : String} {fields : Fields} (h : KeysDiffer fields) {f : String × Json}
    (hf : f ∈ fields) (hname : sameName f.1 name = true) : given name fields = some f.2 := by
  have hkey : (fun g : String × Json => sameName g.1 name) = fun g => lowerKey g.1 == lowerKey f.1 := by
    rw [sameName_iff.1 hname]
    rfl
  unfold given
  rw [hkey, find?_of_mem h hf]
  rfl

theorem KeysDiffer.tail {f : String × Json} {fields : Fields} (h : KeysDiffer (f :: fields)) :
    KeysDiffer fields := (List.nodup_cons.1 h).2

theorem KeysDiffer.given_tail {key name : String} {j : Json} {fields : Fields}
    (h : KeysDiffer ((key, j) :: fields)) (hname : sameName key name = true) :
    given name fields = none := by
  refine given_eq_none_iff.2 fun f hf hsame => (List.nodup_cons.1 h).1 ?_
  exact List.mem_map.2 ⟨f, hf, (sameName_iff.1 hsame).trans (sameName_iff.1 hname).symm⟩

/-! ## Places -/

namespace Entity

variable {e : Entity}

/-- A key is the name of its place in some case, or no key of the entity. -/
theorem same_place (e : Entity) (key : String) :
    sameName key (e.place key).1 = true ∧ (e.place key ∈ e.fields ∨ (e.place key).2 = .plain) := by
  unfold place
  cases hfind : e.fields.find? fun f => sameName f.1 key with
  | none => exact ⟨sameName_iff.2 rfl, .inr rfl⟩
  | some f =>
    have hsame := List.find?_some hfind
    exact ⟨sameName_iff.2 (sameName_iff.1 hsame).symm, .inl (List.mem_of_find?_eq_some hfind)⟩

/-- The name under which one value of a list may be given. -/
def alias? (e : Entity) (list : String) : Option String :=
  (e.fields.find? fun f => f.2 == .single list).map (·.1)

theorem mem_fields_of_alias? {list a : String} (h : e.alias? list = some a) :
    (a, .single list) ∈ e.fields := by
  obtain ⟨f, hf, rfl⟩ := Option.map_eq_some_iff.1 h
  have hsingle : f.2 = .single list := by simpa using List.find?_some hf
  rw [← hsingle]
  exact List.mem_of_find?_eq_some hf

/-- There is one such name for a list. -/
theorem alias?_of_mem {list a : String} (h : (a, .single list) ∈ e.fields) :
    e.alias? list = some a := by
  cases e <;> simp [fields] at h <;> obtain ⟨rfl, rfl⟩ := h <;> rfl

end Entity

/-! ## Canonical fields -/

/-- One value as the list that it stands for; null stands for none. -/
def asList : Json → Option Json
  | .null => none
  | .array items => some (.array items)
  | j => some (.array [j])

/-- The list that is given by its one value. -/
def Entity.spelled (e : Entity) (list : String) (fields : Fields) : Option Json :=
  (e.alias? list).bind fun a => (given a fields).bind asList

theorem canonicalValue_plain (j : Json) : canonicalValue .plain j = j := by
  cases j <;> rfl

theorem canonicalValue_single (list : String) (j : Json) : canonicalValue (.single list) j = j := by
  cases j <;> rfl

theorem addField_single (done : Fields) (name list : String) (j : Json) :
    addField done name (.single list) j =
      match asList j with
      | none => done
      | some v => if done.has list then done else done ++ [(list, v)] := by
  cases j <;> rfl

theorem get?_addField_single (done : Fields) (name list : String) (j : Json) (key : String) :
    (addField done name (.single list) j).get? key =
      (done.get? key).or (if list = key then asList j else none) := by
  rw [addField_single]
  cases hj : asList j with
  | none => simp
  | some v =>
    dsimp only
    by_cases hlist : list = key
    · subst hlist
      rw [if_pos rfl, Fields.has_eq]
      cases hget : done.get? list with
      | none =>
        rw [if_neg (by simp), Fields.get?_append, hget, Fields.get?_cons, if_pos rfl]
      | some w =>
        rw [if_pos (by simp), hget]
        rfl
    · rw [if_neg hlist]
      split
      · rw [Option.or_none]
      · rw [Fields.get?_append, Fields.get?_cons, if_neg hlist]
        rfl

/-- What a field of an entity adds under the name of another field. -/
theorem get?_canonicalField_of_ne {e : Entity} {name : String} {f : String × Json}
    (hname : ¬sameName f.1 name = true) (hlist : (e.place f.1).2 ≠ .single name) (done : Fields) :
    (canonicalField e done f).get? name = done.get? name := by
  obtain ⟨key, j⟩ := f
  obtain ⟨hsame, -⟩ := e.same_place key
  rw [canonicalField]
  cases hc : (e.place key).2 with
  | single list =>
    have hne : list ≠ name := fun h => hlist (h ▸ hc)
    rw [get?_addField_single, if_neg hne, Option.or_none]
  | plain | one _ | many _ =>
    have hne : (e.place key).1 ≠ name := fun h => hname (h ▸ hsame)
    rw [addField_written rfl, Fields.get?_set, if_neg hne]

/-- What the canonical fields hold under the name of a field that is written. -/
theorem get?_canonicalFields {e : Entity} {name : String} {c : Content}
    (hf : (name, c) ∈ e.writtenFields) {fields : Fields} (hkeys : KeysDiffer fields)
    (done : Fields) : (canonicalFields e done fields).get? name =
      ((given name fields).map (canonicalValue c)).or
        ((done.get? name).or (e.spelled name fields)) := by
  obtain ⟨hmem, hwritten⟩ := List.mem_filter.1 hf
  induction fields generalizing done with
  | nil =>
    rw [canonicalFields]
    cases halias : e.alias? name <;> simp [given, Entity.spelled, halias]
  | cons f r ih =>
    obtain ⟨key, j⟩ := f
    rw [canonicalFields, ih hkeys.tail]
    by_cases hname : sameName key name = true
    · have hset : (canonicalField e done (key, j)).get? name = some (canonicalValue c j) := by
        rw [canonicalField, Entity.place_of_same hmem hname, addField_written hwritten,
          Fields.get?_set, if_pos rfl]
      rw [hkeys.given_tail hname, given_cons_of_same hname, hset]
      rfl
    rw [given_cons_of_ne hname]
    by_cases halias : ∃ a, e.alias? name = some a ∧ sameName key a = true
    · obtain ⟨a, ha, hsame⟩ := halias
      have hadd : (canonicalField e done (key, j)).get? name = (done.get? name).or (asList j) := by
        rw [canonicalField, Entity.place_of_same (Entity.mem_fields_of_alias? ha) hsame,
          canonicalValue_single, get?_addField_single, if_pos rfl]
      unfold Entity.spelled
      rw [ha, Option.bind_some, Option.bind_some, hkeys.given_tail hsame,
        given_cons_of_same hsame, hadd]
      simp
    · have hlist : (e.place key).2 ≠ .single name := by
        intro hc
        obtain ⟨hsame, hplace | hplain⟩ := e.same_place key
        · refine halias ⟨(e.place key).1, Entity.alias?_of_mem ?_, hsame⟩
          rw [← hc]
          exact hplace
        · rw [hplain] at hc
          cases hc
      have hspelled : e.spelled name ((key, j) :: r) = e.spelled name r := by
        unfold Entity.spelled
        cases ha : e.alias? name with
        | none => rfl
        | some a =>
          rw [Option.bind_some, Option.bind_some,
            given_cons_of_ne fun hsame => halias ⟨a, ha, hsame⟩]
      rw [get?_canonicalField_of_ne (f := (key, j)) hname hlist, hspelled]

/-- The keys of canonical fields are distinct. -/
theorem nodup_canonicalFields (e : Entity) (fields : Fields) {done : Fields}
    (h : (done.map (·.1)).Nodup) : ((canonicalFields e done fields).map (·.1)).Nodup := by
  induction fields generalizing done with
  | nil =>
    rw [canonicalFields]
    exact h
  | cons f r ih =>
    obtain ⟨key, j⟩ := f
    rw [canonicalFields]
    refine ih ?_
    rw [canonicalField]
    cases (e.place key).2 with
    | single list =>
      rw [addField_single]
      split
      · exact h
      · split
        · exact h
        · next hhas =>
          rw [Fields.has_eq, Fields.get?_isSome_iff] at hhas
          rw [List.map_append, List.nodup_append]
          refine ⟨h, List.nodup_singleton list, fun a ha b hb hab => hhas ?_⟩
          obtain rfl : b = list := List.mem_singleton.1 hb
          exact hab ▸ ha
    | plain | one _ | many _ => exact Fields.nodup_set h _ _

end SchemaInstaller
