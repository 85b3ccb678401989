import SchemaInstaller.Proofs.Manifest.Canonical

/-!
# What travels through a document

A value of a manifest is written as a document that the reader takes back, that renaming leaves
alone, and that the decoder takes to the value (`Travels`). A record travels if its fields do, in
the order of its entity (`Conveys`).
-/

namespace SchemaInstaller

open Json

/-- A document of some content that brings a value through writing and reading. -/
structure Travels (c : Content) (depth : Nat) (d : Decoder α) (j : Json) (a : α) : Prop where
  readable : Readable depth j
  canonical : canonicalValue c j = j
  decoded : d j = .ok a

/-! ## Simple values -/

section
variable {depth : Nat}

theorem travels_string (s : String) : Travels .plain depth Decode.string (.string s) s :=
  ⟨.string depth s, rfl, rfl⟩

theorem travels_some (s : String) :
    Travels .plain depth (Decode.option Decode.string) (.string s) (some s) :=
  ⟨.string depth s, rfl, rfl⟩

theorem travels_bool (b : Bool) : Travels .plain depth Decode.bool (.bool b) b :=
  ⟨.bool depth b, rfl, rfl⟩

theorem travels_int64 (n : Int64) : Travels .plain depth Decode.int64 (.ofInt64 n) n := by
  have hlow : -9223372036854775808 ≤ n.toInt := Int64.le_toInt n
  have hhigh : n.toInt ≤ 9223372036854775807 := Int64.toInt_le n
  have hfits : fitsInteger n.toInt = true := by
    simp only [fitsInteger, Bool.and_eq_true, decide_eq_true_eq]
    omega
  have hof : Integer.ofInt64 n = ⟨n.toInt, hfits⟩ := by
    rw [Integer.ofInt64, Integer.ofInt?, dif_pos hfits]
    rfl
  have hrange : (decide (-9223372036854775808 ≤ n.toInt) &&
      decide (n.toInt ≤ 9223372036854775807)) = true := by
    simp only [hlow, hhigh, decide_true, Bool.and_self]
  refine ⟨.integer depth _, rfl, ?_⟩
  rw [ofInt64, hof, Decode.int64, Decode.integer, if_pos hrange]
  show Except.ok (Int64.ofInt n.toInt) = _
  rw [Int64.ofInt_toInt]

theorem mapM_map {d : β → Except Mismatch α} {f : α → β} {xs : List α}
    (h : ∀ x ∈ xs, d (f x) = .ok x) : (xs.map f).mapM d = .ok xs := by
  induction xs with
  | nil => rfl
  | cons x r ih =>
    rw [List.map_cons, List.mapM_cons, h x List.mem_cons_self,
      ih fun y hy => h y (List.mem_cons_of_mem x hy)]
    rfl

theorem readable_array {f : α → Json} {xs : List α} (h : ∀ x ∈ xs, Readable depth (f x)) :
    Readable (depth + 1) (.array (xs.map f)) := by
  refine .array fun v hv => ?_
  obtain ⟨x, hx, rfl⟩ := List.mem_map.1 hv
  exact h x hx

/-- A list of plain values. -/
theorem travels_list {d : Decoder α} {f : α → Json} (xs : List α)
    (h : ∀ x ∈ xs, Travels .plain depth d (f x) x) :
    Travels .plain (depth + 1) (Decode.list d) (.array (xs.map f)) xs where
  readable := readable_array fun x hx => (h x hx).readable
  canonical := rfl
  decoded := mapM_map fun x hx => (h x hx).decoded

theorem travels_strings (xs : List String) :
    Travels .plain (depth + 1) (Decode.list Decode.string) (.ofStrings xs) xs :=
  travels_list xs fun x _ => travels_string x

/-- A list of entities. -/
theorem travels_entities {e : Entity} {d : Decoder α} {f : α → Json} (xs : List α)
    (h : ∀ x ∈ xs, Travels (.one e) depth d (f x) x) :
    Travels (.many e) (depth + 1) (Decode.list d) (.array (xs.map f)) xs where
  readable := readable_array fun x hx => (h x hx).readable
  canonical := by
    have hitems : canonicalItems e (xs.map f) = xs.map f := by
      refine canonicalItems_eq fun v hv => ?_
      obtain ⟨x, hx, rfl⟩ := List.mem_map.1 hv
      exact (h x hx).canonical
    rw [canonicalValue, hitems]
  decoded := mapM_map fun x hx => (h x hx).decoded

end

/-! ## Seed rows -/

namespace SeedValue

/-- Whether a value is anything but a floating-point number. -/
def isWhole : SeedValue → Bool
  | number (.real _) => false
  | _ => true

theorem readable {v : SeedValue} (h : v.isWhole = true) (depth : Nat) :
    Readable depth v.toJson := by
  cases v with
  | null => exact .null depth
  | bool b => exact .bool depth b
  | number n =>
    cases n with
    | integer i => exact .integer depth i
    | real x => exact nomatch h
  | string s => exact .string depth s

theorem decode_toJson (v : SeedValue) : decode v.toJson = .ok v := by
  cases v <;> rfl

end SeedValue

namespace SeedRow

theorem ext_cells {row other : SeedRow} (h : row.cells = other.cells) : row = other := by
  cases row
  cases other
  cases h
  rfl

/-- A column that is not there is set at the end. -/
theorem cells_set {row : SeedRow} {column : String} (h : column ∉ row.columns) (v : SeedValue) :
    (row.set column v).cells = row.cells ++ [(column, v)] := by
  have hcells : ∀ cells : SeedCells, column ∉ cells.map (·.1) →
      cells.set column v = cells ++ [(column, v)] := by
    intro cells
    induction cells with
    | nil => exact fun _ => rfl
    | cons cell r ih =>
      intro hnew
      rw [List.map_cons, List.mem_cons, not_or] at hnew
      rw [SeedCells.set, if_neg (Ne.symm hnew.1), ih hnew.2]
      rfl
  exact hcells row.cells h

/-- Setting new columns one after another keeps their order. -/
theorem cells_foldl_set {row : SeedRow} {cells : SeedCells}
    (h : ((row.cells ++ cells).map (·.1)).Nodup) :
    (cells.foldl (fun row cell => row.set cell.1 cell.2) row).cells = row.cells ++ cells := by
  induction cells generalizing row with
  | nil => rw [List.append_nil, List.foldl_nil]
  | cons cell r ih =>
    have hnew : cell.1 ∉ row.columns := by
      rw [List.map_append, List.map_cons, List.nodup_append] at h
      exact fun hmem => h.2.2 cell.1 hmem cell.1 List.mem_cons_self rfl
    have hset := cells_set hnew cell.2
    rw [List.append_cons] at h ⊢
    rw [List.foldl_cons, ih (hset ▸ h), hset]

/-- The cells of a row make the row again. -/
theorem ofCells_cells (row : SeedRow) : ofCells row.cells = row := by
  have hdistinct : ((empty.cells ++ row.cells).map (·.1)).Nodup := row.distinct
  exact ext_cells (cells_foldl_set hdistinct)

theorem toJson_eq (row : SeedRow) :
    row.toJson = .object (row.cells.map fun cell => (cell.1, cell.2.toJson)) := rfl

/-- A row keeps its columns, also those that are called like fields of a manifest. -/
theorem travels {row : SeedRow} (h : ∀ v ∈ row.values, v.isWhole = true) (depth : Nat) :
    Travels .plain (depth + 1) decode row.toJson row where
  readable := by
    rw [toJson_eq]
    refine .object ?_ fun f hf => ?_
    · rw [List.map_map]
      exact row.distinct
    · obtain ⟨cell, hcell, rfl⟩ := List.mem_map.1 hf
      exact SeedValue.readable (h cell.2 (List.mem_map_of_mem hcell)) depth
  canonical := rfl
  decoded := by
    have hcells : (row.cells.map fun cell => (cell.1, cell.2.toJson)).mapM
        (fun f => (SeedValue.decode f.2).map fun v => (f.1, v)) = .ok row.cells := by
      refine mapM_map fun cell _ => ?_
      rw [SeedValue.decode_toJson]
      rfl
    rw [toJson_eq, decode, hcells]
    exact congrArg Except.ok row.ofCells_cells

end SeedRow

/-! ## Records -/

/-- A field of an entity with its value, if it is written at all. -/
structure Entry where
  name : String
  content : Content
  value? : Option Json

namespace Entry

/-- The field as its entity declares it. -/
def declared (x : Entry) : String × Content := (x.name, x.content)

/-- The fields that are written. -/
def present (entries : List Entry) : Fields :=
  entries.filterMap fun x => x.value?.map fun j => (x.name, j)

theorem mem_present {entries : List Entry} {f : String × Json} (hf : f ∈ present entries) :
    ∃ x ∈ entries, x.name = f.1 ∧ x.value? = some f.2 := by
  obtain ⟨x, hx, hvalue⟩ := List.mem_filterMap.1 hf
  obtain ⟨j, hj, rfl⟩ := Option.map_eq_some_iff.1 hvalue
  exact ⟨x, hx, rfl, hj⟩

theorem nodup_present {entries : List Entry} (hnames : (entries.map name).Nodup) :
    ((present entries).map (·.1)).Nodup := by
  have hsub : List.Sublist ((present entries).map (·.1)) (entries.map name) := by
    induction entries with
    | nil => exact .slnil
    | cons x r ih =>
      have hr := ih (List.nodup_cons.1 hnames).2
      obtain ⟨key, c, value?⟩ := x
      cases value? with
      | none => exact hr.cons key
      | some j => exact hr.cons_cons key
  exact hnames.sublist hsub

/-- A field is found in the object if and only if it is written. -/
theorem get?_present {entries : List Entry} (hnames : (entries.map name).Nodup) {x : Entry}
    (hx : x ∈ entries) : (present entries).get? x.name = x.value? := by
  cases hvalue : x.value? with
  | some j =>
    have hmem : (x.name, j) ∈ present entries :=
      List.mem_filterMap.2 ⟨x, hx, by rw [hvalue]; rfl⟩
    exact Fields.get?_of_mem (nodup_present hnames) hmem
  | none =>
    have hfind : (present entries).find? (fun f => f.1 == x.name) = none := by
      refine List.find?_eq_none.2 fun f hf hkey => ?_
      obtain ⟨y, hy, hname, hwritten⟩ := mem_present hf
      have hsame : y = x :=
        List.inj_on_of_nodup_map hnames hy hx (hname.trans (beq_iff_eq.1 hkey))
      rw [hsame, hvalue] at hwritten
      exact nomatch hwritten
    rw [Fields.get?, hfind]
    rfl

end Entry

/-- Entries that a record takes to a value, wherever else in an object they stand. -/
structure Conveys (depth : Nat) (r : Record α) (entries : List Entry) (a : α) : Prop where
  values : ∀ x ∈ entries, ∀ j, x.value? = some j →
    canonicalValue x.content j = j ∧ Readable depth j
  reads : ∀ fields : Fields, (fields.map (·.1)).Nodup →
    (∀ x ∈ entries, fields.get? x.name = x.value?) → r.Reads fields a

namespace Conveys

variable {depth : Nat}

/-- A field that is written. -/
theorem field (name : String) {c : Content} {d : Decoder α} {j : Json} {a : α}
    (h : Travels c depth d j a) (default? : Option α) :
    Conveys depth (.field name d default?) [⟨name, c, some j⟩] a where
  values x hx v hv := by
    obtain rfl := List.mem_singleton.1 hx
    obtain rfl := Option.some.inj hv
    exact ⟨h.canonical, h.readable⟩
  reads fields hkeys hget :=
    .present hkeys default? (hget _ List.mem_cons_self) h.decoded

/-- A text that is left out if it is absent. -/
theorem text? (name : String) (s : Option String) :
    Conveys depth (optionalText name) [⟨name, .plain, s.map .string⟩] s := by
  cases s with
  | some s => exact field name (travels_some s) (some none)
  | none =>
    refine ⟨fun x hx v hv => ?_, fun fields _ hget => ?_⟩
    · obtain rfl := List.mem_singleton.1 hx
      exact nomatch hv
    · exact .absent _ (hget _ List.mem_cons_self)

theorem map {r : Record α} {entries : List Entry} {a : α} (h : Conveys depth r entries a)
    (f : α → β) : Conveys depth (f <$> r) entries (f a) :=
  ⟨h.values, fun fields hkeys hget => (h.reads fields hkeys hget).map f⟩

theorem seq {f : Record (α → β)} {r : Record α} {left right : List Entry} {g : α → β} {a : α}
    (hf : Conveys depth f left g) (hr : Conveys depth r right a) :
    Conveys depth (f <*> r) (left ++ right) (g a) where
  values x hx := (List.mem_append.1 hx).elim (hf.values x) (hr.values x)
  reads fields hkeys hget :=
    (hf.reads fields hkeys fun x hx => hget x (List.mem_append_left right hx)).seq
      (hr.reads fields hkeys fun x hx => hget x (List.mem_append_right left hx))

/-- An entity travels if its entries are the fields that may be written. -/
theorem travels {e : Entity} {r : Record α} {entries : List Entry} {a : α} {j : Json}
    (h : Conveys depth r entries a) (hdeclared : entries.map Entry.declared = e.writtenFields)
    (hj : j = .object (Entry.present entries)) (name : String) :
    Travels (.one e) (depth + 1) (r.decoder name) j a := by
  have hnames : (entries.map Entry.name).Nodup := by
    have hmap : (entries.map Entry.declared).map (·.1) = entries.map Entry.name := List.map_map
    rw [← hmap, hdeclared]
    exact e.nodup_writtenNames
  have hkeys := Entry.nodup_present hnames
  subst hj
  refine ⟨.object hkeys fun f hf => ?_, ?_, ?_⟩
  · obtain ⟨x, hx, -, hvalue⟩ := Entry.mem_present hf
    exact (h.values x hx f.2 hvalue).2
  · have hfields : canonicalFields e [] (Entry.present entries) = [] ++ Entry.present entries := by
      refine canonicalFields_eq_append hkeys fun f hf => ?_
      obtain ⟨x, hx, hname, hvalue⟩ := Entry.mem_present hf
      refine ⟨x.content, ?_, (h.values x hx f.2 hvalue).1⟩
      rw [← hdeclared, ← hname]
      exact List.mem_map_of_mem hx
    rw [canonicalValue, hfields, List.nil_append]
  · exact (h.reads _ hkeys fun x hx => Entry.get?_present hnames hx).decoder name

end Conveys

end SchemaInstaller
