import SchemaInstaller.Proofs.Manifest.Travels

/-!
# Manifests are read back as they were written

Each kind of entity travels, from columns up to tables and from parameters up to procedures, and so
does a manifest. Its text is read back as the manifest itself (`Manifest.ofText_toText`): every list
and the columns of every seed row in their order, and an absent text, an empty one and an empty list
kept apart.
-/

namespace SchemaInstaller

open Json

variable {depth : Nat}

/-! ## Tables -/

theorem Column.travels (c : Column) :
    Travels (.one .column) (depth + 1) decode c.toJson c := by
  have h : Conveys depth _ _ _ :=
    (Conveys.field "name" (travels_string c.name) none).map Column.mk
      |>.seq (.field "type" (travels_string c.dataType) none)
      |>.seq (.field "nullable" (travels_bool c.nullable) (some false))
      |>.seq (.field "autoIncrement" (travels_bool c.autoIncrement) (some false))
      |>.seq (.field "primaryKey" (travels_bool c.primaryKey) (some false))
      |>.seq (.text? "default" c.default?)
      |>.seq (.text? "comment" c.comment)
  refine h.travels rfl ?_ "Column"
  unfold toJson
  cases c.default? <;> cases c.comment <;> rfl

theorem Index.travels (i : Index) : Travels (.one .index) (depth + 2) decode i.toJson i := by
  have h : Conveys (depth + 1) _ _ _ :=
    (Conveys.field "name" (travels_string i.name) none).map Index.mk
      |>.seq (.field "columns" (travels_strings i.columns) (some []))
      |>.seq (.field "unique" (travels_bool i.unique) (some false))
  exact h.travels rfl rfl "Index"

theorem Constraint.travels (c : Constraint) :
    Travels (.one .constraint) (depth + 2) decode c.toJson c := by
  have h : Conveys (depth + 1) _ _ _ :=
    (Conveys.field "name" (travels_string c.name) none).map Constraint.mk
      |>.seq (.field "type" (travels_string c.kind) none)
      |>.seq (.field "columns" (travels_strings c.columns) (some []))
  exact h.travels rfl rfl "Constraint"

theorem Reference.travels (r : Reference) :
    Travels (.one .reference) (depth + 2) decode r.toJson r := by
  have h : Conveys (depth + 1) _ _ _ :=
    (Conveys.field "table" (travels_string r.table) none).map Reference.mk
      |>.seq (.field "columns" (travels_strings r.columns) (some []))
  exact h.travels rfl rfl "ForeignKeyReference"

theorem ForeignKey.travels (k : ForeignKey) :
    Travels (.one .foreignKey) (depth + 3) decode k.toJson k := by
  have h : Conveys (depth + 2) _ _ _ :=
    (Conveys.field "name" (travels_string k.name) none).map ForeignKey.mk
      |>.seq (.field "columns" (travels_strings k.columns) (some []))
      |>.seq (.field "references" k.references.travels none)
      |>.seq (.text? "onUpdate" k.onUpdate)
      |>.seq (.text? "onDelete" k.onDelete)
  refine h.travels rfl ?_ "ForeignKey"
  unfold toJson
  cases k.onUpdate <;> cases k.onDelete <;> rfl

theorem Table.travels {t : Table}
    (hseed : ∀ row ∈ t.seedData, ∀ v ∈ row.values, v.isWhole = true) :
    Travels (.one .table) (depth + 5) decode t.toJson t := by
  have h : Conveys (depth + 4) _ _ _ :=
    (Conveys.field "name" (travels_string t.name) none).map Table.mk
      |>.seq (.field "nameOriginal" (travels_string t.sourceName) (some ""))
      |>.seq (.field "fullName" (travels_string t.fullName) (some ""))
      |>.seq (.text? "comment" t.comment)
      |>.seq (.field "rowLimit" (travels_int64 t.rowLimit) (some 0))
      |>.seq (.field "skip" (travels_bool t.skip) (some false))
      |>.seq (.field "columns" (travels_entities t.columns fun c _ => c.travels) (some []))
      |>.seq (.field "indexes" (travels_entities t.indexes fun i _ => i.travels) (some []))
      |>.seq (.field "constraints" (travels_entities t.constraints fun c _ => c.travels) (some []))
      |>.seq (.field "foreignKeys" (travels_entities t.foreignKeys fun k _ => k.travels) (some []))
      |>.seq (.field "seedData"
        (travels_list t.seedData fun row hrow => row.travels (hseed row hrow) _) (some []))
  refine h.travels rfl ?_ "Table"
  unfold toJson
  cases t.comment <;> rfl

/-! ## Views, procedures and triggers -/

theorem View.travels (v : View) : Travels (.one .view) (depth + 1) decode v.toJson v := by
  have h : Conveys depth _ _ _ :=
    (Conveys.field "name" (travels_string v.name) none).map View.mk
      |>.seq (.field "nameOriginal" (travels_string v.sourceName) (some ""))
      |>.seq (.field "fullName" (travels_string v.fullName) (some ""))
      |>.seq (.field "definition" (travels_string v.definition) (some ""))
      |>.seq (.text? "comment" v.comment)
  refine h.travels rfl ?_ "View"
  unfold toJson
  cases v.comment <;> rfl

theorem travels_mode (m : ParameterMode) :
    Travels .plain depth (Decode.variant ParameterMode.named) (.string m.keyword) m := by
  refine ⟨.string depth m.keyword, rfl, ?_⟩
  cases m <;> rfl

theorem Parameter.travels (p : Parameter) :
    Travels (.one .parameter) (depth + 1) decode p.toJson p := by
  have h : Conveys depth _ _ _ :=
    (Conveys.field "mode" (travels_mode p.mode) (some .input)).map Parameter.mk
      |>.seq (.field "name" (travels_string p.name) none)
      |>.seq (.field "type" (travels_string p.dataType) none)
  exact h.travels rfl rfl "Parameter"

theorem Procedure.travels (p : Procedure) :
    Travels (.one .procedure) (depth + 3) decode p.toJson p := by
  have h : Conveys (depth + 2) _ _ _ :=
    (Conveys.field "name" (travels_string p.name) none).map Procedure.mk
      |>.seq (.field "nameOriginal" (travels_string p.sourceName) (some ""))
      |>.seq (.field "fullName" (travels_string p.fullName) (some ""))
      |>.seq (.field "parameters" (travels_entities p.parameters fun q _ => q.travels) (some []))
      |>.seq (.field "definition" (travels_string p.definition) (some ""))
      |>.seq (.text? "comment" p.comment)
  refine h.travels rfl ?_ "StoredProcedure"
  unfold toJson
  cases p.comment <;> rfl

theorem Trigger.travels (t : Trigger) : Travels (.one .trigger) (depth + 1) decode t.toJson t := by
  have h : Conveys depth _ _ _ :=
    (Conveys.field "name" (travels_string t.name) none).map Trigger.mk
      |>.seq (.field "nameOriginal" (travels_string t.sourceName) (some ""))
      |>.seq (.field "fullName" (travels_string t.fullName) (some ""))
      |>.seq (.field "event" (travels_string t.event) (some ""))
      |>.seq (.field "table" (travels_string t.table) none)
      |>.seq (.field "definition" (travels_string t.definition) (some ""))
      |>.seq (.text? "comment" t.comment)
  refine h.travels rfl ?_ "Trigger"
  unfold toJson
  cases t.comment <;> rfl

/-! ## Manifests -/

theorem travels_instant {i : Instant} (h : Instant.ofText i.toText = .ok i) :
    Travels .plain depth Instant.decode (.string i.toText) i := by
  refine ⟨.string depth i.toText, rfl, ?_⟩
  rw [Instant.decode, h]
  rfl

namespace Manifest

/-- The seed rows hold no floating-point number. -/
def HasWholeSeeds (m : Manifest) : Prop :=
  ∀ t ∈ m.tables, ∀ row ∈ t.seedData, ∀ v ∈ row.values, v.isWhole = true

theorem travels {m : Manifest} (hseeds : m.HasWholeSeeds)
    (hinstant : Instant.ofText m.generatedAt.toText = .ok m.generatedAt) (now : Instant) :
    Travels (.one .manifest) (depth + 7) (decode now) m.toJson m := by
  have h : Conveys (depth + 6) _ _ _ :=
    (Conveys.field "database" (travels_string m.database) (some "")).map Manifest.mk
      |>.seq (.field "generatedAt" (travels_instant hinstant) (some now))
      |>.seq (.field "defaultPrefix" (travels_string m.defaultPrefix) (some defaultTablePrefix))
      |>.seq (.field "installerClass" (travels_string m.installerClass)
        (some defaultInstallerClass))
      |>.seq (.field "includeSeedData" (travels_bool m.includeSeedData) (some false))
      |>.seq (.field "tables" (travels_entities m.tables fun t ht => t.travels (hseeds t ht))
        (some []))
      |>.seq (.field "views" (travels_entities m.views fun v _ => v.travels) (some []))
      |>.seq (.field "storedProcedures"
        (travels_entities m.storedProcedures fun p _ => p.travels) (some []))
      |>.seq (.field "triggers" (travels_entities m.triggers fun t _ => t.travels) (some []))
  exact h.travels rfl rfl "Manifest"

/-- A manifest that is written is read back as it was, whenever that happens. -/
theorem ofText_toText (m : Manifest) (hseeds : m.HasWholeSeeds)
    (hinstant : Instant.ofText m.generatedAt.toText = .ok m.generatedAt) (now : Instant) :
    ofText now m.toText = .ok m := by
  have h : Travels (.one .manifest) (120 + 7) (decode now) m.toJson m :=
    travels hseeds hinstant now
  have hread : Json.read m.toText = .ok m.toJson := read_pretty h.readable
  obtain ⟨fields, hfields⟩ : ∃ fields, m.toJson = .object fields := ⟨_, rfl⟩
  rw [hfields] at h hread
  rw [ofText, hread]
  show ofJson now (.object fields) = _
  rw [ofJson, h.canonical, h.decoded]
  rfl

/-- A manifest with a seed row for each kind of value, in columns that are called like fields in
another case, and with an empty comment beside an absent one. -/
def fieldNamesAsColumns : Manifest :=
  let tables := [
    { name := "items", sourceName := "wp_items", fullName := "shop.wp_items", comment := some "",
      rowLimit := .ofInt 10, skip := false,
      columns := [⟨"NAME", "text", true, false, false, some "", none⟩],
      indexes := [⟨"by\x22name\n", ["NAME"], false⟩], constraints := [],
      foreignKeys := [⟨"f", ["a", "b"], ⟨"others", []⟩, none, some ""⟩],
      seedData := [
        ⟨[("NAME", .string ""), ("Columns", .null), ("columns", .bool false),
          ("column", .number (.integer ⟨18446744073709551615, by decide⟩)),
          ("a", .number (.integer ⟨-9223372036854775808, by decide⟩))], by decide⟩,
        .empty] }]
  { empty "shop" "wp_" .epoch with tables }

theorem ofText_fieldNamesAsColumns : fieldNamesAsColumns.HasWholeSeeds ∧
    Instant.ofText fieldNamesAsColumns.generatedAt.toText = .ok fieldNamesAsColumns.generatedAt ∧
      ofText .epoch fieldNamesAsColumns.toText = .ok fieldNamesAsColumns := by
  have hseeds : fieldNamesAsColumns.HasWholeSeeds := by
    unfold HasWholeSeeds
    decide
  have hinstant : Instant.ofText Instant.epoch.toText = .ok .epoch := by
    unfold Instant.ofText Instant.toText
    rw [String.toList_ofList]
    decide +kernel
  exact ⟨hseeds, hinstant, ofText_toText fieldNamesAsColumns hseeds hinstant .epoch⟩

end Manifest

end SchemaInstaller
