import SchemaInstaller.Proofs.Manifest.Rearrangement

/-!
# Key casing and key order make no difference

Each kind of entity is read alike from alike documents, from columns up to tables and from
parameters up to procedures, and so is a manifest (`Manifest.ofJson_of_alike`). The columns of a
foreign key are those of the list, if there is one, wherever a single column stands.
-/

namespace SchemaInstaller

open Json

/-! ## Entities -/

theorem Column.indifferent : Indifferent (.one .column) decode := by
  have h : IndifferentRecord .column _ _ :=
    (IndifferentRecord.plain "name" Decode.string none).map Column.mk
      |>.seq (.plain "type" Decode.string none)
      |>.seq (.plain "nullable" Decode.bool (some false))
      |>.seq (.plain "autoIncrement" Decode.bool (some false))
      |>.seq (.plain "primaryKey" Decode.bool (some false))
      |>.seq (.plain "default" (Decode.option Decode.string) (some none))
      |>.seq (.plain "comment" (Decode.option Decode.string) (some none))
  exact h.indifferent rfl "Column"

theorem Index.indifferent : Indifferent (.one .index) decode := by
  have h : IndifferentRecord .index _ _ :=
    (IndifferentRecord.plain "name" Decode.string none).map Index.mk
      |>.seq (.plain "columns" (Decode.list Decode.string) (some []))
      |>.seq (.plain "unique" Decode.bool (some false))
  exact h.indifferent rfl "Index"

theorem Constraint.indifferent : Indifferent (.one .constraint) decode := by
  have h : IndifferentRecord .constraint _ _ :=
    (IndifferentRecord.plain "name" Decode.string none).map Constraint.mk
      |>.seq (.plain "type" Decode.string none)
      |>.seq (.plain "columns" (Decode.list Decode.string) (some []))
  exact h.indifferent rfl "Constraint"

theorem Reference.indifferent : Indifferent (.one .reference) decode := by
  have h : IndifferentRecord .reference _ _ :=
    (IndifferentRecord.plain "table" Decode.string none).map Reference.mk
      |>.seq (.plain "columns" (Decode.list Decode.string) (some []))
  exact h.indifferent rfl "ForeignKeyReference"

theorem ForeignKey.indifferent : Indifferent (.one .foreignKey) decode := by
  have h : IndifferentRecord .foreignKey _ _ :=
    (IndifferentRecord.plain "name" Decode.string none).map ForeignKey.mk
      |>.seq (.plain "columns" (Decode.list Decode.string) (some []))
      |>.seq (.field "references" Reference.indifferent none)
      |>.seq (.plain "onUpdate" (Decode.option Decode.string) (some none))
      |>.seq (.plain "onDelete" (Decode.option Decode.string) (some none))
  exact h.indifferent rfl "ForeignKey"

theorem Table.indifferent : Indifferent (.one .table) decode := by
  have h : IndifferentRecord .table _ _ :=
    (IndifferentRecord.plain "name" Decode.string none).map Table.mk
      |>.seq (.plain "nameOriginal" Decode.string (some ""))
      |>.seq (.plain "fullName" Decode.string (some ""))
      |>.seq (.plain "comment" (Decode.option Decode.string) (some none))
      |>.seq (.plain "rowLimit" Decode.int64 (some 0))
      |>.seq (.plain "skip" Decode.bool (some false))
      |>.seq (.field "columns" Column.indifferent.list (some []))
      |>.seq (.field "indexes" Index.indifferent.list (some []))
      |>.seq (.field "constraints" Constraint.indifferent.list (some []))
      |>.seq (.field "foreignKeys" ForeignKey.indifferent.list (some []))
      |>.seq (.plain "seedData" (Decode.list SeedRow.decode) (some []))
  exact h.indifferent rfl "Table"

theorem View.indifferent : Indifferent (.one .view) decode := by
  have h : IndifferentRecord .view _ _ :=
    (IndifferentRecord.plain "name" Decode.string none).map View.mk
      |>.seq (.plain "nameOriginal" Decode.string (some ""))
      |>.seq (.plain "fullName" Decode.string (some ""))
      |>.seq (.plain "definition" Decode.string (some ""))
      |>.seq (.plain "comment" (Decode.option Decode.string) (some none))
  exact h.indifferent rfl "View"

theorem Parameter.indifferent : Indifferent (.one .parameter) decode := by
  have h : IndifferentRecord .parameter _ _ :=
    (IndifferentRecord.plain "mode" (Decode.variant ParameterMode.named) (some .input)).map
        Parameter.mk
      |>.seq (.plain "name" Decode.string none)
      |>.seq (.plain "type" Decode.string none)
  exact h.indifferent rfl "Parameter"

theorem Procedure.indifferent : Indifferent (.one .procedure) decode := by
  have h : IndifferentRecord .procedure _ _ :=
    (IndifferentRecord.plain "name" Decode.string none).map Procedure.mk
      |>.seq (.plain "nameOriginal" Decode.string (some ""))
      |>.seq (.plain "fullName" Decode.string (some ""))
      |>.seq (.field "parameters" Parameter.indifferent.list (some []))
      |>.seq (.plain "definition" Decode.string (some ""))
      |>.seq (.plain "comment" (Decode.option Decode.string) (some none))
  exact h.indifferent rfl "StoredProcedure"

theorem Trigger.indifferent : Indifferent (.one .trigger) decode := by
  have h : IndifferentRecord .trigger _ _ :=
    (IndifferentRecord.plain "name" Decode.string none).map Trigger.mk
      |>.seq (.plain "nameOriginal" Decode.string (some ""))
      |>.seq (.plain "fullName" Decode.string (some ""))
      |>.seq (.plain "event" Decode.string (some ""))
      |>.seq (.plain "table" Decode.string none)
      |>.seq (.plain "definition" Decode.string (some ""))
      |>.seq (.plain "comment" (Decode.option Decode.string) (some none))
  exact h.indifferent rfl "Trigger"

theorem Manifest.indifferent (now : Instant) : Indifferent (.one .manifest) (decode now) := by
  have h : IndifferentRecord .manifest _ _ :=
    (IndifferentRecord.plain "database" Decode.string (some "")).map Manifest.mk
      |>.seq (.plain "generatedAt" Instant.decode (some now))
      |>.seq (.plain "defaultPrefix" Decode.string (some defaultTablePrefix))
      |>.seq (.plain "installerClass" Decode.string (some defaultInstallerClass))
      |>.seq (.plain "includeSeedData" Decode.bool (some false))
      |>.seq (.field "tables" Table.indifferent.list (some []))
      |>.seq (.field "views" View.indifferent.list (some []))
      |>.seq (.field "storedProcedures" Procedure.indifferent.list (some []))
      |>.seq (.field "triggers" Trigger.indifferent.list (some []))
  exact h.indifferent rfl "Manifest"

/-! ## Columns in place of a column -/

/-- A list of columns under its name in some case is what the canonical fields hold. -/
theorem get?_columns {e : Entity} (he : ("columns", .plain) ∈ e.writtenFields) {fields : Fields}
    (hdiffer : KeysDiffer fields) {f : String × Json} (hf : f ∈ fields)
    (hname : sameName f.1 "columns" = true) :
    (canonicalFields e [] fields).get? "columns" = some f.2 := by
  rw [get?_canonicalFields he hdiffer, given_of_mem hdiffer hf hname, Option.map_some,
    canonicalValue_plain, Option.some_or]

theorem Reference.columns_eq {fields : Fields} (hdiffer : KeysDiffer fields) {f : String × Json}
    (hf : f ∈ fields) (hname : sameName f.1 "columns" = true) {r : Reference}
    (h : decode (canonicalValue (.one .reference) (.object fields)) = .ok r) :
    Decode.list Decode.string f.2 = .ok r.columns := by
  have hget := get?_columns (e := .reference) (List.mem_cons_of_mem _ List.mem_cons_self) hdiffer
    hf hname
  rw [canonicalValue] at h
  obtain ⟨-, hbuild⟩ := Record.ofFields_eq_ok_iff.1 h
  obtain ⟨g, columns, hg, hcolumns, rfl⟩ := Record.build_seq_eq_ok.1 hbuild
  obtain ⟨table, -, rfl⟩ := Record.build_map_eq_ok.1 hg
  exact Record.build_field hget hcolumns

theorem ForeignKey.columns_eq {fields : Fields} (hdiffer : KeysDiffer fields) {f : String × Json}
    (hf : f ∈ fields) (hname : sameName f.1 "columns" = true) {k : ForeignKey}
    (h : decode (canonicalValue (.one .foreignKey) (.object fields)) = .ok k) :
    Decode.list Decode.string f.2 = .ok k.columns := by
  have hget := get?_columns (e := .foreignKey) (List.mem_cons_of_mem _ List.mem_cons_self) hdiffer
    hf hname
  rw [canonicalValue] at h
  obtain ⟨-, hbuild⟩ := Record.ofFields_eq_ok_iff.1 h
  obtain ⟨toKey, onDelete, hupdate, -, hkey⟩ := Record.build_seq_eq_ok.1 hbuild
  obtain ⟨withUpdate, onUpdate, hreferences, -, hdelete⟩ := Record.build_seq_eq_ok.1 hupdate
  obtain ⟨withReferences, references, hlist, -, hwith⟩ := Record.build_seq_eq_ok.1 hreferences
  obtain ⟨withColumns, columns, hname, hcolumns, hthen⟩ := Record.build_seq_eq_ok.1 hlist
  obtain ⟨name, -, hmk⟩ := Record.build_map_eq_ok.1 hname
  subst hmk hthen hwith hdelete hkey
  exact Record.build_field hget hcolumns

/-! ## Manifests -/

/-- Alike documents are read as the same manifest or not at all. In a foreign key and its reference
a list of columns is what counts, in whatever case and at whatever place it stands. -/
theorem Manifest.ofJson_of_alike (now : Instant) {j j' : Json} (h : Alike (.one .manifest) j j') :
    ((∃ m, ofJson now j = .ok m ∧ ofJson now j' = .ok m) ∨
        ∃ e e', ofJson now j = .error e ∧ ofJson now j' = .error e') ∧
      ∀ fields : Fields, KeysDiffer fields → ∀ f ∈ fields, sameName f.1 "columns" = true →
        (∀ k, ForeignKey.decode (canonicalValue (.one .foreignKey) (.object fields)) = .ok k →
          Decode.list Decode.string f.2 = .ok k.columns) ∧
        ∀ r, Reference.decode (canonicalValue (.one .reference) (.object fields)) = .ok r →
          Decode.list Decode.string f.2 = .ok r.columns := by
  refine ⟨?_, fun fields hdiffer f hf hname =>
    ⟨fun k hk => ForeignKey.columns_eq hdiffer hf hname hk,
      fun r hr => Reference.columns_eq hdiffer hf hname hr⟩⟩
  have hsame : ∀ m, ofJson now j = .ok m ↔ ofJson now j' = .ok m := by
    intro m
    have hdecode := Manifest.indifferent now j j' h m
    cases h with
    | same => rfl
    | entity =>
      rw [ofJson, ofJson, mapError_eq_ok, mapError_eq_ok]
      exact hdecode
  cases hj : ofJson now j with
  | ok m => exact .inl ⟨m, rfl, (hsame m).1 hj⟩
  | error e =>
    cases hj' : ofJson now j' with
    | ok m =>
      rw [(hsame m).2 hj'] at hj
      cases hj
    | error e' => exact .inr ⟨e, e', rfl, rfl⟩

/-- The fields of an entity in other cases, the last field first. -/
theorem reverse_alike {e : Entity} {f r : Fields} (hlength : f.length = r.length)
    (hkeys : ∀ p ∈ f.zip r, sameName p.1.1 p.2.1 = true)
    (hvalues : ∀ p ∈ f.zip r, Alike (e.place p.1.1).2 p.1.2 p.2.2) (hdiffer : KeysDiffer f) :
    Alike (.one e) (.object f) (.object r.reverse) :=
  .entity hlength hkeys hvalues (List.reverse_perm r).symm hdiffer

/-- The fields of a foreign key with a single column before the list. -/
def orderKey : Fields :=
  [("Name", .string "buyer"), ("Column", .string "shop"),
    ("COLUMNS", .array [.string "user", .string "shop"]),
    ("references", .object [("TABLE", .string "users"), ("column", .string "id")])]

/-- The same in other cases, the list first. -/
def orderKeyReversed : Fields :=
  List.reverse [("name", .string "buyer"), ("column", .string "shop"),
    ("columns", .array [.string "user", .string "shop"]),
    ("References", .object (List.reverse [("table", .string "users"), ("Column", .string "id")]))]

/-- A table of orders with a seed row. -/
def orderBook : Json :=
  .object [("Tables", .array [.object [("NAME", .string "orders"),
      ("ForeignKeys", .array [.object orderKey]),
      ("seedData", .array [.object [("ID", .string "1"), ("user", .string "2")]])]]),
    ("Database", .string "books")]

/-- The same with other cases, the last fields first. -/
def orderBookReversed : Json :=
  .object (List.reverse [("TABLES", .array [.object (List.reverse [("name", .string "orders"),
      ("foreignKeys", .array [.object orderKeyReversed]),
      ("SeedData", .array [.object [("ID", .string "1"), ("user", .string "2")]])])]),
    ("database", .string "books")])

theorem keysDiffer_orderKey : KeysDiffer orderKey := by
  unfold KeysDiffer
  decide +kernel

theorem orderKey_alike :
    Alike (.one .foreignKey) (.object orderKey) (.object orderKeyReversed) := by
  have hreference : Alike (.one .reference) (.object [("TABLE", .string "users"),
      ("column", .string "id")]) (.object (List.reverse [("table", .string "users"),
        ("Column", .string "id")])) := by
    refine reverse_alike rfl (by decide +kernel) (List.forall_mem_cons.2 ⟨.same _ _, ?_⟩)
      (by unfold KeysDiffer; decide +kernel)
    exact List.forall_mem_cons.2 ⟨.same _ _, nofun⟩
  refine reverse_alike rfl (by decide +kernel) ?_ keysDiffer_orderKey
  exact List.forall_mem_cons.2 ⟨.same _ _, List.forall_mem_cons.2 ⟨.same _ _,
    List.forall_mem_cons.2 ⟨.same _ _, List.forall_mem_cons.2 ⟨hreference, nofun⟩⟩⟩⟩

theorem orderBook_alike : Alike (.one .manifest) orderBook orderBookReversed := by
  refine reverse_alike rfl (by decide +kernel) (List.forall_mem_cons.2 ⟨?_, ?_⟩)
    (by unfold KeysDiffer; decide +kernel)
  · refine .items rfl (List.forall_mem_cons.2 ⟨?_, nofun⟩)
    refine reverse_alike rfl (by decide +kernel) (List.forall_mem_cons.2 ⟨.same _ _, ?_⟩)
      (by unfold KeysDiffer; decide +kernel)
    refine List.forall_mem_cons.2 ⟨?_, List.forall_mem_cons.2 ⟨.same _ _, nofun⟩⟩
    exact .items rfl (List.forall_mem_cons.2 ⟨orderKey_alike, nofun⟩)
  · exact List.forall_mem_cons.2 ⟨.same _ _, nofun⟩

theorem Manifest.ofJson_orderBookReversed : Alike (.one .manifest) orderBook orderBookReversed ∧
    (∃ m, ofJson .epoch orderBook = .ok m ∧ ofJson .epoch orderBookReversed = .ok m) ∧
    KeysDiffer orderKey ∧
    ∃ k, ForeignKey.decode (canonicalValue (.one .foreignKey) (.object orderKey)) = .ok k ∧
      Decode.list Decode.string (.array [.string "user", .string "shop"]) = .ok k.columns := by
  have hread : (ofJson .epoch orderBook).isOk = true := by decide +kernel
  have hdecode : (ForeignKey.decode (canonicalValue (.one .foreignKey) (.object orderKey))).isOk =
    true := by decide +kernel
  obtain ⟨hmanifest, hcolumns⟩ := ofJson_of_alike .epoch orderBook_alike
  refine ⟨orderBook_alike, ?_, keysDiffer_orderKey, ?_⟩
  · rcases hmanifest with hok | ⟨e, e', he, -⟩
    · exact hok
    · rw [he] at hread
      cases hread
  · generalize hk : ForeignKey.decode _ = r at hdecode ⊢
    cases r with
    | error e => cases hdecode
    | ok k =>
      have hlist : ("COLUMNS", Json.array [.string "user", .string "shop"]) ∈ orderKey :=
        List.mem_cons_of_mem _ (List.mem_cons_of_mem _ List.mem_cons_self)
      exact ⟨k, rfl, (hcolumns orderKey keysDiffer_orderKey _ hlist (by decide +kernel)).1 k hk⟩

end SchemaInstaller
