import SchemaInstaller.Proofs.Introspection.Grouping
import SchemaInstaller.Proofs.Introspection.Validity
import SchemaInstaller.Proofs.Manifest.Canonical
import SchemaInstaller.Proofs.Manifest.Warnings

/-!
# Where foreign keys of captured tables lead

A captured foreign key keeps the name of the table it points to without the prefix, and the table is
looked up by that name, in any case. It is the right one as long as no other captured table is found
under the name before it (`Unmistaken`). Under the prefix that would have to be one that differs by
case only (`unmistaken_of_startsWith`); for a table outside it is one that is called so behind the
prefix (`unmistaken_iff_of_not_startsWith`). The same decides whether a foreign key to a table that
has not been captured is warned about (`Introspector.foreignKeys_resolve_iff`).
-/

namespace SchemaInstaller

open Introspector (startsWith)
open Run

/-! ## Looking up a table -/

/-- Whichever captured table is found under the name of `target`, it is `target` or comes behind
it. -/
def Unmistaken (tablePrefix : String) (captured : List String) (target : String) : Prop :=
  ∀ n ∈ captured,
    sameName (Sql.stripPrefix tablePrefix n) (Sql.stripPrefix tablePrefix target) = true →
      n = target ∨ [target, n].Sublist captured

instance (tablePrefix : String) (captured : List String) (target : String) :
    Decidable (Unmistaken tablePrefix captured target) := by
  unfold Unmistaken
  infer_instance

theorem Introspection.IsStripped.eq {p name rest : String}
    (h : Introspection.IsStripped p name rest) : rest = Sql.stripPrefix p name := by
  have hstripped := Introspection.isStripped_stripPrefix p name
  rcases h with h | ⟨hnot, rfl⟩ <;> rcases hstripped with hs | ⟨hsnot, hs⟩
  · rw [h] at hs
    exact String.toList_inj.1 (List.append_cancel_left hs)
  · exact absurd ⟨_, h.symm⟩ hsnot
  · exact absurd ⟨_, hs.symm⟩ hnot
  · exact hs.symm

section Unmistaken

variable {p target : String} {captured : List String}
  (hcaptured : ∀ n ∈ captured, startsWith p n = true)
include hcaptured

/-- Under the prefix names have to differ by more than case. -/
theorem unmistaken_of_startsWith (htarget : startsWith p target = true)
    (hdiffer : ∀ n ∈ captured, n ≠ target → sameName n target = false) :
    Unmistaken p captured target := by
  intro n hn hsame
  by_contra! hother
  rw [sameName_stripPrefix (hcaptured n hn) htarget, hdiffer n hn hother.1] at hsame
  cases hsame

/-- Outside of it a table is mistaken just for one that is called like it behind the prefix. -/
theorem unmistaken_iff_of_not_startsWith (htarget : startsWith p target = false) :
    Unmistaken p captured target ↔ ∀ n ∈ captured, sameName n (p ++ target) = false := by
  have hself : Sql.stripPrefix p target = target := by
    refine (Introspection.IsStripped.eq (Or.inr ⟨fun hprefix => ?_, rfl⟩)).symm
    have hstarts : startsWith p target = true := List.isPrefixOf_iff_prefix.2 hprefix
    rw [htarget] at hstarts
    cases hstarts
  have houtside : target ∉ captured := by
    intro hmem
    have hstarts := hcaptured target hmem
    rw [htarget] at hstarts
    cases hstarts
  refine forall₂_congr fun n hn => ?_
  have hsame : sameName n (p ++ target) = sameName (Sql.stripPrefix p n) target := by
    rw [← sameName_append p (Sql.stripPrefix p n), append_stripPrefix (hcaptured n hn)]
  rw [hself, hsame, ← Bool.not_eq_true]
  refine ⟨fun h hfound => ?_, fun h hfound => absurd hfound h⟩
  rcases h hfound with rfl | hsub
  · exact houtside hn
  · exact houtside (hsub.subset List.mem_cons_self)

end Unmistaken

/-- The names of tables are those in their source without the prefix. -/
def StrippedNames (tablePrefix : String) (ts : List Table) : Prop :=
  ∀ t ∈ ts, t.name = Sql.stripPrefix tablePrefix t.sourceName

/-- What stands before a value that comes once stands in front of it. -/
theorem mem_of_pair_sublist {α : Type} {a b : α} {before behind : List α}
    (hnodup : (before ++ b :: behind).Nodup) (h : [a, b].Sublist (before ++ b :: behind)) :
    a ∈ before := by
  have hnot : b ∉ behind := (List.nodup_cons.1 (List.nodup_append.1 hnodup).2.1).1
  obtain ⟨x, y, hxy, hx, hy⟩ := List.sublist_append_iff.1 h
  cases x with
  | cons c x =>
    obtain ⟨rfl, -⟩ := List.cons_eq_cons.1 hxy
    exact hx.subset List.mem_cons_self
  | nil =>
    obtain rfl : [a, b] = y := hxy
    cases hy with
    | cons _ hy => exact absurd (hy.subset (by simp)) hnot
    | cons_cons _ hy => exact absurd (hy.subset List.mem_cons_self) hnot

section Lookup

variable {p target : String} {ts : List Table}

theorem sameName_refl (a : String) : sameName a a = true := sameName_iff.2 rfl

/-- A table is found under a name. -/
def foundAs (name : String) (t : Table) : Bool := sameName t.name name

theorem foundAs_iff (hnames : StrippedNames p ts) {t : Table} (ht : t ∈ ts) (name : String) :
    foundAs name t = sameName (Sql.stripPrefix p t.sourceName) name := by
  rw [foundAs, hnames t ht]

/-- What is found under the name of a table is the table if it cannot be mistaken. -/
theorem find?_foundAs_iff (hnames : StrippedNames p ts) (hnodup : (ts.map (·.sourceName)).Nodup) :
    (∀ u, ts.find? (foundAs (Sql.stripPrefix p target)) = some u → u.sourceName = target) ↔
      Unmistaken p (ts.map (·.sourceName)) target := by
  unfold Unmistaken
  rw [List.forall_mem_map]
  constructor
  · intro h t ht hsame
    rw [← foundAs_iff hnames ht] at hsame
    obtain ⟨u, hu⟩ := Option.isSome_iff_exists.1 (List.find?_isSome.2 ⟨t, ht, hsame⟩)
    obtain ⟨-, before, behind, rfl, hbefore⟩ := List.find?_eq_some_iff_append.1 hu
    obtain rfl := h u hu
    rcases List.mem_append.1 ht with ht | ht
    · have hnot := hbefore t ht
      rw [hsame] at hnot
      cases hnot
    · rcases List.mem_cons.1 ht with rfl | ht
      · exact Or.inl rfl
      · have hsub : [u, t].Sublist (before ++ u :: behind) :=
          ((List.singleton_sublist.2 ht).cons_cons u).trans (List.sublist_append_right before _)
        exact Or.inr (hsub.map Table.sourceName)
  · intro h u hu
    obtain ⟨hfound, before, behind, rfl, hbefore⟩ := List.find?_eq_some_iff_append.1 hu
    have hmem : u ∈ before ++ u :: behind := by simp
    rw [foundAs_iff hnames hmem] at hfound
    rcases h u hmem hfound with heq | hsub
    · exact heq
    -- the target would stand before, and it is found under its own name
    · rw [List.map_append, List.map_cons] at hsub hnodup
      obtain ⟨t, ht, htarget⟩ := List.mem_map.1 (mem_of_pair_sublist hnodup hsub)
      have hself := foundAs_iff hnames (List.mem_append_left _ ht) (Sql.stripPrefix p target)
      have hnot := hbefore t ht
      rw [hself, htarget, sameName_refl] at hnot
      cases hnot

/-- Nothing is found under the name of a table outside if it cannot be mistaken. -/
theorem find?_foundAs_eq_none_iff (hnames : StrippedNames p ts)
    (htarget : target ∉ ts.map (·.sourceName)) :
    ts.find? (foundAs (Sql.stripPrefix p target)) = none ↔
      Unmistaken p (ts.map (·.sourceName)) target := by
  unfold Unmistaken
  rw [List.find?_eq_none, List.forall_mem_map]
  refine forall₂_congr fun t ht => ?_
  rw [foundAs_iff hnames ht]
  refine imp_congr_right fun _ => iff_of_false id ?_
  rintro (heq | hsub)
  · exact htarget (heq ▸ List.mem_map_of_mem ht)
  · exact htarget (hsub.subset List.mem_cons_self)

end Lookup

/-! ## Warnings about foreign keys -/

namespace Manifest

theorem mem_danglingKeys {m : Manifest} {t : Table} {key : String × String} :
    key ∈ danglingKeys m t ↔ m.table? key.2 = none ∧
      ∃ k ∈ t.foreignKeys, (k.name, k.references.table) = key := by
  unfold danglingKeys
  rw [List.mem_map]
  constructor
  · rintro ⟨k, hk, rfl⟩
    obtain ⟨hmem, hnone⟩ := List.mem_filter.1 hk
    exact ⟨Option.isNone_iff_eq_none.1 hnone, k, hmem, rfl⟩
  · rintro ⟨hnone, k, hk, rfl⟩
    exact ⟨k, List.mem_filter.2 ⟨hk, Option.isNone_iff_eq_none.2 hnone⟩, rfl⟩

theorem keyWarning_mem_tableWarnings {m : Manifest} {t u : Table} {key : String × String} :
    keyWarning t key ∈ tableWarnings m u ↔ u.name = t.name ∧ key ∈ danglingKeys m u := by
  rw [tableWarnings_eq, List.mem_append, List.mem_append, List.mem_map, List.mem_map]
  constructor
  · rintro (h | ⟨c, -, h⟩ | ⟨key', hkey, h⟩)
    · unfold plainWarnings keyWarning at h
      grind
    · cases h
    · obtain ⟨hname, htable, htarget⟩ := Warning.unknownReference.inj h
      exact ⟨htable, Prod.ext hname htarget ▸ hkey⟩
  · rintro ⟨hname, hkey⟩
    refine Or.inr (Or.inr ⟨key, hkey, ?_⟩)
    unfold keyWarning
    rw [hname]

/-- A foreign key is warned about if no table is found for it, unless its own table has no name that
can be seen. -/
theorem keyWarning_mem_warnings_iff {m : Manifest} {className? : Option String} {t : Table}
    {k : ForeignKey} (ht : t ∈ m.tables) (hk : k ∈ t.foreignKeys) :
    keyWarning t (k.name, k.references.table) ∈ (m.validate className?).warnings ↔
      isNamed t = true ∧ m.table? k.references.table = none := by
  unfold validate
  rw [mem_eraseReps, List.mem_append]
  constructor
  · rintro (h | h)
    · obtain ⟨u, hu, hw⟩ := List.mem_flatMap.1 h
      obtain ⟨hname, hkey⟩ := keyWarning_mem_tableWarnings.1 hw
      have hvisible := (List.mem_filter.1 hu).2
      unfold isNamed at hvisible ⊢
      rw [hname] at hvisible
      exact ⟨hvisible, (mem_danglingKeys.1 hkey).1⟩
    · obtain ⟨g, -, hw⟩ := List.mem_flatMap.1 h
      cases owner_of_mem_triggerWarnings hw
  · rintro ⟨hvisible, hnone⟩
    refine Or.inl (List.mem_flatMap.2 ⟨t, List.mem_filter.2 ⟨ht, hvisible⟩, ?_⟩)
    exact keyWarning_mem_tableWarnings.2 ⟨rfl, mem_danglingKeys.2 ⟨hnone, k, hk, rfl⟩⟩

end Manifest

/-! ## Captured foreign keys -/

/-- A table whose name and foreign keys come from a listed relation. -/
structure Table.Referring (i : Introspector (StateM σ)) (tablePrefix : String)
    (relation : RelationRow) (t : Table) : Prop where
  name : t.name = Sql.stripPrefix tablePrefix relation.name
  sourceName : t.sourceName = relation.name
  foreignKeys : ∃ rows, i.catalog.CanAnswer (.foreignKeys relation.name) rows ∧
    t.foreignKeys = Introspection.foreignKeys tablePrefix rows

/-- The names that the tables of a manifest have in their source. -/
def Manifest.sourceNames (m : Manifest) : List String := m.tables.map (·.sourceName)

namespace Introspector

variable {σ : Type} {i : Introspector (StateM σ)}

theorem yields_loadTable_referring (tablePrefix database : String) (relation : RelationRow) :
    Yields (i.loadTable tablePrefix database relation) (Table.Referring i tablePrefix relation) := by
  have hkeys : Yields (i.foreignKeys relation.name tablePrefix) fun keys =>
      ∃ rows, i.catalog.CanAnswer (.foreignKeys relation.name) rows ∧
        keys = Introspection.foreignKeys tablePrefix rows :=
    (yields_ask _).bind fun rows hrows => yields_pure ⟨rows, hrows, rfl⟩
  refine (yields_any _).bind fun _ _ => (yields_any _).bind fun columns _ => ?_
  refine (yields_any _).bind fun indexes _ => (yields_any _).bind fun constraints _ => ?_
  refine hkeys.bind fun foreignKeys hforeign => ?_
  exact (yields_any _).bind fun r _ => yields_pure ⟨rfl, rfl, hforeign⟩

theorem sourceNames_of_referring {p : String} {relations : List RelationRow} {ts : List Table}
    (h : List.Forall₂ (Table.Referring i p) relations ts) :
    ts.map (·.sourceName) = relations.map (·.name) := by
  induction h with
  | nil => rfl
  | cons hrt _ ih => rw [List.map_cons, List.map_cons, hrt.sourceName, ih]

/-- In a manifest that is captured from a catalog with distinct tables, every foreign key comes from
rows of the catalog about its table. The table that is found for it is the one its rows point to if
that one cannot be mistaken for another captured table; and if that one has not been captured, the
foreign key is warned about if it cannot be mistaken and its own table has a name that can be
seen. -/
theorem foreignKeys_resolve_iff {s s' : σ} {m : Manifest} (h : i.manifest.run s = (.ok m, s'))
    (hdistinct : ∀ relations, i.catalog.CanAnswer (.listRelations .baseTable) relations →
      (relations.map (·.name)).Nodup) :
    (∃ relations, i.catalog.CanAnswer (.listRelations .baseTable) relations ∧
        m.sourceNames = (relations.map (·.name)).filter (startsWith i.options.tablePrefix)) ∧
      ∀ t ∈ m.tables, ∀ k ∈ t.foreignKeys, ∃ rows row,
        i.catalog.CanAnswer (.foreignKeys t.sourceName) rows ∧
        rows.find? (·.name = k.name) = some row ∧
        ((∀ u, m.table? k.references.table = some u → u.sourceName = row.referencedTable) ↔
          Unmistaken i.options.tablePrefix m.sourceNames row.referencedTable) ∧
        (row.referencedTable ∉ m.sourceNames → ∀ className?,
          (.unknownReference k.name t.name k.references.table ∈ (m.validate className?).warnings ↔
            Manifest.isNamed t = true ∧
              Unmistaken i.options.tablePrefix m.sourceNames row.referencedTable)) := by
  obtain ⟨-, -, relations, hrelations, hall⟩ :=
    listed_of_manifest (yields_loadTable_referring i.options.tablePrefix) h
  have hsources : m.sourceNames =
      (relations.map (·.name)).filter (startsWith i.options.tablePrefix) := by
    rw [Manifest.sourceNames, sourceNames_of_referring hall, List.filter_map]
    rfl
  have hnodup : m.sourceNames.Nodup := hsources ▸ (hdistinct relations hrelations).filter _
  have hnames : StrippedNames i.options.tablePrefix m.tables := by
    intro t ht
    obtain ⟨r, -, hrt⟩ := exists_of_forall₂ hall ht
    rw [hrt.name, hrt.sourceName]
  refine ⟨⟨relations, hrelations, hsources⟩, fun t ht k hk => ?_⟩
  obtain ⟨r, -, hrt⟩ := exists_of_forall₂ hall ht
  obtain ⟨rows, hrows, hkeys⟩ := hrt.foreignKeys
  obtain ⟨row, hrow, hfits⟩ :=
    (Introspection.madeOf_foreignKeys i.options.tablePrefix rows).each k (hkeys ▸ hk)
  have htable := hfits.table.eq
  have hlookup : m.table? k.references.table =
      m.tables.find? (foundAs (Sql.stripPrefix i.options.tablePrefix row.referencedTable)) := by
    rw [← htable]
    rfl
  refine ⟨rows, row, hrt.sourceName ▸ hrows, hrow, ?_, fun houtside className? => ?_⟩
  · rw [hlookup]
    exact find?_foundAs_iff hnames hnodup
  · have hnone := find?_foundAs_eq_none_iff hnames houtside
    rw [← hlookup] at hnone
    exact (Manifest.keyWarning_mem_warnings_iff ht hk).trans (and_congr_right fun _ => hnone)

/-- A shop with orders inside and outside of the prefix, and order lines with a foreign key. -/
def shopCatalog (target : String) : Catalog (StateM Unit) where
  answer
    | .listRelations .baseTable => return .ok [⟨"orders", none⟩, ⟨"wp_lines", none⟩,
        ⟨"wp_orders", none⟩]
    | .foreignKeys table => return .ok (if table = "wp_lines" then
        [⟨"fk_order", "order_id", target, "id", none, none⟩] else [])
    | call => (oneTableCatalog "shop" "").answer call

theorem nodup_shopCatalog {target : String} {relations : List RelationRow}
    (h : (shopCatalog target).CanAnswer (.listRelations .baseTable) relations) :
    (relations.map (·.name)).Nodup := by
  obtain ⟨s, s', h⟩ := h
  cases h
  decide

/-- What is captured of a catalog when nothing else is said. -/
def ofCatalog (catalog : Catalog (StateM Unit)) : Introspector (StateM Unit) :=
  ⟨catalog, .standard, pure false, pure .epoch⟩

theorem of_canAnswer_shopCatalog {target : String} {rows : List ForeignKeyRow} {row : ForeignKeyRow}
    {n : String} (h : (shopCatalog target).CanAnswer (.foreignKeys "wp_lines") rows)
    (hrow : rows.find? (·.name = n) = some row) : row.referencedTable = target := by
  obtain ⟨s, s', h⟩ := h
  cases h
  rw [List.mem_singleton.1 (List.mem_of_find?_eq_some hrow)]

/-- A foreign key to the captured orders leads there, and one to a table outside that no captured one
is called like is warned about. -/
theorem otherTargets_resolve :
    (∃ m, (ofCatalog (shopCatalog "wp_orders")).manifest.run () = (.ok m, ()) ∧
      ∃ t ∈ m.tables, ∃ k ∈ t.foreignKeys, ∀ u, m.table? k.references.table = some u →
        u.sourceName = "wp_orders") ∧
      ∃ m, (ofCatalog (shopCatalog "clients")).manifest.run () = (.ok m, ()) ∧
        .unknownReference "fk_order" "lines" "clients" ∈ (m.validate none).warnings := by
  constructor
  · refine ⟨_, rfl, _, List.mem_cons_self, _, List.mem_cons_self, ?_⟩
    obtain ⟨-, hkeys⟩ := foreignKeys_resolve_iff (i := ofCatalog (shopCatalog "wp_orders")) (s := ())
      rfl fun _ => nodup_shopCatalog
    obtain ⟨rows, row, hrows, hrow, hresolves, -⟩ :=
      hkeys _ List.mem_cons_self _ List.mem_cons_self
    have htarget := of_canAnswer_shopCatalog hrows hrow
    rw [htarget] at hresolves
    exact hresolves.2 (by decide +kernel)
  · refine ⟨_, rfl, ?_⟩
    obtain ⟨-, hkeys⟩ := foreignKeys_resolve_iff (i := ofCatalog (shopCatalog "clients")) (s := ())
      rfl fun _ => nodup_shopCatalog
    obtain ⟨rows, row, hrows, hrow, -, hwarned⟩ :=
      hkeys _ List.mem_cons_self _ List.mem_cons_self
    have htarget := of_canAnswer_shopCatalog hrows hrow
    rw [htarget] at hwarned
    exact (hwarned (by decide +kernel) none).2 (by decide +kernel)

/-- The order lines point to the orders outside the prefix, and those inside are taken for them. -/
theorem outsideTarget_mistaken :
    ∃ m, (ofCatalog (shopCatalog "orders")).manifest.run () = (.ok m, ()) ∧
      (∃ t ∈ m.tables, ∃ k ∈ t.foreignKeys, k.name = "fk_order" ∧
        (m.table? k.references.table).map (·.sourceName) = some "wp_orders") ∧
      "orders" ∉ m.sourceNames ∧
      (m.validate none).warnings = [.noColumns "lines", .noColumns "orders"] :=
  ⟨_, rfl, by decide +kernel, by decide +kernel, by decide +kernel⟩

end Introspector

end SchemaInstaller
