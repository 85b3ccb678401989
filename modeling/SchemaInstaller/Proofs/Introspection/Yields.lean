import Mathlib.Data.List.Forall2
import SchemaInstaller.Proofs.Introspection.Runs

/-!
# What a successful run has read

Whatever state its catalog is in, a value that a run gives is made of answers that the catalog can
give (`Run.Yields`, `Catalog.CanAnswer`). So the manifest of a successful introspection holds, in
the order of the catalog, one table for each listed relation whose name starts with the prefix, and
of each of these tables is true what is true of every table that is loaded
(`Introspector.listed_of_manifest`): they have the names and the rows that `Table.Loaded` says
(`Introspector.of_manifest`).
-/

namespace SchemaInstaller

/-- The catalog answers a call with a value in one of its states. -/
def Catalog.CanAnswer (c : Catalog (StateM σ)) (call : CatalogCall α) (a : α) : Prop :=
  ∃ s s', (c.answer call).run s = (.ok a, s')

namespace Run

variable {σ α β : Type}

/-- Every value that the run gives is one of which `P` holds. -/
def Yields (x : Run (StateM σ) α) (P : α → Prop) : Prop :=
  Meets (fun _ _ => True) x (fun a _ _ => P a) fun _ _ _ => True

theorem yields_pure {P : α → Prop} {a : α} (h : P a) : Yields (σ := σ) (pure a) P :=
  meets_pure fun _ _ _ => h

theorem Yields.bind {x : Run (StateM σ) α} {f : α → Run (StateM σ) β} {P : α → Prop}
    {Q : β → Prop} (hx : Yields x P) (hf : ∀ a, P a → Yields (f a) Q) : Yields (x >>= f) Q :=
  Meets.bind hx fun a db s ha => hf a ha db s trivial

/-- A run of which nothing is said. -/
theorem yields_any (x : Run (StateM σ) α) : Yields x fun _ => True := by
  intro db s _
  rcases (x.run.run db).run s with ⟨⟨_ | a, db'⟩, s'⟩ <;> exact trivial

/-- A run over a list gives, item by item, what it gives for each. -/
theorem yields_mapM {R : α → β → Prop} {f : α → Run (StateM σ) β} (h : ∀ a, Yields (f a) (R a))
    (l : List α) : Yields (l.mapM f) (List.Forall₂ R l) := by
  induction l with
  | nil => exact yields_pure .nil
  | cons a l ih =>
    rw [List.mapM_cons]
    exact (h a).bind fun b hb => ih.bind fun bs hbs => yields_pure (.cons hb hbs)

theorem yields_ask {i : Introspector (StateM σ)} (call : CatalogCall α) :
    Yields (i.ask call) (i.catalog.CanAnswer call) := by
  refine meets_ask fun db s _ => ?_
  rcases h : (i.catalog.answer call).run s with ⟨_ | a, s'⟩
  · exact trivial
  · exact ⟨s, s', h⟩

end Run

open Run

/-! ## Tables -/

/-- An item on the right of two related lists is related to one on the left. -/
theorem exists_of_forall₂ {R : α → β → Prop} {l : List α} {l' : List β} (h : List.Forall₂ R l l')
    {b : β} (hb : b ∈ l') : ∃ a ∈ l, R a b := by
  induction h with
  | nil => cases hb
  | cons hab _ ih =>
    rcases List.mem_cons.1 hb with rfl | hb
    · exact ⟨_, List.mem_cons_self, hab⟩
    · obtain ⟨a, ha, hR⟩ := ih hb
      exact ⟨a, List.mem_cons_of_mem _ ha, hR⟩

/-- The row limit of a table whose rows have been read: the one asked for, or if all rows were
asked for, their number. -/
def IntrospectionOptions.rowLimit (o : IntrospectionOptions) (rows : List SeedRow) : Int64 :=
  if o.defaultRowLimit.toInt > 0 then o.defaultRowLimit
  else Int64.ofInt (min rows.length 9223372036854775807)

/-- A table that an introspector makes of a listed relation. -/
structure Table.Loaded (i : Introspector (StateM σ)) (tablePrefix : String) (relation : RelationRow)
    (t : Table) : Prop where
  name : t.name = Sql.stripPrefix tablePrefix relation.name
  sourceName : t.sourceName = relation.name
  seeded : i.options.includeSeedData = true →
    i.catalog.CanAnswer (.selectRows relation.name i.options.defaultRowLimit) t.seedData ∧
      t.rowLimit = i.options.rowLimit t.seedData
  bare : i.options.includeSeedData = false → t.seedData = [] ∧ t.rowLimit = 0

namespace Introspector

variable {σ : Type} {i : Introspector (StateM σ)}

theorem yields_seedData (table : String) :
    Yields (i.seedData table) fun r =>
      (i.options.includeSeedData = true →
        i.catalog.CanAnswer (.selectRows table i.options.defaultRowLimit) r.1 ∧
          r.2 = i.options.rowLimit r.1) ∧
      (i.options.includeSeedData = false → r.1 = [] ∧ r.2 = 0) := by
  unfold seedData
  by_cases hseed : i.options.includeSeedData = true
  · rw [if_pos hseed]
    have hrows : Yields (i.seedRows table i.options.defaultRowLimit)
        (i.catalog.CanAnswer (.selectRows table i.options.defaultRowLimit)) :=
      (yields_any _).bind fun _ _ => yields_ask _
    refine hrows.bind fun rows hanswer => ?_
    have hincluded : ¬i.options.includeSeedData = false := by simp [hseed]
    split
    · rename_i hpos
      exact yields_pure ⟨fun _ => ⟨hanswer, (if_pos hpos).symm⟩, fun h => absurd h hincluded⟩
    · rename_i hpos
      exact yields_pure ⟨fun _ => ⟨hanswer, (if_neg hpos).symm⟩, fun h => absurd h hincluded⟩
  · rw [if_neg hseed]
    exact yields_pure ⟨fun h => absurd h hseed, fun _ => ⟨rfl, rfl⟩⟩

theorem yields_loadTable (tablePrefix database : String) (relation : RelationRow) :
    Yields (i.loadTable tablePrefix database relation) (Table.Loaded i tablePrefix relation) := by
  refine (yields_any _).bind fun _ _ => (yields_any _).bind fun columns _ => ?_
  refine (yields_any _).bind fun indexes _ => (yields_any _).bind fun constraints _ => ?_
  refine (yields_any _).bind fun foreignKeys _ => ?_
  exact (yields_seedData _).bind fun r hr => yields_pure ⟨rfl, rfl, hr.1, hr.2⟩

/-- Tables that are related, one by one, to the relations of a listing of the catalog whose names
start with the prefix. -/
def ListedTables (i : Introspector (StateM σ)) (tablePrefix : String)
    (R : RelationRow → Table → Prop) (tables : List Table) : Prop :=
  ∃ relations, i.catalog.CanAnswer (.listRelations .baseTable) relations ∧
    List.Forall₂ R (relations.filter fun r => startsWith tablePrefix r.name) tables

/-- The tables come from a listing that the catalog gives, and are those that start with the
prefix. -/
def TablesOf (i : Introspector (StateM σ)) (tablePrefix : String) : List Table → Prop :=
  i.ListedTables tablePrefix (Table.Loaded i tablePrefix)

section Listed

variable {R : RelationRow → Table → Prop}

/-- What is so of each table that is loaded is so of all. -/
theorem yields_listedTables {tablePrefix : String}
    (hload : ∀ database relation, Yields (i.loadTable tablePrefix database relation) (R relation)) :
    Yields (i.tables tablePrefix) (i.ListedTables tablePrefix R) := by
  refine (yields_any _).bind fun _ _ => (yields_any _).bind fun database _ => ?_
  refine (yields_ask _).bind fun relations hrelations => ?_
  exact (yields_mapM (hload database) _).imp fun _ _ _ h => ⟨relations, hrelations, h⟩

/-- What is said of a manifest by the options and the tables it is made of. -/
theorem yields_introspect
    (hload : ∀ database relation,
      Yields (i.loadTable i.options.tablePrefix database relation) (R relation)) :
    Yields i.introspect fun m => m.defaultPrefix = i.options.tablePrefix ∧
      m.installerClass = i.options.installerClass ∧
        i.ListedTables i.options.tablePrefix R m.tables := by
  refine (yields_any _).bind fun database _ => ?_
  refine (yields_listedTables hload).bind fun tables htables => ?_
  refine (yields_any _).bind fun views _ => (yields_any _).bind fun procedures _ => ?_
  refine (yields_any _).bind fun triggers _ => (yields_any _).bind fun now _ => ?_
  exact yields_pure ⟨rfl, rfl, htables⟩

/-- A manifest that an introspection gives, in whatever state its catalog was. -/
theorem listed_of_manifest
    (hload : ∀ database relation,
      Yields (i.loadTable i.options.tablePrefix database relation) (R relation))
    {s s' : σ} {m : Manifest} (h : i.manifest.run s = (.ok m, s')) :
    m.defaultPrefix = i.options.tablePrefix ∧ m.installerClass = i.options.installerClass ∧
      i.ListedTables i.options.tablePrefix R m.tables := by
  have hrun : i.manifest.run s =
      (let r := (i.introspect.run.run none).run s; (r.1.1, r.2)) := rfl
  have hyields := yields_introspect hload none s trivial
  rcases hr : (i.introspect.run.run none).run s with ⟨⟨e | m', db⟩, s₁⟩
  · rw [hrun, hr] at h
    cases h
  · rw [hr] at hyields
    rw [hrun, hr] at h
    cases h
    exact hyields

end Listed

/-- The tables of such a manifest have their names and rows from the catalog. -/
theorem of_manifest {s s' : σ} {m : Manifest} (h : i.manifest.run s = (.ok m, s')) :
    m.defaultPrefix = i.options.tablePrefix ∧ m.installerClass = i.options.installerClass ∧
      i.TablesOf i.options.tablePrefix m.tables :=
  listed_of_manifest (yields_loadTable i.options.tablePrefix) h

end Introspector

end SchemaInstaller
