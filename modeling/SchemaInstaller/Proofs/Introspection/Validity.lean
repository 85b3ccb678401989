import SchemaInstaller.Introspection.Source
import SchemaInstaller.Config.Validation
import SchemaInstaller.Proofs.Introspection.Capture
import SchemaInstaller.Proofs.Introspection.Yields
import SchemaInstaller.Proofs.Manifest.Agreement

/-!
# When captured manifests are valid

A manifest that is captured under a checked configuration has its prefix and its class name from the
configuration, and its tables have names that are told apart because the catalog's are. Two things
can still be wrong with it (`Config.captured_valid_iff`): a class name may start or end with a
character that is blank and yet legal in it, which the manifest's own check takes off first; and a
catalog may have a table named by the prefix alone or by the prefix and blanks.
-/

namespace SchemaInstaller

open Introspector (startsWith)

/-! ## Names behind a prefix -/

/-- Names are told apart by what is behind a prefix that they share. -/
theorem sameName_append (p a b : String) : sameName (p ++ a) (p ++ b) = sameName a b := by
  unfold sameName Text.lowerAscii
  simp [String.toList_append, List.map_append]

theorem sameName_stripPrefix {p a b : String} (ha : startsWith p a = true)
    (hb : startsWith p b = true) :
    sameName (Sql.stripPrefix p a) (Sql.stripPrefix p b) = sameName a b := by
  rw [← sameName_append p, append_stripPrefix ha, append_stripPrefix hb]

/-- A table that is captured because its name starts with the prefix. -/
def Table.Captured (i : Introspector (StateM σ)) (tablePrefix : String) (relation : RelationRow)
    (t : Table) : Prop :=
  startsWith tablePrefix relation.name = true ∧ Table.Loaded i tablePrefix relation t

variable {σ : Type} {i : Introspector (StateM σ)} {p : String}

/-- A captured table has a name that can be seen unless there are only blanks behind the prefix. -/
theorem Table.Captured.isNamed_iff {relation : RelationRow} {t : Table}
    (h : Table.Captured i p relation t) : Manifest.isNamed t = true ↔
      ∀ rest : String, t.sourceName = p ++ rest → Text.isBlankOnly rest.toList = false := by
  have hname : t.sourceName = p ++ t.name := by
    rw [h.2.sourceName, h.2.name, append_stripPrefix h.1]
  have hnamed : Manifest.isNamed t = true ↔ Text.isBlankOnly t.name.toList = false := by
    unfold Manifest.isNamed
    rw [Bool.not_eq_true']
  rw [hnamed, hname]
  constructor
  · intro hblank rest hrest
    rw [← (String.append_right_inj p).1 hrest]
    exact hblank
  · exact fun hall => hall t.name rfl

/-- Names of captured tables are told apart as those of the catalog are. -/
theorem pairwise_captured {relations : List RelationRow} {tables : List Table}
    (h : List.Forall₂ (Table.Captured i p) relations tables)
    (hd : relations.Pairwise fun a b => sameName a.name b.name = false) :
    tables.Pairwise fun a b => sameName a.name b.name = false := by
  induction h with
  | nil => exact .nil
  | @cons r t rs ts hrt hall ih =>
    obtain ⟨hhead, htail⟩ := List.pairwise_cons.1 hd
    refine List.pairwise_cons.2 ⟨fun u hu => ?_, ih htail⟩
    obtain ⟨s, hs, hsu⟩ := exists_of_forall₂ hall hu
    rw [hrt.2.name, hsu.2.name, sameName_stripPrefix hrt.1 hsu.1]
    exact hhead s hs

/-- The names of captured tables fit unless there are only blanks behind the prefix of one. -/
theorem namesFit_captured_iff {relations : List RelationRow} {tables : List Table}
    (h : List.Forall₂ (Table.Captured i p) relations tables)
    (hd : relations.Pairwise fun a b => sameName a.name b.name = false) :
    Manifest.NamesFit tables ↔ ∀ t ∈ tables, ∀ rest : String, t.sourceName = p ++ rest →
      Text.isBlankOnly rest.toList = false := by
  constructor
  · intro hfit t ht
    obtain ⟨r, -, hrt⟩ := exists_of_forall₂ h ht
    exact hrt.isNamed_iff.1 (hfit.named t ht)
  · intro hblank
    refine ⟨fun t ht => ?_, pairwise_captured h hd⟩
    obtain ⟨r, -, hrt⟩ := exists_of_forall₂ h ht
    exact hrt.isNamed_iff.2 (hblank t ht)

/-! ## Checked configurations -/

/-- A checked configuration has a prefix. -/
theorem Config.tablePrefix_of_checked {c : Config} (h : c.checked = .ok c) :
    c.introspection.tablePrefix.isEmpty = false := by
  cases hempty : c.introspection.tablePrefix.isEmpty with
  | false => rfl
  | true =>
    have hproblem : c.introspection.problem? = some .noPrefix := by
      unfold IntrospectionConfig.problem?
      rw [if_pos hempty]
    unfold Config.checked Config.problem? at h
    rw [hproblem] at h
    cases hsource : c.source.bind SourceConfig.problem? with
    | none =>
      rw [hsource] at h
      cases h
    | some problem =>
      rw [hsource] at h
      cases h

/-! ## Captured manifests -/

/-- A manifest captured under a checked configuration, from a catalog whose tables have names that
differ by more than case, has no errors exactly if the class name is legal without blanks around it
and every captured table has something that can be seen behind the prefix; and it compiles exactly
if the class name is legal without blanks around it. -/
theorem Config.captured_valid_iff (c : Config) (host : Host (StateM σ)) (catalog : Catalog (StateM σ))
    (hc : c.checked = .ok c)
    (hd : ∀ relations, catalog.CanAnswer (.listRelations .baseTable) relations →
      relations.Pairwise fun a b => sameName a.name b.name = false)
    {s s' : σ} {m : Manifest} (h : (c.introspector host catalog).manifest.run s = (.ok m, s')) :
    ((m.validate none).errors = [] ↔
        Php.isName (Text.trim c.installer.className.toList) = true ∧
          ∀ t ∈ m.tables, ∀ rest : String, t.sourceName = c.introspection.tablePrefix ++ rest →
            Text.isBlankOnly rest.toList = false) ∧
      ∀ o, (∃ compiled, m.compile none o = .ok compiled) ↔
        Php.isName (Text.trim c.installer.className.toList) = true := by
  obtain ⟨hstart, hclass, relations, hrelations, hall⟩ := Introspector.of_manifest h
  have hchosen : m.chosenClass none = Text.trim m.installerClass.toList := rfl
  have hcompilable : m.IsCompilable none ↔
      Php.isName (Text.trim c.installer.className.toList) = true := by
    unfold Manifest.IsCompilable
    rw [m.resolveClass_eq_ok_iff, hchosen, hclass, hstart]
    exact and_iff_left (Config.tablePrefix_of_checked hc)
  have hcaptured := (List.forall₂_and_left _ _).2 ⟨fun r hr => (List.mem_filter.1 hr).2, hall⟩
  have hfit := namesFit_captured_iff hcaptured ((hd relations hrelations).filter _)
  constructor
  · rw [← not_iff_not, ← ne_eq, Manifest.validate_errors_iff, hcompilable, hfit, not_and_or]
    rfl
  · intro o
    rw [← hcompilable, ← not_iff_not, ← Manifest.compile_error_iff m none o]
    cases m.compile none o with
    | error e => simp
    | ok compiled => simp

/-- A catalog of a database with one table, of which nothing but the name is known. -/
def oneTableCatalog (database table : String) : Catalog (StateM Unit) where
  answer
    | .databaseName => return .ok database
    | .listRelations .baseTable => return .ok [⟨table, none⟩]
    | .listRelations .view => return .ok []
    | .showColumns _ => return .ok []
    | .showIndex _ => return .ok []
    | .tableConstraints _ => return .ok []
    | .foreignKeys _ => return .ok []
    | .selectRows _ _ => return .ok []
    | .showCreateView _ => return .ok ""
    | .listProcedures => return .ok []
    | .showCreateProcedure _ => return .ok ""
    | .showTriggers => return .ok []

/-- A host without files and sources, at the epoch. -/
def bareHost : Host (StateM Unit) where
  files := ⟨fun _ => return .error .notFound, fun _ _ => return .error .notFound,
    fun _ => return .error .notFound, fun _ => return false⟩
  connector := .none "no source"
  now := pure .epoch
  isCancelled := pure false
  input := return .ok ""

theorem pairwise_oneTable {database table : String} {relations : List RelationRow}
    (h : (oneTableCatalog database table).CanAnswer (.listRelations .baseTable) relations) :
    relations.Pairwise fun a b => sameName a.name b.name = false := by
  obtain ⟨s, s', h⟩ := h
  cases h
  exact List.pairwise_singleton _ _

/-- A manifest of a table whose name goes on behind the prefix is valid and compiles. -/
theorem ordersTable_valid :
    ∃ m, ((Config.standard.introspector bareHost (oneTableCatalog "shop" "wp_orders")).manifest).run
        () = (.ok m, ()) ∧
      (m.validate none).errors = [] ∧ ∀ o, ∃ compiled, m.compile none o = .ok compiled := by
  have hname : Php.isName (Text.trim Config.standard.installer.className.toList) = true := by decide
  refine ⟨_, rfl, ?_⟩
  obtain ⟨herrors, hcompiles⟩ := Config.captured_valid_iff .standard bareHost
    (oneTableCatalog "shop" "wp_orders") rfl (fun _ => pairwise_oneTable) (s := ()) rfl
  refine ⟨herrors.2 ⟨hname, ?_⟩, fun o => (hcompiles o).2 hname⟩
  intro t ht rest hrest
  obtain rfl := List.mem_singleton.1 ht
  obtain rfl : "orders" = rest := (String.append_right_inj "wp_").1 hrest
  decide

/-- A checked configuration whose class name is one blank, which a class name may hold. -/
def blankClassConfig : Config :=
  { Config.standard with installer := { InstallerConfig.standard with className := "\u00a0" } }

/-- A table that is named by the prefix alone is captured without a name, which is an error; and a
class name of one blank is missing once it is read. Both configurations are checked. -/
theorem blankNames_invalid :
    (Config.standard.checked = .ok .standard ∧
      ∃ m, ((Config.standard.introspector bareHost (oneTableCatalog "shop" "wp_")).manifest).run () =
          (.ok m, ()) ∧ (m.validate none).errors = [.blankTableName "wp_"]) ∧
      blankClassConfig.checked = .ok blankClassConfig ∧
      ∃ m, ((blankClassConfig.introspector bareHost
          (oneTableCatalog "shop" "wp_orders")).manifest).run () = (.ok m, ()) ∧
        (m.validate none).errors = [.className .missing] ∧
        m.compile none .standard = .error Manifest.ClassFault.missing.toError :=
  ⟨⟨rfl, _, rfl, by decide +kernel⟩, rfl, _, rfl, by decide +kernel, rfl⟩

end SchemaInstaller
