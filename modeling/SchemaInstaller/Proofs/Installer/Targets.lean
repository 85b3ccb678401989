import SchemaInstaller.Proofs.Installer.ClassFile
import SchemaInstaller.Proofs.Manifest.Agreement

/-!
# The tables that an installer creates and drops

A table of the host is recognized by its name in the manifest, but a server reads the name out of a
statement, and there it ends at the first blank. `createdTables` and `droppedTables` are the names
as a server reads them; `targets_spare_core_iff` says exactly when none of them belongs to the host,
and `padded_targets_core` that one may.
-/

namespace SchemaInstaller

open Php Sql Statement

/-! ## Names in statements -/

/-- What PHP finds written out again, with expressions as they stand in the source. -/
def spelling (es : List Event) : Text :=
  es.flatMap fun e => match e with
    | .text c => [c]
    | .live e => e
    | _ => []

/-- The text up to its first blank. -/
def firstWord (t : Text) : Text := t.takeWhile (!isBlank ·)

/-- The name behind a verb and the expression for the prefix, as a server reads it. -/
def target? (verb statement : Text) : Option Text :=
  ((verb ++ prefixExpression).isPrefixOf? statement).map firstWord

/-- The name behind a verb in a literal of a kind. -/
def targetIn? (place : Place) (verb : Text) (l : Literal) : Option Text :=
  if l.place = place then target? verb (spelling l.content) else none

/-- The name of the table that a heredoc creates. -/
def createdTable? : Literal → Option Text := targetIn? .heredoc "CREATE TABLE ".toList

/-- The name of the table that a statement drops. -/
def droppedTable? : Literal → Option Text := targetIn? .doubleQuoted "DROP TABLE IF EXISTS ".toList

/-- The names of the tables that the heredocs of a method create. -/
def createdTables (method : List Line) : List Text :=
  ((scan .code (render method).toList).getD []).filterMap createdTable?

/-- The names of the tables that the statements of a method drop. -/
def droppedTables (method : List Line) : List Text :=
  ((scan .code (render method).toList).getD []).filterMap droppedTable?

theorem scan_of_block {s : State} {lines : List Line} {ls : List Literal} (h : Block s lines ls) :
    scan s (render lines).toList = some ls := by
  obtain ⟨es, hsound, hls⟩ := h
  unfold scan render
  rw [String.toList_ofList, ← source_pieces, hsound.read, Option.bind_some, if_pos rfl, hls]

theorem target?_append (verb name : Text) :
    target? verb (verb ++ prefixExpression ++ name) = some (firstWord name) := by
  unfold target?
  rw [List.isPrefixOf?_eq_some_iff_append_eq.2 rfl]
  rfl

theorem spelling_append (a b : List Event) : spelling (a ++ b) = spelling a ++ spelling b :=
  List.flatMap_append

/-- Written out again, a text is what is left of its characters. -/
theorem spelling_spliced {clean : Char → Text}
    (h : prefixExpression.flatMap clean = prefixExpression) (t : Text) :
    spelling (spliced clean t) = t.flatMap clean := by
  have hatom : ∀ a, spelling (foundAtom clean a) = (spellAtom (fun c => [c]) a).flatMap clean := by
    intro a
    cases a with
    | none => rw [spellAtom, h]; exact List.append_nil _
    | some c =>
      have htext : ∀ u : Text, spelling (u.map .text) = u := fun u => by
        unfold spelling
        rw [List.flatMap_map]
        exact List.flatMap_singleton' u
      rw [foundAtom, htext]
      exact (List.flatMap_singleton clean c).symm
  conv_rhs => rw [← flatMap_atoms t, List.flatMap_assoc]
  unfold spelling spliced
  rw [List.flatMap_assoc]
  exact congrArg (List.flatMap · (atoms t)) (funext hatom)

theorem isBlank_of_isLineBreak {c : Char} (h : isLineBreak c = true) : isBlank c = true := by
  rcases Bool.or_eq_true_iff.1 h with h | h
  · rw [eq_of_beq h]
    rfl
  · rw [eq_of_beq h]
    rfl

theorem firstWord_cons (c : Char) (t : Text) :
    firstWord (c :: t) = if isBlank c then [] else c :: firstWord t := by
  unfold firstWord
  rw [List.takeWhile_cons]
  cases isBlank c <;> rfl

/-- Line breaks are blanks already, so the spaces in their places do not move the first blank. -/
theorem firstWord_onOneLine (t r : Text) :
    firstWord (t.flatMap onOneLine ++ ' ' :: r) = firstWord t := by
  induction t with
  | nil => rfl
  | cons c t ih =>
    rw [List.flatMap_cons, onOneLine, List.singleton_append, List.cons_append, firstWord_cons,
      firstWord_cons, ih]
    by_cases hc : isLineBreak c = true
    · rw [if_pos hc, isBlank_of_isLineBreak hc]
      rfl
    · rw [if_neg hc]

/-! ## What a server reads -/

/-- A name as it comes out between double quotes. -/
def nameToDrop (name : String) : Text := name.toList.flatMap withoutReturn

theorem createdTable?_tableDefinition (t : Table) :
    createdTable? (tableDefinition t) = some (firstWord t.name.toList) := by
  have hclean : prefixExpression.flatMap onOneLine = prefixExpression := by
    rw [prefixExpression_eq]
    rfl
  have hverb : "CREATE TABLE ".toList.flatMap onOneLine = "CREATE TABLE ".toList := by
    rw [String.toList_ofList]
    rfl
  have hend : [' ', '('].flatMap onOneLine = [' ', '('] := rfl
  unfold createdTable? targetIn? tableDefinition
  rw [if_pos rfl, spelling_append, spelling_append, spelling_spliced hclean]
  unfold createTableHead siteTable
  simp only [List.flatMap_append, hverb, hclean, hend, List.append_assoc, List.cons_append,
    List.nil_append]
  rw [← List.append_assoc, target?_append, firstWord_onOneLine]

theorem droppedTable?_ranStatement (statement : Text) : droppedTable? (ranStatement statement) =
    target? "DROP TABLE IF EXISTS ".toList (statement.flatMap withoutReturn) := by
  have hclean := flatMap_withoutReturn return_notMem_prefixExpression
  unfold droppedTable? targetIn? ranStatement
  rw [if_pos rfl, spelling_spliced hclean]

theorem droppedTable?_dropTable (name : String) :
    droppedTable? (ranStatement (dropTable name)) = some (firstWord (nameToDrop name)) := by
  have hclean := flatMap_withoutReturn return_notMem_prefixExpression
  have hverb : "DROP TABLE IF EXISTS ".toList.flatMap withoutReturn =
      "DROP TABLE IF EXISTS ".toList := by
    rw [String.toList_ofList]
    rfl
  rw [droppedTable?_ranStatement]
  unfold dropTable siteTable nameToDrop
  rw [List.flatMap_append, List.flatMap_append, hverb, hclean, ← List.append_assoc, target?_append]

/-- Only heredocs create tables. -/
theorem createdTable?_of_ne {l : Literal} (h : l.place ≠ .heredoc) : createdTable? l = none :=
  if_neg h

/-- A step that creates a table creates the one of its name, and any other step none. -/
theorem InstallStep.createdTables (m : Manifest) (step : InstallStep) :
    (step.literals m).filterMap createdTable? = match step with
      | table t => [firstWord t.name.toList]
      | _ => [] := by
  have hcreation : ∀ object statement?, (creation object statement?).place ≠ .heredoc := by
    intro object statement?
    cases statement? <;> exact Place.noConfusion
  have hnaming : ∀ t installedAs, (triggerNaming t installedAs).place ≠ .heredoc := by
    intro t installedAs
    unfold triggerNaming
    by_cases h : installedAs = t.name
    · rw [if_pos h]
      exact Place.noConfusion
    · rw [if_neg h]
      exact Place.noConfusion
  have hremark : ∀ start name, createdTable? (namingRemark start name) = none := fun _ _ => rfl
  have hran : ∀ statement, createdTable? (ranStatement statement) = none := fun _ => rfl
  have hname : ∀ t, createdTable? (constant t) = none := fun _ => rfl
  cases step with
  | table t =>
    simp only [literals, tableLiterals, List.filterMap_cons, hremark, hname, List.filterMap_nil,
      createdTable?_tableDefinition]
  | view v =>
    simp only [literals, viewLiterals, List.filterMap_cons, hremark, hran, List.filterMap_nil,
      createdTable?_of_ne (hcreation _ _)]
  | procedure p =>
    simp only [literals, procedureLiterals, List.filterMap_cons, hremark, hran, List.filterMap_nil,
      createdTable?_of_ne (hcreation _ _)]
  | trigger t installedAs =>
    simp only [literals, triggerLiterals, List.filterMap_cons, hran, List.filterMap_nil,
      createdTable?_of_ne (hnaming _ _)]

/-- A step that removes a table drops the one of its name, and any other step none. -/
theorem RemovalStep.droppedTables (step : RemovalStep) :
    step.literals.filterMap droppedTable? = match step with
      | table name => [firstWord (nameToDrop name)]
      | _ => [] := by
  -- the verbs differ in their first letters, before any name
  have htrigger : ∀ name, droppedTable? (ranStatement (dropTrigger name)) = none := by
    intro name
    rw [droppedTable?_ranStatement]
    unfold dropTrigger
    repeat rw [String.toList_ofList]
    rfl
  have hprocedure : ∀ name, droppedTable? (ranStatement (dropProcedure name)) = none := by
    intro name
    rw [droppedTable?_ranStatement]
    unfold dropProcedure
    repeat rw [String.toList_ofList]
    rfl
  have hview : ∀ name, droppedTable? (ranStatement (dropView name)) = none := by
    intro name
    rw [droppedTable?_ranStatement]
    unfold dropView
    repeat rw [String.toList_ofList]
    rfl
  have hname : ∀ t, droppedTable? (constant t) = none := fun _ => rfl
  cases step with
  | trigger name => simp only [literals, List.filterMap_cons, htrigger, List.filterMap_nil]
  | procedure name => simp only [literals, List.filterMap_cons, hprocedure, List.filterMap_nil]
  | view name => simp only [literals, List.filterMap_cons, hview, List.filterMap_nil]
  | table name =>
    simp only [literals, List.filterMap_cons, hname, droppedTable?_dropTable, List.filterMap_nil]

theorem flatMap_nothing {α β : Type} (l : List α) : l.flatMap (fun _ => ([] : List β)) = [] :=
  List.flatMap_eq_nil_iff.2 fun _ _ => rfl

/-- The tables that the installer of a plan creates are the plan's, under the first words of their
names. -/
theorem createdTables_installMethod (p : Plan) :
    createdTables p.installMethod = p.tables.map fun t => firstWord t.name.toList := by
  have hpath : createdTable? (constant "wp-admin/includes/upgrade.php") = none := rfl
  unfold createdTables
  rw [scan_of_block p.block_installMethod, Option.getD_some, Plan.installLiterals,
    List.filterMap_cons_none hpath, List.filterMap_flatMap]
  simp only [InstallStep.createdTables, Plan.installSteps, List.flatMap_append, List.flatMap_map,
    flatMap_nothing, List.append_nil]
  exact List.map_eq_flatMap.symm

/-- The tables that it drops are the same, without carriage returns and in reverse order. -/
theorem droppedTables_uninstallMethod (p : Plan) :
    droppedTables p.uninstallMethod =
      p.tables.reverse.map fun t => firstWord (nameToDrop t.name) := by
  unfold droppedTables
  rw [scan_of_block p.block_uninstallMethod, Option.getD_some, Plan.uninstallLiterals,
    List.filterMap_flatMap]
  simp only [RemovalStep.droppedTables, Plan.removalSteps, List.flatMap_append, List.flatMap_map,
    flatMap_nothing, List.nil_append]
  exact List.map_eq_flatMap.symm

/-! ## Host tables -/

/-- Whether a name that a server reads belongs to the host. -/
def InstallerOptions.targetsCore (o : InstallerOptions) (name : Text) : Bool :=
  o.isCoreTable (String.ofList name)

/-- The tables of a plan are those that are not skipped and not recognized. -/
theorem mem_tables_iff {p : Plan} {t : Table} :
    t ∈ p.tables ↔
      t ∈ p.manifest.tables ∧ t.skip = false ∧ p.options.isCoreTable t.name = false := by
  unfold Plan.tables InstallerOptions.exclusion?
  rw [List.mem_filter]
  cases t.skip <;> cases p.options.isCoreTable t.name <;> simp

theorem lines_split (p : Plan) : ∃ before behind, ClassFile.lines p =
    before ++ p.installMethod ++ p.populateMethod ++ p.uninstallMethod ++ behind :=
  ⟨_, _, List.append_assoc _ _ _⟩

/-- An installer leaves the tables of the host alone exactly if none that it does not recognize is
one by the first word of its name, with or without carriage returns. -/
theorem targets_spare_core_iff {m : Manifest} {className? : Option String} {o : InstallerOptions}
    {c : CompiledInstaller} (h : m.compile className? o = .ok c) :
    ∃ p before behind, m.plan className? o = .ok p ∧
      c.installerClass.content =
        render (before ++ p.installMethod ++ p.populateMethod ++ p.uninstallMethod ++ behind) ∧
      ((∀ name ∈ createdTables p.installMethod ++ droppedTables p.uninstallMethod,
          o.targetsCore name = false) ↔
        ∀ t ∈ m.tables, t.skip = false → o.isCoreTable t.name = false →
          o.targetsCore (firstWord t.name.toList) = false ∧
            o.targetsCore (firstWord (nameToDrop t.name)) = false) := by
  obtain ⟨p, hplan, rfl⟩ := Manifest.compile_eq_ok_iff.1 h
  obtain ⟨name, -, -, rfl⟩ := Manifest.plan_eq_ok_iff.1 hplan
  obtain ⟨before, behind, hlines⟩ := lines_split ⟨m, name, o⟩
  refine ⟨⟨m, name, o⟩, before, behind, hplan, congrArg render hlines, ?_⟩
  rw [createdTables_installMethod, droppedTables_uninstallMethod]
  simp only [List.mem_append, List.mem_map, List.mem_reverse, mem_tables_iff]
  constructor
  · intro h t ht hskip hcore
    exact ⟨h _ (Or.inl ⟨t, ⟨ht, hskip, hcore⟩, rfl⟩), h _ (Or.inr ⟨t, ⟨ht, hskip, hcore⟩, rfl⟩)⟩
  · rintro h _ (⟨t, ⟨ht, hskip, hcore⟩, rfl⟩ | ⟨t, ⟨ht, hskip, hcore⟩, rfl⟩)
    · exact (h t ht hskip hcore).1
    · exact (h t ht hskip hcore).2

/-- A manifest with one table under a name. -/
def oneTable (name : String) : Manifest :=
  { Manifest.empty "shop" "wp_" .epoch with tables := [.empty name "wp_table" "shop"] }

/-- A table of the plugin's own is created and dropped, and the host's are left alone. -/
theorem orders_spare_core : ∃ p, (oneTable "orders").plan none .standard = .ok p ∧
    ∀ name ∈ createdTables p.installMethod ++ droppedTables p.uninstallMethod,
      InstallerOptions.standard.targetsCore name = false := by
  have hok : (oneTable "orders").compile none .standard =
      .ok (Plan.compiled ⟨oneTable "orders", "MyPluginInstaller", .standard⟩) := rfl
  obtain ⟨p, before, behind, hplan, -, hiff⟩ := targets_spare_core_iff hok
  refine ⟨p, hplan, hiff.2 fun t ht _ _ => ?_⟩
  obtain rfl := List.mem_singleton.1 ht
  decide +kernel

/-- A host table with a blank behind its name is not recognized, but created and dropped. -/
theorem padded_targets_core : ∃ c p, (oneTable "options ").compile none .standard = .ok c ∧
    (oneTable "options ").plan none .standard = .ok p ∧ c = p.compiled ∧
      ∃ name ∈ createdTables p.installMethod, name ∈ droppedTables p.uninstallMethod ∧
        InstallerOptions.standard.targetsCore name = true := by
  let p : Plan := ⟨oneTable "options ", "MyPluginInstaller", .standard⟩
  refine ⟨p.compiled, p, rfl, rfl, rfl, "options".toList, ?_, ?_, ?_⟩
  · rw [createdTables_installMethod]
    decide +kernel
  · rw [droppedTables_uninstallMethod]
    decide +kernel
  · decide +kernel

end SchemaInstaller
