import SchemaInstaller.Proofs.Installer.Division

/-!
# Skipping a table

The visible lines of an installer class are made of blocks: one for each table that is created, one
for each that is filled, one for each that is dropped, and a frame around them (`ClassFrame`). The
blocks of a table depend on that table alone and the frame on none, so that marking a table as
skipped takes its own blocks out and leaves everything else as it is (`skipping_removes_blocks`).
-/

namespace SchemaInstaller

open Php

/-! ## Visible lines -/

/-- The lines of a text that show something. -/
def visibleLines (t : Text) : List Text := (List.splitOn '\n' t).filter (!·.isBlankOnly)

/-- The visible lines that a block of source lines becomes. -/
def shown (ls : List Line) : List Text := visibleLines (render ls).toList

theorem visibleLines_append_cons (a b : Text) :
    visibleLines (a ++ '\n' :: b) = visibleLines a ++ visibleLines b := by
  unfold visibleLines
  rw [List.splitOn_append_cons_self, List.filter_append]

theorem shown_eq (ls : List Line) : shown ls = visibleLines (ls.flatMap Line.render) := by
  unfold shown render
  rw [String.toList_ofList]

theorem shown_nil : shown [] = [] := by
  rw [shown_eq]
  rfl

/-- A source line ends with its line break, so what follows it shows on its own. -/
theorem shown_cons (l : Line) (ls : List Line) : shown (l :: ls) = shown [l] ++ shown ls := by
  have hline : ∀ r : Text, visibleLines (l.render ++ r) =
      visibleLines (List.replicate (4 * l.depth) ' ' ++ l.fragments.flatMap Fragment.render) ++
        visibleLines r := by
    intro r
    rw [Line.render, List.append_assoc, List.singleton_append, visibleLines_append_cons]
  have halone := hline []
  have hnone : visibleLines [] = [] := rfl
  rw [hnone, List.append_nil, List.append_nil] at halone
  rw [shown_eq, shown_eq, shown_eq, List.flatMap_cons, hline, List.flatMap_singleton, halone]

theorem shown_append (ls ms : List Line) : shown (ls ++ ms) = shown ls ++ shown ms := by
  induction ls with
  | nil => rw [shown_nil]; rfl
  | cons l ls ih => rw [List.cons_append, shown_cons, shown_cons l ls, ih, List.append_assoc]

theorem shown_blank : shown [.blank] = [] := by
  rw [shown_eq]
  rfl

theorem shown_flatMap {α : Type} (f : α → List Line) (l : List α) :
    shown (l.flatMap f) = l.flatMap fun a => shown (f a) := by
  induction l with
  | nil => exact shown_nil
  | cons a l ih => rw [List.flatMap_cons, List.flatMap_cons, shown_append, ih]

/-- Blank lines between blocks do not show. -/
theorem shown_intercalate (blocks : List (List Line)) :
    shown ([Line.blank].intercalate blocks) = blocks.flatMap shown := by
  induction blocks with
  | nil => exact shown_nil
  | cons b bs ih =>
    cases bs with
    | nil => rw [List.intercalate_singleton, List.flatMap_singleton]
    | cons b' bs =>
      rw [List.intercalate_cons_cons, shown_append, shown_append, shown_blank, List.append_nil, ih]
      rfl

/-! ## Blocks and their frame -/

/-- The visible lines that create a table. -/
def createBlock (o : InstallerOptions) (t : Table) : List Text :=
  if t.skip || o.isCoreTable t.name then [] else shown (tableLines t)

/-- The visible lines that put rows into a table. -/
def fillBlock (t : Table) : List Text :=
  if t.skip || t.seedRowsToEmit.isEmpty then [] else shown (seedLines t)

/-- The visible lines that drop a table, with the condition around them. -/
def dropBlock (o : InstallerOptions) (t : Table) : List Text :=
  if t.skip || o.isCoreTable t.name then [] else shown (RemovalStep.table t.name).lines

/-- What stands around the blocks of tables: everything up to them, then the views, procedures and
triggers, the start of the method that fills, the statements that drop everything but tables, and
what comes behind. -/
structure ClassFrame where
  top : List Text
  objects : List Text
  fillStart : List Text
  removals : List Text
  bottom : List Text

/-- The visible lines of a class with these blocks. -/
def ClassFrame.around (f : ClassFrame) (created filled dropped : List Text) : List Text :=
  f.top ++ created ++ f.objects ++ f.fillStart ++ filled ++ f.removals ++ dropped ++ f.bottom

/-- The steps that create views, procedures and triggers. -/
def Plan.objectSteps (p : Plan) : List InstallStep :=
  p.manifest.views.map .view ++ p.manifest.storedProcedures.map .procedure
    ++ p.triggers.map fun t => .trigger t.1 t.2

/-- The steps that remove them. -/
def Plan.objectRemovals (p : Plan) : List RemovalStep :=
  p.droppedTriggers.map .trigger ++ p.manifest.storedProcedures.map (.procedure ·.name)
    ++ p.manifest.views.map (.view ·.name)

/-- The lines of the class up to its first method. -/
def Plan.topLines (p : Plan) : List Line :=
  ClassFile.heading p ++ .blank :: ClassFile.guard
    ++ [.blank, ⟨0, [.code "class ", .name p.className, .code " \x7b"]⟩, .blank,
      ClassFile.coreTablesLine p.options, .blank]
    ++ ClassFile.state

/-- The first lines of the method that creates everything. -/
def installStart : List Line :=
  [.code 1 "public function install() \x7b",
    .code 2 "$charset_collate = $this->wpdb->get_charset_collate();",
    .code 2 "require_once( ABSPATH . 'wp-admin/includes/upgrade.php' );"]

/-- The last lines of a method. -/
def methodEnd : List Line := [.code 1 "\x7d", .blank]

/-- The frame of the class of a plan. -/
def Plan.frame (p : Plan) : ClassFrame where
  top := shown p.topLines ++ shown installStart
  objects := p.objectSteps.flatMap fun step => shown (step.lines p.manifest)
  fillStart := shown methodEnd ++ shown [.code 1 "public function populate() \x7b"]
  removals := shown methodEnd ++ shown [.code 1 "public function uninstall() \x7b"]
    ++ p.objectRemovals.flatMap fun step => shown step.lines
  bottom := shown methodEnd ++ shown ClassFile.support ++ shown [.code 0 "\x7d"]

/-- The blocks of the items that are not left out are the blocks of all, empty for the others. -/
theorem flatMap_filter_not {α : Type} (out : α → Bool) (block : α → List Text) (l : List α) :
    (l.filter (!out ·)).flatMap block = l.flatMap fun a => if out a then [] else block a := by
  induction l with
  | nil => rfl
  | cons a l ih =>
    rw [List.flatMap_cons, List.filter_cons, ← ih]
    cases out a <;> rfl

theorem Plan.tables_eq_filter (p : Plan) :
    p.tables = p.manifest.tables.filter fun t => !(t.skip || p.options.isCoreTable t.name) := by
  unfold Plan.tables
  refine List.filter_congr fun t _ => ?_
  unfold InstallerOptions.exclusion?
  cases t.skip <;> cases p.options.isCoreTable t.name <;> rfl

theorem Plan.seeded_eq_filter (p : Plan) :
    p.seeded = p.manifest.tables.filter fun t => !(t.skip || t.seedRowsToEmit.isEmpty) := by
  unfold Plan.seeded
  exact List.filter_congr fun t _ => (Bool.not_or _ _).symm

/-! ## The methods -/

section Methods

variable (p : Plan)

theorem shown_installMethod : shown p.installMethod =
    shown installStart ++ p.manifest.tables.flatMap (createBlock p.options) ++ p.frame.objects
      ++ shown methodEnd := by
  have hstep : ∀ step : InstallStep, shown (.blank :: step.lines p.manifest) =
      shown (step.lines p.manifest) := fun step => by
    rw [shown_cons, shown_blank, List.nil_append]
  have htables : p.tables.flatMap (fun t => shown (tableLines t)) =
      p.manifest.tables.flatMap (createBlock p.options) := by
    rw [p.tables_eq_filter, flatMap_filter_not]
    rfl
  have hsteps : p.installSteps = p.tables.map .table ++ p.objectSteps := by
    unfold Plan.installSteps Plan.objectSteps
    rw [List.append_assoc, List.append_assoc, List.append_assoc]
  unfold Plan.installMethod
  rw [shown_append, shown_append, shown_flatMap, hsteps]
  simp only [hstep]
  rw [List.flatMap_append, List.flatMap_map, ← htables]
  simp only [List.append_assoc]
  rfl

theorem shown_populateMethod : shown p.populateMethod =
    shown [.code 1 "public function populate() \x7b"] ++ p.manifest.tables.flatMap fillBlock
      ++ shown methodEnd := by
  have hblocks : p.seeded.flatMap (fun t => shown (seedLines t)) =
      p.manifest.tables.flatMap fillBlock := by
    rw [p.seeded_eq_filter, flatMap_filter_not]
    rfl
  unfold Plan.populateMethod
  rw [shown_append, shown_append, shown_intercalate, List.flatMap_map, hblocks]
  rfl

theorem shown_uninstallMethod : shown p.uninstallMethod =
    shown [.code 1 "public function uninstall() \x7b"]
      ++ p.objectRemovals.flatMap (fun step => shown step.lines)
      ++ p.manifest.tables.reverse.flatMap (dropBlock p.options)
      ++ shown methodEnd := by
  have htables : p.tables.reverse.flatMap (fun t => shown (RemovalStep.table t.name).lines) =
      p.manifest.tables.reverse.flatMap (dropBlock p.options) := by
    rw [p.tables_eq_filter, ← List.filter_reverse, flatMap_filter_not]
    rfl
  have hsteps : p.removalSteps = p.objectRemovals ++ p.tables.reverse.map (.table ·.name) := rfl
  unfold Plan.uninstallMethod
  rw [shown_append, shown_append, shown_flatMap, hsteps, List.flatMap_append, List.flatMap_map,
    htables]
  simp only [List.append_assoc]
  rfl

/-- The visible lines of a class are the blocks of its tables in a frame. -/
theorem shown_lines : shown (ClassFile.lines p) =
    p.frame.around (p.manifest.tables.flatMap (createBlock p.options))
      (p.manifest.tables.flatMap fillBlock)
      (p.manifest.tables.reverse.flatMap (dropBlock p.options)) := by
  have hlines : ClassFile.lines p = p.topLines ++ p.installMethod ++ p.populateMethod
      ++ p.uninstallMethod ++ ClassFile.support ++ [.code 0 "\x7d"] := rfl
  rw [hlines]
  simp only [shown_append, shown_installMethod, shown_populateMethod, shown_uninstallMethod]
  unfold ClassFrame.around
  simp only [Plan.frame, List.append_assoc]

end Methods

/-! ## Skipping -/

/-- A manifest with one of its tables marked as skipped. -/
def Manifest.skipping (m : Manifest) (i : Nat) : Manifest :=
  { m with tables := m.tables.modify i fun t => { t with skip := true } }

/-- A manifest around one of its tables, before and after that is marked as skipped. -/
theorem Manifest.tables_skipping {m : Manifest} {i : Nat} {t : Table} (h : m.tables[i]? = some t) :
    ∃ before after, m.tables = before ++ t :: after ∧ before.length = i ∧
      (m.skipping i).tables = before ++ { t with skip := true } :: after := by
  obtain ⟨hi, rfl⟩ := List.getElem?_eq_some_iff.1 h
  refine ⟨m.tables.take i, m.tables.drop (i + 1), ?_, List.length_take_of_le hi.le,
    List.modify_eq_take_cons_drop hi⟩
  rw [List.getElem_cons_drop, List.take_append_drop]

theorem Manifest.triggerNames_skipping (m : Manifest) (i : Nat) :
    (m.skipping i).triggerNames = m.triggerNames := by
  have hnames : (m.skipping i).tables.map (·.name) = m.tables.map (·.name) := by
    refine List.ext_getElem? fun j => ?_
    unfold Manifest.skipping
    rw [List.getElem?_map, List.getElem?_map, List.getElem?_modify]
    cases m.tables[j]? with
    | none => rfl
    | some t => by_cases h : i = j <;> simp [h]
  have hreserved : TriggerNames.reserved (m.skipping i) = TriggerNames.reserved m := by
    unfold TriggerNames.reserved
    rw [hnames]
    rfl
  unfold Manifest.triggerNames
  rw [hreserved]
  rfl

/-- Nothing but blocks of tables depends on what is skipped. -/
theorem Plan.frame_skipping (m : Manifest) (i : Nat) (name : String) (o : InstallerOptions) :
    Plan.frame ⟨m.skipping i, name, o⟩ = Plan.frame ⟨m, name, o⟩ := by
  have hlines : ∀ step : InstallStep, step.lines (m.skipping i) = step.lines m := by
    intro step
    cases step <;> rfl
  have htriggers : Plan.triggers ⟨m.skipping i, name, o⟩ = Plan.triggers ⟨m, name, o⟩ := by
    unfold Plan.triggers
    rw [m.triggerNames_skipping]
    rfl
  have hsteps : Plan.objectSteps ⟨m.skipping i, name, o⟩ = Plan.objectSteps ⟨m, name, o⟩ := by
    unfold Plan.objectSteps
    rw [htriggers]
    rfl
  have hdropped : Plan.droppedTriggers ⟨m.skipping i, name, o⟩ =
      Plan.droppedTriggers ⟨m, name, o⟩ := by
    unfold Plan.droppedTriggers
    rw [m.triggerNames_skipping]
    rfl
  have hremovals : Plan.objectRemovals ⟨m.skipping i, name, o⟩ =
      Plan.objectRemovals ⟨m, name, o⟩ := by
    unfold Plan.objectRemovals
    rw [hdropped]
    rfl
  unfold Plan.frame
  rw [hsteps, hremovals]
  simp only [hlines]
  rfl

/-- The class of a manifest in which a table is skipped has the visible lines of the class before,
without the blocks of that table. All names of triggers, everything around the blocks of tables and
the two other files stay. -/
theorem skipping_removes_blocks {m : Manifest} {className? : Option String} {o : InstallerOptions}
    {c : CompiledInstaller} {i : Nat} {t : Table} (h : m.compile className? o = .ok c)
    (ht : m.tables[i]? = some t) :
    ∃ p c' before after, m.plan className? o = .ok p ∧ (m.skipping i).compile className? o = .ok c' ∧
      m.tables = before ++ t :: after ∧ before.length = i ∧
      c'.installerStub = c.installerStub ∧ c'.mainPlugin = c.mainPlugin ∧
      c'.installerClass.fileName = c.installerClass.fileName ∧
      (m.skipping i).triggerNames = m.triggerNames ∧
      visibleLines c.installerClass.content.toList = p.frame.around
        (before.flatMap (createBlock o) ++ createBlock o t ++ after.flatMap (createBlock o))
        (before.flatMap fillBlock ++ fillBlock t ++ after.flatMap fillBlock)
        (after.reverse.flatMap (dropBlock o) ++ dropBlock o t
          ++ before.reverse.flatMap (dropBlock o)) ∧
      visibleLines c'.installerClass.content.toList = p.frame.around
        (before.flatMap (createBlock o) ++ after.flatMap (createBlock o))
        (before.flatMap fillBlock ++ after.flatMap fillBlock)
        (after.reverse.flatMap (dropBlock o) ++ before.reverse.flatMap (dropBlock o)) := by
  obtain ⟨p, hplan, rfl⟩ := Manifest.compile_eq_ok_iff.1 h
  obtain ⟨name, hname, hprefix, rfl⟩ := Manifest.plan_eq_ok_iff.1 hplan
  have hplan' : (m.skipping i).plan className? o = .ok ⟨m.skipping i, name, o⟩ :=
    Manifest.plan_eq_ok_iff.2 ⟨name, hname, hprefix, rfl⟩
  obtain ⟨before, after, hsplit, hlength, hskipped⟩ := Manifest.tables_skipping ht
  refine ⟨⟨m, name, o⟩, _, before, after, hplan, Manifest.compile_eq_ok_iff.2 ⟨_, hplan', rfl⟩,
    hsplit, hlength, rfl, rfl, ?_, m.triggerNames_skipping i, ?_, ?_⟩
  · show classFileName (Php.slug name) = classFileName (Php.slug name)
    rfl
  · refine (shown_lines ⟨m, name, o⟩).trans ?_
    conv_lhs => rw [hsplit]
    simp
  · refine (shown_lines ⟨m.skipping i, name, o⟩).trans ?_
    rw [Plan.frame_skipping, hskipped]
    simp [createBlock, fillBlock, dropBlock]

/-- A table that is created, filled and dropped takes eight, two and three lines with it, and its
twin keeps its own. -/
theorem mixedTables_skipping : ∃ c c', mixedTables.compile none .standard = .ok c ∧
    mixedTables.tables[0]? = some (filledTable "orders") ∧
    (mixedTables.skipping 0).compile none .standard = .ok c' ∧
    c'.installerStub = c.installerStub ∧ c'.mainPlugin = c.mainPlugin ∧
    (createBlock .standard (filledTable "orders")).length = 8 ∧
    (fillBlock (filledTable "orders")).length = 2 ∧
    (dropBlock .standard (filledTable "orders")).length = 3 ∧
    (visibleLines c.installerClass.content.toList).length =
      (visibleLines c'.installerClass.content.toList).length + 13 := by
  have hok : mixedTables.compile none .standard =
      .ok (Plan.compiled ⟨mixedTables, "MyPluginInstaller", .standard⟩) := rfl
  have htable : mixedTables.tables[0]? = some (filledTable "orders") := rfl
  obtain ⟨p, c', before, after, -, hok', -, -, hstub, hmain, -, -, hlines, hlines'⟩ :=
    skipping_removes_blocks hok htable
  have hcreate : (createBlock .standard (filledTable "orders")).length = 8 := by
    rw [createBlock, shown_eq]
    decide +kernel
  have hfill : (fillBlock (filledTable "orders")).length = 2 := by
    rw [fillBlock, shown_eq]
    decide +kernel
  have hdrop : (dropBlock .standard (filledTable "orders")).length = 3 := by
    rw [dropBlock, shown_eq]
    decide +kernel
  refine ⟨_, c', hok, htable, hok', hstub, hmain, hcreate, hfill, hdrop, ?_⟩
  rw [hlines, hlines']
  simp only [ClassFrame.around, List.length_append, hcreate, hfill, hdrop]
  omega

end SchemaInstaller
