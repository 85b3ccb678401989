import SchemaInstaller.Proofs.Installer.Division
import SchemaInstaller.Proofs.Installer.TriggerNames
import SchemaInstaller.Proofs.Php.Values
import SchemaInstaller.Proofs.Sql.Quoting

/-!
# What the report says of an installer

The report is made from the plan, and so are the methods. The rows that it counts are those that are
put into tables and those without columns, for which there is no statement
(`insertions_populateMethod`). The triggers that it names are dropped and created under these names,
as far as a name comes out of a statement as it is (`report_exact_iff`).
-/

namespace SchemaInstaller

open Php Sql Statement Text

/-! ## Rows -/

/-- Whether a literal is a statement that puts a row into a table. -/
def isInsertion (l : Literal) : Bool :=
  l.place = .doubleQuoted && "INSERT INTO ".toList.isPrefixOf (spelling l.content)

/-- How many rows the statements of a method put into tables. -/
def insertions (method : List Line) : Nat :=
  ((scan .code (render method).toList).getD []).countP isInsertion

/-- The rows without columns among those of a table that its limit lets through. -/
def emptyRows (t : Table) : List SeedRow := t.seedRowsToEmit.filter (·.cells.isEmpty)

/-- The rows without columns of all tables that are not skipped. -/
def Manifest.emptyRows (m : Manifest) : List SeedRow :=
  (m.tables.filter (!·.skip)).flatMap SchemaInstaller.emptyRows

theorem isInsertion_insertRow (table : String) (row : SeedRow) :
    isInsertion (ranStatement (insertRow table row)) = true := by
  have hclean := flatMap_withoutReturn return_notMem_prefixExpression
  have hverb : "INSERT INTO ".toList.flatMap withoutReturn = "INSERT INTO ".toList := by
    rw [String.toList_ofList]
    rfl
  unfold isInsertion ranStatement
  rw [spelling_spliced hclean, Bool.and_eq_true]
  refine ⟨decide_eq_true rfl, List.isPrefixOf_iff_prefix.2 ?_⟩
  unfold insertRow
  simp only [List.append_assoc, List.flatMap_append, hverb]
  exact List.prefix_append _ _

/-- The rows of a table that its limit lets through have one statement each, but for those without
columns. -/
theorem countP_seedLiterals (t : Table) :
    (seedLiterals t).countP isInsertion + (emptyRows t).length = t.seedRowsToEmit.length := by
  have hremark : ¬isInsertion (namingRemark "// Seed data: " t.name) = true := by
    simp [isInsertion, namingRemark]
  have hall : ∀ s ∈ seedStatements t, isInsertion (ranStatement s) = true := by
    intro s hs
    obtain ⟨row, -, rfl⟩ := List.mem_map.1 hs
    exact isInsertion_insertRow t.name row
  have hstatements : (seedLiterals t).countP isInsertion = (seedStatements t).length := by
    unfold seedLiterals
    rw [List.countP_cons_of_neg hremark, ← List.map_eq_flatMap, List.countP_map]
    exact List.countP_eq_length.2 hall
  have hparts := List.length_eq_length_filter_add (fun row : SeedRow => !row.cells.isEmpty)
    (l := t.seedRowsToEmit)
  simp only [Bool.not_not] at hparts
  rw [hstatements, seedStatements, List.length_map, hparts]
  rfl

/-- The rows that are counted are put into tables, but for those without columns. -/
theorem insertions_populateMethod (p : Plan) :
    insertions p.populateMethod + p.manifest.emptyRows.length = p.report.seedRows := by
  unfold insertions
  rw [scan_of_block p.block_populateMethod, Option.getD_some]
  unfold Plan.populateLiterals Plan.report Plan.seeded Manifest.emptyRows
  dsimp only
  induction p.manifest.tables with
  | nil => rfl
  | cons t ts ih =>
    have ht := countP_seedLiterals t
    rw [List.filter_cons, List.filter_cons]
    cases t.skip with
    | true => exact ih
    | false =>
      cases hrows : t.seedRowsToEmit.isEmpty with
      | true =>
        have hempty : emptyRows t = [] := by
          unfold emptyRows
          rw [List.isEmpty_iff.1 hrows]
          rfl
        rw [if_neg (by simp), if_pos (by rfl), List.flatMap_cons, hempty]
        exact ih
      | false =>
        rw [if_pos (by rfl), if_pos (by rfl), List.flatMap_cons, List.flatMap_cons,
          List.flatMap_cons, List.countP_append, List.length_append, List.length_append]
        omega

/-! ## Triggers -/

/-- A name behind its opening backtick, up to the next backtick that is not doubled. -/
def nameInside : Text → Option Text
  | '\x60' :: '\x60' :: r => (nameInside r).map ('\x60' :: ·)
  | '\x60' :: _ => some []
  | c :: r => (nameInside r).map (c :: ·)
  | [] => none

/-- The quoted name behind the verb of a statement. -/
def subject? (verb statement : Text) : Option Text :=
  ((verb ++ ['\x60']).isPrefixOf? statement).bind nameInside

theorem nameInside_eq (t : Text) : nameInside t = (readName t).map (·.1) := by
  fun_induction nameInside t with
  | case1 r ih =>
    rw [readName, ih, Option.map_map, Option.map_map]
    rfl
  | case2 r hr =>
    rw [readName]
    · rfl
    · exact hr
  | case3 c r _ hc ih =>
    rw [readName_cons hc, ih, Option.map_map, Option.map_map]
    rfl
  | case4 => rfl

/-- A name comes back from between its backticks. -/
theorem nameInside_escapeIdentifier (n : Text) {r : Text} (hr : r.head? ≠ some '\x60') :
    nameInside (escapeIdentifier n ++ '\x60' :: r) = some n := by
  rw [nameInside_eq, readName_escapeIdentifier n hr]
  rfl

/-- A statement that begins with a verb and the name of an object of the site names the object behind
the prefix, as it comes out of the statement. -/
theorem subject?_siteName {verb : Text} (hverb : IsVerbatim verb) (name : String) {q r : Text}
    (hq : '\x60' ∉ q) (hr : (resolved q r).head? ≠ some '\x60') :
    subject? verb (resolved q (verb ++ siteName name ++ r)) =
      some (q ++ resolved q name.toList) := by
  have hbacktick : ∀ t : Text, '\x60' ∉ t → ∀ c ∈ t, (c == '\x60') = false := fun t ht c hc =>
    beq_eq_false_iff_ne.2 fun h => ht (h ▸ hc)
  have htext : verb ++ siteName name ++ r =
      verb ++ '\x60' :: (prefixExpression ++ escapeIdentifier name.toList ++ '\x60' :: r) := by
    unfold siteName
    simp only [List.append_assoc, List.cons_append, List.nil_append]
  have hname : q ++ resolved q (escapeIdentifier name.toList) =
      escapeIdentifier (q ++ resolved q name.toList) := by
    rw [escapeIdentifier_append, escapeIdentifier_of_notMem hq, escapeIdentifier_eq_doubled,
      escapeIdentifier_eq_doubled,
      resolved_doubled (hbacktick q hq) (hbacktick _ backtick_notMem_prefixExpression) rfl]
  have hresolved : resolved q (verb ++ siteName name ++ r) = verb ++ ['\x60'] ++
      (escapeIdentifier (q ++ resolved q name.toList) ++ '\x60' :: resolved q r) := by
    rw [htext, resolved_backtick, resolved_backtick, resolved_prefixExpression, hname,
      resolved_of_isVerbatim hverb, List.append_assoc]
    rfl
  unfold subject?
  rw [hresolved, List.isPrefixOf?_eq_some_iff_append_eq.2 rfl, Option.bind_some,
    nameInside_escapeIdentifier _ hr]

/-- A statement has a name behind its verb and the prefix, on every site whose prefix can stand
between backticks. -/
def Concerns (verb : Text) (name : String) (l : Literal) : Prop :=
  ∀ q, '\x60' ∉ q → subject? verb (l.valueAt q) = some (q ++ name.toList)

theorem concerns_iff {verb : Text} (hverb : IsVerbatim verb) (name : String) {r : Text}
    (hr : ∀ q, (resolved q r).head? ≠ some '\x60') :
    Concerns verb name (ranStatement (verb ++ siteName name ++ r)) ↔ IsVerbatim name.toList := by
  constructor
  · intro h
    have hname := h [] List.not_mem_nil
    rw [ranStatement, valueAt_spliced, subject?_siteName hverb name List.not_mem_nil (hr []),
      List.nil_append, List.nil_append] at hname
    have hsame : resolved [] name.toList = name.toList := Option.some.inj hname
    exact (resolved_length name.toList).2 (by rw [hsame])
  · intro h q hq
    rw [ranStatement, valueAt_spliced, subject?_siteName hverb name hq (hr q),
      resolved_of_isVerbatim h]

def dropTriggerVerb : Text := "DROP TRIGGER IF EXISTS ".toList

def createTriggerVerb : Text := "CREATE TRIGGER ".toList

theorem concerns_dropTrigger_iff (name : String) :
    Concerns dropTriggerVerb name (ranStatement (dropTrigger name)) ↔ IsVerbatim name.toList := by
  have hverb : IsVerbatim dropTriggerVerb := isVerbatim_of_not_mem (by decide) (by decide)
  have hend := concerns_iff hverb name (r := []) fun _ => nofun
  rw [List.append_nil] at hend
  exact hend

theorem concerns_createTrigger_iff (m : Manifest) (t : Trigger) (name : String) :
    Concerns createTriggerVerb name (ranStatement (createTrigger m t name)) ↔
      IsVerbatim name.toList := by
  have hverb : IsVerbatim createTriggerVerb := isVerbatim_of_not_mem (by decide) (by decide)
  have hblank : ∀ (u : Text) (q : Text), (resolved q (' ' :: u)).head? ≠ some '\x60' := by
    intro u q
    have hcons := resolved_append (x := [' ']) (by decide) (by decide) q u
    rw [List.singleton_append] at hcons
    rw [hcons]
    simp
  have hstatement : ∃ u, createTrigger m t name = createTriggerVerb ++ siteName name ++ ' ' :: u := by
    unfold createTrigger createTriggerVerb
    simp only [List.append_assoc, List.cons_append]
    exact ⟨_, rfl⟩
  obtain ⟨u, hu⟩ := hstatement
  rw [hu]
  exact concerns_iff hverb name (hblank u)

/-! ## The report -/

theorem Plan.map_fst_triggers (p : Plan) : p.triggers.map (·.1) = p.manifest.triggers := by
  have hlength : p.manifest.triggers.length ≤ p.manifest.triggerNames.length :=
    (TriggerNames.length_assign _ _).ge
  exact List.map_fst_zip hlength

theorem Plan.map_snd_triggers (p : Plan) : p.triggers.map (·.2) = p.manifest.triggerNames := by
  have hlength : p.manifest.triggerNames.length ≤ p.manifest.triggers.length :=
    (TriggerNames.length_assign _ _).le
  exact List.map_snd_zip hlength

/-- What the installer does with a trigger whose statements these are: it drops it and creates it
under the name that the report has. -/
def InstalledTrigger.IsInstalledBy (t : InstalledTrigger) (drop create : Literal) : Prop :=
  Concerns dropTriggerVerb t.installedAs drop ∧ Concerns createTriggerVerb t.installedAs create

/-- The last steps of the method that creates everything are those of the triggers. -/
theorem Plan.installLiterals_eq (p : Plan) : ∃ others, p.installLiterals =
    others ++ p.triggers.flatMap fun t => triggerLiterals p.manifest t.1 t.2 := by
  unfold Plan.installLiterals Plan.installSteps
  rw [List.flatMap_append, List.flatMap_map, ← List.cons_append]
  exact ⟨_, rfl⟩

/-- The first steps of the method that removes everything are those of the triggers, under the names
that they are installed under if the options say so. -/
theorem Plan.uninstallLiterals_of_installed {p : Plan} (h : p.options.triggerDrop = .installed) :
    ∃ others, p.uninstallLiterals =
      (p.triggers.map fun t => ranStatement (dropTrigger t.2)) ++ others := by
  have hdropped : p.droppedTriggers = p.triggers.map (·.2) := by
    rw [p.map_snd_triggers]
    unfold Plan.droppedTriggers
    rw [h]
  rw [p.uninstallLiterals_eq, Plan.objectDrops, hdropped]
  simp only [List.map_append, List.map_map, List.append_assoc]
  exact ⟨_, rfl⟩

/-- The report of an installer counts the rows that are put into tables and those without columns. It
names the triggers of the manifest in their order, and under its names they are dropped and created
one after another, and dropped when everything is removed, exactly as far as the names come out of
statements as they are. -/
theorem report_exact_iff {m : Manifest} {className? : Option String} {o : InstallerOptions}
    {c : CompiledInstaller} (h : m.compile className? o = .ok c) :
    ∃ p before behind, m.plan className? o = .ok p ∧
      c.installerClass.content =
        render (before ++ p.installMethod ++ p.populateMethod ++ p.uninstallMethod ++ behind) ∧
      c.report.seedRows = insertions p.populateMethod + m.emptyRows.length ∧
      c.report.triggers.map (·.name) = m.triggers.map (·.name) ∧
      (∃ others steps,
        scan .code (render p.installMethod).toList = some (others ++ steps.flatten) ∧
        List.Forall₂ (fun t step => ∃ remark drop create, step = [remark, drop, create] ∧
          (t.IsInstalledBy drop create ↔ IsVerbatim t.installedAs.toList))
          c.report.triggers steps) ∧
      (o.triggerDrop = .installed → ∃ drops others,
        scan .code (render p.uninstallMethod).toList = some (drops ++ others) ∧
        List.Forall₂ (fun t drop => Concerns dropTriggerVerb t.installedAs drop ↔
          IsVerbatim t.installedAs.toList) c.report.triggers drops) := by
  obtain ⟨p, hplan, rfl⟩ := Manifest.compile_eq_ok_iff.1 h
  obtain ⟨name, -, -, rfl⟩ := Manifest.plan_eq_ok_iff.1 hplan
  obtain ⟨before, behind, hlines⟩ := lines_split ⟨m, name, o⟩
  have hreport : (Plan.compiled ⟨m, name, o⟩).report.triggers =
      (Plan.triggers ⟨m, name, o⟩).map fun t => ⟨t.1.name, t.2⟩ := rfl
  rw [hreport]
  refine ⟨⟨m, name, o⟩, before, behind, hplan, congrArg render hlines,
    (insertions_populateMethod _).symm, ?_, ?_, fun hdrop => ?_⟩
  · have hnames := congrArg (List.map Trigger.name) (Plan.map_fst_triggers ⟨m, name, o⟩)
    rw [List.map_map] at hnames ⊢
    exact hnames
  · obtain ⟨others, hothers⟩ := Plan.installLiterals_eq ⟨m, name, o⟩
    refine ⟨others, (Plan.triggers ⟨m, name, o⟩).map fun t => triggerLiterals m t.1 t.2, ?_, ?_⟩
    · rw [scan_of_block (Plan.block_installMethod _), hothers, ← List.flatMap_def]
    · rw [List.forall₂_map_left_iff, List.forall₂_map_right_iff, List.forall₂_same]
      intro t _
      refine ⟨_, _, _, rfl, ?_⟩
      unfold InstalledTrigger.IsInstalledBy
      rw [concerns_dropTrigger_iff, concerns_createTrigger_iff, and_self_iff]
  · obtain ⟨others, hothers⟩ := Plan.uninstallLiterals_of_installed (p := ⟨m, name, o⟩) hdrop
    refine ⟨_, others, (scan_of_block (Plan.block_uninstallMethod _)).trans (congrArg some hothers),
      ?_⟩
    rw [List.forall₂_map_left_iff, List.forall₂_map_right_iff, List.forall₂_same]
    exact fun t _ => concerns_dropTrigger_iff t.2

/-- A table that is filled, one of the host, and one to skip, with a trigger that needs a name. -/
def countedManifest : Manifest :=
  { Manifest.empty "shop" "wp_" .epoch with
    tables := [filledTable "orders", filledTable "options",
      { filledTable "archive" with skip := true }]
    triggers := [⟨"orders", "wp_orders", "", "AFTER INSERT", "orders", "BEGIN END", none⟩] }

/-- The rows of the filled table and of the host's are counted and put in, and the trigger is
installed under the name that the report has. -/
theorem countedManifest_exact : ∃ c p, countedManifest.compile none .standard = .ok c ∧
    countedManifest.plan none .standard = .ok p ∧ c.report.seedRows = 2 ∧
    insertions p.populateMethod = 2 ∧ c.report.triggers = [⟨"orders", "orders_trg"⟩] ∧
    ∃ others remark drop create drops others',
      scan .code (render p.installMethod).toList = some (others ++ [remark, drop, create]) ∧
      Concerns dropTriggerVerb "orders_trg" drop ∧ Concerns createTriggerVerb "orders_trg" create ∧
      scan .code (render p.uninstallMethod).toList = some (drops :: others') ∧
      Concerns dropTriggerVerb "orders_trg" drops := by
  have hok : countedManifest.compile none .standard =
      .ok (Plan.compiled ⟨countedManifest, "MyPluginInstaller", .standard⟩) := rfl
  have hrows : (Plan.compiled ⟨countedManifest, "MyPluginInstaller", .standard⟩).report.seedRows =
      2 := by decide +kernel
  have htriggers : (Plan.compiled
      ⟨countedManifest, "MyPluginInstaller", .standard⟩).report.triggers =
        [⟨"orders", "orders_trg"⟩] := by decide +kernel
  have hverbatim : IsVerbatim "orders_trg".toList := isVerbatim_of_not_mem (by decide) (by decide)
  obtain ⟨p, before, behind, hplan, -, hcount, -, ⟨others, steps, hinstall, hsteps⟩, hremoval⟩ :=
    report_exact_iff hok
  obtain ⟨drops, others', huninstall, hdrops⟩ := hremoval rfl
  rw [htriggers] at hsteps hdrops
  obtain ⟨step, rest, ⟨remark, drop, create, rfl, hstep⟩, hrest, rfl⟩ :=
    List.forall₂_cons_left_iff.1 hsteps
  obtain rfl := List.forall₂_nil_left_iff.1 hrest
  obtain ⟨again, rest, hagain, hrest, rfl⟩ := List.forall₂_cons_left_iff.1 hdrops
  obtain rfl := List.forall₂_nil_left_iff.1 hrest
  obtain ⟨hdrop, hcreate⟩ := hstep.2 hverbatim
  have hnone : countedManifest.emptyRows = [] := by decide +kernel
  rw [hrows, hnone, List.length_nil, Nat.add_zero] at hcount
  exact ⟨_, p, hok, hplan, hrows, hcount.symm, htriggers, others, remark, drop, create, again,
    others', hinstall, hdrop, hcreate, huninstall, hagain.2 hverbatim⟩

/-- A table with one row, which has no columns. -/
def emptyRowManifest : Manifest :=
  { Manifest.empty "shop" "wp_" .epoch with
    tables := [{ Table.empty "orders" "wp_orders" "shop" with
      rowLimit := 1, seedData := [SeedRow.empty] }] }

/-- Its row is counted, but not put into the table. -/
theorem emptyRow_counted : ∃ c p, emptyRowManifest.compile none .standard = .ok c ∧
    emptyRowManifest.plan none .standard = .ok p ∧ c = p.compiled ∧ c.report.seedRows = 1 ∧
    insertions p.populateMethod = 0 := by
  let p : Plan := ⟨emptyRowManifest, "MyPluginInstaller", .standard⟩
  have hrows : p.report.seedRows = 1 := by decide +kernel
  have hempty : p.manifest.emptyRows.length = 1 := by decide +kernel
  have hcount := insertions_populateMethod p
  refine ⟨p.compiled, p, rfl, rfl, rfl, hrows, ?_⟩
  omega

end SchemaInstaller
