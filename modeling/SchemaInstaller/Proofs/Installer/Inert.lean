import SchemaInstaller.Proofs.Installer.ClassFile

/-!
# Texts from outside stay texts

The code of a generated class is the same few texts for every manifest (`ClassFile.isFixed_lines`),
and PHP reads the class as its fragments are meant. So every text from outside lies in one literal
or comment that ends where the installer ends it, whatever the text is, and PHP evaluates nothing
but the two own expressions (`read_installerClass`).
-/

namespace SchemaInstaller

open Php

/-! ## Fixed code -/

/-- A fragment that is escaped, or code from a list of own texts, or the one name that may stand in
code, if any. -/
def IsOwn (own : List String) (name? : Option String) : Fragment → Prop
  | .code t => t ∈ own
  | .name t => name? = some t
  | _ => True

/-- Lines built from something, with code from the same list whatever they are built from. -/
def IsFixed {α : Type} (name? : α → Option String) (build : α → List Line) : Prop :=
  ∃ own, ∀ a, ∀ f ∈ pieces (build a), IsOwn own (name? a) f

/-- Lines built from something that hold no name. -/
def IsFixedCode {α : Type} (build : α → List Line) : Prop := IsFixed (fun _ => none) build

/-- Whether a fragment stands in the file as it is. -/
def isBare : Fragment → Bool
  | .code _ => true
  | .name _ => true
  | _ => false

/-- The texts of the code among fragments. -/
def codeTexts (fs : List Fragment) : List String :=
  fs.filterMap fun f => match f with
    | .code t => some t
    | _ => none

theorem IsOwn.mono {own own' : List String} {name? : Option String} {f : Fragment}
    (h : IsOwn own name? f) (hsub : own ⊆ own') : IsOwn own' name? f := by
  cases f with
  | code t => exact hsub h
  | name t => exact h
  | _ => trivial

theorem IsOwn.of_none {own : List String} {name? : Option String} {f : Fragment}
    (h : IsOwn own none f) : IsOwn own name? f := by
  cases f with
  | code t => exact h
  | name t => cases h
  | _ => trivial

namespace IsFixed

variable {α β : Type} {name? : α → Option String} {f g : α → List Line}

theorem of_code (h : IsFixedCode f) : IsFixed name? f := by
  obtain ⟨own, h⟩ := h
  exact ⟨own, fun a x hx => (h a x hx).of_none⟩

theorem append (hf : IsFixed name? f) (hg : IsFixed name? g) :
    IsFixed name? fun a => f a ++ g a := by
  obtain ⟨own, hf⟩ := hf
  obtain ⟨own', hg⟩ := hg
  refine ⟨own ++ own', fun a x hx => ?_⟩
  rw [pieces_append] at hx
  rcases List.mem_append.1 hx with hx | hx
  · exact (hf a x hx).mono (List.subset_append_left _ _)
  · exact (hg a x hx).mono (List.subset_append_right _ _)

theorem comp (h : IsFixed name? f) (view : β → α) :
    IsFixed (fun b => name? (view b)) fun b => f (view b) := by
  obtain ⟨own, h⟩ := h
  exact ⟨own, fun b => h (view b)⟩

end IsFixed

namespace IsFixedCode

variable {α β : Type} {f : α → List Line}

/-- Lines built the same way from everything, but for what is escaped. -/
theorem of_same (a : α) (h : ∀ b, (pieces (f b)).filter isBare = (pieces (f a)).filter isBare)
    (hcode : ((pieces (f a)).filter isBare).all Fragment.isCode = true) : IsFixedCode f := by
  refine ⟨codeTexts (pieces (f a)), fun b x hx => ?_⟩
  by_cases hbare : isBare x = true
  · have hmem : x ∈ (pieces (f a)).filter isBare := h b ▸ List.mem_filter.2 ⟨hx, hbare⟩
    obtain ⟨t, rfl⟩ := exists_of_isCode (List.all_eq_true.1 hcode x hmem)
    exact List.mem_filterMap.2 ⟨_, (List.mem_filter.1 hmem).1, rfl⟩
  · cases x with
    | code t => exact absurd rfl hbare
    | name t => exact absurd rfl hbare
    | _ => trivial

theorem append {g : α → List Line} (hf : IsFixedCode f) (hg : IsFixedCode g) :
    IsFixedCode fun a => f a ++ g a := IsFixed.append hf hg

theorem flatMap {build : α → β → List Line} (h : IsFixedCode fun x : α × β => build x.1 x.2)
    (items : α → List β) : IsFixedCode fun a => (items a).flatMap (build a) := by
  obtain ⟨own, h⟩ := h
  refine ⟨own, fun a x hx => ?_⟩
  unfold pieces at hx
  rw [List.flatMap_assoc] at hx
  obtain ⟨b, -, hb⟩ := List.mem_flatMap.1 hx
  exact h (a, b) x hb

theorem intercalate {sep : List Line} (hsep : sep.all Line.isOwn = true) {build : β → List Line}
    (h : IsFixedCode build) (items : α → List β) :
    IsFixedCode fun a => sep.intercalate ((items a).map build) := by
  obtain ⟨own, h⟩ := h
  refine ⟨own ++ codeTexts (pieces sep), fun a => ?_⟩
  dsimp only
  generalize items a = l
  induction l with
  | nil => nofun
  | cons b r ih =>
    have hb : ∀ x ∈ pieces (build b), IsOwn (own ++ codeTexts (pieces sep)) none x :=
      fun x hx => (h b x hx).mono (List.subset_append_left _ _)
    cases r with
    | nil => simpa using hb
    | cons c r =>
      rw [List.map_cons, List.map_cons, List.intercalate_cons_cons, List.append_assoc,
        pieces_append, pieces_append]
      refine List.forall_mem_append.2 ⟨hb, List.forall_mem_append.2 ⟨fun x hx => ?_, ih⟩⟩
      obtain ⟨t, rfl⟩ := code_of_isOwn hsep x hx
      exact List.mem_append_right _ (List.mem_filterMap.2 ⟨_, hx, rfl⟩)

theorem comp (h : IsFixedCode f) (view : β → α) : IsFixedCode fun b => f (view b) :=
  IsFixed.comp h view

theorem own {lines : List Line} (h : lines.all Line.isOwn = true) :
    IsFixedCode fun _ : α => lines := by
  refine ⟨codeTexts (pieces lines), fun _ x hx => ?_⟩
  obtain ⟨t, rfl⟩ := code_of_isOwn h x hx
  exact List.mem_filterMap.2 ⟨_, hx, rfl⟩

end IsFixedCode

/-! ## Steps -/

theorem isFixed_runSql (depth : Nat) : IsFixedCode fun s => [Line.runSql depth s] :=
  .of_same [] (fun _ => rfl) rfl

theorem isFixed_clauseLines : IsFixedCode clauseLines := by
  obtain ⟨own, h⟩ : IsFixedCode fun clause => [Line.mk 1 [.heredoc clause]] :=
    .of_same [] (fun _ => rfl) rfl
  obtain ⟨own', h'⟩ : IsFixedCode fun clause => [Line.mk 1 [.heredoc clause, .code ","]] :=
    .of_same [] (fun _ => rfl) rfl
  refine ⟨own ++ own', fun clauses => ?_⟩
  fun_induction clauseLines clauses with
  | case1 => exact fun x hx => absurd hx List.not_mem_nil
  | case2 clause => exact fun x hx => (h clause x hx).mono (List.subset_append_left _ _)
  | case3 clause r hne ih =>
    intro x hx
    rw [← List.singleton_append, pieces_append] at hx
    rcases List.mem_append.1 hx with hx | hx
    · exact (h' clause x hx).mono (List.subset_append_right _ _)
    · exact ih x hx

theorem isFixed_tableLines : IsFixedCode tableLines := by
  have hstart : IsFixedCode fun t : Table => [
      Line.mk 2 [.code "// Table: ", .comment t.name.toList], .code 2 "$sql = <<<SQL",
      ⟨0, [.heredoc (Statement.createTableHead t.name)]⟩] :=
    .of_same (.empty "" "" "") (fun _ => rfl) rfl
  have hend : IsFixedCode fun t : Table => [Line.code 0 ") $charset_collate;", .code 0 "SQL;",
      unlessCore t.name, .code 3 "dbDelta( $sql );", .code 2 "\x7d"] :=
    .of_same (.empty "" "" "") (fun _ => rfl) rfl
  exact (hstart.append (isFixed_clauseLines.comp Statement.tableClauses)).append hend

theorem isFixed_remark (start : String) :
    IsFixedCode fun name : String => [Line.mk 2 [.code start, .comment name.toList]] :=
  .of_same "" (fun _ => rfl) rfl

theorem isFixed_createLine (object : String) : IsFixedCode fun s? => [createLine object s?] := by
  obtain ⟨own, h⟩ := isFixed_runSql 2
  refine ⟨own ++ codeTexts (pieces [createLine object none]), fun s? => ?_⟩
  cases s? with
  | some s => exact fun x hx => (h s x hx).mono (List.subset_append_left _ _)
  | none =>
    intro x hx
    obtain ⟨t, rfl⟩ := code_of_isOwn rfl x hx
    exact List.mem_append_right _ (List.mem_filterMap.2 ⟨_, hx, rfl⟩)

theorem isFixed_viewLines : IsFixedCode fun x : Manifest × View => viewLines x.1 x.2 := by
  have hdrop := (isFixed_runSql 2).comp fun x : Manifest × View => Statement.dropView x.2.name
  have hcreate := (isFixed_createLine "view").comp fun x : Manifest × View =>
    Statement.createView? x.1 x.2
  have hremark := (isFixed_remark "// View: ").comp fun x : Manifest × View => x.2.name
  have hlines := (hremark.append hdrop).append hcreate
  exact hlines

theorem isFixed_procedureLines :
    IsFixedCode fun x : Manifest × Procedure => procedureLines x.1 x.2 := by
  have hdrop := (isFixed_runSql 2).comp fun x : Manifest × Procedure =>
    Statement.dropProcedure x.2.name
  have hcreate := (isFixed_createLine "procedure").comp fun x : Manifest × Procedure =>
    Statement.createProcedure? x.1 x.2
  have hremark := (isFixed_remark "// Stored procedure: ").comp fun x : Manifest × Procedure =>
    x.2.name
  have hlines := (hremark.append hdrop).append hcreate
  exact hlines

theorem isFixed_triggerRemark :
    IsFixedCode fun x : Trigger × String => [triggerRemark x.1 x.2] := by
  obtain ⟨own, h⟩ := isFixed_remark "// Trigger: "
  obtain ⟨own', h'⟩ : IsFixedCode fun x : Trigger × String =>
      [Line.mk 2 [.code "// Trigger: ", .comment x.1.name.toList, .code " (installed as ",
        .comment x.2.toList, .code ")"]] :=
    .of_same (⟨"", "", "", "", "", "", none⟩, "") (fun _ => rfl) rfl
  refine ⟨own ++ own', fun ⟨t, installedAs⟩ => ?_⟩
  dsimp only
  unfold triggerRemark
  by_cases hsame : installedAs = t.name
  · rw [if_pos hsame]
    exact fun x hx => (h t.name x hx).mono (List.subset_append_left _ _)
  · rw [if_neg hsame]
    exact fun x hx => (h' (t, installedAs) x hx).mono (List.subset_append_right _ _)

theorem isFixed_triggerLines :
    IsFixedCode fun x : Manifest × Trigger × String => triggerLines x.1 x.2.1 x.2.2 := by
  have hdrop := (isFixed_runSql 2).comp fun x : Manifest × Trigger × String =>
    Statement.dropTrigger x.2.2
  have hcreate := (isFixed_runSql 2).comp fun x : Manifest × Trigger × String =>
    Statement.createTrigger x.1 x.2.1 x.2.2
  have hremark := isFixed_triggerRemark.comp fun x : Manifest × Trigger × String => x.2
  have hlines := (hremark.append hdrop).append hcreate
  exact hlines

theorem InstallStep.isFixed_lines :
    IsFixedCode fun x : Manifest × InstallStep => x.2.lines x.1 := by
  obtain ⟨own₁, h₁⟩ := isFixed_tableLines
  obtain ⟨own₂, h₂⟩ := isFixed_viewLines
  obtain ⟨own₃, h₃⟩ := isFixed_procedureLines
  obtain ⟨own₄, h₄⟩ := isFixed_triggerLines
  refine ⟨own₁ ++ (own₂ ++ (own₃ ++ own₄)), fun ⟨m, step⟩ x hx => ?_⟩
  cases step with
  | table t => exact (h₁ t x hx).mono fun _ h => by simp [h]
  | view v => exact (h₂ (m, v) x hx).mono fun _ h => by simp [h]
  | procedure p => exact (h₃ (m, p) x hx).mono fun _ h => by simp [h]
  | trigger t n => exact (h₄ (m, t, n) x hx).mono fun _ h => by simp [h]

theorem isFixed_seedLines : IsFixedCode seedLines := by
  have hstatement := (isFixed_runSql 2).comp (Prod.snd : Table × Text → Text)
  have hrows : IsFixedCode fun t => (seedStatements t).flatMap fun s => [Line.runSql 2 s] :=
    hstatement.flatMap seedStatements
  have hlines := ((isFixed_remark "// Seed data: ").comp Table.name).append hrows
  unfold seedLines
  simp only [List.map_eq_flatMap]
  exact hlines

theorem RemovalStep.isFixed_lines : IsFixedCode RemovalStep.lines := by
  obtain ⟨own, h⟩ := isFixed_runSql 2
  obtain ⟨own', h'⟩ : IsFixedCode fun name => [unlessCore name,
      .runSql 3 (Statement.dropTable name), .code 2 "\x7d"] := .of_same "" (fun _ => rfl) rfl
  refine ⟨own ++ own', fun step x hx => ?_⟩
  cases step with
  | trigger name => exact (h _ x hx).mono (List.subset_append_left _ _)
  | procedure name => exact (h _ x hx).mono (List.subset_append_left _ _)
  | view name => exact (h _ x hx).mono (List.subset_append_left _ _)
  | table name => exact (h' name x hx).mono (List.subset_append_right _ _)

/-! ## The file -/

theorem Plan.isFixed_installMethod : IsFixedCode installMethod := by
  have hsteps : IsFixedCode fun x : Plan × InstallStep =>
      [Line.blank] ++ x.2.lines x.1.manifest :=
    (IsFixedCode.own rfl).append (InstallStep.isFixed_lines.comp fun x : Plan × InstallStep =>
      (x.1.manifest, x.2))
  have hbody : IsFixedCode fun p : Plan => p.installSteps.flatMap fun step =>
      [Line.blank] ++ step.lines p.manifest := hsteps.flatMap installSteps
  exact ((IsFixedCode.own rfl).append hbody).append (IsFixedCode.own rfl)

theorem Plan.isFixed_populateMethod : IsFixedCode populateMethod := by
  have hbody : IsFixedCode fun p : Plan => [Line.blank].intercalate (p.seeded.map seedLines) :=
    .intercalate rfl isFixed_seedLines seeded
  exact ((IsFixedCode.own rfl).append hbody).append (IsFixedCode.own rfl)

theorem Plan.isFixed_uninstallMethod : IsFixedCode uninstallMethod := by
  have hstep := RemovalStep.isFixed_lines.comp (Prod.snd : Plan × RemovalStep → RemovalStep)
  have hbody : IsFixedCode fun p : Plan => p.removalSteps.flatMap RemovalStep.lines :=
    hstep.flatMap removalSteps
  exact ((IsFixedCode.own rfl).append hbody).append (IsFixedCode.own rfl)

namespace ClassFile

theorem isOwn_intersperse {own : List String} {sep : String} (hsep : sep ∈ own)
    (names : List String) : ∀ f ∈ (names.map fun t => Fragment.singleQuoted t.toList).intersperse
      (.code sep), IsOwn own none f := by
  induction names with
  | nil => nofun
  | cons name r ih =>
    cases r with
    | nil =>
      intro f hf
      obtain rfl := List.mem_singleton.1 hf
      trivial
    | cons other r => exact List.forall_mem_cons.2 ⟨trivial, List.forall_mem_cons.2 ⟨hsep, ih⟩⟩

theorem isFixed_coreTablesLine : IsFixedCode fun o => [coreTablesLine o] := by
  let own := codeTexts
    (pieces [⟨1, [.code "const CORE_TABLES = array( ", .code ", ", .code " );"]⟩])
  have hsep : ", " ∈ own := by simp [own, codeTexts, pieces, Line.pieces]
  have hnames := isOwn_intersperse hsep
  refine ⟨own, fun o f hf => ?_⟩
  simp only [pieces, Line.pieces, coreTablesLine, List.flatMap_cons, List.flatMap_nil,
    List.append_nil, List.cons_append, List.mem_cons, List.mem_append, List.not_mem_nil,
    or_false] at hf
  rcases hf with rfl | rfl | (hf | rfl) | rfl
  · simp [IsOwn, own, codeTexts, pieces, Line.pieces]
  · simp [IsOwn, own, codeTexts, pieces, Line.pieces]
  · exact hnames o.coreTables f hf
  · simp [IsOwn, own, codeTexts, pieces, Line.pieces]
  · simp [IsOwn, own, codeTexts, pieces, Line.pieces]

/-- A line in a comment or in code that holds the name of the class. -/
theorem isFixed_naming (before behind : String) : IsFixed some fun name =>
    [Line.mk 0 [.code before, .name name, .code behind]] := by
  refine ⟨codeTexts (pieces [⟨0, [.code before, .code behind]⟩]), fun name f hf => ?_⟩
  simp only [pieces, Line.pieces, List.flatMap_cons, List.flatMap_nil, List.append_nil,
    List.cons_append, List.nil_append, List.mem_cons, List.not_mem_nil, or_false] at hf
  rcases hf with rfl | rfl | rfl | rfl | rfl <;> simp [IsOwn, codeTexts, pieces, Line.pieces]

theorem isFixed_heading : IsFixed (fun p => some p.className) heading := by
  have hstart : IsFixedCode fun _ : Plan => [Line.code 0 "<?php", .code 0 "/**"] := .own rfl
  have hname := (isFixed_naming " * Database installer " ".").comp Plan.className
  have hsource : IsFixedCode fun x : Text × Text =>
      [⟨0, [.code " * Generated by schemapress from database ", .comment x.1, .code " (",
        .comment x.2, .code ")."]⟩] := .of_same ([], []) (fun _ => rfl) rfl
  have hsource := hsource.comp fun p : Plan =>
    (p.manifest.database.toList, p.manifest.generatedAt.toHeading)
  have hblank : IsFixedCode fun _ : Plan => [Line.code 0 " *"] := .own rfl
  have hend : IsFixedCode fun _ : Plan =>
      [Line.code 0 " * Regenerate from the manifest instead of editing by hand.", .code 0 " */"] :=
    .own rfl
  have hrest := (hblank.append hsource).append hend
  have hheading := ((IsFixed.of_code hstart).append hname).append (IsFixed.of_code hrest)
  exact hheading

/-- The code of the file is the same for every plan, but for the name of the class. -/
theorem isFixed_lines : IsFixed (fun p => some p.className) lines := by
  have hguard : IsFixedCode fun _ : Plan => .blank :: guard ++ [.blank] := .own rfl
  have hclass := (isFixed_naming "class " " \x7b").comp Plan.className
  have hblank : IsFixedCode fun _ : Plan => [Line.blank] := .own rfl
  have hconstants := isFixed_coreTablesLine.comp Plan.options
  have hstate : IsFixedCode fun _ : Plan => .blank :: state := .own rfl
  have hsupport : IsFixedCode fun _ : Plan => support ++ [.code 0 "\x7d"] := .own rfl
  have hmethods := (Plan.isFixed_installMethod.append Plan.isFixed_populateMethod).append
    Plan.isFixed_uninstallMethod
  have hcode := ((hblank.append hconstants).append hstate).append (hmethods.append hsupport)
  have hbody : IsFixed (fun p : Plan => some p.className) _ := IsFixed.of_code hcode
  have hfile := ((isFixed_heading.append (IsFixed.of_code hguard)).append hclass).append hbody
  unfold lines
  simp only [List.append_assoc, List.cons_append, List.nil_append] at hfile ⊢
  exact hfile

end ClassFile

/-! ## No way out -/

theorem isClassName_of_resolveClass {m : Manifest} {className? : Option String} {name : String}
    (h : m.resolveClass className? = .ok name) : isClassName name = true := by
  unfold Manifest.resolveClass at h
  by_cases hempty : (m.chosenClass className?).isEmpty = true
  · rw [if_pos hempty] at h
    cases h
  · rw [if_neg hempty] at h
    by_cases hname : isName (m.chosenClass className?) = true
    · rw [if_pos hname] at h
      cases h
      unfold isClassName
      rw [String.toList_ofList]
      exact hname
    · rw [if_neg hname] at h
      cases h

/-- The file of the class is made of own code, the name of the class and escaped texts. PHP reads it
to its end in code, finds each escaped text inside the one literal or comment that the installer
puts around it, every literal closed, and evaluates nothing but the expression for the prefix and
the variable for the character set. -/
theorem read_installerClass : ∃ own : List String,
    ∀ (m : Manifest) (className? : Option String) (o : InstallerOptions) (name : String),
      m.resolveClass className? = .ok name →
        source (pieces (ClassFile.lines ⟨m, name, o⟩)) =
            (Plan.compiled ⟨m, name, o⟩).installerClass.content.toList ∧
          (∀ f ∈ pieces (ClassFile.lines ⟨m, name, o⟩), IsOwn own (some name) f) ∧
          ∃ es,
            read .start (Plan.compiled ⟨m, name, o⟩).installerClass.content.toList =
                some (.code, es) ∧
              readings .start (pieces (ClassFile.lines ⟨m, name, o⟩)) = some (.code, es) ∧
              (∃ ls, literals es = some ls) ∧
              ∀ e, .live e ∈ es → e = Sql.prefixExpression ∨ e = "$charset_collate".toList := by
  obtain ⟨own, hown⟩ := ClassFile.isFixed_lines
  refine ⟨own, fun m className? o name hname => ?_⟩
  have hsource : source (pieces (ClassFile.lines ⟨m, name, o⟩)) =
      (Plan.compiled ⟨m, name, o⟩).installerClass.content.toList := by
    unfold Plan.compiled render
    rw [source_pieces, String.toList_ofList]
  obtain ⟨ls, es, hsound, hls⟩ := ClassFile.block_lines (p := ⟨m, name, o⟩)
    (isClassName_of_resolveClass hname)
  refine ⟨hsource, hown ⟨m, name, o⟩, es, ?_, hsound.readings, ⟨ls, hls⟩, fun e he => ?_⟩
  · rw [← hsource]
    exact hsound.read
  · simpa [ownExpressions] using mem_ownExpressions hls he

/-- A manifest that tries to get out of every place. -/
def breakout : Manifest :=
  { Manifest.empty "?> */ evil();" "wp_" .epoch with
    tables := [.empty "a\x22 );\nSQL;\nevil();\n// \x7b$evil\x7d \\" "wp_a" "shop"] }

/-- Nothing of it becomes code. -/
theorem read_breakout : ∃ es,
    read .start (Plan.compiled ⟨breakout, "Shop", .standard⟩).installerClass.content.toList =
        some (.code, es) ∧
      ∀ e, .live e ∈ es → e = Sql.prefixExpression ∨ e = "$charset_collate".toList := by
  obtain ⟨own, h⟩ := read_installerClass
  obtain ⟨-, -, es, hread, -, -, hlive⟩ := h breakout (some "Shop") .standard "Shop" rfl
  exact ⟨es, hread, hlive⟩

end SchemaInstaller
