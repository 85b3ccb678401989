import SchemaInstaller.Installer.Compile
import SchemaInstaller.Proofs.Installer.Steps

/-!
# The class of an installer as PHP reads it

The file of the class is a list of blocks that leads from before its first character to code again
(`ClassFile.block_lines`): its methods with the literals of their steps, and own lines around them.
-/

namespace SchemaInstaller

open Php

/-! ## Methods -/

/-- A method has the literals of its body. -/
theorem block_method (start : String) (hstart : start.toList.all isPlainCode = true)
    {body : List Line} {found : List Literal} (h : Block .code body found) :
    Block .code ([.code 1 start] ++ body ++ [.code 1 "\x7d", .blank]) found := by
  have hend : Block .code [.code 1 "\x7d", .blank] [] :=
    (Block.code 1 String.toList_ofList (by decide)).append Block.blank
  have hblock := ((Block.code 1 rfl hstart).append h).append hend
  rw [List.nil_append, List.append_nil] at hblock
  exact hblock

/-- The literals of the method that creates everything. -/
def Plan.installLiterals (p : Plan) : List Literal :=
  constant "wp-admin/includes/upgrade.php" :: p.installSteps.flatMap (·.literals p.manifest)

theorem Plan.block_installMethod (p : Plan) : Block .code p.installMethod p.installLiterals := by
  have hcharset : Block .code
      [.code 2 "$charset_collate = $this->wpdb->get_charset_collate();"] [] :=
    Block.code 2 String.toList_ofList (by decide +kernel)
  have hrequire : Block .code
      [.code 2 "require_once( ABSPATH . 'wp-admin/includes/upgrade.php' );"]
      [constant "wp-admin/includes/upgrade.php"] := by
    refine Block.own rfl ?_
    rw [constant, List.flatMap_singleton, Line.render, Line.code, List.flatMap_singleton,
      Fragment.render]
    repeat rw [String.toList_ofList]
    decide +kernel
  have hsteps := Block.flatMap (l := p.installSteps) fun step _ =>
    Block.blank.append (step.block p.manifest)
  have hbody := (hcharset.append hrequire).append hsteps
  exact block_method "public function install() \x7b" (by decide +kernel) hbody

/-- The literals of the method that fills tables. -/
def Plan.populateLiterals (p : Plan) : List Literal := p.seeded.flatMap seedLiterals

theorem Plan.block_populateMethod (p : Plan) : Block .code p.populateMethod p.populateLiterals :=
  block_method _ (by decide +kernel) (Block.intercalate block_seedLines p.seeded)

/-- The literals of the method that removes everything. -/
def Plan.uninstallLiterals (p : Plan) : List Literal := p.removalSteps.flatMap (·.literals)

theorem Plan.block_uninstallMethod (p : Plan) :
    Block .code p.uninstallMethod p.uninstallLiterals :=
  block_method _ (by decide +kernel) (Block.flatMap fun step _ => step.block)

/-! ## Steps in the methods -/

theorem infix_flatMap_of_mem {α : Type} {f : α → List Line} {a : α} {l : List α} (h : a ∈ l) :
    f a <:+: l.flatMap f := by
  obtain ⟨before, behind, rfl⟩ := List.append_of_mem h
  refine ⟨before.flatMap f, behind.flatMap f, ?_⟩
  rw [List.flatMap_append, List.flatMap_cons, List.append_assoc]

/-- The lines of a step that creates something are part of the method. -/
theorem Plan.infix_installMethod {p : Plan} {step : InstallStep} (h : step ∈ p.installSteps) :
    step.lines p.manifest <:+: p.installMethod := by
  have hlines : step.lines p.manifest <:+: .blank :: step.lines p.manifest :=
    (List.suffix_cons _ _).isInfix
  have hsteps := infix_flatMap_of_mem (f := fun s => Line.blank :: s.lines p.manifest) h
  exact (hlines.trans hsteps).trans ⟨_, _, rfl⟩

/-- The lines of a step that removes something are part of the method. -/
theorem Plan.infix_uninstallMethod {p : Plan} {step : RemovalStep} (h : step ∈ p.removalSteps) :
    step.lines <:+: p.uninstallMethod :=
  (infix_flatMap_of_mem (f := RemovalStep.lines) h).trans ⟨_, _, rfl⟩

/-! ## Around the methods -/

namespace ClassFile

/-- Own lines that lead from code to code. -/
theorem block_own {lines : List Line} (hown : lines.all Line.isOwn = true)
    (h : (scan .code (lines.flatMap Line.render)).isSome = true) : ∃ ls, Block .code lines ls := by
  obtain ⟨ls, hls⟩ := Option.isSome_iff_exists.1 h
  exact ⟨ls, Block.own hown hls⟩

theorem block_append {s : State} {ls ms : List Line} (h : ∃ found, Block s ls found)
    (k : ∃ more, Block .code ms more) : ∃ all, Block s (ls ++ ms) all := by
  obtain ⟨found, hls⟩ := h
  obtain ⟨more, hms⟩ := k
  exact ⟨_, hls.append hms⟩

/-- The parts of the file that are the same for every manifest. -/
def ownParts : List (List Line) :=
  [guard, state, prefixMethod, coreTablesMethod, isCoreTableMethod, targetsCoreTableMethod,
    runSqlMethod]

/-- Each of these parts leads from code to code. -/
theorem block_ownPart : ∀ lines ∈ ownParts, ∃ ls, Block .code lines ls := by
  intro lines h
  simp only [ownParts, List.mem_cons, List.not_mem_nil, or_false] at h
  rcases h with rfl | rfl | rfl | rfl | rfl | rfl | rfl
  all_goals
    refine block_own rfl ?_
    simp only [guard, state, prefixMethod, coreTablesMethod, isCoreTableMethod,
      targetsCoreTableMethod, runSqlMethod, Line.code, Line.blank, List.flatMap_cons,
      List.flatMap_nil, Line.render, Fragment.render, String.toList_append]
    -- The kernel takes the characters of a literal from its list, not from its bytes.
    repeat rw [String.toList_ofList]
    decide +kernel

theorem block_support : ∃ ls, Block .code support ls := by
  have hblank : ∃ ls, Block .code [Line.blank] ls := ⟨_, Block.blank⟩
  exact block_append (block_ownPart prefixMethod (by simp [ownParts])) <|
    block_append hblank <|
    block_append (block_ownPart coreTablesMethod (by simp [ownParts])) <|
    block_append hblank <|
    block_append (block_ownPart isCoreTableMethod (by simp [ownParts])) <|
    block_append hblank <|
    block_append (block_ownPart targetsCoreTableMethod (by simp [ownParts])) <|
    block_append hblank <| block_ownPart runSqlMethod (by simp [ownParts])

/-! ## The heading -/

/-- Fragments that add text to a comment between marks and nothing else. -/
def AddsText (fs : List Fragment) : Prop :=
  ∃ t : Text, Sound (.blockComment false) fs (.blockComment false) (t.map .text)

theorem addsText_lineBreak : AddsText [.code "\n"] := by
  refine ⟨['\n'], Sound.code (a := [.text '\n']) ?_ (Sound.nil _)⟩
  rw [String.toList_ofList]
  rfl

theorem AddsText.code {t : String} {l : Text} (ht : t.toList = l)
    (hl : read (.blockComment false) l = some (.blockComment false, l.map .text))
    {fs : List Fragment} (h : AddsText fs) : AddsText (.code t :: fs) := by
  obtain ⟨u, hu⟩ := h
  refine ⟨l ++ u, ?_⟩
  rw [List.map_append]
  exact Sound.code (by rw [ht]; exact hl) hu

theorem AddsText.name {t : String} (ht : isClassName t = true) {fs : List Fragment}
    (h : AddsText fs) : AddsText (.name t :: fs) := by
  obtain ⟨u, hu⟩ := h
  refine ⟨t.toList ++ u, ?_⟩
  rw [List.map_append]
  exact Sound.name_blockComment ht hu

theorem AddsText.comment (t : Text) {s : String} {c : Char} {r : Text} (hs : s.toList = c :: r)
    (hc : c ≠ '/') {fs : List Fragment} (h : AddsText (.code s :: fs)) :
    AddsText (.comment t :: .code s :: fs) := by
  obtain ⟨u, hu⟩ := h
  refine ⟨Php.comment t ++ u, ?_⟩
  rw [List.map_append]
  refine Sound.blockComment t (c := c) (r := r ++ source fs) ?_ hc hu
  rw [source_cons, Fragment.render, hs]
  rfl

theorem AddsText.append {fs gs : List Fragment} (h : AddsText fs) (k : AddsText gs) :
    AddsText (fs ++ gs) := by
  obtain ⟨t, ht⟩ := h
  obtain ⟨u, hu⟩ := k
  refine ⟨t ++ u, ?_⟩
  rw [List.map_append]
  exact ht.append hu

theorem AddsText.line {fs : List Fragment} (h : AddsText (fs ++ [.code "\n"])) :
    AddsText (pieces [⟨0, fs⟩]) := by
  have hline := AddsText.code (t := String.ofList (List.replicate (4 * 0) ' '))
    String.toList_ofList rfl h
  simpa [pieces, Line.pieces] using hline

theorem AddsText.ownLine {t : String} {l : Text} (ht : t.toList = l)
    (hl : read (.blockComment false) (l ++ ['\n']) =
      some (.blockComment false, (l ++ ['\n']).map .text)) : AddsText (pieces [.code 0 t]) := by
  refine ⟨l ++ ['\n'], Sound.of_code (code_of_isOwn rfl) ?_⟩
  rw [source_pieces, List.flatMap_singleton, Line.render, Line.code, List.flatMap_singleton,
    Fragment.render, ht]
  exact hl

/-- The remark about where the class comes from is one comment, whatever the database is called. -/
theorem block_heading {p : Plan} (h : isClassName p.className = true) :
    ∃ ls, Block .start (heading p) ls := by
  have hopen : Sound .start (pieces [.code 0 "<?php", .code 0 "/**"]) (.blockComment false)
      (['<', '?', 'p', 'h', 'p', '\n'].map .code
        ++ (.opens .blockComment :: ['*', '\n'].map .text)) := by
    refine Sound.of_code (code_of_isOwn rfl) ?_
    rw [source_pieces, State.start]
    simp only [Line.code, List.flatMap_cons, List.flatMap_nil, Line.render, Fragment.render]
    repeat rw [String.toList_ofList]
    rfl
  have hclose : Sound (.blockComment false) (pieces [.code 0 " */"]) .code
      ([' ', '*'].map .text ++ [.closes, .code '\n']) := by
    refine Sound.of_code (code_of_isOwn rfl) ?_
    rw [source_pieces, List.flatMap_singleton, Line.render, Line.code, List.flatMap_singleton,
      Fragment.render, String.toList_ofList]
    rfl
  have hclass : AddsText (pieces [⟨0, [.code " * Database installer ", .name p.className,
      .code "."]⟩]) :=
    .line <| .code String.toList_ofList rfl <| .name h <| .code String.toList_ofList rfl
      addsText_lineBreak
  have hsource : AddsText (pieces [⟨0, [.code " * Generated by schemapress from database ",
      .comment p.manifest.database.toList, .code " (", .comment p.manifest.generatedAt.toHeading,
      .code ")."]⟩]) :=
    .line <| .code String.toList_ofList rfl <| .comment _ String.toList_ofList (by decide) <|
      .code String.toList_ofList rfl <| .comment _ String.toList_ofList (by decide) <|
      .code String.toList_ofList rfl addsText_lineBreak
  have hblank : AddsText (pieces [.code 0 " *"]) := .ownLine String.toList_ofList rfl
  have hadvice : AddsText (pieces
      [.code 0 " * Regenerate from the manifest instead of editing by hand."]) :=
    .ownLine String.toList_ofList (by decide +kernel)
  obtain ⟨t, ht⟩ := hclass.append <| hblank.append <| hsource.append hadvice
  have hsound := hopen.append (ht.append hclose)
  refine ⟨[⟨.blockComment, (['*', '\n'] ++ t ++ [' ', '*']).map .text⟩], _, hsound, ?_⟩
  have hliteral := literals_literal .blockComment
    (isContent_text (['*', '\n'] ++ (t ++ [' ', '*']))) [.code '\n']
  rw [List.map_append, List.map_append] at hliteral
  rw [List.append_assoc, literals_code, List.append_assoc, List.map_append, List.map_append]
  simp only [List.append_assoc, List.cons_append] at hliteral ⊢
  exact hliteral

/-! ## The file -/

theorem sound_constants (names : List String) {fs : List Fragment} {b : List Event}
    (h : Sound .code fs .code b) :
    ∃ es, Sound .code
      ((names.map fun t => Fragment.singleQuoted t.toList).intersperse (.code ", ") ++ fs) .code es ∧
      literals es = (literals b).map (names.map constant ++ ·) := by
  induction names with
  | nil => exact ⟨b, h, by simp⟩
  | cons name r ih =>
    obtain ⟨es, hes, hliterals⟩ := ih
    cases r with
    | nil =>
      refine ⟨_, Sound.singleQuoted name.toList h, ?_⟩
      rw [List.append_assoc, List.singleton_append,
        literals_literal _ (isContent_text name.toList)]
      rfl
    | cons other r =>
      refine ⟨_, Sound.singleQuoted name.toList
        (Sound.plain (t := ", ") String.toList_ofList (by decide) hes), ?_⟩
      rw [List.append_assoc, List.singleton_append,
        literals_literal _ (isContent_text name.toList), literals_code, hliterals, Option.map_map]
      rfl

theorem block_coreTablesLine (o : InstallerOptions) :
    Block .code [coreTablesLine o] (o.coreTables.map constant) := by
  have hend : Sound .code [.code " );", .code "\n"] .code
      ([' ', ')', ';'].map .code ++ [.code '\n']) :=
    Sound.plain String.toList_ofList (by decide) Sound.lineBreak
  obtain ⟨es, hes, hliterals⟩ := sound_constants o.coreTables hend
  have hnone : literals ([' ', ')', ';'].map .code ++ [.code '\n']) = some [] := rfl
  rw [hnone, Option.map_some, List.append_nil] at hliterals
  have hsound := Sound.plain (t := "const CORE_TABLES = array( ") String.toList_ofList (by decide)
    hes
  rw [← literals_code] at hliterals
  unfold coreTablesLine
  refine Block.line ?_ hliterals
  rw [List.cons_append, List.cons_append, List.append_assoc]
  exact hsound

theorem block_classLine {name : String} (h : isClassName name = true) :
    Block .code [⟨0, [.code "class ", .name name, .code " \x7b"]⟩] [] := by
  have hsound := Sound.plain (t := "class ") String.toList_ofList (by decide) <|
    Sound.name_code h <|
    Sound.plain (t := " \x7b") String.toList_ofList (by decide) Sound.lineBreak
  refine Block.line hsound ?_
  rw [literals_code, literals_code, literals_code]
  rfl

/-- From its first character the file leads to code again, every literal closed. -/
theorem block_lines {p : Plan} (h : isClassName p.className = true) :
    ∃ ls, Block .start (lines p) ls := by
  have hblank : ∃ ls, Block .code [Line.blank] ls := ⟨_, Block.blank⟩
  have hend : ∃ ls, Block .code [Line.code 0 "\x7d"] ls :=
    ⟨_, Block.code 0 String.toList_ofList (by decide)⟩
  have hfile := block_append (block_heading h) <| block_append hblank <|
    block_append (block_ownPart guard (by simp [ownParts])) <|
    block_append hblank <| block_append ⟨_, block_classLine h⟩ <| block_append hblank <|
    block_append ⟨_, block_coreTablesLine p.options⟩ <| block_append hblank <|
    block_append (block_ownPart state (by simp [ownParts])) <|
    block_append ⟨_, p.block_installMethod⟩ <|
    block_append ⟨_, p.block_populateMethod⟩ <| block_append ⟨_, p.block_uninstallMethod⟩ <|
    block_append block_support hend
  unfold lines
  simp only [List.append_assoc, List.cons_append, List.nil_append] at hfile ⊢
  exact hfile

end ClassFile

end SchemaInstaller
