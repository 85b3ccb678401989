import SchemaInstaller.Installer.Program
import SchemaInstaller.Proofs.Php.Literals

/-!
# The steps of an installer as PHP reads them

Every step that creates, fills or removes something is a block of lines, and PHP finds these
literals in it: the remark above it, the statements that are run, the definition of a table in a
heredoc, and the name of a table in the condition around what changes it.
-/

namespace SchemaInstaller

open Php

/-! ## Kinds of literals -/

/-- A statement that is run, as PHP hands it to the host. -/
def ranStatement (statement : Text) : Literal :=
  ⟨.doubleQuoted, spliced withoutReturn statement⟩

/-- A remark of own text, from the line without its indentation. -/
def ownRemark (line : String) : Literal := ⟨.lineComment, (line.toList.drop 2).map .text⟩

/-- A remark that names something. -/
def namingRemark (start name : String) : Literal :=
  ⟨.lineComment, (start.toList.drop 2 ++ comment name.toList).map .text⟩

/-- A text that PHP compares with. -/
def constant (t : String) : Literal := ⟨.singleQuoted, t.toList.map .text⟩

/-! ## The definition of a table -/

/-- The label of the heredocs. -/
def sqlLabel : Text := ['S', 'Q', 'L']

/-- At the start of a line of a heredoc, with what has been read of the line and the break before
it. -/
def atLineStart (held : Text) : State := .inside (some sqlLabel) (.lineStart held sqlLabel)

/-- A line break and one level of indentation. -/
def newLine : Text := '\n' :: List.replicate 4 ' '

/-- What PHP finds for the lines between the parentheses of a table's definition, each with the line
break before it. -/
def clauseContent : List Text → List Event
  | [] => []
  | [clause] => newLine.map .text ++ spliced onOneLine clause
  | clause :: r =>
    newLine.map .text ++ spliced onOneLine clause ++ .text ',' :: clauseContent r

/-- The definition of a table as PHP hands it to the host. -/
def tableDefinition (t : Table) : Literal :=
  ⟨.heredoc, spliced onOneLine (Statement.createTableHead t.name)
    ++ clauseContent (Statement.tableClauses t)
    ++ (['\n', ')', ' '].map .text ++ [.live "$charset_collate".toList, .text ';'])⟩

theorem isContent_clauseContent (clauses : List Text) :
    ∀ e ∈ clauseContent clauses, e.isContent = true := by
  fun_induction clauseContent clauses with
  | case1 => simp
  | case2 clause =>
    exact List.forall_mem_append.2 ⟨isContent_text _, isContent_spliced _ _⟩
  | case3 clause r hne ih =>
    refine List.forall_mem_append.2 ⟨List.forall_mem_append.2
      ⟨isContent_text _, isContent_spliced _ _⟩, List.forall_mem_cons.2 ⟨rfl, ih⟩⟩

/-- A line of a heredoc that begins neither as the label does nor with a blank. -/
def BeginsLine (t : Text) : Prop :=
  ∃ c r, t = c :: r ∧ heredocChar c = [c] ∧ c ≠ '\x7b' ∧ c ≠ 'S' ∧ c ≠ ' ' ∧ c ≠ '\t'

/-- The first character of a line of a heredoc, if nothing is done to it. -/
theorem heredoc_cons {c : Char} (r : Text) (hc : heredocChar c = [c]) (hbrace : c ≠ '\x7b') :
    ∃ u, heredoc (c :: r) = c :: u := by
  have hspell := flatMap_atoms (c :: r)
  have hescape : heredoc (c :: r) = (atoms (c :: r)).flatMap (spellAtom heredocChar) :=
    aroundPrefix_eq_flatMap heredocChar (c :: r)
  cases ha : atoms (c :: r) with
  | nil => rw [ha] at hspell; cases hspell
  | cons a as =>
    rw [ha, List.flatMap_cons] at hspell hescape
    cases a with
    | none =>
      rw [spellAtom, prefixExpression_eq] at hspell
      exact absurd (List.cons.inj hspell).1.symm hbrace
    | some d =>
      obtain ⟨rfl, -⟩ : d = c ∧ _ := List.cons.inj hspell
      exact ⟨_, by rw [hescape, spellAtom, hc]; rfl⟩

/-- A line of a heredoc with the break behind it. -/
theorem sound_heredoc (held : Text) {t : Text} (ht : BeginsLine t) {fs : List Fragment} {s : State}
    {b : List Event} {c : Char} {r : Text} (hr : source fs = c :: r) (hc : c ≠ '$')
    (h : Sound (between (some sqlLabel) false) fs s b) :
    Sound (atLineStart held) (.heredoc t :: fs) s (held.map .text ++ spliced onOneLine t ++ b) := by
  obtain ⟨d, u, rfl, hd, hbrace, hS, hspace, htab⟩ := ht
  obtain ⟨v, hv⟩ := heredoc_cons u hd hbrace
  exact Sound.heredoc rfl hv ⟨hS, hspace, htab⟩ hr hc h

theorem sound_lineBreak :
    Sound (between (some sqlLabel) false) [.code "\n"] (atLineStart ['\n']) [] := by
  refine Sound.code (a := []) ?_ (Sound.nil _)
  rw [String.toList_ofList]
  rfl

theorem beginsLine_head (name : String) : BeginsLine (Statement.createTableHead name) := by
  unfold Statement.createTableHead
  rw [String.toList_ofList]
  exact ⟨'C', _, rfl, rfl, by decide, by decide, by decide, by decide⟩

/-- A clause starts with the quote of a column's name or with the word for the key. -/
theorem exists_clause_cons {t : Table} {clause : Text} (h : clause ∈ Statement.tableClauses t) :
    ∃ c u, clause = c :: u ∧ (c = '\x60' ∨ c = 'P') := by
  rcases List.mem_append.1 h with h | h
  · obtain ⟨c, -, rfl⟩ := List.mem_map.1 h
    exact ⟨'\x60', _, rfl, Or.inl rfl⟩
  · unfold Statement.primaryKeyClause at h
    cases hk : t.primaryKeyColumns with
    | nil => rw [hk] at h; cases h
    | cons c r =>
      rw [hk] at h
      obtain rfl := List.mem_singleton.1 h
      rw [String.toList_ofList]
      exact ⟨'P', _, rfl, Or.inr rfl⟩

theorem beginsLine_clause {t : Table} {clause : Text} (h : clause ∈ Statement.tableClauses t) :
    BeginsLine clause := by
  obtain ⟨c, u, rfl, rfl | rfl⟩ := exists_clause_cons h
  · exact ⟨'\x60', u, rfl, rfl, by decide, by decide, by decide, by decide⟩
  · exact ⟨'P', u, rfl, rfl, by decide, by decide, by decide, by decide⟩

theorem read_indent (held : Text) (n : Nat) :
    read (atLineStart held) (List.replicate n ' ') =
      some (atLineStart (held ++ List.replicate n ' '), []) := by
  induction n generalizing held with
  | zero => rw [List.replicate_zero, List.append_nil, read_nil]
  | succ n ih =>
    have hstep : (atLineStart held).step ' ' = some (atLineStart (held ++ [' ']), []) := rfl
    rw [List.replicate_succ, read_cons_of_step _ hstep, ih, List.append_assoc]
    rfl

/-- The indentation of a line of a heredoc. -/
theorem sound_indent (held : Text) (depth : Nat) {fs : List Fragment} {s : State} {b : List Event}
    (h : Sound (atLineStart (held ++ List.replicate (4 * depth) ' ')) fs s b) :
    Sound (atLineStart held) (.code (String.ofList (List.replicate (4 * depth) ' ')) :: fs) s
      b := by
  have hread := read_indent held (4 * depth)
  refine Sound.code (a := []) ?_ h
  rw [String.toList_ofList]
  exact hread

/-- The lines between the parentheses of a table's definition stay in the heredoc. -/
theorem sound_clauseLines {clauses : List Text} (h : ∀ c ∈ clauses, BeginsLine c) :
    Sound (atLineStart ['\n']) (pieces (clauseLines clauses)) (atLineStart ['\n'])
      (clauseContent clauses) := by
  fun_induction clauseLines clauses with
  | case1 => exact Sound.nil _
  | case2 clause =>
    have hsound := sound_indent ['\n'] 1 (sound_heredoc newLine (h clause List.mem_cons_self)
      source_lineBreak (by decide) sound_lineBreak)
    rw [clauseContent]
    simpa [pieces, Line.pieces] using hsound
  | case3 clause r hne ih =>
    have hcomma : Sound (between (some sqlLabel) false) [.code ",", .code "\n"]
        (atLineStart ['\n']) [.text ','] := by
      refine Sound.code (a := [.text ',']) ?_ sound_lineBreak
      rw [String.toList_ofList]
      rfl
    have hsource : source [.code ",", .code "\n"] = [',', '\n'] := by
      rw [source_cons, source_lineBreak, Fragment.render, String.toList_ofList]
      rfl
    have hline := sound_indent ['\n'] 1 (sound_heredoc newLine (h clause List.mem_cons_self)
      hsource (by decide) hcomma)
    have hsound := hline.append (ih fun c hc => h c (List.mem_cons_of_mem clause hc))
    rw [clauseContent]
    · simpa [pieces, Line.pieces] using hsound
    · exact hne

/-- The heredoc that defines a table. -/
theorem block_definition (t : Table) :
    Block .code ([Line.code 2 "$sql = <<<SQL", ⟨0, [.heredoc (Statement.createTableHead t.name)]⟩]
      ++ clauseLines (Statement.tableClauses t)
      ++ [Line.code 0 ") $charset_collate;", Line.code 0 "SQL;"]) [tableDefinition t] := by
  have hopen : Sound .code (pieces [Line.code 2 "$sql = <<<SQL"]) (atLineStart [])
      ((List.replicate 8 ' ' ++ ['$', 's', 'q', 'l', ' ', '=', ' ']).map .code
        ++ [.opens .heredoc]) := by
    refine Sound.of_code (code_of_isOwn rfl) ?_
    rw [source_pieces, List.flatMap_singleton, Line.render, Line.code, List.flatMap_singleton,
      Fragment.render, String.toList_ofList]
    rfl
  have hhead : Sound (atLineStart []) (pieces [⟨0, [.heredoc (Statement.createTableHead t.name)]⟩])
      (atLineStart ['\n']) (spliced onOneLine (Statement.createTableHead t.name)) := by
    have hsound := sound_indent [] 0 (sound_heredoc [] (beginsLine_head t.name) source_lineBreak
      (by decide) sound_lineBreak)
    rw [List.map_nil, List.nil_append, List.append_nil] at hsound
    exact hsound
  have hclose : Sound (atLineStart ['\n'])
      (pieces [Line.code 0 ") $charset_collate;", Line.code 0 "SQL;"]) .code
      (['\n', ')', ' '].map .text ++ [.live "$charset_collate".toList, .text ';']
        ++ [.closes, .code ';', .code '\n']) := by
    refine Sound.of_code (code_of_isOwn rfl) ?_
    rw [source_pieces]
    simp only [Line.code, List.flatMap_cons, List.flatMap_nil, Line.render, Fragment.render]
    repeat rw [String.toList_ofList]
    rfl
  have hclauses := sound_clauseLines fun c (hc : c ∈ Statement.tableClauses t) =>
    beginsLine_clause hc
  have hsound := hopen.append (hhead.append (hclauses.append hclose))
  have hcontent : ∀ e ∈ (tableDefinition t).content, e.isContent = true := by
    unfold tableDefinition
    simp only [List.forall_mem_append]
    refine ⟨⟨isContent_spliced _ _, isContent_clauseContent _⟩, isContent_text _, ?_⟩
    decide
  rw [← pieces_append, ← pieces_append, ← pieces_append] at hsound
  refine ⟨_, hsound, ?_⟩
  have hliteral := literals_literal .heredoc hcontent [.code ';', .code '\n']
  unfold tableDefinition at hliteral ⊢
  rw [List.append_assoc, literals_code, List.singleton_append]
  simp only [List.append_assoc, List.cons_append, List.nil_append] at hliteral ⊢
  exact hliteral

/-! ## Creating -/

theorem block_unlessCore (name : String) : Block .code [unlessCore name] [constant name] := by
  refine Block.line (Sound.plain String.toList_ofList (by decide) (Sound.singleQuoted name.toList
    (Sound.plain String.toList_ofList (by decide) Sound.lineBreak))) ?_
  rw [literals_code, List.append_assoc, List.singleton_append,
    literals_literal _ (isContent_text name.toList), literals_code]
  rfl

/-- The literals of the lines that create a table. -/
def tableLiterals (t : Table) : List Literal :=
  [namingRemark "// Table: " t.name, tableDefinition t, constant t.name]

theorem block_tableLines (t : Table) : Block .code (tableLines t) (tableLiterals t) := by
  have hremark := Block.remark 2 (t := "// Table: ") (by decide +kernel) t.name.toList
  have hupgrade : Block .code [.code 3 "dbDelta( $sql );"] [] :=
    Block.code 3 String.toList_ofList (by decide)
  have hend : Block .code [.code 2 "\x7d"] [] := Block.code 2 String.toList_ofList (by decide)
  have hbody := (block_definition t).append <|
    (block_unlessCore t.name).append (hupgrade.append hend)
  have hblock := hremark.append hbody
  unfold tableLines
  simp only [List.append_assoc, List.cons_append, List.nil_append] at hblock ⊢
  exact hblock

/-- What stands for the statement that creates an object. -/
def creation (object : String) : Option Text → Literal
  | some statement => ranStatement statement
  | none => ownRemark ("// No definition was captured for this " ++ object ++ ".")

theorem block_createLine {object : String}
    (h : beginsRemark ("// No definition was captured for this " ++ object ++ ".").toList = true)
    (statement? : Option Text) :
    Block .code [createLine object statement?] [creation object statement?] := by
  cases statement? with
  | some statement => exact Block.runSql 2 statement
  | none => exact Block.ownRemark 2 h

/-- The literals of the lines that drop and create a view. -/
def viewLiterals (m : Manifest) (v : View) : List Literal :=
  [namingRemark "// View: " v.name, ranStatement (Statement.dropView v.name),
    creation "view" (Statement.createView? m v)]

theorem block_viewLines (m : Manifest) (v : View) :
    Block .code (viewLines m v) (viewLiterals m v) := by
  have hremark := Block.remark 2 (t := "// View: ") (by decide +kernel) v.name.toList
  have hdrop := Block.runSql 2 (Statement.dropView v.name)
  exact hremark.append (hdrop.append (block_createLine (by decide +kernel) _))

/-- The literals of the lines that drop and create a procedure. -/
def procedureLiterals (m : Manifest) (p : Procedure) : List Literal :=
  [namingRemark "// Stored procedure: " p.name, ranStatement (Statement.dropProcedure p.name),
    creation "procedure" (Statement.createProcedure? m p)]

theorem block_procedureLines (m : Manifest) (p : Procedure) :
    Block .code (procedureLines m p) (procedureLiterals m p) := by
  have hremark := Block.remark 2 (t := "// Stored procedure: ") (by decide +kernel) p.name.toList
  have hdrop := Block.runSql 2 (Statement.dropProcedure p.name)
  exact hremark.append (hdrop.append (block_createLine (by decide +kernel) _))

/-- The remark above a trigger. -/
def triggerNaming (t : Trigger) (installedAs : String) : Literal :=
  if installedAs = t.name then namingRemark "// Trigger: " t.name
  else
    ⟨.lineComment, (("// Trigger: ".toList.drop 2 ++ comment t.name.toList)
      ++ (" (installed as ".toList ++ comment installedAs.toList ++ ")".toList)).map .text⟩

theorem block_triggerRemark (t : Trigger) (installedAs : String) :
    Block .code [triggerRemark t installedAs] [triggerNaming t installedAs] := by
  unfold triggerRemark triggerNaming
  by_cases h : installedAs = t.name
  · rw [if_pos h, if_pos h]
    exact Block.remark 2 (by decide +kernel) t.name.toList
  · rw [if_neg h, if_neg h]
    have hsource : source [.code ")", .code "\n"] = [')', '\n'] := by
      rw [source_cons, source_lineBreak, Fragment.render, String.toList_ofList]
      rfl
    have hend := Sound.remarkText (t := ")") (by decide +kernel) (Sound.endRemark false)
    have hsecond := Sound.remarkText (t := " (installed as ") (by decide +kernel)
      (Sound.lineComment installedAs.toList hsource (by decide) hend)
    have hstart : ∃ r, source [.code " (installed as ", .comment installedAs.toList, .code ")",
        .code "\n"] = ' ' :: r := by
      rw [source_cons, Fragment.render, String.toList_ofList]
      exact ⟨_, rfl⟩
    obtain ⟨r, hr⟩ := hstart
    have hfirst := Sound.remark (t := "// Trigger: ") (by decide +kernel)
      (Sound.lineComment t.name.toList hr (by decide) hsecond)
    refine Block.line hfirst ?_
    have hcontent := isContent_text (("// Trigger: ".toList.drop 2 ++ comment t.name.toList)
      ++ (" (installed as ".toList ++ comment installedAs.toList ++ ")".toList))
    have hliteral := literals_literal .lineComment hcontent [.code '\n']
    simp only [List.map_append, List.append_assoc, List.cons_append] at hliteral ⊢
    exact hliteral

/-- The literals of the lines that drop and create a trigger. -/
def triggerLiterals (m : Manifest) (t : Trigger) (installedAs : String) : List Literal :=
  [triggerNaming t installedAs, ranStatement (Statement.dropTrigger installedAs),
    ranStatement (Statement.createTrigger m t installedAs)]

theorem block_triggerLines (m : Manifest) (t : Trigger) (installedAs : String) :
    Block .code (triggerLines m t installedAs) (triggerLiterals m t installedAs) :=
  (block_triggerRemark t installedAs).append ((Block.runSql 2 _).append (Block.runSql 2 _))

/-- The literals of a step that creates an object. -/
def InstallStep.literals (m : Manifest) : InstallStep → List Literal
  | table t => tableLiterals t
  | view v => viewLiterals m v
  | procedure p => procedureLiterals m p
  | trigger t installedAs => triggerLiterals m t installedAs

theorem InstallStep.block (m : Manifest) (step : InstallStep) :
    Block .code (step.lines m) (step.literals m) := by
  cases step with
  | table t => exact block_tableLines t
  | view v => exact block_viewLines m v
  | procedure p => exact block_procedureLines m p
  | trigger t installedAs => exact block_triggerLines m t installedAs

/-! ## Filling and removing -/

/-- The literals of the lines that fill a table. -/
def seedLiterals (t : Table) : List Literal :=
  namingRemark "// Seed data: " t.name :: (seedStatements t).flatMap fun s => [ranStatement s]

theorem block_seedLines (t : Table) : Block .code (seedLines t) (seedLiterals t) := by
  have hremark := Block.remark 2 (t := "// Seed data: ") (by decide +kernel) t.name.toList
  have hrows := Block.flatMap (l := seedStatements t) fun s _ => Block.runSql 2 s
  unfold seedLines
  rw [List.map_eq_flatMap]
  exact hremark.append hrows

/-- The literals of a step that removes an object. -/
def RemovalStep.literals : RemovalStep → List Literal
  | trigger name => [ranStatement (Statement.dropTrigger name)]
  | procedure name => [ranStatement (Statement.dropProcedure name)]
  | view name => [ranStatement (Statement.dropView name)]
  | table name => [constant name, ranStatement (Statement.dropTable name)]

theorem RemovalStep.block (step : RemovalStep) : Block .code step.lines step.literals := by
  cases step with
  | trigger name => exact Block.runSql 2 _
  | procedure name => exact Block.runSql 2 _
  | view name => exact Block.runSql 2 _
  | table name =>
    have hend : Block .code [.code 2 "\x7d"] [] := Block.code 2 String.toList_ofList (by decide)
    exact (block_unlessCore name).append ((Block.runSql 3 _).append hend)

end SchemaInstaller
