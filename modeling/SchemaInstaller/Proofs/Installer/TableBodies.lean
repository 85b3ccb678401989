import Mathlib.Data.Bool.AllAny
import SchemaInstaller.Proofs.Installer.Targets
import SchemaInstaller.Proofs.Installer.Views

/-!
# The definitions of tables as the host gets them

The definition of a table is a heredoc. On a site with a prefix, PHP makes a text of it whose lines
are the head, one line for each column, one for the primary key if there is one, and the end
(`bodyLines`). Line breaks in a name, a type or a default have become spaces by then, so that no
text of a manifest adds a line, and no line can end the heredoc (`StaysInHeredoc`).
-/

namespace SchemaInstaller

open Php Sql Statement Text

/-! ## Texts on a line -/

/-- A text with spaces for its line breaks. -/
def oneLine (t : Text) : Text := t.map fun c => if isLineBreak c then ' ' else c

/-- A text on a line of a heredoc, on a site with a prefix: the expression for the prefix is the
prefix, wherever it stands. -/
def onSite (q t : Text) : Text := Text.replace prefixExpression q (oneLine t)

theorem oneLine_cons (c : Char) (t : Text) :
    oneLine (c :: t) = (if isLineBreak c then ' ' else c) :: oneLine t := rfl

theorem oneLine_append (t u : Text) : oneLine (t ++ u) = oneLine t ++ oneLine u :=
  List.map_append

/-- A word without spaces and line breaks stands where it stood before. -/
theorem prefix_oneLine_iff {w t : Text} (hw : ∀ c ∈ w, isLineBreak c = false ∧ c ≠ ' ') :
    w <+: oneLine t ↔ w <+: t := by
  induction w generalizing t with
  | nil => exact iff_of_true List.nil_prefix List.nil_prefix
  | cons c w ih =>
    obtain ⟨hbreak, hspace⟩ := hw c List.mem_cons_self
    have ih := ih (t := t.tail) fun d hd => hw d (List.mem_cons_of_mem c hd)
    cases t with
    | nil => rfl
    | cons d t =>
      rw [oneLine_cons, List.cons_prefix_cons, List.cons_prefix_cons]
      refine and_congr ?_ ih
      by_cases hd : isLineBreak d = true
      · rw [if_pos hd]
        refine iff_of_false hspace ?_
        rintro rfl
        rw [hd] at hbreak
        cases hbreak
      · rw [if_neg hd]

theorem infix_oneLine_iff {w t : Text} (hw : ∀ c ∈ w, isLineBreak c = false ∧ c ≠ ' ') :
    w <:+: oneLine t ↔ w <:+: t := by
  induction t with
  | nil => rfl
  | cons c t ih =>
    rw [oneLine_cons, List.infix_cons_iff, List.infix_cons_iff, ← oneLine_cons,
      prefix_oneLine_iff hw, ih]

theorem prefixExpression_plain : ∀ c ∈ prefixExpression, isLineBreak c = false ∧ c ≠ ' ' := by
  rw [prefixExpression_eq]
  exact List.all_iff_forall_prop.1 (by decide)

theorem oneLine_prefixExpression : oneLine prefixExpression = prefixExpression := by
  rw [prefixExpression_eq]
  rfl

section OnSite

variable (q : Text)

theorem onSite_eq (t : Text) :
    onSite q t = (oneLine t).substitute ((Scan.literal prefixExpression).rule q) := rfl

theorem onSite_prefixExpression (r : Text) :
    onSite q (prefixExpression ++ r) = q ++ onSite q r := by
  rw [onSite_eq, oneLine_append, oneLine_prefixExpression]
  have hliteral := Scan.literal_of prefixExpression
  exact substitute_of_some (hliteral.takes prefixExpression_ne_nil.symm) (hliteral.eq_some rfl _)

theorem onSite_cons {c : Char} {r : Text} (h : ¬prefixExpression <+: c :: r) :
    onSite q (c :: r) = (if isLineBreak c then ' ' else c) :: onSite q r := by
  rw [onSite_eq, oneLine_cons]
  refine substitute_of_none ((eq_none_iff_of (Scan.literal_of _)).2 ?_)
  rintro w rfl
  rw [← oneLine_cons, prefix_oneLine_iff prefixExpression_plain]
  exact h

/-- A character that no expression has parts a line. -/
theorem onSite_append_cons {c : Char} (hc : c ∉ prefixExpression) (hbreak : isLineBreak c = false)
    (t r : Text) : onSite q (t ++ c :: r) = onSite q t ++ c :: onSite q r := by
  rw [onSite_eq, oneLine_append, oneLine_cons, if_neg (by simp [hbreak])]
  exact substitute_append_cons (Scan.literal_of _) prefixExpression_ne_nil.symm
    (fun w hw => hw ▸ hc) _ _

/-- Text without an opening brace holds no expression. -/
theorem onSite_append {x : Text} (hbrace : '\x7b' ∉ x) (r : Text) :
    onSite q (x ++ r) = oneLine x ++ onSite q r := by
  induction x with
  | nil => rfl
  | cons c x ih =>
    have hc : ¬prefixExpression <+: c :: (x ++ r) := fun h =>
      hbrace (eq_brace_of_expression h ▸ List.mem_cons_self)
    rw [List.cons_append, onSite_cons q hc, ih fun h => hbrace (List.mem_cons_of_mem c h)]
    rfl

theorem onSite_of_not_infix {t : Text} (h : ¬prefixExpression <:+: t) : onSite q t = oneLine t := by
  rw [onSite_eq]
  refine substitute_of_forall_not_infix (Scan.literal_of _) ?_
  rintro w rfl
  rw [infix_oneLine_iff prefixExpression_plain]
  exact h

/-- Only a prefix without a line break leaves a line a line. -/
theorem newline_not_mem_onSite (hq : '\n' ∉ q) (t : Text) : '\n' ∉ onSite q t := by
  induction t using expression_induction with
  | nil => exact List.not_mem_nil
  | expression r ih =>
    rw [onSite_prefixExpression, List.mem_append, not_or]
    exact ⟨hq, ih⟩
  | cons c r hc ih =>
    rw [onSite_cons q hc, List.mem_cons, not_or]
    refine ⟨fun h => ?_, ih⟩
    by_cases hbreak : isLineBreak c = true
    · rw [if_pos hbreak] at h
      cases h
    · rw [if_neg hbreak] at h
      rw [← h] at hbreak
      exact hbreak rfl

end OnSite

/-- A line comes out as it was written on every site exactly if it holds no expression. -/
theorem onSite_eq_oneLine_iff {t : Text} :
    (∀ q, onSite q t = oneLine t) ↔ ¬prefixExpression <:+: t := by
  constructor
  · intro h hin
    have hlen := (substitute_nil_length (Scan.literal_of prefixExpression)
      prefixExpression_ne_nil.symm (oneLine t)).2
    rw [← onSite_eq, h []] at hlen
    refine hlen (Nat.le_refl _) _ rfl ?_
    rw [infix_oneLine_iff prefixExpression_plain]
    exact hin
  · exact fun h q => onSite_of_not_infix q h

/-! ## What PHP makes of a heredoc -/

/-- What a text with expressions says where these are their values. `Literal.valueAt` gives a value
to the prefix alone and keeps every other expression. -/
def Php.evaluate (env : Text → Text) (es : List Event) : Text :=
  es.flatMap fun e => match e with
    | .text c => [c]
    | .live expression => env expression
    | _ => []

section Evaluate

variable (env : Text → Text)

theorem evaluate_append (a b : List Event) :
    evaluate env (a ++ b) = evaluate env a ++ evaluate env b := List.flatMap_append

theorem evaluate_text (t : Text) : evaluate env (t.map .text) = t := by
  unfold evaluate
  rw [List.flatMap_map]
  exact List.flatMap_singleton' t

/-- A line of a heredoc is what it is on the site. -/
theorem evaluate_spliced (t : Text) :
    evaluate env (spliced onOneLine t) = onSite (env prefixExpression) t := by
  induction t using expression_induction with
  | nil => rfl
  | expression r ih =>
    have hspliced : spliced onOneLine (prefixExpression ++ r) =
        [.live prefixExpression] ++ spliced onOneLine r := by
      unfold spliced
      rw [atoms_prefixExpression]
      rfl
    rw [hspliced, evaluate_append, ih, onSite_prefixExpression]
    exact congrArg (· ++ _) (List.flatMap_singleton _ _)
  | cons c r hc ih =>
    have hspliced : spliced onOneLine (c :: r) =
        (onOneLine c).map .text ++ spliced onOneLine r := by
      unfold spliced
      rw [atoms_cons hc]
      rfl
    rw [hspliced, evaluate_append, evaluate_text, ih, onSite_cons _ hc]
    rfl

end Evaluate

/-! ## The lines of a definition -/

/-- The texts with a comma behind each but the last. -/
def separated (lines : List Text) : List Text :=
  lines.dropLast.map (· ++ [',']) ++ lines.getLast?.toList

theorem separated_cons_cons (x y : Text) (lines : List Text) :
    separated (x :: y :: lines) = (x ++ [',']) :: separated (y :: lines) := by
  unfold separated
  rw [List.dropLast_cons_cons, List.map_cons, List.getLast?_cons_cons, List.cons_append]

/-- What a definition says about its columns, in their order, and about its primary key, if it has
one: all of its columns, in the same order. -/
def definitionClauses (t : Table) : List Text :=
  t.columns.map columnClause ++
    if t.columns.any (·.primaryKey) then
      ["PRIMARY KEY (".toList ++
        commaList ((t.columns.filter (·.primaryKey)).map fun c => quoteIdentifier c.name.toList) ++
        [')']]
    else []

/-- The lines of a definition, where names and clauses are written in some way. -/
def bodyLines (written : Text → Text) (q charset : Text) (t : Table) : List Text :=
  ("CREATE TABLE ".toList ++ q ++ written t.name.toList ++ [' ', '(']) ::
    (separated ((definitionClauses t).map fun clause => List.replicate 4 ' ' ++ written clause) ++
      [[')', ' '] ++ charset ++ [';']])

theorem tableClauses_eq (t : Table) : tableClauses t = definitionClauses t := by
  unfold tableClauses primaryKeyClause definitionClauses Table.primaryKeyColumns
  refine congrArg _ ?_
  cases h : t.columns.filter (·.primaryKey) with
  | nil =>
    have hany : ¬t.columns.any (·.primaryKey) = true := by simpa using h
    rw [if_neg hany]
    rfl
  | cons c cs =>
    have hc : c ∈ t.columns.filter (·.primaryKey) := h ▸ List.mem_cons_self
    have hany : t.columns.any (·.primaryKey) = true :=
      List.any_eq_true.2 ⟨c, List.mem_filter.1 hc⟩
    rw [if_pos hany, List.map_cons]
    simp only [List.map_cons, List.map_map]
    rfl

/-- Each line with the line break before it. -/
theorem intercalate_newline (first : Text) (lines : List Text) :
    ['\n'].intercalate (first :: lines) = first ++ lines.flatMap ('\n' :: ·) := by
  induction lines generalizing first with
  | nil => simp
  | cons x lines ih =>
    rw [List.intercalate_cons_cons, ih, List.flatMap_cons]
    simp

section Evaluate

variable (env : Text → Text)

theorem evaluate_createTableHead (name : String) :
    evaluate env (spliced onOneLine (createTableHead name)) =
      "CREATE TABLE ".toList ++ env prefixExpression ++
        onSite (env prefixExpression) name.toList ++ [' ', '('] := by
  have hspace : ' ' ∉ prefixExpression := fun h => (prefixExpression_plain _ h).2 rfl
  have hverb : oneLine "CREATE TABLE ".toList = "CREATE TABLE ".toList := by decide
  have hparen : onSite (env prefixExpression) ['('] = ['('] :=
    onSite_append _ (x := ['(']) (by decide) []
  unfold createTableHead siteTable
  rw [evaluate_spliced, List.append_assoc, List.append_assoc, onSite_append _ (by decide),
    onSite_prefixExpression, onSite_append_cons _ hspace rfl, hverb, hparen]
  simp only [List.append_assoc]

theorem evaluate_clauseContent (clauses : List Text) :
    evaluate env (clauseContent clauses) =
      (separated (clauses.map fun clause =>
        List.replicate 4 ' ' ++ onSite (env prefixExpression) clause)).flatMap ('\n' :: ·) := by
  fun_induction clauseContent clauses with
  | case1 => rfl
  | case2 clause =>
    rw [evaluate_append, evaluate_text, evaluate_spliced]
    simp [separated, newLine]
  | case3 clause r hne ih =>
    obtain ⟨next, r, rfl⟩ := List.exists_cons_of_ne_nil hne
    have hcomma : evaluate env (.text ',' :: clauseContent (next :: r)) =
        ',' :: evaluate env (clauseContent (next :: r)) := rfl
    rw [evaluate_append, evaluate_append, evaluate_text, evaluate_spliced, hcomma, ih]
    simp only [List.map_cons, separated_cons_cons, List.flatMap_cons, newLine]
    simp only [List.append_assoc, List.cons_append, List.nil_append]

/-- What the host gets for a table: the lines of its definition, in which the expressions are the
prefix. -/
theorem evaluate_tableDefinition (t : Table) :
    evaluate env (tableDefinition t).content =
      ['\n'].intercalate (bodyLines (onSite (env prefixExpression)) (env prefixExpression)
        (env "$charset_collate".toList) t) := by
  have hend : evaluate env (['\n', ')', ' '].map .text ++
      [.live "$charset_collate".toList, .text ';']) =
        '\n' :: ([')', ' '] ++ env "$charset_collate".toList ++ [';']) := by
    rw [evaluate_append, evaluate_text]
    simp [evaluate]
  unfold tableDefinition bodyLines
  rw [evaluate_append, evaluate_append, evaluate_createTableHead, evaluate_clauseContent,
    tableClauses_eq, hend, intercalate_newline, List.flatMap_append, List.append_assoc]
  simp

end Evaluate

/-! ## No line is added -/

theorem newline_not_mem_separated {lines : List Text} (h : ∀ l ∈ lines, '\n' ∉ l) :
    ∀ l ∈ separated lines, '\n' ∉ l := by
  intro l hl
  rcases List.mem_append.1 hl with hl | hl
  · obtain ⟨x, hx, rfl⟩ := List.mem_map.1 hl
    rw [List.mem_append, not_or]
    exact ⟨h x (List.mem_of_mem_dropLast hx), by decide⟩
  · exact h l (List.mem_of_getLast? (by simpa using hl))

/-- Prefix and collation on one line each, every line of a definition is one. -/
theorem newline_not_mem_bodyLines {q charset : Text} (hq : '\n' ∉ q) (hcharset : '\n' ∉ charset)
    (t : Table) : ∀ l ∈ bodyLines (onSite q) q charset t, '\n' ∉ l := by
  have hsite := newline_not_mem_onSite q hq
  intro l hl
  rcases List.mem_cons.1 hl with rfl | hl
  · simp [hq, hsite]
  rcases List.mem_append.1 hl with hl | hl
  · refine newline_not_mem_separated (fun x hx => ?_) l hl
    obtain ⟨clause, -, rfl⟩ := List.mem_map.1 hx
    rw [List.mem_append, not_or]
    exact ⟨by decide, hsite clause⟩
  · obtain rfl := List.mem_singleton.1 hl
    simp [hcharset]

theorem splitOn_tableDefinition {env : Text → Text} (hq : '\n' ∉ env prefixExpression)
    (hcharset : '\n' ∉ env "$charset_collate".toList) (t : Table) :
    List.splitOn '\n' (evaluate env (tableDefinition t).content) =
      bodyLines (onSite (env prefixExpression)) (env prefixExpression)
        (env "$charset_collate".toList) t := by
  rw [evaluate_tableDefinition]
  exact List.splitOn_intercalate '\n' (newline_not_mem_bodyLines hq hcharset t)
    (List.cons_ne_nil _ _)

/-! ## No line ends the heredoc -/

/-- The lines of the heredoc that defines a table. -/
def heredocLines (t : Table) : List Line :=
  ⟨0, [.heredoc (createTableHead t.name)]⟩ ::
    (clauseLines (tableClauses t) ++ [.code 0 ") $charset_collate;"])

theorem tableLines_eq (t : Table) : ∃ opening ending, tableLines t =
    opening ++ .code 2 "$sql = <<<SQL" :: (heredocLines t ++ .code 0 "SQL;" :: ending) :=
  ⟨[⟨2, [.code "// Table: ", .comment t.name.toList]⟩],
    [unlessCore t.name, .code 3 "dbDelta( $sql );", .code 2 "\x7d"], by
    simp [tableLines, heredocLines]⟩

/-- A line of the source that is one line and does not start, behind blanks, with the label of the
heredoc. -/
def StaysInHeredoc (l : Line) : Prop :=
  ∃ u, l.render = u ++ ['\n'] ∧ (∀ c ∈ u, isLineBreak c = false) ∧ ¬sqlLabel <+: skipBlanks u

theorem isLineBreak_of_mem_heredocChar {c d : Char} (h : d ∈ heredocChar c) :
    isLineBreak d = false := by
  unfold heredocChar at h
  by_cases hb : c = '\\'
  · subst hb
    obtain rfl : d = '\\' := by simpa using h
    rfl
  by_cases hd : c = '$'
  · subst hd
    obtain rfl | rfl : d = '\\' ∨ d = '$' := by simpa using h
    · rfl
    · rfl
  by_cases hl : isLineBreak c = true
  · have hbreak : (c == '\n' || c == '\r') = true := hl
    simp only [beq_iff_eq, hb, hd, if_false, hbreak, if_true, List.mem_singleton] at h
    rw [h]
    rfl
  · have hbreak : (c == '\n' || c == '\r') = false := Bool.eq_false_iff.2 hl
    simp only [beq_iff_eq, hb, hd, if_false, hbreak, Bool.false_eq_true, List.mem_singleton] at h
    rw [h]
    exact hbreak

theorem isLineBreak_of_mem_heredoc {t : Text} {c : Char} (h : c ∈ heredoc t) :
    isLineBreak c = false := by
  have hescape : heredoc t = (atoms t).flatMap (spellAtom heredocChar) :=
    aroundPrefix_eq_flatMap heredocChar t
  rw [hescape] at h
  obtain ⟨a, -, ha⟩ := List.mem_flatMap.1 h
  cases a with
  | none => exact (prefixExpression_plain c ha).1
  | some d => exact isLineBreak_of_mem_heredocChar ha

/-- An indented line that starts with a character of its own and holds no line break. -/
theorem staysInHeredoc_of_cons {l : Line} {n : Nat} {c : Char} {u : Text}
    (hrender : l.render = List.replicate n ' ' ++ c :: u ++ ['\n'])
    (hbreak : ∀ d ∈ c :: u, isLineBreak d = false) (hblank : isBlank c = false) (hc : c ≠ 'S') :
    StaysInHeredoc l := by
  have hindent : ∀ d ∈ List.replicate n ' ', isBlank d = true ∧ isLineBreak d = false := by
    intro d hd
    rw [List.eq_of_mem_replicate hd]
    decide
  have hskip : skipBlanks (List.replicate n ' ' ++ c :: u) = c :: u := by
    show (List.replicate n ' ' ++ c :: u).dropWhile isBlank = c :: u
    rw [List.dropWhile_append_of_pos fun d hd => (hindent d hd).1,
      List.dropWhile_cons_of_neg (by simp [hblank])]
  refine ⟨_, hrender, ?_, ?_⟩
  · exact List.forall_mem_append.2 ⟨fun d hd => (hindent d hd).2, hbreak⟩
  · rw [hskip]
    exact fun hprefix => hc (List.cons_prefix_cons.1 hprefix).1.symm

/-- A line for a text that starts with a character that stays as it is. -/
theorem staysInHeredoc_heredoc {depth : Nat} {c : Char} {u behind : Text} {fs : List Fragment}
    (hfs : fs.flatMap Fragment.render = behind) (hbehind : ∀ d ∈ behind, isLineBreak d = false)
    (hc : heredocChar c = [c]) (hplain : c ≠ '\x7b' ∧ c ≠ 'S' ∧ isBlank c = false) :
    StaysInHeredoc ⟨depth, .heredoc (c :: u) :: fs⟩ := by
  obtain ⟨v, hv⟩ := heredoc_cons u hc hplain.1
  have hrender : Line.render ⟨depth, .heredoc (c :: u) :: fs⟩ =
      List.replicate (4 * depth) ' ' ++ c :: (v ++ behind) ++ ['\n'] := by
    unfold Line.render
    rw [List.flatMap_cons, hfs, Fragment.render, hv]
    rfl
  refine staysInHeredoc_of_cons hrender ?_ hplain.2.2 hplain.2.1
  rw [← List.cons_append, ← hv]
  exact List.forall_mem_append.2 ⟨fun d hd => isLineBreak_of_mem_heredoc hd, hbehind⟩

theorem staysInHeredoc_clauseLines {clauses : List Text}
    (h : ∀ clause ∈ clauses, ∃ c u, clause = c :: u ∧ (c = '\x60' ∨ c = 'P')) :
    ∀ l ∈ clauseLines clauses, StaysInHeredoc l := by
  have hline : ∀ {clause : Text}, (∃ c u, clause = c :: u ∧ (c = '\x60' ∨ c = 'P')) →
      ∀ {fs : List Fragment} {behind : Text}, fs.flatMap Fragment.render = behind →
      (∀ d ∈ behind, isLineBreak d = false) → StaysInHeredoc ⟨1, .heredoc clause :: fs⟩ := by
    rintro clause ⟨c, u, rfl, rfl | rfl⟩ fs behind hfs hbehind
    · exact staysInHeredoc_heredoc hfs hbehind rfl (by decide)
    · exact staysInHeredoc_heredoc hfs hbehind rfl (by decide)
  intro l hl
  fun_induction clauseLines clauses with
  | case1 => cases hl
  | case2 clause =>
    obtain rfl := List.mem_singleton.1 hl
    exact hline (h clause List.mem_cons_self) rfl (fun d hd => by cases hd)
  | case3 clause r hne ih =>
    rcases List.mem_cons.1 hl with rfl | hl
    · have hcomma : [Fragment.code ","].flatMap Fragment.render = [','] := by
        rw [List.flatMap_singleton, Fragment.render, String.toList_ofList]
      exact hline (h clause List.mem_cons_self) hcomma (List.all_iff_forall_prop.1 (by decide))
    · exact ih (fun x hx => h x (List.mem_cons_of_mem clause hx)) hl

/-- No line of a definition ends it or adds another one. -/
theorem staysInHeredoc_heredocLines (t : Table) : ∀ l ∈ heredocLines t, StaysInHeredoc l := by
  intro l hl
  rcases List.mem_cons.1 hl with rfl | hl
  · have hhead : ∃ u, createTableHead t.name = 'C' :: u := by
      unfold createTableHead
      rw [String.toList_ofList]
      exact ⟨_, rfl⟩
    obtain ⟨u, hu⟩ := hhead
    rw [hu]
    exact staysInHeredoc_heredoc rfl (fun d hd => by cases hd) rfl (by decide)
  rcases List.mem_append.1 hl with hl | hl
  · exact staysInHeredoc_clauseLines (fun clause => exists_clause_cons) l hl
  · obtain rfl := List.mem_singleton.1 hl
    have hrender : (Line.code 0 ") $charset_collate;").render =
        List.replicate 0 ' ' ++ ')' :: " $charset_collate;".toList ++ ['\n'] := by
      simp only [Line.render, Line.code, Fragment.render, List.flatMap_singleton]
      repeat rw [String.toList_ofList]
    exact staysInHeredoc_of_cons hrender (List.all_iff_forall_prop.1 (by decide)) rfl (by decide)

/-! ## The definitions of an installer -/

/-- The texts of a manifest that the definition of a table holds. -/
def writtenTexts (t : Table) : List Text := t.name.toList :: definitionClauses t

theorem separated_map_inj {lines : List Text} {f g : Text → Text}
    (h : separated (lines.map f) = separated (lines.map g)) : ∀ l ∈ lines, f l = g l := by
  induction lines with
  | nil => exact fun l hl => by cases hl
  | cons x lines ih =>
    cases lines with
    | nil =>
      rintro l hl
      obtain rfl := List.mem_singleton.1 hl
      exact List.singleton_inj.1 h
    | cons y lines =>
      rw [List.map_cons, List.map_cons, List.map_cons, List.map_cons, separated_cons_cons,
        separated_cons_cons] at h
      obtain ⟨hx, hrest⟩ := List.cons.inj h
      exact List.forall_mem_cons.2 ⟨List.append_cancel_right hx, ih hrest⟩

/-- The lines are those of the texts as they are exactly if no text holds an expression. -/
theorem bodyLines_eq_iff (t : Table) :
    (∀ q charset, bodyLines (onSite q) q charset t = bodyLines oneLine q charset t) ↔
      ∀ x ∈ writtenTexts t, ¬prefixExpression <:+: x := by
  constructor
  · intro h x hx
    rw [← onSite_eq_oneLine_iff]
    intro q
    obtain ⟨hhead, hrest⟩ := List.cons.inj (h q [])
    rcases List.mem_cons.1 hx with rfl | hx
    · exact List.append_cancel_left (List.append_cancel_right hhead)
    · exact List.append_cancel_left (separated_map_inj (List.append_cancel_right hrest) x hx)
  · intro h q charset
    have hsame : ∀ x ∈ writtenTexts t, onSite q x = oneLine x :=
      fun x hx => onSite_of_not_infix q (h x hx)
    have hclauses : (definitionClauses t).map (fun x => List.replicate 4 ' ' ++ onSite q x) =
        (definitionClauses t).map fun x => List.replicate 4 ' ' ++ oneLine x :=
      List.map_congr_left fun x hx => congrArg _ (hsame x (List.mem_cons_of_mem _ hx))
    unfold bodyLines
    rw [hclauses, hsame _ List.mem_cons_self]

/-- The lines that define a table are part of the installer. -/
theorem infix_tableLines {p : Plan} {t : Table} (ht : t ∈ p.tables) :
    tableLines t <:+: p.installMethod := by
  have hstep : InstallStep.table t ∈ p.installSteps := by
    simp [Plan.installSteps, ht]
  exact Plan.infix_installMethod hstep

/-- A heredoc says the lines of the definition of a table, on every site. -/
structure Defines (body : Literal) (t : Table) : Prop where
  heredoc : body.place = .heredoc
  text : ∀ env : Text → Text, evaluate env body.content =
    ['\n'].intercalate (bodyLines (onSite (env prefixExpression)) (env prefixExpression)
      (env "$charset_collate".toList) t)
  lines : ∀ env : Text → Text, '\n' ∉ env prefixExpression →
    '\n' ∉ env "$charset_collate".toList →
    List.splitOn '\n' (evaluate env body.content) =
      bodyLines (onSite (env prefixExpression)) (env prefixExpression)
        (env "$charset_collate".toList) t

theorem tableDefinition_defines (t : Table) : Defines (tableDefinition t) t :=
  ⟨rfl, fun env => evaluate_tableDefinition env t, fun _ hq hcharset =>
    splitOn_tableDefinition hq hcharset t⟩

/-- **The definition of every table that is created.** The heredoc says its head, a line for each
column and for the primary key, and its end; none of its lines can end it or adds another. A clause
is written on its line as it is, but for line breaks and for expressions, which are the prefix of
the site. -/
theorem tables_defined {m : Manifest} {className? : Option String} {o : InstallerOptions}
    {c : CompiledInstaller} (hcompile : m.compile className? o = .ok c) :
    ∃ p before behind, m.plan className? o = .ok p ∧
      c.installerClass.content =
        render (before ++ p.installMethod ++ p.populateMethod ++ p.uninstallMethod ++ behind) ∧
      ∀ t ∈ m.tables, t.skip = false → o.isCoreTable t.name = false →
        tableLines t <:+: p.installMethod ∧
        (∃ opening ending, tableLines t =
          opening ++ .code 2 "$sql = <<<SQL" :: (heredocLines t ++ .code 0 "SQL;" :: ending)) ∧
        (∀ l ∈ heredocLines t, StaysInHeredoc l) ∧
        (∃ remark body guard, scan .code (render (tableLines t)).toList =
          some [remark, body, guard] ∧ Defines body t) ∧
        ((∀ q charset, bodyLines (onSite q) q charset t = bodyLines oneLine q charset t) ↔
          ∀ x ∈ writtenTexts t, ¬prefixExpression <:+: x) := by
  obtain ⟨p, hplan, rfl⟩ := Manifest.compile_eq_ok_iff.1 hcompile
  obtain ⟨name, -, -, rfl⟩ := Manifest.plan_eq_ok_iff.1 hplan
  obtain ⟨before, behind, hlines⟩ := lines_split ⟨m, name, o⟩
  refine ⟨⟨m, name, o⟩, before, behind, hplan, congrArg render hlines, ?_⟩
  intro t ht hskip hcore
  have hcreated : t ∈ (⟨m, name, o⟩ : Plan).tables := mem_tables_iff.2 ⟨ht, hskip, hcore⟩
  have hscan := scan_of_block (block_tableLines t)
  exact ⟨infix_tableLines hcreated, tableLines_eq t, staysInHeredoc_heredocLines t,
    ⟨_, _, _, hscan, tableDefinition_defines t⟩, bodyLines_eq_iff t⟩

/-- A table with a key of two columns and a default. -/
def stateTable (default : String) : Table :=
  { Table.empty "orders" "wp_orders" "shop" with
    columns := [⟨"id", "int", false, false, true, none, none⟩,
      ⟨"state", "varchar(20)", true, false, false, some default, none⟩,
      ⟨"site", "int", false, false, true, none, none⟩] }

/-- A manifest with such a table. -/
def stateManifest (default : String) : Manifest :=
  { Manifest.empty "shop" "wp_" .epoch with tables := [stateTable default] }

/-- The site of an example: a prefix, and a collation. -/
def exampleSite (expression : Text) : Text :=
  if expression = prefixExpression then "my_".toList else "COLLATE utf8".toList

/-- Backslashes, dollars, line breaks and the label itself stay in the default. -/
theorem stateTable_defined : ∃ c,
    (stateManifest "a\\$b\nSQL;").compile none .standard = .ok c ∧
      ∃ remark body guard,
        scan .code (render (tableLines (stateTable "a\\$b\nSQL;"))).toList =
          some [remark, body, guard] ∧
        List.splitOn '\n' (evaluate exampleSite body.content) =
          ["CREATE TABLE my_orders (".toList, "    \x60id\x60 int NOT NULL,".toList,
            "    \x60state\x60 varchar(20) DEFAULT \x27a\\\\$b SQL;\x27,".toList,
            "    \x60site\x60 int NOT NULL,".toList,
            "    PRIMARY KEY (\x60id\x60, \x60site\x60)".toList, ") COLLATE utf8;".toList] := by
  have hok : (stateManifest "a\\$b\nSQL;").compile none .standard =
      .ok (Plan.compiled ⟨stateManifest "a\\$b\nSQL;", "MyPluginInstaller", .standard⟩) := rfl
  obtain ⟨p, before, behind, -, -, htables⟩ := tables_defined hok
  obtain ⟨-, -, -, ⟨remark, body, guard, hscan, hdefines⟩, -⟩ :=
    htables _ List.mem_cons_self rfl (by decide +kernel)
  refine ⟨_, hok, remark, body, guard, hscan, ?_⟩
  rw [hdefines.lines exampleSite (by decide) (by decide)]
  decide +kernel

/-- A default that spells out the expression is the prefix on the site. -/
theorem expressionDefault_changed : ∃ c,
    (stateManifest "\x7b$this->prefix\x7d").compile none .standard = .ok c ∧
      ∃ remark body guard,
        scan .code (render (tableLines (stateTable "\x7b$this->prefix\x7d"))).toList =
          some [remark, body, guard] ∧
        evaluate exampleSite body.content ≠
          ['\n'].intercalate (bodyLines oneLine (exampleSite prefixExpression)
            (exampleSite "$charset_collate".toList) (stateTable "\x7b$this->prefix\x7d")) := by
  refine ⟨_, rfl, _, _, _, scan_of_block (block_tableLines _), ?_⟩
  rw [evaluate_tableDefinition]
  decide +kernel

end SchemaInstaller
