import SchemaInstaller.Proofs.Installer.Prefix
import SchemaInstaller.Proofs.Installer.Targets
import SchemaInstaller.Proofs.Number.Numerals
import SchemaInstaller.Proofs.Sql.Values

/-!
# What becomes of seed rows

The values of a row go through two encoders, as strings of a statement and as the source of a
literal, and then PHP and the installer look for expressions and tokens in the whole statement. The
server reads what is left. Quotes and backslashes survive all of this, and so does a value that has
no expression, no token and no carriage return; any other one comes back as another text where the
prefix is empty (`seedRows_replayed_iff`).
-/

namespace SchemaInstaller

open Php Sql Statement Text

/-! ## Values -/

/-- The text of a value as a server has it, none for null. -/
def SeedValue.stored : SeedValue → Option Text
  | null => none
  | bool b => some (if b then ['1'] else ['0'])
  | number n => some n.toText
  | string s => some s.toList

theorem SeedValue.toLiteral_eq (v : SeedValue) : v.toLiteral = valueText v.stored := by
  cases v with
  | null => rfl
  | bool b =>
    cases b
    · exact String.toList_ofList
    · exact String.toList_ofList
  | number n => rfl
  | string s => rfl

/-- A value that is no string of the manifest comes out as it is. -/
theorem SeedValue.lasts_stored {v : SeedValue} {t : Text} (hv : v.stored = some t)
    (hstring : ∀ s, v = string s → Lasts s.toList) : Lasts t := by
  cases v with
  | null => cases hv
  | bool b =>
    cases hv
    refine lasts_of_not_mem ?_ ?_
    · cases b <;> decide
    · cases b <;> decide
  | number n =>
    cases hv
    have hnumeral := n.isNumeral_of_mem_toText
    exact lasts_of_not_mem (fun h => absurd (hnumeral _ h) (by decide))
      fun h => absurd (hnumeral _ h) (by decide)
  | string s =>
    cases hv
    exact hstring s rfl

/-! ## Statements -/

/-- The statement that puts a row into a table up to its values. -/
def insertHead (table : String) (row : SeedRow) : Text :=
  "INSERT INTO ".toList ++ siteTable table
    ++ " (".toList ++ commaList (row.columns.map fun c => quoteIdentifier c.toList)
    ++ ") VALUES ".toList

/-- The values of a row as a server has them. -/
def SeedRow.stored (row : SeedRow) : List (Option Text) := row.values.map SeedValue.stored

theorem insertRow_eq (table : String) (row : SeedRow) :
    insertRow table row =
      insertHead table row ++ '(' :: (commaList (row.stored.map valueText) ++ [')']) := by
  have hopen : ") VALUES (".toList = ") VALUES ".toList ++ ['('] := by
    rw [String.toList_ofList, String.toList_ofList]
    rfl
  have hvalues : row.values.map SeedValue.toLiteral = row.stored.map valueText := by
    unfold SeedRow.stored
    rw [List.map_map]
    exact List.map_congr_left fun v _ => v.toLiteral_eq
  unfold insertRow insertHead
  rw [hopen, hvalues]
  simp only [List.append_assoc, List.cons_append, List.nil_append]

/-- The characters of a list of values beside those of the values. -/
def valueChars : List Char := ['(', ')', ',', ' ', '\x27', '\\', 'N', 'U', 'L']

theorem isApart_of_mem {c : Char} (h : c ∈ valueChars) : IsApart c := by
  have hchars : (valueChars.all fun c =>
      c ∉ '\r' :: prefixExpression && c.toLower ∉ ['\x7b', 'w', 'p', '_', '\x7d']) = true := by
    rw [prefixExpression_eq]
    decide
  have hc := List.all_eq_true.1 hchars c h
  rw [Bool.and_eq_true, decide_eq_true_eq, decide_eq_true_eq] at hc
  exact isApart_of_notMem hc.1 hc.2

theorem isApart_of_isDoubled {c : Char} (h : isDoubled c = true) : IsApart c := by
  simp only [isDoubled, Bool.or_eq_true, beq_iff_eq] at h
  rcases h with rfl | rfl
  · exact isApart_of_mem (by decide)
  · exact isApart_of_mem (by decide)

/-- Whether a text is escaped before or after it is sent makes no difference. -/
def SendsEscaped (q t : Text) : Prop := sent q (escapeLiteral t) = escapeLiteral (sent q t)

theorem sendsEscaped_of_prefix {q : Text} (hq : ∀ c ∈ q, isDoubled c = false) (t : Text) :
    SendsEscaped q t := by
  unfold SendsEscaped
  rw [escapeLiteral_eq_doubled, escapeLiteral_eq_doubled]
  exact sent_doubled hq (fun _ => isApart_of_isDoubled) t

theorem Lasts.escapeLiteral {t : Text} (h : Lasts t) : Lasts (escapeLiteral t) := by
  have hnot : ∀ {c : Char}, ¬IsApart c → isDoubled c = false :=
    eq_false_of_not_isApart fun _ => isApart_of_isDoubled
  rw [escapeLiteral_eq_doubled]
  refine ⟨⟨fun hin => h.1.1 ?_, fun hin => h.1.2 ?_⟩, ?_⟩
  · exact infix_of_infix_doubled (fun c hc => hnot fun hapart => hapart.expression hc) hin
  · have hreturn : ∀ c ∈ ['\r'], isDoubled c = false := List.forall_mem_singleton.2 rfl
    rw [← List.singleton_infix_iff] at hin ⊢
    exact infix_of_infix_doubled hreturn hin
  · rintro ⟨w, hw, hin⟩
    refine h.2 ⟨w, hw, infix_of_infix_doubled (fun c hc => hnot ?_) hin⟩
    exact fun hapart => hapart.token w hw hc

theorem Lasts.sendsEscaped {t : Text} (h : Lasts t) (q : Text) : SendsEscaped q t := by
  unfold SendsEscaped
  rw [sent_of_lasts h, sent_of_lasts h.escapeLiteral]

/-- A value in front of the rest of a statement. -/
theorem sent_valueText {q : Text} {v : Option Text} (hv : ∀ t, v = some t → SendsEscaped q t)
    (r : Text) : sent q (valueText v ++ r) = valueText (v.map (sent q)) ++ sent q r := by
  cases v with
  | none =>
    have hnull : "NULL".toList ⊆ valueChars := by decide
    exact sent_append (fun c hc => isApart_of_mem (hnull hc)) q r
  | some t =>
    have hquote : IsApart '\x27' := isApart_of_mem (by decide)
    have hopen := sent_append_cons hquote q []
    have hclose := sent_append_cons hquote q (escapeLiteral t) r
    calc sent q (valueText (some t) ++ r)
        = sent q ([] ++ '\x27' :: (escapeLiteral t ++ '\x27' :: r)) := by
          simp [valueText, quoteLiteral]
      _ = '\x27' :: (sent q (escapeLiteral t) ++ '\x27' :: sent q r) := by
          rw [hopen, hclose]
          rfl
      _ = valueText (some (sent q t)) ++ sent q r := by
          rw [hv t rfl]
          simp [valueText, quoteLiteral]

/-- The values of a row. -/
theorem sent_commaList {q : Text} {values : List (Option Text)}
    (h : ∀ t, some t ∈ values → SendsEscaped q t) :
    sent q (commaList (values.map valueText) ++ [')']) =
      commaList ((values.map (Option.map (sent q))).map valueText) ++ [')'] := by
  have hend : sent q [')'] = [')'] :=
    sent_append_cons (isApart_of_mem (by decide)) q [] []
  unfold commaList
  induction values with
  | nil => exact hend
  | cons v vs ih =>
    have hv := sent_valueText (q := q) (v := v) fun t ht => h t (ht ▸ List.mem_cons_self)
    have ih := ih fun t ht => h t (List.mem_cons_of_mem v ht)
    cases vs with
    | nil =>
      simp only [List.map_cons, List.map_nil, List.intercalate_singleton]
      rw [hv, hend]
    | cons w vs =>
      have hcomma : [',', ' '] ⊆ valueChars := by decide
      simp only [List.map_cons] at ih ⊢
      rw [List.intercalate_cons_cons, List.intercalate_cons_cons, List.append_assoc,
        List.append_assoc, hv, sent_append fun c hc => isApart_of_mem (hcomma hc), ih]
      simp only [List.append_assoc]

/-! ## Rows -/

/-- The values that a server reads in the literal of a row, when a site with a prefix sends it. -/
def replayed (q : Text) (table : String) (row : SeedRow) (l : Literal) :
    Option (List (Option Text)) := do
  let values ← Scan.literal (sent q (insertHead table row) ++ ['(']) (applyPrefix q (l.valueAt q))
  let (stored, rest) ← readValues values
  guard (rest = [])
  return stored

/-- The server gets back exactly the strings of a row, each at its place. -/
def Replays (q : Text) (table : String) (row : SeedRow) (l : Literal) : Prop :=
  ∃ stored, replayed q table row l = some stored ∧ stored.length = row.values.length ∧
    ∀ (i : Nat) (s : String), row.values[i]? = some (.string s) → stored[i]? = some (some s.toList)

section Row

variable {q : Text} {table : String} {row : SeedRow}

/-- Every value comes back as it is sent. -/
theorem replayed_eq (hrow : row.cells ≠ []) (h : ∀ t, some t ∈ row.stored → SendsEscaped q t) :
    replayed q table row (ranStatement (insertRow table row)) =
      some (row.stored.map (Option.map (sent q))) := by
  have hne : row.stored.map (Option.map (sent q)) ≠ [] := by
    simpa [SeedRow.stored, SeedRow.values] using hrow
  have hsent : applyPrefix q ((ranStatement (insertRow table row)).valueAt q) =
      sent q (insertHead table row) ++ ['('] ++
        (commaList ((row.stored.map (Option.map (sent q))).map valueText) ++ [')']) := by
    rw [ranStatement, valueAt_spliced, insertRow_eq]
    show sent q _ = _
    rw [sent_append_cons (isApart_of_mem (by decide)), sent_commaList h, List.append_assoc]
    rfl
  unfold replayed
  rw [hsent, (Scan.literal_of _).eq_some rfl]
  simp only [Option.bind_eq_bind, Option.bind_some]
  rw [readValues_commaList hne]
  rfl

/-- The strings of a row come back on every site exactly if each of them comes out as it is. -/
theorem replays_iff (hrow : row.cells ≠ []) :
    (∀ q, Replays q table row (ranStatement (insertRow table row))) ↔
      ∀ s, .string s ∈ row.values → Lasts s.toList := by
  constructor
  · intro h s hs
    obtain ⟨i, hi⟩ := List.mem_iff_getElem?.1 hs
    have hempty : ∀ t, some t ∈ row.stored → SendsEscaped [] t :=
      fun t _ => sendsEscaped_of_prefix (fun c hc => absurd hc List.not_mem_nil) t
    obtain ⟨stored, hstored, -, hback⟩ := h []
    rw [replayed_eq hrow hempty] at hstored
    cases hstored
    have hplace := hback i s hi
    simp only [SeedRow.stored, List.getElem?_map, hi, Option.map_some, SeedValue.stored,
      Option.some.injEq] at hplace
    exact lasts_of_sent_nil hplace
  · intro h q
    have hlasts : ∀ t, some t ∈ row.stored → Lasts t := by
      intro t ht
      obtain ⟨v, hv, hstored⟩ := List.mem_map.1 ht
      exact v.lasts_stored hstored fun s hs => h s (hs ▸ hv)
    refine ⟨_, replayed_eq hrow fun t ht => (hlasts t ht).sendsEscaped q, ?_, fun i s hi => ?_⟩
    · simp [SeedRow.stored]
    · have hs := h s (List.mem_of_getElem? hi)
      simp only [SeedRow.stored, List.getElem?_map, hi, Option.map_some, SeedValue.stored,
        sent_of_lasts hs]

end Row

/-- The rows of a table that have a statement. -/
def emittedRows (t : Table) : List SeedRow := t.seedRowsToEmit.filter fun row => !row.cells.isEmpty

theorem scan_seedLines (t : Table) :
    scan .code (render (seedLines t)).toList = some (namingRemark "// Seed data: " t.name ::
      (emittedRows t).map fun row => ranStatement (insertRow t.name row)) := by
  rw [scan_of_block (block_seedLines t)]
  unfold seedLiterals seedStatements emittedRows
  rw [← List.map_eq_flatMap, List.map_map]
  rfl

theorem infix_intercalate_of_mem {sep l : List Line} {ls : List (List Line)} (h : l ∈ ls) :
    l <:+: sep.intercalate ls := by
  induction ls with
  | nil => cases h
  | cons k ls ih =>
    cases ls with
    | nil =>
      rw [List.mem_singleton.1 h, List.intercalate_singleton]
    | cons k' ls =>
      rw [List.intercalate_cons_cons, List.append_assoc]
      rcases List.mem_cons.1 h with rfl | h
      · exact (List.prefix_append _ _).isInfix
      · rw [← List.append_assoc]
        exact (ih h).trans (List.suffix_append _ _).isInfix

/-- The lines that fill a table are part of the installer. -/
theorem infix_seedLines {p : Plan} {t : Table} (ht : t ∈ p.seeded) :
    seedLines t <:+: p.populateMethod := by
  have hlines : seedLines t <:+: [Line.blank].intercalate (p.seeded.map seedLines) :=
    infix_intercalate_of_mem (List.mem_map_of_mem ht)
  exact hlines.trans ⟨[.code 1 "public function populate() \x7b"], [.code 1 "\x7d", .blank], rfl⟩

/-- For every table that is filled, the statement of a row gives the server back the strings of the
row, on every site, exactly if none of them has an expression, a token or a carriage return. Under a
prefix without quotes and backslashes each value comes back as it is sent. -/
theorem seedRows_replayed_iff {m : Manifest} {className? : Option String} {o : InstallerOptions}
    {c : CompiledInstaller} (hcompile : m.compile className? o = .ok c) :
    ∃ p before behind, m.plan className? o = .ok p ∧
      c.installerClass.content =
        render (before ++ p.installMethod ++ p.populateMethod ++ p.uninstallMethod ++ behind) ∧
      ∀ t ∈ m.tables, t.skip = false → t.seedRowsToEmit ≠ [] →
        seedLines t <:+: p.populateMethod ∧
        ∃ remark rows, scan .code (render (seedLines t)).toList = some (remark :: rows) ∧
          List.Forall₂ (fun row l =>
            ((∀ q, Replays q t.name row l) ↔ ∀ s, .string s ∈ row.values → Lasts s.toList) ∧
            ∀ q, (∀ c ∈ q, isDoubled c = false) →
              replayed q t.name row l = some (row.stored.map (Option.map (sent q))))
            (emittedRows t) rows := by
  obtain ⟨p, hplan, rfl⟩ := Manifest.compile_eq_ok_iff.1 hcompile
  obtain ⟨name, -, -, rfl⟩ := Manifest.plan_eq_ok_iff.1 hplan
  obtain ⟨before, behind, hlines⟩ := lines_split ⟨m, name, o⟩
  refine ⟨⟨m, name, o⟩, before, behind, hplan, congrArg render hlines, fun t ht hskip hrows => ?_⟩
  have hseeded : t ∈ (⟨m, name, o⟩ : Plan).seeded := by
    refine List.mem_filter.2 ⟨ht, ?_⟩
    rw [hskip]
    simpa using hrows
  refine ⟨infix_seedLines hseeded, _, _, scan_seedLines t, ?_⟩
  rw [List.forall₂_map_right_iff, List.forall₂_same]
  intro row hrow
  have hcells : row.cells ≠ [] := by
    simpa using (List.mem_filter.1 hrow).2
  exact ⟨replays_iff hcells, fun q hq =>
    replayed_eq hcells fun t _ => sendsEscaped_of_prefix hq t⟩

/-- A row with a number and a text. -/
def noteRow (body : String) : SeedRow :=
  ⟨[("id", .number (.integer ⟨7, by decide⟩)), ("body", .string body)], by simp⟩

/-- A table with one row. -/
def noteTable (body : String) : Table :=
  { Table.empty "notes" "wp_notes" "shop" with rowLimit := 1, seedData := [noteRow body] }

/-- A manifest with such a table. -/
def noteManifest (body : String) : Manifest :=
  { Manifest.empty "shop" "wp_" .epoch with tables := [noteTable body] }

theorem emittedRows_noteTable (body : String) : emittedRows (noteTable body) = [noteRow body] := rfl

/-- A text with quotes, backslashes, a line break, and pieces of a token and of an expression. -/
def piecesNote : String := "it's \x22\\n\x22\n\x7bwp\\_\x7d\x7b$this->"

/-- It is put back as it was. -/
theorem noteRow_replayed :
    ∃ c, (noteManifest piecesNote).compile none .standard = .ok c ∧
      ∃ remark l,
        scan .code (render (seedLines (noteTable piecesNote))).toList = some [remark, l] ∧
        ∀ q, Replays q "notes" (noteRow piecesNote) l := by
  have hok : (noteManifest piecesNote).compile none .standard =
      .ok (Plan.compiled ⟨noteManifest piecesNote, "MyPluginInstaller", .standard⟩) := rfl
  obtain ⟨p, before, behind, -, -, htables⟩ := seedRows_replayed_iff hok
  obtain ⟨-, remark, rows, hscan, hrows⟩ := htables _ List.mem_cons_self rfl (List.cons_ne_nil _ _)
  rw [emittedRows_noteTable] at hrows
  obtain ⟨l, rows, hrow, hrest, rfl⟩ := List.forall₂_cons_left_iff.1 hrows
  obtain rfl := List.forall₂_nil_left_iff.1 hrest
  refine ⟨_, hok, remark, l, hscan, hrow.1.2 fun s hs => ?_⟩
  obtain rfl : s = _ := by simpa [noteRow, SeedRow.values] using hs
  refine ⟨⟨by decide +kernel, by decide +kernel⟩, not_holdsToken_of_tails (by decide +kernel)⟩

/-- A carriage return in a text is left out on the way. -/
theorem returnRow_changed : ∃ c, (noteManifest "a\rb").compile none .standard = .ok c ∧
    ∃ remark l, scan .code (render (seedLines (noteTable "a\rb"))).toList = some [remark, l] ∧
      replayed "my_".toList "notes" (noteRow "a\rb") l = some [some ['7'], some ['a', 'b']] ∧
      ¬Replays "my_".toList "notes" (noteRow "a\rb") l := by
  have hsent : sent "my_".toList ['7'] = ['7'] ∧ sent "my_".toList ['a', '\r', 'b'] = ['a', 'b'] := by
    rw [sent_eq, sent_eq]
    decide +kernel
  have hback : replayed "my_".toList "notes" (noteRow "a\rb")
      (ranStatement (insertRow "notes" (noteRow "a\rb"))) = some [some ['7'], some ['a', 'b']] := by
    have hstored : (noteRow "a\rb").stored = [some ['7'], some ['a', '\r', 'b']] := by
      decide +kernel
    have hprefix : ∀ c ∈ "my_".toList, isDoubled c = false := by simp [isDoubled]
    rw [replayed_eq (List.cons_ne_nil _ _) fun t _ => sendsEscaped_of_prefix hprefix t, hstored]
    simp only [List.map_cons, List.map_nil, Option.map_some, hsent]
  refine ⟨_, rfl, _, _, scan_seedLines (noteTable "a\rb"), hback, ?_⟩
  rintro ⟨stored, hstored, -, hplace⟩
  cases hback.symm.trans hstored
  have htext := hplace 1 "a\rb" rfl
  revert htext
  decide +kernel

end SchemaInstaller
