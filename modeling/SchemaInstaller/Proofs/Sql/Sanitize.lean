import SchemaInstaller.Proofs.Text.Scan
import SchemaInstaller.Sql.Sanitize

/-!
# Sanitizers settle

Every rule of the sanitizers tidies what it replaces: it takes parts out, or writes the header of a
routine or a view in capitals with single spaces. So each pass tidies its text, and each sanitizer
comes to rest on a text that its pass does not change, however many passes that takes
(`Sanitizer.settles`).
-/

namespace SchemaInstaller.Sql

open Scan Text

/-! ## Scans -/

theorem accountPart_tidies : Scan.Tidies accountPart [] :=
  have hquoted := quotedBy_tidies
  (hquoted '\x60').orElse ((hquoted '\x27').orElse ((hquoted '\x22').orElse
    (many1_tidies fun c _ => Text.Tidies.to_nil [c])))

theorem currentUser_tidies : Scan.Tidies currentUser [] := by
  have hopen := (literal_tidies ['(']).after_blanks.to_nil
  have hclose := (literal_tidies [')']).after_blanks.to_nil
  exact (keyword_takes "CURRENT_USER").bind (Scan.Tidies.pure.after_optional (hopen.bind hclose))

theorem account_tidies : Scan.Tidies account [] :=
  accountPart_tidies.bind
    ((literal_tidies ['@']).after_blanks.to_nil.bind accountPart_tidies.after_blanks)

/-- The clause begins with its keyword. -/
theorem definerClause_tidies (prev : Option Char) :
    Scan.Tidies (definerClause prev) "DEFINER".toList := by
  have hkeyword : Scan.Tidies (keyword "DEFINER") "DEFINER".toList := keyword_tidies rfl rfl
  have hequals := (literal_tidies ['=']).after_blanks.to_nil
  have howner := (currentUser_tidies.orElse account_tidies).after_blanks
  have hbehind : Scan.Tidies (fun t => some (skipBlanks t)) [] := Scan.Tidies.pure.after_blanks
  exact (hkeyword.bind (hequals.bind (howner.bind hbehind))).guard _

theorem orReplace_tidies : Scan.Tidies orReplace "OR REPLACE ".toList := by
  have hor : Scan.Tidies (keyword "OR") ['O', 'R'] := keyword_tidies rfl rfl
  have hreplace : Scan.Tidies (keyword "REPLACE") ['R', 'E', 'P', 'L', 'A', 'C', 'E'] :=
    keyword_tidies rfl rfl
  exact hor.bind (blanks1_tidies.bind (hreplace.bind blanks1_tidies))

theorem algorithmClause_tidies : Scan.Tidies algorithmClause [] := by
  have hequals := (literal_tidies ['=']).after_blanks.to_nil
  have hword := (many1_tidies (p := isWordChar) fun c _ => Text.Tidies.to_nil [c]).after_blanks
  exact (keyword_takes "ALGORITHM").bind (hequals.bind (hword.bind blanks1_tidies.to_nil))

theorem securityClause_tidies : Scan.Tidies securityClause [] := by
  have hblanks := blanks1_tidies.to_nil
  have hside : Scan.Tidies (orElse (keyword "DEFINER") (keyword "INVOKER")) [] :=
    (keyword_takes "DEFINER").orElse (keyword_takes "INVOKER")
  exact (keyword_takes "SQL").bind (hblanks.bind ((keyword_takes "SECURITY").bind
    (hblanks.bind (hside.bind hblanks))))

/-! ## Rules that take something out -/

/-- What begins a versioned comment, with the blanks behind it. -/
def commentStart : Scan := fun t => do
  let t ← literal "/*!".toList t
  let t ← one isDecimalDigit t
  let t ← one isDecimalDigit t
  let t ← one isDecimalDigit t
  let t ← one isDecimalDigit t
  let t ← one isDecimalDigit t
  return skipBlanks t

theorem versionedComment_eq (prev : Option Char) (t : Text) :
    versionedComment prev t = (commentStart t).bind splitAtCommentEnd := by
  unfold versionedComment commentStart
  simp only [Option.bind_eq_bind, Option.bind_assoc, Option.pure_def, Option.bind_some]

theorem commentStart_tidies : Scan.Tidies commentStart ['/', '*', '!'] := by
  have hdigit := one_tidies (p := isDecimalDigit) fun c _ => Text.Tidies.to_nil [c]
  have hblanks : Scan.Tidies (fun t => some (skipBlanks t)) [] := Scan.Tidies.pure.after_blanks
  exact (literal_tidies _).bind (hdigit.bind (hdigit.bind (hdigit.bind (hdigit.bind
    (hdigit.bind hblanks)))))

theorem splitAtCommentEnd_cons (c : Char) (r : Text) : splitAtCommentEnd (c :: r) =
    match literal "*/".toList (skipBlanks (c :: r)) with
    | some rest => some ([], rest)
    | none => (splitAtCommentEnd r).map fun (body, rest) => (c :: body, rest) := by
  rfl

/-- What stands before the end of a comment is kept, and the end goes. -/
theorem eq_of_splitAtCommentEnd {t body rest : Text} (h : splitAtCommentEnd t = some (body, rest)) :
    ∃ mark, t = body ++ (mark ++ rest) ∧ mark ≠ [] := by
  induction t generalizing body with
  | nil => cases h
  | cons c r ih =>
    rw [splitAtCommentEnd_cons] at h
    cases hend : literal "*/".toList (skipBlanks (c :: r)) with
    | some behind =>
      rw [hend] at h
      cases h
      obtain ⟨mark, hmark, hne⟩ := (literal_tidies _).after_blanks _ _ hend
      refine ⟨mark, hmark, ?_⟩
      rintro rfl
      cases hne
    | none =>
      rw [hend] at h
      obtain ⟨⟨body', rest'⟩, hsplit, heq⟩ := Option.map_eq_some_iff.1 h
      cases heq
      obtain ⟨mark, hmark, hne⟩ := ih hsplit
      exact ⟨mark, congrArg (c :: ·) hmark, hne⟩

/-- A versioned comment is replaced by a part of it, and something goes. -/
theorem eq_of_versionedComment {prev : Option Char} {t body rest : Text}
    (h : versionedComment prev t = some (body, rest)) :
    ∃ start mark, t = start ++ body ++ mark ++ rest ∧ start ≠ [] := by
  rw [versionedComment_eq] at h
  obtain ⟨m, hm, hsplit⟩ := Option.bind_eq_some_iff.1 h
  obtain ⟨start, rfl, hstart⟩ := commentStart_tidies t m hm
  obtain ⟨mark, rfl, -⟩ := eq_of_splitAtCommentEnd hsplit
  refine ⟨start, mark, by simp only [List.append_assoc], ?_⟩
  rintro rfl
  cases hstart

theorem versionedComment_tidies : versionedComment.Tidies := by
  intro prev t body rest h
  obtain ⟨start, mark, rfl, hne⟩ := eq_of_versionedComment h
  refine ⟨start ++ body ++ mark, by simp [hne], rfl, Text.Tidies.of_sublist ?_⟩
  exact ((List.sublist_append_right start body).trans (List.sublist_append_left _ mark))

theorem versionedComment_shortens : versionedComment.Shortens := by
  intro prev t body rest h
  obtain ⟨start, mark, rfl, hne⟩ := eq_of_versionedComment h
  have := List.length_pos_iff.2 hne
  simp only [List.length_append]
  omega

theorem dropDefiner_leavesOut : dropDefiner.LeavesOut definerClause := fun _ _ => rfl

theorem dropDefiner_tidies : dropDefiner.Tidies :=
  dropDefiner_leavesOut.tidies definerClause_tidies nofun

theorem dropDefiner_shortens : dropDefiner.Shortens :=
  dropDefiner_leavesOut.shortens definerClause_tidies nofun

/-- The characteristic that names the owner's rights, with the spaces behind it. -/
def definerRights (prev : Option Char) : Scan := fun t => do
  guard (wordStart prev)
  let t ← keyword "SQL" t
  let t ← blanks1 t
  let t ← keyword "SECURITY" t
  let t ← blanks1 t
  let t ← keyword "DEFINER" t
  let t ← wordEnd t
  return t.dropWhile isSpace

theorem dropDefinerRights_leavesOut : dropDefinerRights.LeavesOut definerRights := by
  intro prev t
  unfold dropDefinerRights definerRights
  simp only [Option.bind_eq_bind, Option.map_bind, Function.comp_def, Option.pure_def,
    Option.map_some]

theorem definerRights_tidies (prev : Option Char) :
    Scan.Tidies (definerRights prev) ['S', 'Q', 'L'] := by
  have hsql : Scan.Tidies (keyword "SQL") ['S', 'Q', 'L'] := keyword_tidies rfl rfl
  have hblanks := blanks1_tidies.to_nil
  have hspaces : Scan.Tidies (fun t => some (t.dropWhile isSpace)) [] :=
    Scan.Tidies.pure.after_dropWhile isSpace
  have hend := wordEnd_tidies.bind hspaces
  exact (hsql.bind (hblanks.bind ((keyword_takes "SECURITY").bind
    (hblanks.bind ((keyword_takes "DEFINER").bind hend))))).guard _

theorem dropDefinerRights_tidies : dropDefinerRights.Tidies :=
  dropDefinerRights_leavesOut.tidies definerRights_tidies nofun

theorem dropDefinerRights_shortens : dropDefinerRights.Shortens :=
  dropDefinerRights_leavesOut.shortens definerRights_tidies nofun

/-- A line that tells a client how statements end, with its line break. -/
def delimiterLine (prev : Option Char) : Scan := fun t => do
  guard (prev.isNone || prev == some '\n')
  let t ← keyword "DELIMITER" (t.dropWhile isSpace)
  let t ← many1 isSpace t
  return optional (one (· == '\n')) (t.dropWhile (· != '\n'))

theorem dropDelimiterLine_leavesOut : dropDelimiterLine.LeavesOut delimiterLine := by
  intro prev t
  unfold dropDelimiterLine delimiterLine
  simp only [Option.bind_eq_bind, Option.map_bind, Function.comp_def, Option.pure_def,
    Option.map_some]

theorem delimiterLine_tidies (prev : Option Char) :
    Scan.Tidies (delimiterLine prev) "DELIMITER".toList := by
  have hword : Scan.Tidies (keyword "DELIMITER") "DELIMITER".toList := keyword_tidies rfl rfl
  have hspaces := many1_tidies (p := isSpace) fun c _ => Text.Tidies.to_nil [c]
  have hbreak := one_tidies (p := (· == '\n')) fun c _ => Text.Tidies.to_nil [c]
  have hline := (Scan.Tidies.pure.after_optional hbreak).after_dropWhile (· != '\n')
  exact ((hword.after_dropWhile isSpace).bind (hspaces.bind hline)).guard _

theorem dropDelimiterLine_tidies : dropDelimiterLine.Tidies :=
  dropDelimiterLine_leavesOut.tidies delimiterLine_tidies nofun

theorem dropDelimiterLine_shortens : dropDelimiterLine.Shortens :=
  dropDelimiterLine_leavesOut.shortens delimiterLine_tidies nofun

/-! ## Rules that write something -/

/-- Two spaces or tabs at least become one space. -/
theorem eq_of_collapseSpaces {prev : Option Char} {t new rest : Text}
    (h : collapseSpaces prev t = some (new, rest)) :
    ∃ a b u, t = a :: b :: (u ++ rest) ∧ isSpace a = true ∧ isSpace b = true ∧ new = [' '] := by
  obtain ⟨m, hm, h⟩ := Option.bind_eq_some_iff.1 h
  obtain ⟨m', hm', h⟩ := Option.bind_eq_some_iff.1 h
  cases h
  obtain ⟨a, rfl, ha⟩ := eq_cons_of_one hm
  obtain ⟨b, u, rfl, hb⟩ := eq_cons_of_many1 hm'
  exact ⟨a, b, u, rfl, ha, hb, rfl⟩

theorem isBlank_of_isSpace {c : Char} (h : isSpace c = true) : isBlank c = true := by
  rcases Bool.or_eq_true_iff.1 h with h | h
  · rw [eq_of_beq h]
    rfl
  · rw [eq_of_beq h]
    rfl

theorem collapseSpaces_tidies : collapseSpaces.Tidies := by
  intro prev t new rest h
  obtain ⟨a, b, u, rfl, ha, -, rfl⟩ := eq_of_collapseSpaces h
  refine ⟨a :: b :: u, nofun, rfl, ?_⟩
  exact (tidies_space (isBlank_of_isSpace ha)).append (Text.Tidies.to_nil (b :: u))

theorem collapseSpaces_shortens : collapseSpaces.Shortens := by
  intro prev t new rest h
  obtain ⟨a, b, u, rfl, -, -, rfl⟩ := eq_of_collapseSpaces h
  simp only [List.length_cons, List.length_append, List.length_nil]
  omega

/-- The header of a routine of a kind. -/
def routineHeader (kind : String) : Scan := fun t => do
  let t ← keyword "CREATE" t
  let t ← blanks1 t
  let t ← keyword kind t
  wordEnd t

/-- The header as it is written. -/
def routineWords (kind : String) : Text := ("CREATE " ++ kind).toList

theorem create_tidies : Scan.Tidies (keyword "CREATE") ['C', 'R', 'E', 'A', 'T', 'E'] :=
  keyword_tidies rfl rfl

theorem routineHeader_tidies {kind : String} (h : kind.toList.all Char.isUpper = true) :
    Scan.Tidies (routineHeader kind) (routineWords kind) := by
  have hkind : Scan.Tidies (keyword kind) kind.toList := keyword_tidies rfl h
  have htidies := create_tidies.bind (blanks1_tidies.bind (hkind.bind wordEnd_tidies))
  rw [List.append_nil] at htidies
  unfold routineWords
  rw [String.toList_append]
  exact htidies

theorem eq_of_normalizeHeader {prev : Option Char} {t new rest : Text}
    (h : normalizeHeader prev t = some (new, rest)) :
    ∃ kind ∈ routineKinds, routineHeader kind t = some rest ∧ new = routineWords kind := by
  obtain ⟨-, -, h⟩ := Option.bind_eq_some_iff.1 h
  obtain ⟨m, hm, h⟩ := Option.bind_eq_some_iff.1 h
  obtain ⟨m', hm', h⟩ := Option.bind_eq_some_iff.1 h
  obtain ⟨kind, hkind, h⟩ := List.exists_of_findSome?_eq_some h
  obtain ⟨n, hn, h⟩ := Option.bind_eq_some_iff.1 h
  obtain ⟨n', hn', h⟩ := Option.bind_eq_some_iff.1 h
  cases h
  refine ⟨kind, hkind, ?_, rfl⟩
  unfold routineHeader
  simp only [hm, hm', hn, Option.bind_eq_bind, Option.bind_some]
  exact hn'

theorem normalizeHeader_tidies : normalizeHeader.Tidies := by
  refine Rule.tidies_of_scan fun prev t new rest h => ?_
  obtain ⟨kind, hkind, hscan, rfl⟩ := eq_of_normalizeHeader h
  have hupper : ∀ k ∈ routineKinds, k.toList.all Char.isUpper = true := by decide
  have hne : ∀ k ∈ routineKinds, routineWords k ≠ [] := by decide
  exact ⟨_, _, routineHeader_tidies (hupper kind hkind), hne kind hkind, hscan,
    Text.Tidies.refl _⟩

/-- The header of a view, with the words that replace another where they stand. -/
def viewHeader (replace : Scan) : Scan := fun t => do
  let t ← keyword "CREATE" t
  let t ← blanks1 t
  let t ← replace t
  let t ← keyword "VIEW" (optional securityClause (optional algorithmClause t))
  wordEnd t

theorem viewHeader_tidies {replace : Scan} {w : Text} (h : Scan.Tidies replace w) :
    Scan.Tidies (viewHeader replace) ("CREATE ".toList ++ w ++ "VIEW".toList) := by
  have hview : Scan.Tidies (keyword "VIEW") ['V', 'I', 'E', 'W'] := keyword_tidies rfl rfl
  have hclauses := (hview.after_optional securityClause_tidies).after_optional
    algorithmClause_tidies
  have htidies := create_tidies.bind (blanks1_tidies.bind (h.bind (hclauses.bind wordEnd_tidies)))
  rw [List.append_nil, ← List.append_assoc, ← List.append_assoc] at htidies
  exact htidies

theorem eq_of_plainViewHeader {prev : Option Char} {t new rest : Text}
    (h : plainViewHeader prev t = some (new, rest)) :
    (viewHeader orReplace t = some rest ∧ new = "CREATE OR REPLACE VIEW".toList) ∨
      (viewHeader some t = some rest ∧ new = "CREATE VIEW".toList) := by
  obtain ⟨-, -, h⟩ := Option.bind_eq_some_iff.1 h
  obtain ⟨m, hm, h⟩ := Option.bind_eq_some_iff.1 h
  obtain ⟨m', hm', h⟩ := Option.bind_eq_some_iff.1 h
  obtain ⟨n, hn, h⟩ := Option.bind_eq_some_iff.1 h
  obtain ⟨n', hn', h⟩ := Option.bind_eq_some_iff.1 h
  unfold viewHeader
  simp only [hm, hm', Option.bind_eq_bind, Option.bind_some]
  cases hreplace : orReplace m' with
  | some r =>
    rw [hreplace] at h
    unfold Scan.optional at hn
    rw [hreplace] at hn
    cases h
    refine Or.inl ⟨?_, rfl⟩
    exact Option.bind_eq_some_iff.2 ⟨r, rfl, Option.bind_eq_some_iff.2 ⟨n, hn, hn'⟩⟩
  | none =>
    rw [hreplace] at h
    have hskip : Scan.optional orReplace m' = m' := by
      unfold Scan.optional
      rw [hreplace]
      rfl
    rw [hskip] at hn
    cases h
    exact Or.inr ⟨Option.bind_eq_some_iff.2 ⟨n, hn, hn'⟩, rfl⟩

theorem plainViewHeader_tidies : plainViewHeader.Tidies := by
  refine Rule.tidies_of_scan fun prev t new rest h => ?_
  rcases eq_of_plainViewHeader h with ⟨hscan, rfl⟩ | ⟨hscan, rfl⟩
  · exact ⟨_, _, viewHeader_tidies orReplace_tidies, nofun, hscan, Text.Tidies.refl _⟩
  · exact ⟨_, _, viewHeader_tidies Scan.Tidies.pure, nofun, hscan, Text.Tidies.refl _⟩

/-! ## Sanitizers -/

/-- The three sanitizers. -/
inductive Sanitizer
  | definer
  | routine
  | view
  deriving Repr, DecidableEq

namespace Sanitizer

/-- What a sanitizer repeats. -/
def pass : Sanitizer → Text → Text
  | definer => definerPass
  | routine => routinePass
  | view => viewPass

/-- What a sanitizer makes of a text. -/
def sanitize : Sanitizer → Text → Text
  | definer => removeDefiner
  | routine => sanitizeRoutine
  | view => sanitizeView

/-- What a sanitizer does in one pass, step by step. -/
def steps : Sanitizer → List (Text → Text)
  | definer => [substitute versionedComment, substitute dropDefiner, substitute collapseSpaces, trim]
  | routine => [substitute versionedComment, substitute dropDefiner, substitute dropDefinerRights,
      substitute normalizeHeader, substitute dropDelimiterLine, substitute collapseSpaces, trim]
  | view => [substitute versionedComment, substitute dropDefiner, substitute collapseSpaces, trim,
      substitute plainViewHeader]

theorem pass_eq_foldl (s : Sanitizer) (t : Text) : s.pass t = s.steps.foldl (fun u f => f u) t := by
  cases s <;> rfl

theorem step_tidies (s : Sanitizer) : ∀ f ∈ s.steps, ∀ t, Text.Tidies t (f t) := by
  cases s <;>
    simp only [steps, List.forall_mem_cons, List.not_mem_nil, false_implies, implies_true, and_true]
  · exact ⟨versionedComment_tidies.substitute, dropDefiner_tidies.substitute,
      collapseSpaces_tidies.substitute, tidies_trim⟩
  · exact ⟨versionedComment_tidies.substitute, dropDefiner_tidies.substitute,
      dropDefinerRights_tidies.substitute, normalizeHeader_tidies.substitute,
      dropDelimiterLine_tidies.substitute, collapseSpaces_tidies.substitute, tidies_trim⟩
  · exact ⟨versionedComment_tidies.substitute, dropDefiner_tidies.substitute,
      collapseSpaces_tidies.substitute, tidies_trim, plainViewHeader_tidies.substitute⟩

theorem pass_tidies (s : Sanitizer) (t : Text) : Text.Tidies t (s.pass t) := by
  rw [pass_eq_foldl]
  exact tidies_foldl s.step_tidies t

/-- A text that a pass leaves alone is left alone by each of its steps. -/
theorem step_eq_of_pass_eq (s : Sanitizer) {t : Text} (h : s.pass t = t) :
    ∀ f ∈ s.steps, f t = t := by
  rw [pass_eq_foldl] at h
  exact eq_of_foldl_eq s.step_tidies h

theorem sanitize_eq (s : Sanitizer) (t : Text) : s.sanitize t = settle s.pass t := by
  cases s <;> rfl

/-- The pass of a sanitizer settles on what the sanitizer gives, unless the text is blank. -/
theorem settles_sanitize (s : Sanitizer) {t : Text} (h : t.isBlankOnly = false) :
    ∃ n ≤ 2 * t.length, Settles s.pass n t (s.sanitize t) := by
  rw [sanitize_eq]
  unfold settle
  rw [h]
  exact settles_iterate s.pass_tidies (bulk_le t)

theorem sanitize_of_isBlankOnly (s : Sanitizer) {t : Text} (h : t.isBlankOnly = true) :
    s.sanitize t = t := by
  rw [sanitize_eq]
  unfold settle
  rw [h]
  rfl

theorem sanitize_of_pass_eq (s : Sanitizer) {t : Text} (h : s.pass t = t) : s.sanitize t = t := by
  rw [sanitize_eq]
  unfold settle
  split
  · rfl
  · unfold iterate
    rw [if_pos h]

/-- Repeating the pass of a sanitizer comes to an end, after at most two passes for each character;
the sanitizer gives what it ends with, and a blank text as it is. The result has no more bytes than
the text, and the sanitizer leaves it alone. -/
theorem settles (s : Sanitizer) (t : Text) :
    (∃ n ≤ 2 * t.length, ∃ r, Settles s.pass n t r ∧
        s.sanitize t = if t.isBlankOnly then t else r) ∧
      byteLength (s.sanitize t) ≤ byteLength t ∧ s.sanitize (s.sanitize t) = s.sanitize t := by
  cases hblank : t.isBlankOnly with
  | true =>
    obtain ⟨n, hn, hsettles⟩ := settles_iterate s.pass_tidies (bulk_le t)
    have hsame := s.sanitize_of_isBlankOnly hblank
    exact ⟨⟨n, hn, _, hsettles, hsame⟩, Nat.le_of_eq (congrArg byteLength hsame),
      by rw [hsame, hsame]⟩
  | false =>
    obtain ⟨n, hn, hsettles⟩ := s.settles_sanitize hblank
    exact ⟨⟨n, hn, _, hsettles, rfl⟩, (hsettles.tidies s.pass_tidies).byteLength_le,
      s.sanitize_of_pass_eq hsettles.pass_eq⟩

end Sanitizer

end SchemaInstaller.Sql
