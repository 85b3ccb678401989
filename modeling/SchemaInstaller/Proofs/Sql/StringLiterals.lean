import SchemaInstaller.Proofs.Sql.NormalForm
import SchemaInstaller.Proofs.Text.Passages

/-!
# String literals in sanitized definitions

Sanitizers know nothing of string literals. What they take out of a definition they take out
wherever it stands, and likewise they collapse spaces and write headers wherever they find them.
So a literal stays as it is only as long as nothing that is taken out reaches into it, no two spaces
stand side by side in it, and every header that it spells out is written as the sanitizer writes it
(`Sanitizer.literals_kept_iff`).
-/

namespace SchemaInstaller.Sql

open Scan Text

/-! ## Rules and quotes -/

/-- The characters that a string literal may stand between. -/
def IsQuote (c : Char) : Prop := c = '\x27' ∨ c = '\x22'

/-- A string literal: any characters between two quotes of the same kind. Which characters may
stand there depends on how the server reads quotes and backslashes, and is left open. -/
abbrev IsLiteral (x : Text) : Prop := Fenced IsQuote x

variable {c : Char}

theorem not_isBlank_of_isQuote (h : IsQuote c) : isBlank c = false := by
  rcases h with rfl | rfl <;> rfl

theorem not_isSpace_of_isQuote (h : IsQuote c) : isSpace c = false := by
  rcases h with rfl | rfl <;> rfl

theorem not_isWordChar_of_isQuote (h : IsQuote c) : isWordChar c = false := by
  rcases h with rfl | rfl <;> rfl

/-- The keywords of the headers that are written. -/
def headerWords : List String :=
  ["CREATE", "OR", "REPLACE", "ALGORITHM", "SQL", "SECURITY", "DEFINER", "INVOKER", "VIEW"] ++
    routineKinds

theorem headerWord_stopsAt (h : IsQuote c) {w : String} (hw : w ∈ headerWords) :
    (keyword w).StopsAt c := by
  refine keyword_stopsAt ?_
  rcases h with rfl | rfl <;> revert w <;> decide

theorem blanks1_stopsAt (h : IsQuote c) : blanks1.StopsAt c :=
  many1_stopsAt (not_isBlank_of_isQuote h)

theorem collapseSpaces_stopsAt (h : IsQuote c) : collapseSpaces.StopsAt c := by
  have hspace := not_isSpace_of_isQuote h
  exact ((Rule.stopsAt_write [' ']).after_scan (many1_stopsAt hspace)).after_scan
    (one_stopsAt hspace)

/-- The end of a header of a routine. -/
def endHeader (w : Text) : Rule := fun _ t => do
  let t ← wordEnd t
  return (w, t)

theorem endHeader_stopsAt (h : IsQuote c) (w : Text) : (endHeader w).StopsAt c :=
  (Rule.stopsAt_write w).after_scan (wordEnd_stopsAt (not_isWordChar_of_isQuote h))

theorem normalizeHeader_stopsAt (h : IsQuote c) : normalizeHeader.StopsAt c := by
  have hkind : ∀ kind ∈ routineKinds, Rule.StopsAt
      (fun prev t => keyword kind t >>= endHeader ("CREATE " ++ kind).toList prev) c :=
    fun kind hkind => (endHeader_stopsAt h _).after_scan
      (headerWord_stopsAt h (List.mem_append_right _ hkind))
  have hkinds := Rule.stopsAt_findSome? hkind
  have hcreate := headerWord_stopsAt h (w := "CREATE") (by decide)
  exact ((hkinds.after_scan (blanks1_stopsAt h)).after_scan hcreate).guard (wordStart ·)

theorem orReplace_stopsAt (h : IsQuote c) : orReplace.StopsAt c := by
  have hblanks := blanks1_stopsAt h
  have hor := headerWord_stopsAt h (w := "OR") (by decide)
  have hreplace := headerWord_stopsAt h (w := "REPLACE") (by decide)
  exact hor.bind (hblanks.bind (hreplace.bind hblanks))

theorem algorithmClause_stopsAt (h : IsQuote c) : algorithmClause.StopsAt c := by
  have hblank := not_isBlank_of_isQuote h
  have halgorithm := headerWord_stopsAt h (w := "ALGORITHM") (by decide)
  have hequals : (literal ['=']).StopsAt c :=
    literal_stopsAt (by rcases h with rfl | rfl <;> decide)
  have hword := many1_stopsAt (not_isWordChar_of_isQuote h)
  exact halgorithm.bind ((hequals.after_dropWhile hblank).bind
    ((hword.after_dropWhile hblank).bind (blanks1_stopsAt h)))

theorem securityClause_stopsAt (h : IsQuote c) : securityClause.StopsAt c := by
  have hblanks := blanks1_stopsAt h
  have hsql := headerWord_stopsAt h (w := "SQL") (by decide)
  have hsecurity := headerWord_stopsAt h (w := "SECURITY") (by decide)
  have hdefiner := headerWord_stopsAt h (w := "DEFINER") (by decide)
  have hinvoker := headerWord_stopsAt h (w := "INVOKER") (by decide)
  exact hsql.bind (hblanks.bind (hsecurity.bind (hblanks.bind
    ((hdefiner.orElse hinvoker).bind hblanks))))

theorem plainViewHeader_stopsAt (h : IsQuote c) : plainViewHeader.StopsAt c := by
  have hbehind : Rule.StopsAt (fun prev t =>
      keyword "VIEW" (optional securityClause (optional algorithmClause (optional orReplace t))) >>=
        endHeader (if (orReplace t).isSome then "CREATE OR REPLACE VIEW" else "CREATE VIEW").toList
          prev) c := by
    intro prev t r
    simp only [(orReplace_stopsAt h).optional, (algorithmClause_stopsAt h).optional,
      (securityClause_stopsAt h).optional, orReplace_stopsAt h t r, Option.isSome_map]
    exact (endHeader_stopsAt h _).after_scan (headerWord_stopsAt h (by decide)) prev _ r
  have hcreate := headerWord_stopsAt h (w := "CREATE") (by decide)
  exact ((hbehind.after_scan (blanks1_stopsAt h)).after_scan hcreate).guard (wordStart ·)

/-! ## Steps -/

namespace Sanitizer

/-- The rules by which a sanitizer takes something out. -/
def removals : Sanitizer → List Rule
  | definer => [versionedComment, dropDefiner]
  | routine => [versionedComment, dropDefiner, dropDefinerRights, dropDelimiterLine]
  | view => [versionedComment, dropDefiner]

/-- The rules by which a sanitizer writes headers. -/
def headers : Sanitizer → List Rule
  | definer => []
  | routine => [normalizeHeader]
  | view => [plainViewHeader]

theorem step_cases (s : Sanitizer) : ∀ f ∈ s.steps, f = trim ∨ f = substitute collapseSpaces ∨
    (∃ rule ∈ s.headers, f = substitute rule) ∨ ∃ rule ∈ s.removals, f = substitute rule := by
  cases s <;> simp [steps, headers, removals]

theorem headers_steps (s : Sanitizer) : ∀ rule ∈ s.headers, substitute rule ∈ s.steps := by
  cases s <;> simp [steps, headers]

theorem removals_tidies (s : Sanitizer) : ∀ rule ∈ s.removals, rule.Tidies := by
  have hboth : ∀ rule ∈ [versionedComment, dropDefiner], rule.Tidies := by
    simp only [List.forall_mem_cons]
    exact ⟨versionedComment_tidies, dropDefiner_tidies, nofun⟩
  cases s with
  | definer => exact hboth
  | view => exact hboth
  | routine =>
    simp only [removals, List.forall_mem_cons]
    exact ⟨versionedComment_tidies, dropDefiner_tidies, dropDefinerRights_tidies,
      dropDelimiterLine_tidies, nofun⟩

theorem headers_tidies (s : Sanitizer) : ∀ rule ∈ s.headers, rule.Tidies := by
  cases s with
  | definer => nofun
  | routine => exact List.forall_mem_singleton.2 normalizeHeader_tidies
  | view => exact List.forall_mem_singleton.2 plainViewHeader_tidies

theorem headers_stopsAt (s : Sanitizer) (h : IsQuote c) : ∀ rule ∈ s.headers, rule.StopsAt c := by
  cases s with
  | definer => nofun
  | routine => exact List.forall_mem_singleton.2 (normalizeHeader_stopsAt h)
  | view => exact List.forall_mem_singleton.2 (plainViewHeader_stopsAt h)

theorem headers_writes (s : Sanitizer) : ∀ rule ∈ s.headers, ∃ words, WritesHeaders rule words := by
  cases s with
  | definer => nofun
  | routine => exact List.forall_mem_singleton.2 ⟨_, normalizeHeader_writes⟩
  | view => exact List.forall_mem_singleton.2 ⟨_, plainViewHeader_writes⟩

/-- A text in which no two spaces stand side by side and every header is written as the sanitizer
writes it. -/
structure Harmless (s : Sanitizer) (x : Text) : Prop where
  spaces : ∀ a b, [a, b] <:+: x → isSpace a = true → isSpace b = false
  headers : ∀ rule ∈ s.headers, rule.Trivial x

variable {s : Sanitizer} {x t : Text} {xs : List Text}

theorem Harmless.collapseSpaces_trivial (h : s.Harmless x) : collapseSpaces.Trivial x := by
  rintro a b new rest rfl hmatch
  obtain ⟨d, e, u, rfl, hd, he, rfl⟩ := eq_of_collapseSpaces hmatch
  have hpair : [d, e] <:+: a ++ d :: e :: (u ++ rest) := ⟨a, u ++ rest, by simp⟩
  rw [h.spaces d e hpair hd] at he
  cases he

/-- A text is harmless if the rules that collapse spaces and write headers leave it alone. -/
theorem harmless_iff : s.Harmless x ↔
    x.substitute collapseSpaces = x ∧ ∀ rule ∈ s.headers, x.substitute rule = x := by
  constructor
  · intro h
    exact ⟨h.collapseSpaces_trivial.substitute_eq collapseSpaces_tidies,
      fun rule hrule => (h.headers rule hrule).substitute_eq (s.headers_tidies rule hrule)⟩
  · rintro ⟨hspaces, hheaders⟩
    refine ⟨fun a b => isSpace_false_of_absent
      (collapseSpaces_tidies.absent collapseSpaces_shortens hspaces), fun rule hrule => ?_⟩
    obtain ⟨words, hwrites⟩ := s.headers_writes rule hrule
    exact (s.headers_tidies rule hrule).trivial hwrites.apart (hheaders rule hrule)

instance (s : Sanitizer) (x : Text) : Decidable (s.Harmless x) :=
  decidable_of_iff' _ harmless_iff

/-- A step keeps harmless literals into which nothing that is taken out reaches. -/
theorem inOrder_step (h : InOrder xs t) (hliterals : ∀ x ∈ xs, IsLiteral x)
    (hharmless : ∀ x ∈ xs, s.Harmless x)
    (hspares : ∀ rule ∈ s.removals, ∀ x ∈ xs, rule.Spares x t) :
    ∀ f ∈ s.steps, InOrder xs (f t) := by
  intro f hf
  rcases s.step_cases f hf with rfl | rfl | ⟨rule, hrule, rfl⟩ | ⟨rule, hrule, rfl⟩
  · exact h.trim fun x hx => (hliterals x hx).imp fun _ => not_isBlank_of_isQuote
  · exact h.substitute_of_stopsAt collapseSpaces_tidies fun x hx =>
      ⟨(hliterals x hx).imp fun _ => collapseSpaces_stopsAt,
        (hharmless x hx).collapseSpaces_trivial⟩
  · exact h.substitute_of_stopsAt (s.headers_tidies rule hrule) fun x hx =>
      ⟨(hliterals x hx).imp fun _ hc => s.headers_stopsAt hc rule hrule,
        (hharmless x hx).headers rule hrule⟩
  · exact h.substitute (s.removals_tidies rule hrule) (hspares rule hrule)

/-! ## Runs -/

/-- The text when the sanitizer has made `n` passes, and `k` steps of the next. -/
def after (s : Sanitizer) (n k : Nat) (t : Text) : Text :=
  (s.steps.take k).foldl (fun u f => f u) (s.pass^[n] t)

theorem after_zero (s : Sanitizer) (n : Nat) (t : Text) : s.after n 0 t = s.pass^[n] t := rfl

theorem after_succ (s : Sanitizer) (n k : Nat) (t : Text) :
    s.after n (k + 1) t = s.after n k t ∨
      ∃ f ∈ s.steps, s.after n (k + 1) t = f (s.after n k t) := by
  unfold after
  rw [List.take_add_one, List.foldl_append]
  cases hstep : s.steps[k]? with
  | none => exact .inl rfl
  | some f => exact .inr ⟨f, List.mem_of_getElem? hstep, rfl⟩

theorem after_length (s : Sanitizer) (n : Nat) (t : Text) :
    s.after n s.steps.length t = s.after (n + 1) 0 t := by
  rw [after_zero, Function.iterate_succ_apply', pass_eq_foldl]
  unfold after
  rw [List.take_length]

/-- A text that a pass leaves alone stays at every step. -/
theorem after_of_pass_eq {n : Nat} (h : s.pass (s.pass^[n] t) = s.pass^[n] t) (k : Nat) :
    s.after n k t = s.pass^[n] t := by
  induction k with
  | zero => rfl
  | succ k ih =>
    rcases s.after_succ n k t with hsame | ⟨f, hf, hstep⟩
    · rw [hsame, ih]
    · rw [hstep, ih, s.step_eq_of_pass_eq h f hf]

/-- If a pass changes nothing any more, all texts have come in the passes before it. -/
theorem exists_after {m : Nat} (h : s.pass (s.pass^[m + 1] t) = s.pass^[m + 1] t) (n k : Nat) :
    ∃ i ≤ m, ∃ j ≤ s.steps.length, s.after n k t = s.after i j t := by
  rcases Nat.lt_or_ge m n with hlt | hle
  · obtain ⟨d, rfl⟩ := Nat.exists_eq_add_of_le hlt
    have hpasses : s.pass^[m + 1 + d] t = s.pass^[m + 1] t := by
      rw [Nat.add_comm, Function.iterate_add_apply, Function.iterate_fixed h]
    refine ⟨m, Nat.le_refl m, s.steps.length, Nat.le_refl _, ?_⟩
    rw [after_of_pass_eq (by rw [hpasses, h]), hpasses, after_length, after_zero]
  · refine ⟨n, hle, min k s.steps.length, Nat.min_le_right _ _, ?_⟩
    unfold after
    rw [← List.take_eq_take_min]

/-- Harmless literals stay at every step of every pass as long as nothing that is taken out reaches
into them. -/
theorem inOrder_after (h : InOrder xs t) (hliterals : ∀ x ∈ xs, IsLiteral x)
    (hharmless : ∀ x ∈ xs, s.Harmless x)
    (hspares : ∀ n k, ∀ rule ∈ s.removals, ∀ x ∈ xs, rule.Spares x (s.after n k t)) (n k : Nat) :
    InOrder xs (s.after n k t) := by
  have hsteps : ∀ n, InOrder xs (s.after n 0 t) → ∀ k, InOrder xs (s.after n k t) := by
    intro n hn k
    induction k with
    | zero => exact hn
    | succ k ih =>
      rcases s.after_succ n k t with hsame | ⟨f, hf, hstep⟩
      · rw [hsame]
        exact ih
      · rw [hstep]
        exact inOrder_step ih hliterals hharmless (hspares n k) f hf
  induction n generalizing k with
  | zero => exact hsteps 0 h k
  | succ n ih => exact hsteps (n + 1) (s.after_length n t ▸ ih s.steps.length) k

/-- A literal in a text that a pass leaves alone is harmless. -/
theorem harmless_of_pass_eq (h : s.pass t = t) (hx : x <:+: t) (hliteral : IsLiteral x) :
    s.Harmless x where
  spaces a b hab ha := by
    have hnormal := s.normal_of_pass_eq h
    have hclean : Clean t := by
      cases s with
      | definer => exact hnormal
      | routine => exact hnormal.1
      | view => exact hnormal.1
    exact hclean.spaces a b (hab.trans hx) ha
  headers rule hrule := by
    have htidies := s.headers_tidies rule hrule
    obtain ⟨words, hwrites⟩ := s.headers_writes rule hrule
    have hstep : t.substitute rule = t := s.step_eq_of_pass_eq h _ (s.headers_steps rule hrule)
    exact (htidies.trivial hwrites.apart hstep).of_isInfix htidies hx
      (hliteral.imp fun _ hc => s.headers_stopsAt hc rule hrule)

/-- As long as nothing that is taken out reaches into a literal, a sanitizer keeps the literals of a
definition, in their order, exactly if they are harmless. What is taken out can bring together what
is taken out next, so every text that the sanitizer goes through counts, not the definition alone.
-/
theorem literals_kept_iff (s : Sanitizer) {t : Text} {xs : List Text} (h : InOrder xs t)
    (hliterals : ∀ x ∈ xs, IsLiteral x)
    (hspares : ∀ n k, ∀ rule ∈ s.removals, ∀ x ∈ xs, rule.Spares x (s.after n k t)) :
    InOrder xs (s.sanitize t) ↔ ∀ x ∈ xs, s.Harmless x := by
  cases hblank : t.isBlankOnly with
  | true =>
    -- a blank text has no literals
    have hnone : xs = [] := by
      refine List.eq_nil_iff_forall_not_mem.2 fun x hx => ?_
      obtain ⟨c, body, hc, rfl⟩ := hliterals x hx
      have hmem : c ∈ t := (h.isInfix hx).subset List.mem_cons_self
      have hquote := List.all_eq_true.1 hblank c hmem
      rw [not_isBlank_of_isQuote hc] at hquote
      cases hquote
    subst hnone
    exact ⟨fun _ => nofun, fun _ => trivial⟩
  | false =>
    obtain ⟨n, -, hsettles⟩ := s.settles_sanitize hblank
    constructor
    · exact fun hkept x hx =>
        harmless_of_pass_eq hsettles.pass_eq (hkept.isInfix hx) (hliterals x hx)
    · intro hharmless
      rw [hsettles.eq_iterate]
      exact inOrder_after h hliterals hharmless hspares n 0

end Sanitizer

/-- A view with an owner and two literals, one that spells out a header and one that holds a quote
of the other kind. -/
def quotingView : Text :=
  "CREATE  DEFINER=a@b view v AS select 'CREATE VIEW', \"it's\"".toList

def quotedTexts : List Text := ["'CREATE VIEW'".toList, "\"it's\"".toList]

/-- The owner is taken out and the header of the view is written in capitals, but the literals
stay. -/
theorem quotingView_keeps : Sanitizer.view.sanitize quotingView =
      "CREATE VIEW v AS select 'CREATE VIEW', \"it's\"".toList ∧
    InOrder quotedTexts (Sanitizer.view.sanitize quotingView) := by
  have hplaces : InOrder quotedTexts quotingView :=
    ⟨quotingView.take 37, quotingView.drop 50, by decide +kernel,
      [',', ' '], [], by decide +kernel, trivial⟩
  have hliterals : ∀ x ∈ quotedTexts, IsLiteral x :=
    List.forall_mem_cons.2 ⟨⟨'\x27', "CREATE VIEW".toList, .inl rfl, rfl⟩,
      List.forall_mem_singleton.2 ⟨'\x22', "it's".toList, .inr rfl, rfl⟩⟩
  refine ⟨by decide +kernel, (Sanitizer.view.literals_kept_iff hplaces hliterals ?_).2 ?_⟩
  · intro n k
    have hrest : Sanitizer.view.pass (Sanitizer.view.pass^[0 + 1] quotingView) =
        Sanitizer.view.pass^[0 + 1] quotingView := by decide +kernel
    obtain ⟨i, hi, j, hj, heq⟩ := Sanitizer.exists_after hrest n k
    have hall : ∀ i ≤ 0, ∀ j ≤ Sanitizer.view.steps.length, ∀ rule ∈ Sanitizer.view.removals,
        ∀ x ∈ quotedTexts, rule.Spares x (Sanitizer.view.after i j quotingView) := by
      decide +kernel
    rw [heq]
    exact hall i hi j hj
  · decide +kernel

/-- A view that selects a text with two spaces. -/
def spacingView : Text := "CREATE VIEW `v` AS select 'a  b' AS `c`".toList

/-- No sanitizer finds anything to take out of the view, and each changes its literal. -/
theorem spacingView_changed :
    IsLiteral "'a  b'".toList ∧ InOrder ["'a  b'".toList] spacingView ∧ ∀ s : Sanitizer,
      (∀ rule ∈ s.removals, rule.Spares "'a  b'".toList spacingView) ∧
        ¬InOrder ["'a  b'".toList] (s.sanitize spacingView) := by
  have hplace : "'a  b'".toList <:+: spacingView := by decide +kernel
  refine ⟨⟨'\x27', "a  b".toList, .inl rfl, rfl⟩, inOrder_singleton.2 hplace, fun s => ?_⟩
  rw [inOrder_singleton]
  cases s <;> decide +kernel

end SchemaInstaller.Sql
