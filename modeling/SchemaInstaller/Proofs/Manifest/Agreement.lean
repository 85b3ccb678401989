import Mathlib.Tactic.Common
import SchemaInstaller.Installer.Compile

/-!
# Checking against compiling

Compiling looks at the class name and the prefix of a manifest; checking looks at the names of its
tables as well. `validate_errors_iff` says what the check reports, `compile_error_iff` when
compiling fails, and `compile_agrees_iff` exactly when the two agree: whenever compiling fails, and
else if every table has a name that can be seen and no two tables share one.
-/

namespace SchemaInstaller.Manifest

/-! ## Names of tables -/

/-- Tables whose names can be seen and told apart without the case of ASCII letters. -/
structure NamesFit (tables : List Table) : Prop where
  named : ∀ t ∈ tables, isNamed t = true
  distinct : tables.Pairwise fun a b => sameName a.name b.name = false

/-- The scan for problems finds none iff the names fit and none was seen before. -/
theorem nameProblems_eq_nil_iff (seen : List String) (tables : List Table) :
    nameProblems seen tables = [] ↔
      NamesFit tables ∧ ∀ t ∈ tables, ∀ s ∈ seen, sameName s t.name = false := by
  induction tables generalizing seen with
  | nil => simp [nameProblems, NamesFit.mk]
  | cons t r ih =>
    unfold nameProblems
    by_cases hn : isNamed t = true
    · by_cases hs : seen.any (sameName · t.name) = true
      · -- a name that was seen is a problem, so both sides fail
        obtain ⟨s, hmem, hsame⟩ := List.any_eq_true.1 hs
        rw [hn, hs]
        refine iff_of_false (by simp) fun h => ?_
        have := h.2 t List.mem_cons_self s hmem
        rw [hsame] at this
        exact absurd this (by decide)
      · have hfree : ∀ s ∈ seen, sameName s t.name = false := by
          intro s hmem
          by_contra hc
          exact hs (List.any_eq_true.2 ⟨s, hmem, by simpa using hc⟩)
        rw [hn, Bool.eq_false_iff.2 hs]
        simp only [Bool.not_true, Bool.false_eq_true, if_false, ih]
        constructor
        · rintro ⟨fit, hseen⟩
          refine ⟨⟨?_, ?_⟩, ?_⟩
          · exact List.forall_mem_cons.2 ⟨hn, fit.named⟩
          · exact List.pairwise_cons.2
              ⟨fun u hu => hseen u hu t.name List.mem_cons_self, fit.distinct⟩
          · exact List.forall_mem_cons.2
              ⟨hfree, fun u hu s hmem => hseen u hu s (List.mem_cons_of_mem _ hmem)⟩
        · rintro ⟨fit, hseen⟩
          obtain ⟨hhead, htail⟩ := List.pairwise_cons.1 fit.distinct
          refine ⟨⟨(List.forall_mem_cons.1 fit.named).2, htail⟩, fun u hu => ?_⟩
          exact List.forall_mem_cons.2 ⟨hhead u hu, hseen u (List.mem_cons_of_mem _ hu)⟩
    · rw [Bool.eq_false_iff.2 hn]
      refine iff_of_false (by simp) fun h => ?_
      exact hn (h.1.named t List.mem_cons_self)

/-! ## What each side looks at -/

/-- A manifest has a class name iff the one that was chosen is legal. -/
theorem resolveClass_eq_ok_iff (m : Manifest) (className? : Option String) :
    (∃ name, m.resolveClass className? = .ok name) ↔
      Php.isName (m.chosenClass className?) = true := by
  unfold resolveClass
  cases m.chosenClass className? with
  | nil => exact iff_of_false (fun ⟨_, h⟩ => nomatch h) nofun
  | cons a r =>
    by_cases hname : Php.isName (a :: r) = true
    · simp [hname]
    · simp [hname]

/-- A manifest can be compiled as far as its class name and its prefix go. -/
def IsCompilable (m : Manifest) (className? : Option String) : Prop :=
  (∃ name, m.resolveClass className? = .ok name) ∧ m.defaultPrefix.isEmpty = false

/-- A plan holds the manifest and the options that it is made from. -/
theorem plan_eq_ok_iff {m : Manifest} {className? : Option String} {o : InstallerOptions}
    {p : Plan} : m.plan className? o = .ok p ↔
      ∃ name, m.resolveClass className? = .ok name ∧ m.defaultPrefix.isEmpty = false ∧
        p = ⟨m, name, o⟩ := by
  unfold plan
  cases hname : m.resolveClass className? with
  | error fault => exact ⟨nofun, fun ⟨_, h, _⟩ => nomatch h⟩
  | ok name =>
    cases hempty : m.defaultPrefix.isEmpty with
    | true => exact ⟨nofun, fun ⟨_, _, h, _⟩ => nomatch h⟩
    | false =>
      constructor
      · intro h
        cases h
        exact ⟨name, rfl, rfl, rfl⟩
      · rintro ⟨other, hother, -, rfl⟩
        cases hother
        rfl

theorem plan_of_isCompilable {m : Manifest} {className? : Option String} (o : InstallerOptions)
    (h : m.IsCompilable className?) : ∃ p, m.plan className? o = .ok p := by
  obtain ⟨⟨name, hname⟩, hempty⟩ := h
  exact ⟨⟨m, name, o⟩, plan_eq_ok_iff.2 ⟨name, hname, hempty, rfl⟩⟩

theorem plan_error_of_not_isCompilable {m : Manifest} {className? : Option String}
    (o : InstallerOptions) (h : ¬m.IsCompilable className?) :
    ∃ e, m.plan className? o = .error e := by
  cases hplan : m.plan className? o with
  | error e => exact ⟨e, rfl⟩
  | ok p =>
    obtain ⟨name, hname, hempty, -⟩ := plan_eq_ok_iff.1 hplan
    exact absurd ⟨⟨name, hname⟩, hempty⟩ h

theorem compile_eq_ok_iff {m : Manifest} {className? : Option String} {o : InstallerOptions}
    {c : CompiledInstaller} : m.compile className? o = .ok c ↔
      ∃ p, m.plan className? o = .ok p ∧ p.compiled = c := by
  unfold compile
  cases m.plan className? o with
  | error e => exact ⟨nofun, fun ⟨_, h, _⟩ => nomatch h⟩
  | ok p =>
    constructor
    · intro h
      cases h
      exact ⟨p, rfl, rfl⟩
    · rintro ⟨q, hq, rfl⟩
      cases hq
      rfl

/-- Compiling fails for want of a class name or a prefix and for nothing else. -/
theorem compile_error_iff (m : Manifest) (className? : Option String) (o : InstallerOptions) :
    (∃ e, m.compile className? o = .error e) ↔ ¬m.IsCompilable className? := by
  unfold compile
  constructor
  · rintro ⟨e, he⟩ h
    obtain ⟨p, hp⟩ := plan_of_isCompilable o h
    rw [hp] at he
    cases he
  · intro h
    obtain ⟨e, he⟩ := plan_error_of_not_isCompilable o h
    exact ⟨e, by rw [he]; rfl⟩

/-- The check reports an error iff the manifest cannot be compiled or the names of its tables do
not fit. -/
theorem validate_errors_iff (m : Manifest) (className? : Option String) :
    (m.validate className?).errors ≠ [] ↔
      ¬m.IsCompilable className? ∨ ¬NamesFit m.tables := by
  have hnames : nameProblems [] m.tables = [] ↔ NamesFit m.tables := by
    simp [nameProblems_eq_nil_iff]
  have hclass : classProblems m className? = [] ↔ ∃ name, m.resolveClass className? = .ok name := by
    unfold classProblems
    cases m.resolveClass className? <;> simp
  have hnonempty : (if m.defaultPrefix.isEmpty then [Problem.emptyPrefix] else []) = [] ↔
      m.defaultPrefix.isEmpty = false := by
    cases m.defaultPrefix.isEmpty <;> simp
  rw [← not_and_or, not_iff_not]
  unfold validate IsCompilable
  simp only [List.append_eq_nil_iff, hclass, hnonempty, hnames]

/-! ## Agreement -/

/-- Compiling fails only where the check reports an error, and the two agree exactly where compiling
fails or the names of the tables fit. -/
theorem compile_agrees_iff (m : Manifest) (className? : Option String) (o : InstallerOptions) :
    ((∃ e, m.compile className? o = .error e) → (m.validate className?).errors ≠ []) ∧
      (((∃ e, m.compile className? o = .error e) ↔ (m.validate className?).errors ≠ []) ↔
        (∃ e, m.compile className? o = .error e) ∨ NamesFit m.tables) := by
  rw [compile_error_iff, validate_errors_iff]
  constructor
  · exact Or.inl
  · constructor
    · intro h
      by_cases hfit : NamesFit m.tables
      · exact Or.inr hfit
      · exact Or.inl (h.2 (Or.inr hfit))
    · rintro (h | h)
      · exact iff_of_true h (Or.inl h)
      · exact ⟨Or.inl, fun h' => h'.resolve_right (not_not_intro h)⟩

/-- A manifest that names one table twice. -/
def twinTables : Manifest :=
  { empty "shop" "wp_" .epoch with
    tables := [.empty "orders" "wp_orders" "shop", .empty "orders" "wp_orders" "shop"] }

/-- Two tables of one name are an error of the check, but compile. -/
theorem twinTables_disagree :
    ¬((∃ e, twinTables.compile none .standard = .error e) ↔
      (twinTables.validate none).errors ≠ []) := by
  have hok : twinTables.IsCompilable none := ⟨⟨"MyPluginInstaller", rfl⟩, rfl⟩
  have htwins : ¬NamesFit twinTables.tables := fun h =>
    absurd h.distinct (by decide)
  rw [compile_error_iff, validate_errors_iff]
  exact fun h => h.2 (Or.inr htwins) hok

end SchemaInstaller.Manifest
