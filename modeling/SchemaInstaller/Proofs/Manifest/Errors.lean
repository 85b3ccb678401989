import SchemaInstaller.Proofs.Manifest.Agreement
import SchemaInstaller.Proofs.Manifest.Messages
import SchemaInstaller.Proofs.Text.Tidying

/-!
# What the check reports as an error

The check goes over the tables once and remembers the names it has seen. So of the tables that share
a name every one but the first is reported, wherever they stand and whatever stands between them
(`countP_nameProblems`). Together with the class name and the prefix this says of every manifest
which errors it has (`errors_exact`).
-/

namespace SchemaInstaller.Manifest

/-! ## Names without case -/

theorem sameName_congr {a b : String} (h : sameName a b = true) (c : String) :
    sameName a c = sameName b c := by
  unfold sameName
  rw [eq_of_beq h]

theorem sameName_comm (a b : String) : sameName a b = sameName b a := by
  unfold sameName
  exact Bool.beq_comm

/-- It makes no difference in which case a name is looked for. -/
theorem any_sameName {name other : String} (h : sameName name other = true) (seen : List String) :
    seen.any (sameName name) = seen.any (sameName · other) :=
  congrArg seen.any (funext fun s => (sameName_congr h s).trans (sameName_comm other s))

/-! ## Names that come twice -/

/-- Whether a problem is that a name, in any case, comes twice. -/
def Problem.isDuplicateOf (name : String) : Problem → Bool
  | duplicateTable other => sameName name other
  | _ => false

/-- Whether a table has a name that can be seen and is the given one in any case. -/
def bearsName (name : String) (t : Table) : Bool := isNamed t && sameName name t.name

/-- Of the tables that bear a name all but the first are reported, and the first one too if the name
was seen before. -/
theorem countP_nameProblems (name : String) (seen : List String) (tables : List Table) :
    (nameProblems seen tables).countP (Problem.isDuplicateOf name) =
      tables.countP (bearsName name) - if seen.any (sameName name) then 0 else 1 := by
  induction tables generalizing seen with
  | nil => exact (Nat.zero_sub _).symm
  | cons t r ih =>
    unfold nameProblems
    by_cases hnamed : isNamed t = true
    · have hbears : bearsName name t = sameName name t.name := by
        rw [bearsName, hnamed, Bool.true_and]
      have hdup : Problem.isDuplicateOf name (.duplicateTable t.name) = sameName name t.name := rfl
      rw [if_neg (by simp [hnamed])]
      by_cases hseen : seen.any (sameName · t.name) = true
      · rw [if_pos hseen]
        by_cases hsame : sameName name t.name = true
        · have hany : seen.any (sameName name) = true := (any_sameName hsame seen).trans hseen
          rw [List.countP_cons_of_pos (hdup.trans hsame),
            List.countP_cons_of_pos (hbears.trans hsame), ih, hany]
          rfl
        · rw [List.countP_cons_of_neg (by rwa [hdup]), List.countP_cons_of_neg (by rwa [hbears]), ih]
      · rw [if_neg hseen, ih, List.any_cons]
        by_cases hsame : sameName name t.name = true
        · have hany : seen.any (sameName name) = false :=
            (any_sameName hsame seen).trans (Bool.eq_false_iff.2 hseen)
          rw [List.countP_cons_of_pos (hbears.trans hsame), hsame, hany]
          rfl
        · rw [List.countP_cons_of_neg (by rwa [hbears]), Bool.eq_false_iff.2 hsame, Bool.false_or]
    · have hbears : ¬bearsName name t = true := by
        rw [bearsName, Bool.eq_false_iff.2 hnamed]
        exact Bool.false_ne_true
      rw [if_pos (by simp [hnamed]), List.countP_cons_of_neg Bool.false_ne_true,
        List.countP_cons_of_neg hbears, ih]

/-- A name that is reported is that of a table. -/
theorem exists_table_of_duplicateTable {name : String} {seen : List String} {tables : List Table}
    (h : .duplicateTable name ∈ nameProblems seen tables) : ∃ t ∈ tables, t.name = name := by
  induction tables generalizing seen with
  | nil => cases h
  | cons t r ih =>
    unfold nameProblems at h
    have hrest : ∀ {seen : List String}, Problem.duplicateTable name ∈ nameProblems seen r →
        ∃ u ∈ t :: r, u.name = name := by
      intro seen h
      obtain ⟨u, hu, hname⟩ := ih h
      exact ⟨u, List.mem_cons_of_mem t hu, hname⟩
    split at h
    · rcases List.mem_cons.1 h with h | h
      · cases h
      · exact hrest h
    · split at h
      · rcases List.mem_cons.1 h with h | h
        · cases h
          exact ⟨t, List.mem_cons_self, rfl⟩
        · exact hrest h
      · exact hrest h

/-! ## The class name -/

/-- The name for the class before blanks are taken off: the one asked for, if it has anything but
blanks, and else the manifest's. -/
def givenClass (m : Manifest) (className? : Option String) : String :=
  (className?.filter fun s => !Text.isBlankOnly s.toList).getD m.installerClass

theorem chosenClass_eq (m : Manifest) (className? : Option String) :
    m.chosenClass className? = Text.trim (m.givenClass className?).toList := by
  cases className? with
  | none => rfl
  | some s =>
    unfold chosenClass givenClass
    rw [Option.map_some]
    cases hblank : Text.isBlankOnly s.toList with
    | true =>
      rw [Text.trim_eq_nil_iff.2 hblank, Option.filter_some_neg (by rw [hblank]; decide)]
      rfl
    | false =>
      have hseen : Text.trim s.toList ≠ [] := by
        rw [Ne, Text.trim_eq_nil_iff, hblank]
        exact Bool.false_ne_true
      obtain ⟨c, r, hcons⟩ := List.exists_cons_of_ne_nil hseen
      rw [Option.filter_some_pos (by rw [hblank]; rfl), Option.getD_some, hcons]

/-! ## The report -/

/-- The messages that a name, in any case, appears more than once. -/
def duplicateMessages (m : Manifest) (className? : Option String) (name : String) : List String :=
  (m.validate className?).errorMessages.filter fun message =>
    m.tables.any fun t => sameName name t.name && message == (Problem.duplicateTable t.name).message

/-- The names that come twice are all found by the scan of the tables. -/
theorem countP_errors (m : Manifest) (className? : Option String) (name : String) :
    (m.validate className?).errors.countP (Problem.isDuplicateOf name) =
      (nameProblems [] m.tables).countP (Problem.isDuplicateOf name) := by
  have hclass : (classProblems m className?).countP (Problem.isDuplicateOf name) = 0 := by
    unfold classProblems
    cases m.resolveClass className? <;> rfl
  have hprefix : (if m.defaultPrefix.isEmpty then [Problem.emptyPrefix] else []).countP
      (Problem.isDuplicateOf name) = 0 := by
    cases m.defaultPrefix.isEmpty <;> rfl
  unfold validate
  rw [List.countP_append, List.countP_append, hclass, hprefix, Nat.zero_add]

/-- A name that the check reports is that of a table. -/
theorem exists_table_of_mem_errors {m : Manifest} {className? : Option String} {name : String}
    (h : .duplicateTable name ∈ (m.validate className?).errors) : ∃ t ∈ m.tables, t.name = name := by
  unfold validate at h
  rcases List.mem_append.1 h with h | h
  · rcases List.mem_append.1 h with h | h
    · unfold classProblems at h
      cases hclass : m.resolveClass className? with
      | ok _ =>
        rw [hclass] at h
        cases h
      | error fault =>
        rw [hclass] at h
        cases List.mem_singleton.1 h
    · cases hnone : m.defaultPrefix.isEmpty with
      | true =>
        rw [hnone] at h
        cases List.mem_singleton.1 h
      | false =>
        rw [hnone] at h
        cases h
  · exact exists_table_of_duplicateTable h

/-- The messages are counted as the findings are. -/
theorem length_duplicateMessages (m : Manifest) (className? : Option String) (name : String) :
    (m.duplicateMessages className? name).length =
      (m.validate className?).errors.countP (Problem.isDuplicateOf name) := by
  unfold duplicateMessages Report.errorMessages
  rw [← List.countP_eq_length_filter, List.countP_map]
  refine List.countP_congr fun p hp => ?_
  constructor
  · intro h
    obtain ⟨t, -, ht⟩ := List.any_eq_true.1 h
    obtain ⟨hsame, hmessage⟩ := (Bool.and_eq_true_iff ..).1 ht
    obtain rfl := Problem.message_eq_duplicateTable_iff.1 (eq_of_beq hmessage)
    exact hsame
  · intro h
    cases p with
    | className | emptyPrefix | blankTableName => cases h
    | duplicateTable other =>
      obtain ⟨t, ht, rfl⟩ := exists_table_of_mem_errors hp
      have hsame : sameName name t.name = true := h
      exact List.any_eq_true.2 ⟨t, ht, by rw [hsame, Bool.true_and]; exact beq_self_eq_true _⟩

/-- A manifest is without errors exactly when its class has a legal name, its prefix is not empty,
and the names of its tables can be seen and told apart without case; and of the tables that bear one
name each but one is reported. -/
theorem errors_exact (m : Manifest) (className? : Option String) :
    ((m.validate className?).errorMessages = [] ↔
      Php.isName (Text.trim (m.givenClass className?).toList) = true ∧
        m.defaultPrefix ≠ "" ∧
        (∀ t ∈ m.tables, isNamed t = true) ∧
        m.tables.Pairwise fun a b =>
          isNamed a = true → isNamed b = true → sameName a.name b.name = false) ∧
      ∀ name, (m.duplicateMessages className? name).length =
        m.tables.countP (bearsName name) - 1 := by
  constructor
  · have herrors : (m.validate className?).errors = [] ↔
        m.IsCompilable className? ∧ NamesFit m.tables := by
      rw [← not_iff_not, not_and_or]
      exact validate_errors_iff m className?
    have hprefix : m.defaultPrefix.isEmpty = false ↔ m.defaultPrefix ≠ "" := by
      rw [← Bool.not_eq_true, String.isEmpty_iff]
    unfold Report.errorMessages
    rw [List.map_eq_nil_iff, herrors, IsCompilable, m.resolveClass_eq_ok_iff, chosenClass_eq,
      hprefix, and_assoc]
    refine and_congr_right fun _ => and_congr_right fun _ => ⟨fun fit => ?_, fun h => ?_⟩
    · exact ⟨fit.named, fit.distinct.imp fun h _ _ => h⟩
    · obtain ⟨hnamed, hdistinct⟩ := h
      exact ⟨hnamed, hdistinct.imp_of_mem fun ha hb h => h (hnamed _ ha) (hnamed _ hb)⟩
  · intro name
    rw [length_duplicateMessages, countP_errors, countP_nameProblems]
    rfl

end SchemaInstaller.Manifest
