import SchemaInstaller.Proofs.Installer.SeedRows

/-!
# What captured values mean

The text that a catalog gives for a column becomes a value, and the value becomes a literal. A
server reads from the literal the text itself or, where the text is an integer, the same integer
(`KeepsMeaning`). The range that integers are read in does not matter for this: beyond it the text
stays a text. Truth values are the exception, since every text but a zero becomes a one there
(`captured_keepsMeaning_iff`).
-/

namespace SchemaInstaller

open Sql Text

/-! ## Integers -/

/-- Decimal digits, at least one of them. -/
structure IsDecimal (t : Text) : Prop where
  ne_nil : t ≠ []
  isDigit : ∀ c ∈ t, c.isDigit = true

/-- A text that is an integer, of any size: decimal digits, with a sign in front of them or not. -/
inductive Spells : Text → Int → Prop
  | unsigned {t : Text} (h : IsDecimal t) : Spells t (Nat.ofDigitChars 10 t 0)
  | plus {t : Text} (h : IsDecimal t) : Spells ('+' :: t) (Nat.ofDigitChars 10 t 0)
  | minus {t : Text} (h : IsDecimal t) : Spells ('-' :: t) (-Nat.ofDigitChars 10 t 0)

/-- A text is one integer at most. -/
theorem Spells.unique {t : Text} {m n : Int} (h : Spells t m) (h' : Spells t n) : m = n := by
  have hsign : ∀ {c : Char} {r : Text}, IsDecimal (c :: r) → c ≠ '+' ∧ c ≠ '-' := by
    intro c r hc
    have hdigit := hc.isDigit c List.mem_cons_self
    constructor <;> rintro rfl <;> cases hdigit
  cases h with
  | unsigned h =>
    cases h' with
    | unsigned => rfl
    | plus => exact absurd rfl (hsign h).1
    | minus => exact absurd rfl (hsign h).2
  | plus h =>
    cases h' with
    | unsigned h' => exact absurd rfl (hsign h').1
    | plus => rfl
  | minus h =>
    cases h' with
    | unsigned h' => exact absurd rfl (hsign h').2
    | minus => rfl

namespace Number

theorem eq_of_natural? {t : Text} {n : Nat} (h : natural? t = some n) :
    IsDecimal t ∧ n = Nat.ofDigitChars 10 t 0 := by
  unfold natural? at h
  split at h
  · next hdigits =>
    simp only [Bool.and_eq_true, Bool.not_eq_true', List.isEmpty_eq_false_iff,
      List.all_eq_true] at hdigits
    cases h
    exact ⟨⟨hdigits.1, hdigits.2⟩, rfl⟩
  · cases h

theorem eq_of_ofInt? {k : Int} {n : Integer} (h : Integer.ofInt? k = some n) : n.val = k := by
  unfold Integer.ofInt? at h
  split at h
  · cases h
    rfl
  · cases h

/-- What is read as an integer in range is that integer. -/
theorem spells_of_readInteger? {t : Text} {n : Integer} (h : readInteger? t = some n) :
    Spells t n.val := by
  obtain ⟨k, hk, hn⟩ := Option.bind_eq_some_iff.1 h
  obtain ⟨hdecimal, rfl⟩ := eq_of_natural? hk
  rw [eq_of_ofInt? hn]
  clear h hk hn
  revert hdecimal
  split
  · exact .minus
  · exact .plus
  · exact .unsigned

theorem isDecimal_toDigits (k : Nat) : IsDecimal (Nat.toDigits 10 k) :=
  ⟨Nat.toDigits_ne_nil, fun _ => Nat.isDigit_of_mem_toDigits (by decide) (by decide)⟩

/-- The text of an integer is that integer. -/
theorem spells_toText (n : Integer) : Spells (integer n).toText n.val := by
  obtain ⟨n, hn⟩ := n
  cases n with
  | ofNat k =>
    have h := Spells.unsigned (isDecimal_toDigits k)
    rw [Nat.ofDigitChars_ten_toDigits] at h
    rw [Json.toText_ofNat]
    exact h
  | negSucc k =>
    have h := Spells.minus (isDecimal_toDigits (k + 1))
    rw [Nat.ofDigitChars_ten_toDigits] at h
    rw [Json.toText_negSucc]
    exact h

end Number

/-! ## Values -/

namespace SeedValue

/-- The first word of the name of a type, in capitals. -/
def typeWord (type : String) : String := String.ofList (upperAscii ((words type.toList).headD []))

theorem ofType_eq (type : String) :
    ColumnClass.ofType type =
      if typeWord type ∈ ["BOOLEAN", "BOOL"] then .truth
      else if typeWord type ∈ ["TINYINT", "SMALLINT", "MEDIUMINT", "INT", "INTEGER", "BIGINT"] then
        .integer
      else if typeWord type ∈ ["FLOAT", "DOUBLE", "REAL"] then .real
      else .text := by
  unfold ColumnClass.ofType
  simp [typeWord, or_assoc]

/-- The text that a server reads is the one that was captured, or both are the same integer. -/
def KeepsMeaning (captured stored : Text) : Prop :=
  stored = captured ∨ ∃ n, Spells (trim captured) n ∧ Spells stored n

variable {type : String}

/-- A truth value is a zero for one text only, and a one for all others. -/
theorem stored_ofCatalog_of_truth (h : typeWord type ∈ ["BOOLEAN", "BOOL"]) (s : String) :
    (ofCatalog type (some s)).stored =
      some (if trim s.toList = ['0'] then ['0'] else ['1']) := by
  have hclass : ColumnClass.ofType type = .truth := by rw [ofType_eq, if_pos h]
  simp only [ofCatalog, hclass]
  by_cases hzero : trim s.toList = ['0']
  · rw [hzero]
    rfl
  · rw [if_neg hzero]
    simp [stored, hzero]

theorem keepsMeaning_of_truth_iff {t : Text} :
    KeepsMeaning t (if trim t = ['0'] then ['0'] else ['1']) ↔
      trim t = ['0'] ∨ Spells (trim t) 1 := by
  have hspells : ∀ c : Char, c.isDigit = true → Spells [c] (Nat.ofDigitChars 10 [c] 0) :=
    fun c hc => .unsigned ⟨List.cons_ne_nil c [], by simpa using hc⟩
  by_cases hzero : trim t = ['0']
  · rw [if_pos hzero]
    refine iff_of_true (Or.inr ⟨0, ?_, hspells '0' rfl⟩) (Or.inl hzero)
    rw [hzero]
    exact hspells '0' rfl
  · rw [if_neg hzero]
    constructor
    · rintro (rfl | ⟨n, hn, hone⟩)
      · exact Or.inr (hspells '1' rfl)
      · rw [hone.unique (hspells '1' rfl)] at hn
        exact Or.inr hn
    · rintro (h | h)
      · exact absurd h hzero
      · exact Or.inr ⟨1, h, hspells '1' rfl⟩

/-- All other types keep the meaning of every text: what cannot be read as an integer stays as it
is. -/
theorem keepsMeaning_of_not_truth (htruth : typeWord type ∉ ["BOOLEAN", "BOOL"])
    (hreal : typeWord type ∉ ["FLOAT", "DOUBLE", "REAL"]) (s : String) :
    ∃ u, (ofCatalog type (some s)).stored = some u ∧ KeepsMeaning s.toList u := by
  have hclass : ColumnClass.ofType type = .integer ∨ ColumnClass.ofType type = .text := by
    rw [ofType_eq, if_neg htruth]
    split_ifs
    · exact Or.inl rfl
    · exact Or.inr rfl
  rcases hclass with hclass | hclass
  · cases hread : Number.readInteger? (trim s.toList) with
    | none =>
      refine ⟨s.toList, ?_, Or.inl rfl⟩
      simp only [ofCatalog, hclass, hread]
      rfl
    | some n =>
      refine ⟨(Number.integer n).toText, ?_, Or.inr ⟨n.val, ?_, Number.spells_toText n⟩⟩
      · simp only [ofCatalog, hclass, hread]
        rfl
      · exact Number.spells_of_readInteger? hread
  · refine ⟨s.toList, ?_, Or.inl rfl⟩
    simp only [ofCatalog, hclass]
    rfl

theorem readValue_toLiteral (v : SeedValue) : readValue v.toLiteral = some (v.stored, []) := by
  have h := readValue_valueText v.stored (r := []) (by simp)
  rw [List.append_nil] at h
  rw [toLiteral_eq]
  exact h

/-- **What is captured keeps its meaning, but for truth values.** A literal is null only where there
was nothing to read, and a server reads the text that was captured, or the same integer, unless the
text of a truth value is neither a zero nor the integer one. -/
theorem captured_keepsMeaning_iff (hreal : typeWord type ∉ ["FLOAT", "DOUBLE", "REAL"]) :
    (∀ text, (ofCatalog type text).toLiteral = "NULL".toList ↔ text = none) ∧
      ∀ s : String,
        (∃ u, readValue (ofCatalog type (some s)).toLiteral = some (some u, []) ∧
          KeepsMeaning s.toList u) ↔
        (typeWord type ∈ ["BOOLEAN", "BOOL"] →
          trim s.toList = ['0'] ∨ Spells (trim s.toList) 1) := by
  have hstored : ∀ s : String, ∃ u, (ofCatalog type (some s)).stored = some u := by
    intro s
    by_cases htruth : typeWord type ∈ ["BOOLEAN", "BOOL"]
    · exact ⟨_, stored_ofCatalog_of_truth htruth s⟩
    · obtain ⟨u, hu, -⟩ := keepsMeaning_of_not_truth htruth hreal s
      exact ⟨u, hu⟩
  constructor
  · intro text
    cases text with
    | none => exact iff_of_true rfl rfl
    | some s =>
      obtain ⟨u, hu⟩ := hstored s
      refine iff_of_false (fun h => ?_) (Option.some_ne_none s)
      rw [toLiteral_eq, hu] at h
      cases h
  · intro s
    simp only [readValue_toLiteral]
    by_cases htruth : typeWord type ∈ ["BOOLEAN", "BOOL"]
    · rw [stored_ofCatalog_of_truth htruth]
      simp [htruth, keepsMeaning_of_truth_iff]
    · obtain ⟨u, hu, hkeeps⟩ := keepsMeaning_of_not_truth htruth hreal s
      rw [hu]
      exact iff_of_true ⟨u, rfl, hkeeps⟩ fun h => absurd h htruth

/-- An integer beyond 64 bits stays a text. -/
theorem bigint_keepsMeaning :
    ∃ u, readValue (ofCatalog "bigint unsigned" (some " 99999999999999999999 ")).toLiteral =
      some (some u, []) ∧ KeepsMeaning " 99999999999999999999 ".toList u :=
  ((captured_keepsMeaning_iff (by decide)).2 _).2 fun h => absurd h (by decide)

/-- A two in a column of truth values comes back as a one. -/
theorem truth_two_changed :
    ¬∃ u, readValue (ofCatalog "BOOLEAN" (some "2")).toLiteral = some (some u, []) ∧
      KeepsMeaning "2".toList u := by
  have htrim : trim "2".toList = ['2'] := by decide
  have htwo : Spells ['2'] 2 := .unsigned ⟨by decide, List.all_eq_true.1 rfl⟩
  rintro ⟨u, hu, hkeeps⟩
  rw [readValue_toLiteral, stored_ofCatalog_of_truth (by decide)] at hu
  cases hu
  rw [keepsMeaning_of_truth_iff, htrim] at hkeeps
  rcases hkeeps with hzero | hone
  · exact absurd hzero (by decide)
  · exact absurd (hone.unique htwo) (by decide)

end SeedValue

end SchemaInstaller
