import Mathlib.Tactic.Common
import SchemaInstaller.Proofs.Php.Fragments
import SchemaInstaller.Proofs.Text.Letters

/-!
# Labels and slugs

PHP reads a label byte by byte and takes every byte beyond ASCII for a letter. On texts in UTF-8 that
comes to the same as looking at their characters (`isLabel_utf8`).

A slug is made of the characters that a label may have and of hyphens. What stands in front is the
first character of the name that is no underscore, in lower case (`head?_slugText`).
-/

namespace SchemaInstaller.Php

/-! ## Labels -/

/-- A byte that a label may start with. -/
def isLabelStart (b : UInt8) : Bool :=
  let n := b.toNat
  (65 ≤ n && n ≤ 90) || (97 ≤ n && n ≤ 122) || n == 95 || 128 ≤ n

/-- A byte that a label may go on with. -/
def isLabelByte (b : UInt8) : Bool := isLabelStart b || (48 ≤ b.toNat && b.toNat ≤ 57)

/-- Whether bytes are a label. -/
def isLabel : List UInt8 → Bool
  | [] => false
  | b :: r => isLabelStart b && r.all isLabelByte

/-- The bytes of a text in UTF-8. -/
def utf8 (t : Text) : List UInt8 := t.flatMap String.utf8EncodeChar

/-- A byte beyond ASCII. -/
def isHigh (b : UInt8) : Bool := 128 ≤ b.toNat

theorem isLabelStart_of_isHigh {b : UInt8} (h : isHigh b = true) : isLabelStart b = true := by
  unfold isLabelStart
  exact (Bool.or_eq_true_iff ..).2 (Or.inr h)

theorem isLabelByte_of_isHigh {b : UInt8} (h : isHigh b = true) : isLabelByte b = true :=
  (Bool.or_eq_true_iff ..).2 (Or.inl (isLabelStart_of_isHigh h))

theorem utf8EncodeChar_of_lt {c : Char} (h : c.toNat < 128) :
    String.utf8EncodeChar c = [UInt8.ofNat c.toNat] := by
  unfold String.utf8EncodeChar
  exact if_pos (Nat.le_of_lt_succ h)

theorem isHigh_ofNat {n : Nat} (h : 128 ≤ n % 256) : isHigh (UInt8.ofNat n) = true := by
  unfold isHigh
  rw [UInt8.toNat_ofNat']
  exact decide_eq_true h

/-- A character beyond ASCII has bytes beyond ASCII only. -/
theorem utf8EncodeChar_of_le {c : Char} (h : 128 ≤ c.toNat) :
    ∃ b r, String.utf8EncodeChar c = b :: r ∧ isHigh b = true ∧ r.all isHigh = true := by
  have hvalue : c.val.toNat = c.toNat := rfl
  unfold String.utf8EncodeChar
  rw [if_neg (by omega)]
  split
  · refine ⟨_, _, rfl, isHigh_ofNat (by omega), ?_⟩
    rw [List.all_cons, isHigh_ofNat (by omega)]
    rfl
  · split
    · refine ⟨_, _, rfl, isHigh_ofNat (by omega), ?_⟩
      rw [List.all_cons, List.all_cons, isHigh_ofNat (by omega), isHigh_ofNat (by omega)]
      rfl
    · refine ⟨_, _, rfl, isHigh_ofNat (by omega), ?_⟩
      rw [List.all_cons, List.all_cons, List.all_cons, isHigh_ofNat (by omega),
        isHigh_ofNat (by omega), isHigh_ofNat (by omega)]
      rfl

theorem isNameStart_eq (c : Char) :
    isNameStart c = (c.isUpper || c.isLower || c == '_' || decide (128 ≤ c.toNat)) := rfl

theorem isLabelStart_ofNat {c : Char} (h : c.toNat < 128) :
    isLabelStart (UInt8.ofNat c.toNat) = isNameStart c := by
  have hunderscore : c = '_' ↔ c.toNat = 95 := Char.toNat_inj.symm
  have hcode : (UInt8.ofNat c.toNat).toNat = c.toNat := by
    rw [UInt8.toNat_ofNat']
    exact Nat.mod_eq_of_lt (by omega)
  rw [Bool.eq_iff_iff]
  simp only [isLabelStart, isNameStart_eq, hcode, Bool.or_eq_true, Bool.and_eq_true,
    decide_eq_true_eq, beq_iff_eq, Text.isUpper_iff, Text.isLower_iff, hunderscore]

theorem isLabelByte_ofNat {c : Char} (h : c.toNat < 128) :
    isLabelByte (UInt8.ofNat c.toNat) = isNameChar c := by
  have hcode : (UInt8.ofNat c.toNat).toNat = c.toNat := by
    rw [UInt8.toNat_ofNat']
    exact Nat.mod_eq_of_lt (by omega)
  unfold isLabelByte isNameChar
  rw [isLabelStart_ofNat h, hcode]
  rfl

/-- The first byte of a character may stand where the character may, and the others behind it. -/
theorem utf8EncodeChar_spec (c : Char) :
    ∃ b r, String.utf8EncodeChar c = b :: r ∧ isLabelStart b = isNameStart c ∧
      isLabelByte b = isNameChar c ∧ r.all isLabelByte = true := by
  by_cases h : c.toNat < 128
  · exact ⟨_, [], utf8EncodeChar_of_lt h, isLabelStart_ofNat h, isLabelByte_ofNat h, rfl⟩
  · obtain ⟨b, r, hbytes, hb, hr⟩ := utf8EncodeChar_of_le (Nat.le_of_not_lt h)
    have hstart : isNameStart c = true :=
      (Bool.or_eq_true_iff ..).2 (Or.inr (decide_eq_true (Nat.le_of_not_lt h)))
    have hchar : isNameChar c = true := (Bool.or_eq_true_iff ..).2 (Or.inl hstart)
    refine ⟨b, r, hbytes, ?_, ?_, ?_⟩
    · rw [isLabelStart_of_isHigh hb, hstart]
    · rw [isLabelByte_of_isHigh hb, hchar]
    · exact List.all_eq_true.2 fun x hx => isLabelByte_of_isHigh (List.all_eq_true.1 hr x hx)

theorem all_isLabelByte_utf8 (t : Text) : (utf8 t).all isLabelByte = t.all isNameChar := by
  induction t with
  | nil => rfl
  | cons c t ih =>
    obtain ⟨b, r, hbytes, -, hb, hr⟩ := utf8EncodeChar_spec c
    unfold utf8 at ih ⊢
    rw [List.flatMap_cons, List.all_append, ih, hbytes, List.all_cons, List.all_cons, hb, hr,
      Bool.and_true]

/-- A text is a label in its bytes iff it is a name in its characters. -/
theorem isLabel_utf8 (t : Text) : isLabel (utf8 t) = isName t := by
  cases t with
  | nil => rfl
  | cons c t =>
    obtain ⟨b, r, hbytes, hb, -, hr⟩ := utf8EncodeChar_spec c
    have hsplit : utf8 (c :: t) = b :: (r ++ utf8 t) := by
      unfold utf8
      rw [List.flatMap_cons, hbytes, List.cons_append]
    rw [hsplit, isLabel, isName, hb, List.all_append, hr, Bool.true_and, all_isLabelByte_utf8]

/-! ## Lower case -/

/-- The lower-case forms in a run beyond ASCII are characters beyond ASCII as well, or the run is one
character whose form is a letter. -/
def isLetterRun : Nat × Nat × Nat × Int → Bool
  | (first, last, _, shift) =>
    last < 128
      || (128 ≤ first + shift && last + shift < 0xD800)
      || (0xE000 ≤ first + shift && last + shift < 0x110000)
      || (first == last && isNameStart (Char.ofNat (Int.toNat (first + shift))))

theorem isLetterRun_lowerRuns : lowerRuns.all isLetterRun = true := by decide

theorem toNat_ofNat {n : Nat} (hvalid : n.isValidChar) : (Char.ofNat n).toNat = n := by
  unfold Char.ofNat
  rw [dif_pos hvalid]
  rfl

theorem isNameStart_ofNat {n : Nat} (hvalid : n.isValidChar) (h : 128 ≤ n) :
    isNameStart (Char.ofNat n) = true := by
  unfold isNameStart
  rw [toNat_ofNat hvalid]
  exact (Bool.or_eq_true_iff ..).2 (Or.inr (decide_eq_true h))

/-- A member of a run goes over into a letter. -/
theorem isNameStart_of_inRun {first last step : Nat} {shift : Int} {c : Char}
    (hrun : isLetterRun (first, last, step, shift) = true) (hc : inRun first last step c = true)
    (h : 128 ≤ c.toNat) : isNameStart (Char.ofNat (Int.toNat (c.toNat + shift))) = true := by
  unfold inRun at hc
  simp only [Bool.and_eq_true, decide_eq_true_eq] at hc
  obtain ⟨⟨hfirst, hlast⟩, -⟩ := hc
  simp only [isLetterRun, Bool.or_eq_true, Bool.and_eq_true, decide_eq_true_eq, beq_iff_eq] at hrun
  rcases hrun with ((hascii | ⟨hlow, hhigh⟩) | ⟨hlow, hhigh⟩) | ⟨hone, hletter⟩
  · omega
  · exact isNameStart_ofNat (Or.inl (by omega)) (by omega)
  · exact isNameStart_ofNat (Or.inr ⟨by omega, by omega⟩) (by omega)
  · have hcode : c.toNat = first := by omega
    rw [hcode]
    exact hletter

/-- The lower-case form of a character that a name may start with is made of such characters. -/
theorem isNameStart_of_mem_lowerChar {c d : Char} (hc : isNameStart c = true)
    (hd : d ∈ lowerChar c) : isNameStart d = true := by
  unfold lowerChar at hd
  split at hd
  · obtain rfl := List.mem_singleton.1 hd
    by_cases hupper : c.isUpper = true
    · have hlower : c.toLower.isLower = true := by
        have hrange := Text.isUpper_iff.1 hupper
        rw [Text.isLower_iff, Text.toNat_toLower_of_isUpper hupper]
        omega
      simp [isNameStart_eq, hlower]
    · rwa [Text.toLower_of_not_isUpper hupper]
  · rename_i hascii
    split at hd
    · have hpair : ['i', '\u0307'].all isNameStart = true := by decide
      exact List.all_eq_true.1 hpair d hd
    · split at hd
      · rename_i first last step shift hfound
        obtain rfl := List.mem_singleton.1 hd
        have hrun := List.all_eq_true.1 isLetterRun_lowerRuns _ (List.mem_of_find?_eq_some hfound)
        have hmember := List.find?_some hfound
        exact isNameStart_of_inRun hrun hmember (Nat.le_of_not_lt hascii)
      · rwa [List.mem_singleton.1 hd]

theorem lowerChar_ne_nil (c : Char) : lowerChar c ≠ [] := by
  unfold lowerChar
  split
  · exact List.cons_ne_nil _ _
  · split
    · exact List.cons_ne_nil _ _
    · split <;> exact List.cons_ne_nil _ _

/-! ## Digits -/

/-- What a name may go on with but not start with is a digit. -/
theorem isNameStart_eq_not_isDigit {c : Char} (h : isNameChar c = true) :
    isNameStart c = !c.isDigit := by
  cases hdigit : c.isDigit with
  | false =>
    unfold isNameChar at h
    rwa [hdigit, Bool.or_false] at h
  | true =>
    have hunderscore : c = '_' ↔ c.toNat = 95 := Char.toNat_inj.symm
    have hrange : 48 ≤ c.toNat ∧ c.toNat ≤ 57 := by
      simpa [Char.isDigit, UInt32.le_iff_toNat_le] using hdigit
    rw [Bool.not_true, ← Bool.not_eq_true]
    simp only [isNameStart_eq, Bool.or_eq_true, decide_eq_true_eq, beq_iff_eq,
      Text.isUpper_iff, Text.isLower_iff, hunderscore]
    omega

theorem isNameStart_of_isUpperCase {c : Char} (h : isUpperCase c = true) :
    isNameStart c = true := by
  unfold isUpperCase at h
  split at h
  · simp [isNameStart_eq, h]
  · rename_i hascii
    exact (Bool.or_eq_true_iff ..).2 (Or.inr (decide_eq_true (Nat.le_of_not_lt hascii)))

theorem isNameChar_of_isNameStart {c : Char} (h : isNameStart c = true) : isNameChar c = true :=
  (Bool.or_eq_true_iff ..).2 (Or.inl h)

/-! ## Slugs -/

/-- What one character of a class name comes to in the slug, hyphens apart. -/
def slugChar (c : Char) : Text :=
  if isUpperCase c then lowerChar c else if c == '_' then [] else [c]

theorem slugPart_eq (first : Bool) (c : Char) :
    slugPart first c = slugChar c ∨ slugPart first c = '-' :: slugChar c := by
  unfold slugPart slugChar
  by_cases hupper : isUpperCase c = true
  · rw [if_pos hupper, if_pos hupper]
    cases first
    · exact Or.inr rfl
    · exact Or.inl rfl
  · rw [if_neg hupper, if_neg hupper]
    exact Or.inl rfl

/-- The characters of a name come to characters of names. -/
theorem isNameChar_of_mem_slugChar {c d : Char} (hc : isNameChar c = true) (hd : d ∈ slugChar c) :
    isNameChar d = true := by
  unfold slugChar at hd
  by_cases hupper : isUpperCase c = true
  · rw [if_pos hupper] at hd
    exact isNameChar_of_isNameStart
      (isNameStart_of_mem_lowerChar (isNameStart_of_isUpperCase hupper) hd)
  · rw [if_neg hupper] at hd
    split at hd
    · cases hd
    · rwa [List.mem_singleton.1 hd]

theorem slugChar_underscore : slugChar '_' = [] := by decide

/-- Every character but an underscore comes to something, which a name may start with if it may
start with the character. -/
theorem slugChar_eq_cons {c : Char} (h : c ≠ '_') :
    ∃ d r, slugChar c = d :: r ∧ isNameStart d = isNameStart c := by
  unfold slugChar
  by_cases hupper : isUpperCase c = true
  · obtain ⟨d, r, hlower⟩ := List.exists_cons_of_ne_nil (lowerChar_ne_nil c)
    have hstart := isNameStart_of_isUpperCase hupper
    have hd : d ∈ lowerChar c := hlower ▸ List.mem_cons_self
    exact ⟨d, r, by rw [if_pos hupper, hlower],
      (isNameStart_of_mem_lowerChar hstart hd).trans hstart.symm⟩
  · exact ⟨c, [], by rw [if_neg hupper, if_neg (by simpa using h)], rfl⟩

/-! ### Hyphens -/

theorem collapseHyphens_sublist (t : Text) : (collapseHyphens t).Sublist t := by
  induction t with
  | nil => exact List.Sublist.slnil
  | cons c r ih =>
    unfold collapseHyphens
    split
    · exact ih.cons c
    · exact ih.cons_cons c

theorem find?_collapseHyphens (t : Text) :
    (collapseHyphens t).find? (· != '-') = t.find? (· != '-') := by
  induction t with
  | nil => rfl
  | cons c r ih =>
    unfold collapseHyphens
    split
    · rename_i hhyphen
      obtain ⟨hc, -⟩ := (Bool.and_eq_true_iff ..).1 hhyphen
      rw [ih, eq_of_beq hc]
      rfl
    · rw [List.find?_cons, List.find?_cons, ih]

theorem trimHyphens_sublist (t : Text) : (trimHyphens t).Sublist t := by
  have hend := (List.dropWhile_sublist (l := (t.dropWhile (· == '-')).reverse) (· == '-')).reverse
  rw [List.reverse_reverse] at hend
  exact hend.trans (List.dropWhile_sublist _)

/-- Hyphens at the end go only as far as a character that is none. -/
theorem head?_trimHyphens (t : Text) : (trimHyphens t).head? = t.find? (· != '-') := by
  induction t with
  | nil => rfl
  | cons c r ih =>
    by_cases hc : c = '-'
    · subst hc
      exact ih
    · have hfront : (c :: r).dropWhile (· == '-') = c :: r :=
        List.dropWhile_cons_of_neg (by simpa using hc)
      have hlast : [c].dropWhile (· == '-') = [c] := List.dropWhile_cons_of_neg (by simpa using hc)
      unfold trimHyphens
      rw [hfront, List.reverse_cons, List.dropWhile_append, hlast, List.find?_cons_of_pos
        (by simpa using hc)]
      split
      · rfl
      · rw [List.reverse_append]
        rfl

/-! ### What a slug is made of -/

theorem find?_slugPart (first : Bool) {c : Char} (hc : isNameChar c = true) :
    (slugPart first c).find? (· != '-') = (slugChar c).head? := by
  have hplain : (slugChar c).find? (· != '-') = (slugChar c).head? := by
    cases hchar : slugChar c with
    | nil => rfl
    | cons d r =>
      have hd : isNameChar d = true := isNameChar_of_mem_slugChar hc (hchar ▸ List.mem_cons_self)
      have hne : d ≠ '-' := ne_of_isNameChar hd (by decide)
      exact List.find?_cons_of_pos (by simpa using hne)
  rcases slugPart_eq first c with hpart | hpart
  · rw [hpart, hplain]
  · rw [hpart, List.find?_cons_of_neg (by decide), hplain]

theorem findSome?_slugChar (t : Text) : t.findSome? (fun c => (slugChar c).head?) =
    (t.find? (· != '_')).bind fun c => (slugChar c).head? := by
  induction t with
  | nil => rfl
  | cons c r ih =>
    by_cases hc : c = '_'
    · subst hc
      rw [List.findSome?_cons, slugChar_underscore, List.find?_cons_of_neg (by decide)]
      exact ih
    · obtain ⟨d, l, hchar, -⟩ := slugChar_eq_cons hc
      rw [List.findSome?_cons, List.find?_cons_of_pos (by simpa using hc), hchar, Option.bind_some,
        hchar]
      rfl

theorem find?_flatMap_slugPart {t : Text} (h : ∀ c ∈ t, isNameChar c = true) :
    (t.flatMap (slugPart false)).find? (· != '-') = t.findSome? fun c => (slugChar c).head? := by
  induction t with
  | nil => rfl
  | cons c r ih =>
    obtain ⟨hc, hr⟩ := List.forall_mem_cons.1 h
    rw [List.flatMap_cons, List.find?_append, find?_slugPart false hc, ih hr, List.findSome?_cons]
    cases (slugChar c).head? <;> rfl

/-- A slug starts with the lower-case form of the first character that is no underscore. -/
theorem head?_slugText {t : Text} (h : ∀ c ∈ t, isNameChar c = true) :
    (slugText t).head? = (t.find? (· != '_')).bind fun c => (slugChar c).head? := by
  rw [← findSome?_slugChar]
  cases t with
  | nil => rfl
  | cons c r =>
    obtain ⟨hc, hr⟩ := List.forall_mem_cons.1 h
    rw [slugText, head?_trimHyphens, find?_collapseHyphens, List.find?_append, find?_slugPart true hc,
      find?_flatMap_slugPart hr, List.findSome?_cons]
    cases (slugChar c).head? <;> rfl

theorem mem_slugText {t : Text} (h : ∀ c ∈ t, isNameChar c = true) {d : Char}
    (hd : d ∈ slugText t) : isNameChar d = true ∨ d = '-' := by
  cases t with
  | nil => cases hd
  | cons c r =>
    obtain ⟨hc, hr⟩ := List.forall_mem_cons.1 h
    have hpart : ∀ {first : Bool} {x : Char}, isNameChar x = true → d ∈ slugPart first x →
        isNameChar d = true ∨ d = '-' := by
      intro first x hx hmem
      rcases slugPart_eq first x with hpart | hpart
      · exact Or.inl (isNameChar_of_mem_slugChar hx (hpart ▸ hmem))
      · rw [hpart] at hmem
        rcases List.mem_cons.1 hmem with hmem | hmem
        · exact Or.inr hmem
        · exact Or.inl (isNameChar_of_mem_slugChar hx hmem)
    have hmem := (trimHyphens_sublist _).subset hd
    rcases List.mem_append.1 ((collapseHyphens_sublist _).subset hmem) with hmem | hmem
    · exact hpart hc hmem
    · obtain ⟨x, hx, hmem⟩ := List.mem_flatMap.1 hmem
      exact hpart (hr x hx) hmem

theorem ne_hyphen_of_head?_slugText {t : Text} {d : Char} (h : (slugText t).head? = some d) :
    d ≠ '-' := by
  cases t with
  | nil => cases h
  | cons c r =>
    rw [slugText, head?_trimHyphens] at h
    simpa using List.find?_some h

/-- A slug starts as a name does unless the first character of the class name that is no underscore
is a digit. -/
theorem all_head?_slugText {t : Text} (h : ∀ c ∈ t, isNameChar c = true) :
    (slugText t).head?.all isNameStart = (t.find? (· != '_')).all (!·.isDigit) := by
  rw [head?_slugText h]
  cases hfind : t.find? (· != '_') with
  | none => rfl
  | some c =>
    have hne : c ≠ '_' := by simpa using List.find?_some hfind
    obtain ⟨d, r, hchar, hd⟩ := slugChar_eq_cons hne
    rw [Option.bind_some, hchar]
    exact hd.trans (isNameStart_eq_not_isDigit (h c (List.mem_of_find?_eq_some hfind)))

end SchemaInstaller.Php
