import SchemaInstaller.Text.Classes

/-!
# Letters and lower case

The classes of ASCII characters are ranges of code points, and capitals are the only characters that
`Char.toLower` changes. The lower case of a text is made piece by piece, where a capital sigma at the
end of a piece depends on what follows. A piece is equally long either way, so what stands behind it
can be read off the lower case of the whole (`append_inj_of_lower`).
-/

namespace SchemaInstaller.Text

/-! ## Ranges -/

theorem isUpper_iff {c : Char} : c.isUpper = true ↔ 65 ≤ c.toNat ∧ c.toNat ≤ 90 :=
  decide_eq_true_iff

theorem isLower_iff {c : Char} : c.isLower = true ↔ 97 ≤ c.toNat ∧ c.toNat ≤ 122 := by
  show (decide (97 ≤ c.val) && decide (c.val ≤ 122)) = true ↔ _
  rw [Bool.and_eq_true, decide_eq_true_eq, decide_eq_true_eq]
  rfl

theorem isAlphanum_iff {c : Char} : c.isAlphanum = true ↔
    (c.isUpper = true ∨ c.isLower = true) ∨ 48 ≤ c.toNat ∧ c.toNat ≤ 57 := by
  show (c.isUpper || c.isLower || (decide (48 ≤ c.val) && decide (c.val ≤ 57))) = true ↔ _
  rw [Bool.or_eq_true, Bool.or_eq_true, Bool.and_eq_true, decide_eq_true_eq, decide_eq_true_eq]
  rfl

theorem isBlank_of_isAlphanum {c : Char} (h : c.isAlphanum = true) : isBlank c = false := by
  rw [isAlphanum_iff, isUpper_iff, isLower_iff] at h
  simp only [isBlank, Bool.or_eq_false_iff, Bool.and_eq_false_iff, decide_eq_false_iff_not,
    beq_eq_false_iff_ne]
  omega

/-! ## Small letters -/

theorem toNat_toLower_of_isUpper {c : Char} (h : c.isUpper = true) :
    c.toLower.toNat = c.toNat + 32 := by
  have hrange := isUpper_iff.1 h
  unfold Char.toLower
  rw [dif_pos ⟨hrange.1, hrange.2⟩]
  show (c.val + 32).toNat = c.toNat + 32
  rw [UInt32.toNat_add]
  exact Nat.mod_eq_of_lt (show c.toNat + 32 < 4294967296 by omega)

theorem toLower_of_not_isUpper {c : Char} (h : ¬c.isUpper = true) : c.toLower = c := by
  unfold Char.toLower
  exact dif_neg fun hrange => h (isUpper_iff.2 hrange)

/-- A character that is no small letter is the lower case of itself only. -/
theorem eq_of_toLower_eq {c d : Char} (hd : d.isLower = false) (h : c.toLower = d) : c = d := by
  by_cases hupper : c.isUpper = true
  · have hrange := isUpper_iff.1 hupper
    have hcode := toNat_toLower_of_isUpper hupper
    rw [h] at hcode
    have hlower : d.isLower = true := isLower_iff.2 (by omega)
    rw [hlower] at hd
    cases hd
  · rw [toLower_of_not_isUpper hupper] at h
    exact h

/-! ## Lower case piece by piece -/

/-- What the lower case of a text ends with depends on what stands before it, but the length of what
stands before it does not depend on the text. -/
theorem lowerAfter_append (b u w : Text) : ∃ x,
    lowerAfter b (u ++ w) = x ++ lowerAfter (u.reverse ++ b) w ∧
      x.length = (u.flatMap lowerChar).length := by
  induction u generalizing b with
  | nil => exact ⟨[], rfl, rfl⟩
  | cons c r ih =>
    obtain ⟨x, hx, hlen⟩ := ih (c :: b)
    rw [List.cons_append, lowerAfter, hx, List.reverse_cons, List.append_assoc]
    -- a capital sigma has two lower-case forms, and both are one character
    have hsigma : c = '\u03a3' → (lowerChar c).length = 1 := by
      rintro rfl
      decide +kernel
    refine ⟨_, (List.append_assoc _ x _).symm, ?_⟩
    rw [List.length_append, hlen, List.flatMap_cons, List.length_append]
    by_cases hc : c = '\u03a3'
    · rw [hsigma hc]
      simp only [hc, beq_self_eq_true, if_true]
      split <;> rfl
    · simp only [beq_iff_eq, hc, if_false]

/-- A text of ASCII characters without capitals. -/
def IsSmall (w : Text) : Prop := ∀ c ∈ w, c.toNat < 128 ∧ ¬c.isUpper = true

/-- Such a text is its own lower case, whatever stands before it. -/
theorem IsSmall.lowerAfter_eq {w : Text} (h : IsSmall w) (b : Text) : lowerAfter b w = w := by
  induction w generalizing b with
  | nil => rfl
  | cons c r ih =>
    obtain ⟨hascii, hupper⟩ := h c List.mem_cons_self
    have hsigma : c ≠ '\u03a3' := by
      rintro rfl
      exact absurd hascii (by decide)
    have hchar : lowerChar c = [c] := by
      unfold lowerChar
      rw [if_pos hascii, toLower_of_not_isUpper hupper]
    rw [lowerAfter, ih fun d hd => h d (List.mem_cons_of_mem c hd)]
    simp only [beq_iff_eq, hsigma, if_false, hchar]
    rfl

/-- Two such texts behind the same one differ in lower case if they differ. -/
theorem append_inj_of_lower {u w w' : Text} (hw : IsSmall w) (hw' : IsSmall w')
    (h : lower (u ++ w) = lower (u ++ w')) : w = w' := by
  unfold lower at h
  obtain ⟨x, hx, hlen⟩ := lowerAfter_append [] u w
  obtain ⟨y, hy, hlen'⟩ := lowerAfter_append [] u w'
  rw [hx, hy, hw.lowerAfter_eq, hw'.lowerAfter_eq] at h
  exact (List.append_inj h (hlen.trans hlen'.symm)).2

end SchemaInstaller.Text
