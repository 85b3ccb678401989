import SchemaInstaller.Number.Basic
import SchemaInstaller.Proofs.Json.Scalars

/-!
# The characters of numbers

The text of a number is made of digits, signs, a point and the mark of an exponent
(`Number.isNumeral_of_mem_toText`), whichever way its digits are placed around the point.
-/

namespace SchemaInstaller

/-- Whether a character can stand in the text of a number. -/
def isNumeral (c : Char) : Bool := c.isDigit || c == '-' || c == '+' || c == '.' || c == 'e'

theorem isNumeral_of_isDigit {c : Char} (h : c.isDigit = true) : isNumeral c = true := by
  unfold isNumeral
  rw [h]
  rfl

namespace Binary64

theorem isNumeral_decimalDigits (n : Nat) : ∀ c ∈ decimalDigits n, isNumeral c = true := by
  intro c hc
  exact isNumeral_of_isDigit (Nat.isDigit_of_mem_toDigits (by decide) (by decide) hc)

theorem isNumeral_zeros (n : Nat) : ∀ c ∈ zeros n, isNumeral c = true := by
  intro c hc
  rw [List.eq_of_mem_replicate hc]
  rfl

theorem isNumeral_shortestDigits (x : Binary64) :
    ∀ c ∈ x.shortestDigits.1, isNumeral c = true := by
  intro c hc
  have hsuffix := List.dropWhile_sublist (· == '0') (l := (decimalDigits
    (x.firstHit 17 x.firstDigitExponent).1).reverse)
  have hmem := hsuffix.subset (List.mem_reverse.1 hc)
  exact isNumeral_decimalDigits _ c (List.mem_reverse.1 hmem)

/-- Wherever the point is placed, nothing but zeros, a point and an exponent is added. -/
theorem isNumeral_placePoint {digits : Text} (h : ∀ c ∈ digits, isNumeral c = true) (e : Int) :
    ∀ c ∈ placePoint digits e, isNumeral c = true := by
  have hpart : ∀ {t : Text}, t.all isNumeral = true → ∀ c ∈ t, isNumeral c = true :=
    fun ht => List.all_eq_true.1 ht
  unfold placePoint
  split
  · have hsign : ∀ c ∈ (if e < 0 then ['-'] else ['+']), isNumeral c = true := by
      split <;> exact hpart rfl
    dsimp only
    refine List.forall_mem_append.2 ⟨List.forall_mem_append.2
      ⟨?_, List.forall_mem_cons.2 ⟨rfl, hsign⟩⟩, isNumeral_decimalDigits e.natAbs⟩
    split
    · exact hpart rfl
    · exact h
    · next d more _ =>
      obtain ⟨hd, hmore⟩ := List.forall_mem_cons.1 h
      exact List.forall_mem_cons.2 ⟨hd, List.forall_mem_cons.2 ⟨rfl, hmore⟩⟩
  · split
    · exact List.forall_mem_append.2
        ⟨List.forall_mem_append.2 ⟨hpart (by decide), isNumeral_zeros _⟩, h⟩
    · dsimp only
      split
      · exact List.forall_mem_append.2
          ⟨List.forall_mem_append.2 ⟨h, isNumeral_zeros _⟩, hpart (by decide)⟩
      · exact List.forall_mem_append.2 ⟨fun c hc => h c (List.mem_of_mem_take hc),
          List.forall_mem_cons.2 ⟨rfl, fun c hc => h c (List.mem_of_mem_drop hc)⟩⟩

theorem isNumeral_of_mem_toText (x : Binary64) : ∀ c ∈ x.toText, isNumeral c = true := by
  have hbody : ∀ c ∈ (if x.isZero then "0.0".toList
      else placePoint x.shortestDigits.1 x.shortestDigits.2), isNumeral c = true := by
    split
    · exact List.all_eq_true.1 (by decide)
    · exact isNumeral_placePoint (isNumeral_shortestDigits x) _
  unfold toText
  dsimp only
  split
  · exact List.forall_mem_cons.2 ⟨rfl, hbody⟩
  · exact hbody

end Binary64

theorem Number.isNumeral_of_mem_toText (n : Number) : ∀ c ∈ n.toText, isNumeral c = true := by
  cases n with
  | real x => exact x.isNumeral_of_mem_toText
  | integer i =>
    obtain ⟨i, hi⟩ := i
    cases i with
    | ofNat k =>
      rw [Json.toText_ofNat]
      exact Binary64.isNumeral_decimalDigits k
    | negSucc k =>
      rw [Json.toText_negSucc]
      exact List.forall_mem_cons.2 ⟨rfl, Binary64.isNumeral_decimalDigits (k + 1)⟩

end SchemaInstaller
