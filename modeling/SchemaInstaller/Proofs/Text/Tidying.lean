import Mathlib.Data.List.TakeWhile
import Mathlib.Logic.Function.Iterate
import Mathlib.Tactic.Common
import SchemaInstaller.Proofs.Text.Letters
import SchemaInstaller.Text.Substitution

/-!
# Tidied texts

A text is tidied by leaving characters out and by turning characters into capitals and spaces
(`Tidies`). Tidying never adds a byte (`Tidies.byteLength_le`), and a text that it changes loses bulk
(`Tidies.eq_or_bulk_lt`), where capitals and spaces weigh one and all else two. Length alone would
not do: a small letter made a capital is as long as before.

So a pass that tidies whatever it is given comes to rest, after no more passes than the text has bulk
(`settles_iterate`), and a text that comes back at the end of a chain of tidyings was never changed
(`Tidies.antisymm`).
-/

namespace SchemaInstaller.Text

/-! ## Tidying -/

/-- A character that can be the result of tidying: a capital or a space. -/
def isTidy (c : Char) : Bool := c.isUpper || c == ' '

/-- The second text is the first with some characters left out and some made capitals or spaces. -/
inductive Tidies : Text → Text → Prop
  | nil : Tidies [] []
  | keep (c : Char) {t u : Text} (h : Tidies t u) : Tidies (c :: t) (c :: u)
  | drop (c : Char) {t u : Text} (h : Tidies t u) : Tidies (c :: t) u
  | turn {c d : Char} {t u : Text} (hc : isTidy c = false) (hd : isTidy d = true)
      (h : Tidies t u) : Tidies (c :: t) (d :: u)

namespace Tidies

variable {t u v w : Text}

@[refl] theorem refl (t : Text) : Tidies t t := by
  induction t with
  | nil => exact nil
  | cons c r ih => exact ih.keep c

/-- Everything may be left out. -/
theorem to_nil (t : Text) : Tidies t [] := by
  induction t with
  | nil => exact nil
  | cons c r ih => exact ih.drop c

theorem append (h : Tidies t u) (k : Tidies v w) : Tidies (t ++ v) (u ++ w) := by
  induction h with
  | nil => exact k
  | keep c _ ih => exact ih.keep c
  | drop c _ ih => exact ih.drop c
  | turn hc hd _ ih => exact ih.turn hc hd

theorem of_sublist (h : u.Sublist t) : Tidies t u := by
  induction h with
  | slnil => exact nil
  | cons c _ ih => exact ih.drop c
  | cons_cons c _ ih => exact ih.keep c

theorem trans (h : Tidies t u) (k : Tidies u v) : Tidies t v := by
  induction h generalizing v with
  | nil => exact k
  | keep c _ ih =>
    cases k with
    | keep _ k => exact (ih k).keep c
    | drop _ k => exact (ih k).drop c
    | turn hc hd k => exact (ih k).turn hc hd
  | drop c _ ih => exact (ih k).drop c
  | turn hc hd _ ih =>
    cases k with
    | keep _ k => exact (ih k).turn hc hd
    | drop _ k => exact (ih k).drop _
    | turn hd' _ k =>
      -- what tidying has made is not turned again
      rw [hd] at hd'
      cases hd'

end Tidies

/-! ## Bulk and bytes -/

/-- One for each capital and space, two for every other character. -/
def bulk : Text → Nat
  | [] => 0
  | c :: r => (if isTidy c then 1 else 2) + bulk r

theorem bulk_append (t u : Text) : bulk (t ++ u) = bulk t + bulk u := by
  induction t with
  | nil => exact (Nat.zero_add _).symm
  | cons c r ih => rw [List.cons_append, bulk, ih, bulk, Nat.add_assoc]

theorem bulk_le (t : Text) : bulk t ≤ 2 * t.length := by
  induction t with
  | nil => exact Nat.le_refl 0
  | cons c r ih =>
    rw [bulk, List.length_cons]
    split <;> omega

theorem byteLength_cons (c : Char) (t : Text) :
    byteLength (c :: t) = c.utf8Size + byteLength t := by
  have hfrom : ∀ (t : Text) (n : Nat),
      t.foldl (fun n c => n + c.utf8Size) n = n + t.foldl (fun n c => n + c.utf8Size) 0 := by
    intro t
    induction t with
    | nil => intro n; rfl
    | cons c r ih =>
      intro n
      rw [List.foldl_cons, List.foldl_cons, ih, ih (0 + c.utf8Size)]
      omega
  unfold byteLength
  rw [List.foldl_cons, hfrom, Nat.zero_add]

theorem utf8Size_of_isTidy {c : Char} (h : isTidy c = true) : c.utf8Size = 1 := by
  rcases Bool.or_eq_true_iff.1 h with h | h
  · have hZ : c.val.toNat ≤ 90 := (isUpper_iff.1 h).2
    have hascii : c.val ≤ 0x7F := show c.val.toNat ≤ 127 by omega
    unfold Char.utf8Size
    exact if_pos hascii
  · rw [eq_of_beq h]
    rfl

namespace Tidies

variable {t u v w : Text}

/-- Tidying never adds a byte. -/
theorem byteLength_le (h : Tidies t u) : byteLength u ≤ byteLength t := by
  induction h with
  | nil => exact Nat.le_refl _
  | keep c _ ih => rw [byteLength_cons, byteLength_cons]; omega
  | drop c _ ih => rw [byteLength_cons]; omega
  | @turn c d _ _ _ hd _ ih =>
    have := c.utf8Size_pos
    rw [byteLength_cons, byteLength_cons, utf8Size_of_isTidy hd]
    omega

/-- A text that tidying changes loses bulk. -/
theorem eq_or_bulk_lt (h : Tidies t u) : u = t ∨ bulk u < bulk t := by
  induction h with
  | nil => exact Or.inl rfl
  | keep c _ ih =>
    rcases ih with rfl | hlt
    · exact Or.inl rfl
    · exact Or.inr (Nat.add_lt_add_left hlt _)
  | @drop c t u _ ih =>
    right
    rw [bulk]
    rcases ih with rfl | hlt <;> split <;> omega
  | @turn c d t u hc hd _ ih =>
    right
    rw [bulk, bulk, hc, hd]
    rcases ih with rfl | hlt
    · exact Nat.add_lt_add_right (by decide) _
    · simp only [if_true, Bool.false_eq_true, if_false]
      omega

theorem bulk_le (h : Tidies t u) : bulk u ≤ bulk t := by
  rcases h.eq_or_bulk_lt with rfl | hlt <;> omega

theorem eq_of_bulk_le (h : Tidies t u) (hle : bulk t ≤ bulk u) : u = t :=
  h.eq_or_bulk_lt.resolve_right (by omega)

theorem antisymm (h : Tidies t u) (k : Tidies u t) : u = t := h.eq_of_bulk_le k.bulk_le

/-- Where the whole is unchanged, so are its parts. -/
theorem append_inj (h : Tidies t u) (k : Tidies v w) (heq : u ++ w = t ++ v) : u = t ∧ w = v := by
  have hbulk := congrArg bulk heq
  rw [bulk_append, bulk_append] at hbulk
  have hu := h.bulk_le
  have hw := k.bulk_le
  exact ⟨h.eq_of_bulk_le (by omega), k.eq_of_bulk_le (by omega)⟩

end Tidies

/-! ## Trimming -/

theorem trimStart_sublist (t : Text) : t.trimStart.Sublist t := List.dropWhile_sublist _

theorem trim_sublist (t : Text) : t.trim.Sublist t := by
  have hend : t.trimStart.trimEnd.Sublist t.trimStart := by
    have h := List.dropWhile_sublist (l := t.trimStart.reverse) isBlank
    simpa [trimEnd] using h.reverse
  exact hend.trans t.trimStart_sublist

theorem tidies_trim (t : Text) : Tidies t t.trim := Tidies.of_sublist t.trim_sublist

/-- Nothing is left of a text that is blank, and something of every other one. -/
theorem trim_eq_nil_iff {t : Text} : t.trim = [] ↔ t.isBlankOnly = true := by
  unfold trim trimEnd trimStart isBlankOnly
  rw [List.reverse_eq_nil_iff, List.dropWhile_eq_nil_iff, List.all_eq_true]
  cases hseen : t.dropWhile isBlank with
  | nil => exact iff_of_true nofun (List.dropWhile_eq_nil_iff.1 hseen)
  | cons c r =>
    have hc : isBlank c = false := by
      have h := List.head?_dropWhile_not isBlank t
      rwa [hseen] at h
    have hmem : c ∈ t := (List.dropWhile_sublist isBlank).subset (hseen ▸ List.mem_cons_self)
    refine iff_of_false (fun h => ?_) (fun h => ?_)
    · exact absurd (h c (List.mem_reverse.2 List.mem_cons_self)) (by rw [hc]; decide)
    · exact absurd (h c hmem) (by rw [hc]; decide)

/-- Blanks at the end go only as far as a character that is none. -/
theorem trimEnd_append {x : Text} {c : Char} (hx : x.getLast? = some c) (hc : isBlank c = false)
    (y : Text) : trimEnd (x ++ y) = x ++ trimEnd y := by
  unfold trimEnd
  have hback : x.reverse.dropWhile isBlank = x.reverse := by
    rw [← List.head?_reverse] at hx
    cases hr : x.reverse with
    | nil => rfl
    | cons d r =>
      rw [hr] at hx
      cases hx
      exact List.dropWhile_cons_of_neg (by rw [hc]; exact Bool.false_ne_true)
  rw [List.reverse_append, List.dropWhile_append]
  split
  · rename_i hnil
    rw [hback, List.isEmpty_iff.1 hnil, List.reverse_reverse]
    exact (List.append_nil x).symm
  · rw [List.reverse_append, List.reverse_reverse]

/-! ## Steps one after another -/

section Steps

variable {steps : List (Text → Text)} (hsteps : ∀ f ∈ steps, ∀ t, Tidies t (f t))
include hsteps

theorem tidies_foldl (t : Text) : Tidies t (steps.foldl (fun u f => f u) t) := by
  induction steps generalizing t with
  | nil => exact Tidies.refl t
  | cons f fs ih =>
    have hfs := ih (fun g hg => hsteps g (List.mem_cons_of_mem f hg)) (f t)
    exact (hsteps f List.mem_cons_self t).trans hfs

/-- Where all steps together change nothing, no step does. -/
theorem eq_of_foldl_eq {t : Text} (h : steps.foldl (fun u f => f u) t = t) :
    ∀ f ∈ steps, f t = t := by
  induction steps with
  | nil => nofun
  | cons f fs ih =>
    have hrest : ∀ g ∈ fs, ∀ u, Tidies u (g u) := fun g hg => hsteps g (List.mem_cons_of_mem f hg)
    have hback := tidies_foldl hrest (f t)
    rw [List.foldl_cons] at h
    rw [h] at hback
    have hf : f t = t := (hsteps f List.mem_cons_self t).antisymm hback
    rw [hf] at h
    intro g hg
    rcases List.mem_cons.1 hg with rfl | hg
    · exact hf
    · exact ih hrest h g hg

end Steps

/-! ## Settling -/

/-- A pass repeated until it changes nothing ends with `r` after `n` passes that change something. No
bound is put on their number. -/
inductive Settles (pass : Text → Text) : Nat → Text → Text → Prop
  | rest {t : Text} (h : pass t = t) : Settles pass 0 t t
  | step {n : Nat} {t r : Text} (h : pass t ≠ t) (k : Settles pass n (pass t) r) :
      Settles pass (n + 1) t r

/-- What a pass settles on it does not change. -/
theorem Settles.pass_eq {pass : Text → Text} {n : Nat} {t r : Text} (h : Settles pass n t r) :
    pass r = r := by
  induction h with
  | rest h => exact h
  | step _ _ ih => exact ih

theorem Settles.eq_iterate {pass : Text → Text} {n : Nat} {t r : Text} (h : Settles pass n t r) :
    r = pass^[n] t := by
  induction h with
  | rest _ => rfl
  | step _ _ ih => exact ih

/-- What every step keeps, a whole run keeps. -/
theorem Settles.induct {pass : Text → Text} {p : Text → Prop} (hstep : ∀ t, p t → p (pass t))
    {n : Nat} {t r : Text} (h : Settles pass n t r) (ht : p t) : p r := by
  induction h with
  | rest _ => exact ht
  | step _ _ ih => exact ih (hstep _ ht)

section Passes

variable {pass : Text → Text} (hpass : ∀ t, Tidies t (pass t))
include hpass

theorem Settles.tidies {n : Nat} {t r : Text} (h : Settles pass n t r) : Tidies t r :=
  h.induct (fun u hu => hu.trans (hpass u)) (Tidies.refl t)

/-- Repeating a pass that tidies as often as the text has bulk, and once more, settles it. -/
theorem settles_iterate {fuel : Nat} {t : Text} (h : bulk t ≤ fuel) :
    ∃ n ≤ fuel, Settles pass n t (iterate pass (fuel + 1) t) := by
  induction fuel generalizing t with
  | zero =>
    have hrest : pass t = t := (hpass t).eq_of_bulk_le (by omega)
    refine ⟨0, Nat.le_refl 0, ?_⟩
    unfold iterate
    rw [if_pos hrest]
    exact .rest hrest
  | succ fuel ih =>
    unfold iterate
    by_cases hrest : pass t = t
    · rw [if_pos hrest]
      exact ⟨0, Nat.zero_le _, .rest hrest⟩
    · rw [if_neg hrest]
      have hlt := (hpass t).eq_or_bulk_lt.resolve_left hrest
      obtain ⟨n, hn, hsettles⟩ := ih (t := pass t) (by omega)
      exact ⟨n + 1, by omega, .step hrest hsettles⟩

end Passes

end SchemaInstaller.Text
