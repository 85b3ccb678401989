import Mathlib.Data.List.Infix
import SchemaInstaller.Proofs.Text.Replacement

/-!
# Where a word stands after a substitution

What a scan takes nothing of stays in front of the rest (`substitute_append`). A word in what a
substitution gives was there before, or starts in a text that was put there, or starts in front of
one and reaches into it (`arises_of_isInfix`); these are the ways for a text that was looked for to
come back once all copies of it are gone.

A text in which copies of one text are replaced stays as it is just if there are none, or if the
other text is the same (`replace_eq_self_iff`): a copy less makes a difference in length, which none
of the other copies can undo.
-/

namespace SchemaInstaller

open Text

/-- In front of `b` the scan takes no part that starts in `v`. -/
def Scan.Keeps (s : Scan) (v b : Text) : Prop := ∀ x y, v = x ++ y → y ≠ [] → s (y ++ b) = none

namespace Scan

variable {s : Scan} {v w b : Text}

theorem Keeps.nil (s : Scan) (b : Text) : s.Keeps [] b :=
  fun _ _ h hy => absurd (List.append_eq_nil_iff.1 h.symm).2 hy

theorem keeps_cons {c : Char} : s.Keeps (c :: v) b ↔ s (c :: (v ++ b)) = none ∧ s.Keeps v b := by
  constructor
  · intro h
    refine ⟨h [] (c :: v) rfl (List.cons_ne_nil c v), fun x y hv hy => h (c :: x) y ?_ hy⟩
    rw [hv, List.cons_append]
  · rintro ⟨hc, hv⟩ x y hsplit hy
    rcases List.append_eq_cons_iff.1 hsplit.symm with ⟨-, rfl⟩ | ⟨x', -, rfl⟩
    · exact hc
    · exact hv x' y rfl hy

theorem Keeps.eq_none (h : s.Keeps v b) (hv : v ≠ []) : s (v ++ b) = none := h [] v rfl hv

theorem keeps_append : s.Keeps (v ++ w) b ↔ s.Keeps v (w ++ b) ∧ s.Keeps w b := by
  induction v with
  | nil => exact (and_iff_right (Keeps.nil s _)).symm
  | cons c v ih => rw [List.cons_append, keeps_cons, keeps_cons, ih, List.append_assoc, and_assoc]

end Scan

namespace Text

open Scan

variable {s : Scan} {new v w b t : Text}

/-- What the scan takes nothing of stays. -/
theorem substitute_append (h : s.Keeps v b) :
    substitute (s.rule new) (v ++ b) = v ++ b.substitute (s.rule new) := by
  induction v with
  | nil => rfl
  | cons c v ih =>
    obtain ⟨hc, hv⟩ := keeps_cons.1 h
    rw [List.cons_append, substitute_of_none hc, ih hv, List.cons_append]

/-! ## Words -/

/-- How a word comes to stand in what a substitution gives. -/
inductive Arises (s : Scan) (new w t : Text) : Prop
  /-- It was there before, and nothing that starts in it gave way. -/
  | kept {b : Text} (ht : w ++ b <:+ t) (hkeeps : s.Keeps w b)
  /-- It starts in a text that was put there. -/
  | inside {y r : Text} (hy : y ≠ []) (hnew : y <:+ new) (hw : w <+: y ++ r)
  /-- A first part of it was there before, and the rest begins like the text that was put there. -/
  | reaching {v u b r : Text} (hsplit : w = v ++ u) (hu : u ≠ []) (ht : v ++ b <:+ t)
    (hkeeps : s.Keeps v b) (hfound : s b = some r) (hrest : u <+: new ++ r.substitute (s.rule new))

theorem Arises.of_suffix {r : Text} (h : Arises s new w r) (hr : r <:+ t) : Arises s new w t := by
  cases h with
  | kept ht hkeeps => exact .kept (ht.trans hr) hkeeps
  | inside hy hnew hw => exact .inside hy hnew hw
  | reaching hsplit hu ht hkeeps hfound hrest =>
    exact .reaching hsplit hu (ht.trans hr) hkeeps hfound hrest

/-- The start of what a substitution gives: what was there up to the end of the word, or up to
something that gave way before. -/
theorem prefix_substitute_cases (hs : s.Takes) (h : w <+: t.substitute (s.rule new)) :
    (∃ b, t = w ++ b ∧ s.Keeps w b) ∨
      ∃ v u b r, w = v ++ u ∧ u ≠ [] ∧ t = v ++ b ∧ s.Keeps v b ∧ s b = some r ∧
        u <+: new ++ r.substitute (s.rule new) := by
  rcases eq_or_ne w [] with rfl | hw
  · exact Or.inl ⟨t, rfl, Keeps.nil s t⟩
  induction t using hs.induction generalizing w with
  | nil => exact absurd (List.prefix_nil.1 h) hw
  | found t r hscan _ =>
    rw [substitute_of_some hs hscan] at h
    exact Or.inr ⟨[], w, t, r, rfl, hw, rfl, Keeps.nil s t, hscan, h⟩
  | skip c r hscan ih =>
    rw [substitute_of_none hscan] at h
    obtain ⟨d, w, rfl⟩ := List.exists_cons_of_ne_nil hw
    obtain ⟨rfl, hrest⟩ := List.cons_prefix_cons.1 h
    rcases eq_or_ne w [] with rfl | hne
    · exact Or.inl ⟨r, rfl, keeps_cons.2 ⟨hscan, Keeps.nil s r⟩⟩
    · rcases ih hrest hne with ⟨b, rfl, hkeeps⟩ | ⟨v, u, b, a, rfl, hu, rfl, hkeeps, hrest⟩
      · exact Or.inl ⟨b, rfl, keeps_cons.2 ⟨hscan, hkeeps⟩⟩
      · exact Or.inr ⟨d :: v, u, b, a, rfl, hu, rfl, keeps_cons.2 ⟨hscan, hkeeps⟩, hrest⟩

theorem arises_of_isPrefix (hs : s.Takes) (h : w <+: t.substitute (s.rule new)) :
    Arises s new w t := by
  rcases prefix_substitute_cases hs h with
    ⟨b, rfl, hkeeps⟩ | ⟨v, u, b, r, hsplit, hu, rfl, hkeeps, hfound, hrest⟩
  · exact .kept (List.suffix_refl _) hkeeps
  · exact .reaching hsplit hu (List.suffix_refl _) hkeeps hfound hrest

/-- There are no other ways for a word to come into what a substitution gives. -/
theorem arises_of_isInfix (hs : s.Takes) (hw : w ≠ []) (h : w <:+: t.substitute (s.rule new)) :
    Arises s new w t := by
  induction t using hs.induction with
  | nil => exact absurd (List.infix_nil.1 h) hw
  | found t r hscan ih =>
    obtain ⟨x, -, rfl⟩ := hs t r hscan
    rw [substitute_of_some hs hscan] at h
    obtain ⟨u, hprefix, hsuffix⟩ := List.infix_iff_prefix_suffix.1 h
    obtain ⟨a, ha⟩ := hsuffix
    rcases List.append_eq_append_iff.1 ha with ⟨y, hnew, rfl⟩ | ⟨z, -, hz⟩
    · rcases eq_or_ne y [] with rfl | hy
      · exact (ih hprefix.isInfix).of_suffix (List.suffix_append x r)
      · exact .inside hy ⟨a, hnew.symm⟩ hprefix
    · have hin : w <:+: r.substitute (s.rule new) :=
        hprefix.isInfix.trans (hz ▸ (List.suffix_append z u).isInfix)
      exact (ih hin).of_suffix (List.suffix_append x r)
  | skip c r hscan ih =>
    have hcons : substitute (s.rule new) (c :: r) = c :: substitute (s.rule new) r :=
      substitute_of_none hscan
    rw [hcons] at h
    rcases List.infix_cons_iff.1 h with hprefix | hin
    · exact arises_of_isPrefix hs (hcons ▸ hprefix)
    · exact (ih hin).of_suffix (List.suffix_cons c r)

/-! ## Copies of one text -/

variable {old : Text}

/-- The first copy in a text. -/
theorem exists_first_copy (ho : old ≠ []) (h : old <:+: t) :
    ∃ v r, t = v ++ (old ++ r) ∧ (literal old).Keeps v (old ++ r) := by
  have hcopies := literal_of old
  induction t using (hcopies.takes ho.symm).induction with
  | nil => exact absurd (List.infix_nil.1 h) ho
  | found t r hscan _ =>
    obtain ⟨w, rfl, rfl⟩ := (hcopies t r).1 hscan
    exact ⟨[], r, rfl, Keeps.nil _ _⟩
  | skip c r hscan ih =>
    rcases List.infix_cons_iff.1 h with hprefix | hin
    · exact absurd hprefix ((eq_none_iff_of hcopies).1 hscan old rfl)
    · obtain ⟨v, b, rfl, hkeeps⟩ := ih hin
      exact ⟨c :: v, b, rfl, keeps_cons.2 ⟨hscan, hkeeps⟩⟩

/-- Each copy that gives way adds the length of the new text and takes away that of the old. -/
theorem exists_length_replace (ho : old ≠ []) (new t : Text) :
    ∃ n, (Text.replace old new t).length + n * old.length = t.length + n * new.length := by
  have hcopies := literal_of old
  have hs := hcopies.takes ho.symm
  show ∃ n, (substitute ((literal old).rule new) t).length + n * old.length = _
  induction t using hs.induction with
  | nil => exact ⟨0, by rw [Nat.zero_mul, Nat.zero_mul]; rfl⟩
  | found t r hscan ih =>
    obtain ⟨w, rfl, rfl⟩ := (hcopies t r).1 hscan
    obtain ⟨n, hn⟩ := ih
    refine ⟨n + 1, ?_⟩
    rw [substitute_of_some hs hscan, List.length_append, List.length_append, Nat.succ_mul,
      Nat.succ_mul]
    omega
  | skip c r hscan ih =>
    obtain ⟨n, hn⟩ := ih
    refine ⟨n, ?_⟩
    rw [substitute_of_none hscan, List.length_cons, List.length_cons]
    omega

/-- A text stays as it is just if it holds no copies, or if they give way to themselves. -/
theorem replace_eq_self_iff (ho : old ≠ []) :
    Text.replace old new t = t ↔ new = old ∨ ¬old <:+: t := by
  have hcopies := literal_of old
  have hs := hcopies.takes ho.symm
  constructor
  · intro h
    by_contra! hnot
    obtain ⟨hne, hin⟩ := hnot
    obtain ⟨v, r, rfl, hkeeps⟩ := exists_first_copy ho hin
    have hfirst : substitute ((literal old).rule new) (v ++ (old ++ r)) =
        v ++ (new ++ Text.replace old new r) := by
      rw [substitute_append hkeeps, substitute_of_some hs (hcopies.eq_some rfl r)]
      rfl
    have hrest : new ++ Text.replace old new r = old ++ r :=
      List.append_cancel_left (hfirst.symm.trans h)
    -- the copies behind the first can only add to the difference that it makes
    obtain ⟨n, hn⟩ := exists_length_replace ho new r
    have hsum := congrArg List.length hrest
    rw [List.length_append, List.length_append] at hsum
    have hmul : (n + 1) * new.length = (n + 1) * old.length := by
      rw [Nat.succ_mul, Nat.succ_mul]
      omega
    exact hne (List.append_inj hrest (Nat.eq_of_mul_eq_mul_left n.succ_pos hmul)).1
  · rintro (rfl | hno)
    · show substitute ((literal new).rule new) t = t
      induction t using hs.induction with
      | nil => rfl
      | found t r hscan ih =>
        obtain ⟨w, rfl, rfl⟩ := (hcopies t r).1 hscan
        rw [substitute_of_some hs hscan, ih]
      | skip c r hscan ih => rw [substitute_of_none hscan, ih]
    · exact substitute_of_forall_not_infix hcopies fun w hw => hw ▸ hno

end Text

end SchemaInstaller
