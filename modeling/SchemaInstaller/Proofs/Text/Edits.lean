import Mathlib.Logic.Relation
import SchemaInstaller.Proofs.Text.Scan

/-!
# Edits

A text is edited by leaving a part out, by writing other blanks for blanks, or by writing a header in
capitals where it stands as words of its own (`Edit`). No edit adds a character that can be seen or
changes the order of those there are; an edit that leaves nothing out keeps them all, and it brings
together no word that was not there (`Edit.occurs`). What a sweep of a rule makes of a text is a
chain of edits if each of its replacements is one (`Rule.Edits.substitute`).
-/

namespace SchemaInstaller

open Scan

namespace Text

/-! ## Upper case -/

theorem toNat_toUpper_of_isLower {c : Char} (h : c.isLower = true) :
    c.toUpper.toNat + 32 = c.toNat := by
  have hrange := isLower_iff.1 h
  have hcode : c.toUpper.toNat = (c.val + 4294967264).toNat := by
    unfold Char.toUpper
    rw [dif_pos ⟨hrange.1, hrange.2⟩]
    rfl
  rw [hcode, UInt32.toNat_add]
  show (c.toNat + 4294967264) % 4294967296 + 32 = c.toNat
  omega

theorem toUpper_of_not_isLower {c : Char} (h : ¬c.isLower = true) : c.toUpper = c := by
  unfold Char.toUpper
  exact dif_neg fun hrange => h (isLower_iff.2 hrange)

theorem isUpper_toUpper {c : Char} (h : c.isLower = true) : c.toUpper.isUpper = true := by
  have hrange := isLower_iff.1 h
  have hcode := toNat_toUpper_of_isLower h
  exact isUpper_iff.2 (by omega)

/-- A class that holds all letters or none does not tell a letter from its capital. -/
theorem apply_toUpper {p : Char → Bool} {b : Bool} (hp : ∀ c : Char, c.isAlphanum = true → p c = b)
    (c : Char) : p c.toUpper = p c := by
  by_cases h : c.isLower = true
  · rw [hp c (isAlphanum_iff.2 (.inl (.inr h))),
      hp c.toUpper (isAlphanum_iff.2 (.inl (.inl (isUpper_toUpper h))))]
  · rw [toUpper_of_not_isLower h]

theorem isBlank_toUpper (c : Char) : isBlank c.toUpper = isBlank c :=
  apply_toUpper (fun _ h => isBlank_of_isAlphanum h) c

theorem isWordChar_of_isAlphanum {c : Char} (h : c.isAlphanum = true) : isWordChar c = true := by
  have hascii : c.toNat < 128 := by
    rw [isAlphanum_iff, isUpper_iff, isLower_iff] at h
    omega
  rw [isWordChar, if_pos hascii, h]
  rfl

theorem isWordChar_toUpper (c : Char) : isWordChar c.toUpper = isWordChar c :=
  apply_toUpper (fun _ h => isWordChar_of_isAlphanum h) c

/-- The code points of the blanks. -/
def blankCodes : List Nat :=
  [9, 10, 11, 12, 13, 0x20, 0x85, 0xA0, 0x1680, 0x2000, 0x2001, 0x2002, 0x2003, 0x2004, 0x2005,
    0x2006, 0x2007, 0x2008, 0x2009, 0x200A, 0x2028, 0x2029, 0x202F, 0x205F, 0x3000]

/-- A class of characters that holds no blank. -/
theorem eq_false_of_isBlank {p : Char → Bool} (hall : ∀ n ∈ blankCodes, p (Char.ofNat n) = false)
    {c : Char} (h : isBlank c = true) : p c = false := by
  have hcode := hall c.toNat ?_
  · rw [Char.ofNat_toNat] at hcode
    exact hcode
  · simp only [isBlank, Bool.or_eq_true, Bool.and_eq_true, decide_eq_true_eq, beq_iff_eq] at h
    simp only [blankCodes, List.mem_cons, List.not_mem_nil, or_false]
    omega

/-- No blank is a character of a word. -/
theorem isWordChar_of_isBlank {c : Char} (h : isBlank c = true) : isWordChar c = false :=
  eq_false_of_isBlank (by decide +kernel) h

/-- A letter other than `S` and `K`, which two more characters stand for, in some case. -/
theorem toUpper_of_sameLetter {k c : Char} (hk : k.isUpper = true) (hS : k ≠ 'S') (hK : k ≠ 'K')
    (h : sameLetter k c = true) : c.toUpper = k := by
  have hrange := isUpper_iff.1 hk
  have hn := toNat_toLower_of_isUpper hk
  have hs : k.toLower ≠ 's' := by
    intro hs
    rw [hs] at hn
    exact hS (Char.toNat_inj.1 (Nat.add_right_cancel (m := 32) hn.symm))
  have hkelvin : k.toLower ≠ 'k' := by
    intro hs
    rw [hs] at hn
    exact hK (Char.toNat_inj.1 (Nat.add_right_cancel (m := 32) hn.symm))
  have hlow : k.toLower = c.toLower := by
    simpa [sameLetter, hs, hkelvin] using h
  by_cases hupper : c.isUpper = true
  · have hcode := toNat_toLower_of_isUpper hupper
    rw [← hlow, hn] at hcode
    have heq : c = k := Char.toNat_inj.1 (Nat.add_right_cancel hcode.symm)
    have hlower : ¬k.isLower = true := by
      rw [isLower_iff]
      omega
    rw [heq, toUpper_of_not_isLower hlower]
  · rw [hlow, toLower_of_not_isUpper hupper] at hn
    have hlower : c.isLower = true := by
      rw [isLower_iff, hn]
      omega
    exact Char.toNat_inj.1 (Nat.add_right_cancel ((toNat_toUpper_of_isLower hlower).trans hn))

/-! ## Edits -/

/-- The characters of a text that are not blank. -/
def visible (t : Text) : Text := t.filter (!isBlank ·)

/-- One edit. Parts are left out only where `lossy`, and only the given headers are written. Blanks
are written for blanks, and at either end of the text they may go. -/
inductive Edit (lossy : Bool) (headers : List Text) : Text → Text → Prop
  | leaveOut (h : lossy = true) (a x b : Text) : Edit lossy headers (a ++ (x ++ b)) (a ++ b)
  | respace (a : Text) {x y : Text} (b : Text) (hx : x.isBlankOnly = true) (hne : x ≠ [])
    (hy : y.isBlankOnly = true) (hend : y = [] → a = [] ∨ b = []) :
    Edit lossy headers (a ++ (x ++ b)) (a ++ (y ++ b))
  | capitalize (a : Text) {x : Text} (b : Text) (hx : upperAscii x ∈ headers)
    (ha : wordStart a.getLast? = true) (hb : wordStart b.head? = true) :
    Edit lossy headers (a ++ (x ++ b)) (a ++ (upperAscii x ++ b))

/-- Any number of edits. -/
abbrev Edits (lossy : Bool) (headers : List Text) : Text → Text → Prop :=
  Relation.ReflTransGen (Edit lossy headers)

variable {lossy : Bool} {headers : List Text} {t u w : Text}

theorem Edit.imp {lossy' : Bool} {headers' : List Text} (hlossy : lossy = true → lossy' = true)
    (hheaders : headers ⊆ headers') (h : Edit lossy headers t u) : Edit lossy' headers' t u := by
  cases h with
  | leaveOut h a x b => exact .leaveOut (hlossy h) a x b
  | respace a b hx hne hy hend => exact .respace a b hx hne hy hend
  | capitalize a b hx ha hb => exact .capitalize a b (hheaders hx) ha hb

theorem Edits.imp {lossy' : Bool} {headers' : List Text} (hlossy : lossy = true → lossy' = true)
    (hheaders : headers ⊆ headers') (h : Edits lossy headers t u) : Edits lossy' headers' t u :=
  Relation.ReflTransGen.mono (fun _ _ => Edit.imp hlossy hheaders) t u h

theorem Edits.to_lossy (h : Edits false headers t u) : Edits true headers t u :=
  h.imp (fun _ => rfl) (List.Subset.refl headers)

/-- A text from which characters are left out. -/
theorem edits_of_sublist (h : u.Sublist t) (headers : List Text) (a b : Text) :
    Edits true headers (a ++ (t ++ b)) (a ++ (u ++ b)) := by
  induction h generalizing a with
  | slnil => exact .refl
  | @cons u t c _ ih => exact .head (.leaveOut rfl a [c] (t ++ b)) (ih a)
  | @cons_cons u t c _ ih =>
    have hbehind := ih (a ++ [c])
    rw [List.append_assoc, List.append_assoc] at hbehind
    exact hbehind

/-! ## What can be seen -/

theorem visible_append (t u : Text) : visible (t ++ u) = visible t ++ visible u :=
  List.filter_append t u

theorem visible_of_isBlankOnly (h : t.isBlankOnly = true) : visible t = [] := by
  rw [visible, List.filter_eq_nil_iff]
  intro c hc
  simpa using List.all_eq_true.1 h c hc

theorem visible_upperAscii (t : Text) : visible (upperAscii t) = upperAscii (visible t) := by
  unfold visible upperAscii
  rw [List.filter_map]
  congr 2
  funext c
  exact congrArg not (isBlank_toUpper c)

theorem toUpper_toUpper (c : Char) : c.toUpper.toUpper = c.toUpper := by
  by_cases h : c.isLower = true
  · have hupper := isUpper_iff.1 (isUpper_toUpper h)
    refine toUpper_of_not_isLower ?_
    rw [isLower_iff]
    omega
  · rw [toUpper_of_not_isLower h, toUpper_of_not_isLower h]

theorem upperAscii_append (t u : Text) : upperAscii (t ++ u) = upperAscii t ++ upperAscii u :=
  List.map_append

theorem upperAscii_upperAscii (t : Text) : upperAscii (upperAscii t) = upperAscii t := by
  unfold upperAscii
  rw [List.map_map]
  exact List.map_congr_left fun c _ => toUpper_toUpper c

section Visible

variable {f : Char → Char}
  (hf : ∀ x, upperAscii x ∈ headers → (visible (upperAscii x)).map f = (visible x).map f)
include hf

theorem Edit.map_visible (h : Edit false headers t u) : (visible u).map f = (visible t).map f := by
  cases h with
  | leaveOut h => cases h
  | respace a b hx _ hy _ =>
    simp only [visible_append, visible_of_isBlankOnly hx, visible_of_isBlankOnly hy]
  | capitalize a b hx => simp only [visible_append, List.map_append, hf _ hx]

theorem Edit.map_visible_sublist (h : Edit lossy headers t u) :
    ((visible u).map f).Sublist ((visible t).map f) := by
  cases h with
  | leaveOut _ a x b =>
    rw [visible_append, visible_append, visible_append]
    exact ((List.sublist_append_right _ _).append_left _).map f
  | respace a b hx hne hy hend =>
    exact ((Edit.respace a b hx hne hy hend).map_visible hf).symm ▸ List.Sublist.refl _
  | capitalize a b hx ha hb =>
    exact ((Edit.capitalize a b hx ha hb).map_visible hf).symm ▸ List.Sublist.refl _

theorem Edits.map_visible (h : Edits false headers t u) :
    (visible u).map f = (visible t).map f := by
  induction h with
  | refl => rfl
  | tail _ h ih => exact (h.map_visible hf).trans ih

theorem Edits.map_visible_sublist (h : Edits lossy headers t u) :
    ((visible u).map f).Sublist ((visible t).map f) := by
  induction h with
  | refl => exact List.Sublist.refl _
  | tail _ h ih => exact (h.map_visible_sublist hf).trans ih

end Visible

/-! ## Words that are not there -/

/-- A text in capitals stands in another one in any case, between characters, or ends of the text, of
which `p` holds. -/
def Occurs (p : Option Char → Bool) (w t : Text) : Prop :=
  ∃ a x b, t = a ++ (x ++ b) ∧ upperAscii x = w ∧ p a.getLast? = true ∧ p b.head? = true

/-- A word, given in capitals, in a text. -/
def HoldsWord (w t : Text) : Prop := Occurs wordStart w t

/-- A condition on the characters around a word that the ends of a text and blanks meet, and that
does not tell a letter from its capital. -/
structure IsEdge (p : Option Char → Bool) : Prop where
  none : p none = true
  blank {c : Char} (h : isBlank c = true) : p (some c) = true
  toUpper (c : Char) : p (some c.toUpper) = p (some c)

theorem isEdge_wordStart : IsEdge wordStart where
  none := rfl
  blank h := congrArg not (isWordChar_of_isBlank h)
  toUpper c := congrArg not (isWordChar_toUpper c)

theorem isEdge_true : IsEdge fun _ => true := ⟨rfl, fun _ => rfl, fun _ => rfl⟩

theorem occurs_of_isInfix (h : w <:+: t) (hw : upperAscii w = w) : Occurs (fun _ => true) w t := by
  obtain ⟨a, b, rfl⟩ := h
  exact ⟨a, w, b, List.append_assoc a w b, hw, rfl, rfl⟩

/-- Characters that are no capitals are capitals of no others. -/
theorem isInfix_of_occurs {p : Option Char → Bool} (h : Occurs p w t)
    (hw : w.any Char.isUpper = false) : w <:+: t := by
  obtain ⟨a, x, b, rfl, rfl, -, -⟩ := h
  have hsame : ∀ c ∈ x, c.toUpper = id c := by
    intro c hc
    refine toUpper_of_not_isLower fun hlower => ?_
    exact List.any_eq_false.1 hw c.toUpper (List.mem_map_of_mem hc) (isUpper_toUpper hlower)
  have hx : upperAscii x = x := (List.map_congr_left hsame).trans (List.map_id x)
  rw [hx]
  exact ⟨a, b, List.append_assoc a x b⟩

namespace IsEdge

variable {p : Option Char → Bool} (hp : IsEdge p)
include hp

theorem getLast? (h : t.isBlankOnly = true) : p t.getLast? = true := by
  cases hlast : t.getLast? with
  | none => exact hp.none
  | some c => exact hp.blank (List.all_eq_true.1 h c (List.mem_of_getLast? hlast))

theorem head? (h : t.isBlankOnly = true) : p t.head? = true := by
  cases hhead : t.head? with
  | none => exact hp.none
  | some c => exact hp.blank (List.all_eq_true.1 h c (List.mem_of_head? hhead))

theorem map_toUpper (o : Option Char) : p (o.map Char.toUpper) = p o := by
  cases o with
  | none => rfl
  | some c => exact hp.toUpper c

/-- Whether a word occurs does not depend on the case. -/
theorem occurs_of_upperAscii_eq (h : Occurs p w u) (heq : upperAscii t = upperAscii u) :
    Occurs p w t := by
  obtain ⟨a, x, b, rfl, hx, ha, hb⟩ := h
  unfold upperAscii at heq hx
  rw [List.map_append, List.map_append] at heq
  obtain ⟨a', r, rfl, ha', hr⟩ := List.map_eq_append_iff.1 heq
  obtain ⟨x', b', rfl, hx', hb'⟩ := List.map_eq_append_iff.1 hr
  refine ⟨a', x', b', rfl, hx'.trans hx, ?_, ?_⟩
  · rw [← hp.map_toUpper, ← List.getLast?_map, ha', List.getLast?_map, hp.map_toUpper, ha]
  · rw [← hp.map_toUpper, ← List.head?_map, hb', List.head?_map, hp.map_toUpper, hb]

end IsEdge

/-- A text of blanks and one without any do not begin alike. -/
theorem append_ne_append {x y : Text} (hy : y.isBlankOnly = true) (hyne : y ≠ [])
    (hx : ∀ c ∈ x, isBlank c = false) (hxne : x ≠ []) (b q : Text) : y ++ b ≠ x ++ q := by
  obtain ⟨c, x, rfl⟩ := List.exists_cons_of_ne_nil hxne
  obtain ⟨d, y, rfl⟩ := List.exists_cons_of_ne_nil hyne
  intro h
  obtain rfl : d = c := (List.cons.inj h).1
  have hblank := List.all_eq_true.1 hy d List.mem_cons_self
  rw [hx d List.mem_cons_self] at hblank
  cases hblank

/-- A part without blanks lies on one side of blanks. -/
theorem eq_append_of_isBlankOnly {a y b p x q : Text} (h : a ++ (y ++ b) = p ++ (x ++ q))
    (hy : y.isBlankOnly = true) (hend : y = [] → a = [] ∨ b = [])
    (hx : ∀ c ∈ x, isBlank c = false) (hxne : x ≠ []) :
    (∃ q', a = p ++ (x ++ q') ∧ q = q' ++ (y ++ b)) ∨
      ∃ p', b = p' ++ (x ++ q) ∧ p = a ++ (y ++ p') := by
  by_cases hyne : y = []
  · subst hyne
    rcases hend rfl with rfl | rfl
    · exact .inr ⟨p, h, rfl⟩
    · exact .inl ⟨q, (List.append_nil a).symm.trans h, (List.append_nil q).symm⟩
  rcases List.append_eq_append_iff.1 h with ⟨d, rfl, hd⟩ | ⟨d, rfl, hd⟩
  · rcases List.append_eq_append_iff.1 hd with ⟨e, rfl, rfl⟩ | ⟨e, rfl, he⟩
    · exact .inr ⟨e, rfl, rfl⟩
    · by_cases hene : e = []
      · subst hene
        exact .inr ⟨[], he.symm, by rw [List.append_nil, List.append_nil]⟩
      · have hblanks : isBlankOnly e = true :=
          List.all_eq_true.2 fun c hc => List.all_eq_true.1 hy c (List.mem_append_right d hc)
        exact absurd he.symm (append_ne_append hblanks hene hx hxne _ _)
  · rcases List.append_eq_append_iff.1 hd with ⟨e, rfl, rfl⟩ | ⟨e, rfl, he⟩
    · exact .inl ⟨e, rfl, rfl⟩
    · by_cases hene : e = []
      · subst hene
        exact .inl ⟨[], by rw [List.append_nil, List.append_nil], he.symm⟩
      · exact absurd he (append_ne_append hy hyne
          (fun c hc => hx c (List.mem_append_right d hc)) hene _ _)

/-- An edit that leaves nothing out brings together no word that was not there. -/
theorem Edit.occurs {p : Option Char → Bool} (hp : IsEdge p) (hw : w ≠ [])
    (hvisible : visible w = w) (h : Edit false headers t u) (hu : Occurs p w u) :
    Occurs p w t := by
  cases h with
  | leaveOut h => cases h
  | @capitalize a x b =>
    refine hp.occurs_of_upperAscii_eq hu ?_
    simp only [upperAscii_append, upperAscii_upperAscii]
  | @respace a x y b hx hne hy hend =>
    obtain ⟨l, z, r, heq, rfl, hl, hr⟩ := hu
    have hz : ∀ c ∈ z, isBlank c = false := by
      intro c hc
      rw [← isBlank_toUpper, ← Bool.not_eq_true']
      exact List.filter_eq_self.1 hvisible _ (List.mem_map_of_mem hc)
    have hzne : z ≠ [] := by
      rintro rfl
      exact hw rfl
    rcases eq_append_of_isBlankOnly heq hy hend hz hzne with ⟨r', rfl, rfl⟩ | ⟨l', rfl, rfl⟩
    · refine ⟨l, z, r' ++ (x ++ b), by simp only [List.append_assoc], rfl, hl, ?_⟩
      cases r' with
      | nil =>
        obtain ⟨c, x, rfl⟩ := List.exists_cons_of_ne_nil hne
        exact hp.blank (List.all_eq_true.1 hx c List.mem_cons_self)
      | cons c r' => exact hr
    · refine ⟨a ++ (x ++ l'), z, r, by simp only [List.append_assoc], rfl, ?_, hr⟩
      by_cases hl' : l' = []
      · subst hl'
        rw [List.append_nil, List.getLast?_append_of_ne_nil a hne]
        exact hp.getLast? hx
      · rw [← List.append_assoc, List.getLast?_append_of_ne_nil _ hl'] at hl ⊢
        exact hl

theorem Edits.occurs {p : Option Char → Bool} (hp : IsEdge p) (hw : w ≠ [])
    (hvisible : visible w = w) (h : Edits false headers t u) (hu : Occurs p w u) :
    Occurs p w t := by
  induction h with
  | refl => exact hu
  | tail _ h ih => exact ih (h.occurs hp hw hvisible hu)

/-! ## Trimming -/

/-- Blanks at the start may go. -/
theorem edits_blanks_start {x : Text} (hx : x.isBlankOnly = true) (headers : List Text) (t : Text) :
    Edits false headers (x ++ t) t := by
  by_cases hne : x = []
  · subst hne
    exact .refl
  · exact .single (.respace (y := []) [] t hx hne rfl fun _ => .inl rfl)

/-- Blanks at the end may go. -/
theorem edits_blanks_end {x : Text} (hx : x.isBlankOnly = true) (headers : List Text) (t : Text) :
    Edits false headers (t ++ x) t := by
  by_cases hne : x = []
  · subst hne
    rw [List.append_nil]
  · have hedit : Edit false headers (t ++ (x ++ [])) (t ++ ([] ++ [])) :=
      .respace t [] hx hne rfl fun _ => .inr rfl
    rw [List.append_nil, List.append_nil, List.append_nil] at hedit
    exact .single hedit

theorem edits_trim (headers : List Text) (t : Text) : Edits false headers t t.trim := by
  have hstart := edits_blanks_start (List.all_takeWhile (l := t) (p := isBlank)) headers t.trimStart
  rw [trimStart, List.takeWhile_append_dropWhile] at hstart
  have hblanks : isBlankOnly (t.trimStart.reverse.takeWhile isBlank).reverse = true := by
    rw [isBlankOnly, List.all_reverse]
    exact List.all_takeWhile
  have hend := edits_blanks_end hblanks headers t.trim
  rw [trim, trimEnd, ← List.reverse_append, List.takeWhile_append_dropWhile,
    List.reverse_reverse] at hend
  exact hstart.trans hend

end Text

/-! ## Rules -/

open Text

/-- A rule whose replacements are chains of edits, wherever `P` relates what stands behind the
replaced part to what is made of it. -/
def Rule.Edits (rule : Rule) (lossy : Bool) (headers : List Text) (P : Text → Text → Prop) : Prop :=
  ∀ a t new rest u, rule a.getLast? t = some (new, rest) → P rest u →
    ∃ old, t = old ++ rest ∧ Text.Edits lossy headers (a ++ (old ++ u)) (a ++ (new ++ u))

section Sweep

variable {rule : Rule} {lossy : Bool} {headers : List Text} {P : Text → Text → Prop}
  (hrule : rule.Edits lossy headers P) (hP : ∀ {prev t u}, Sweep rule prev t u → P t u)
include hrule hP

/-- From right to left, so that what stands before a replaced part is what the rule has seen. -/
theorem Rule.Edits.sweep {a t u : Text} (h : Sweep rule a.getLast? t u) :
    Text.Edits lossy headers (a ++ t) (a ++ u) := by
  generalize hprev : a.getLast? = prev at h
  induction h generalizing a with
  | nil => exact .refl
  | @keep _ c r u _ _ ih =>
    have hbehind := ih (a := a ++ [c]) (List.getLast?_concat)
    rw [List.append_assoc, List.append_assoc] at hbehind
    exact hbehind
  | @change prev old new rest u hne h k ih =>
    subst hprev
    have hbehind := ih (a := a ++ old) (List.getLast?_append)
    rw [List.append_assoc, List.append_assoc] at hbehind
    obtain ⟨old', hold, hedits⟩ := hrule a (old ++ rest) new rest u h (hP k)
    rw [← List.append_cancel_right hold] at hedits
    exact hbehind.trans hedits

theorem Rule.Edits.substitute {R : Text → Text → Prop} (hreplaces : rule.Replaces R) (t : Text) :
    Text.Edits lossy headers t (t.substitute rule) :=
  hrule.sweep hP (a := []) (sweep_substituteFrom hreplaces none t)

end Sweep

/-- A rule whose replacements are edits whatever stands behind them. -/
theorem Rule.Edits.substitute_anywhere {rule : Rule} {lossy : Bool} {headers : List Text}
    (hrule : rule.Edits lossy headers fun _ _ => True) {R : Text → Text → Prop}
    (hreplaces : rule.Replaces R) (t : Text) : Text.Edits lossy headers t (t.substitute rule) :=
  hrule.substitute (fun _ => trivial) hreplaces t

end SchemaInstaller
