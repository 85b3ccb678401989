import Mathlib.Data.List.Chain
import SchemaInstaller.Proofs.Php.Names
import SchemaInstaller.Proofs.Text.Occurrences

/-!
# The normal form of slugs

A slug holds only characters that stay as they are in a slug, its capitals stand at its start or
behind a hyphen, no two hyphens stand side by side, and none stands at either end (`IsSlug`). The
capitals that are left are those without a lower-case form, such as the letters of mathematical
alphabets; that lower-case forms are no capitals is a property of the tables
(`missesMarkedRuns_lowerRuns`).

Every slug is of this form (`isSlug_slugText`), and a text of this form is its own slug: the hyphen
that a capital gets once more runs into the one that is there (`slugText_of_isSlug`). So these are
all the texts that are their own slugs, and a slug of a slug is that slug.

Runs of hyphens are what is left when two hyphens are replaced by one as long as there are any
(`settles_collapseHyphens`).
-/

namespace SchemaInstaller.Php

open Scan Text

/-! ## Lower-case forms -/

/-- Whether no character between `low` and `high` is a member of a run. If there are only every
other of these characters, the run may go through between them. -/
def missesRun (low high : Nat) (everyOther : Bool) (r : Nat × Nat × Nat) : Bool :=
  high.blt r.1 || r.2.1.blt low || (everyOther && r.2.2 == 2 && (low + r.1) % 2 == 1)

/-- The underscore and the capitals: the characters that a slug does not keep as they are. -/
def markedRuns : List (Nat × Nat × Nat) := (95, 95, 1) :: upperRuns

/-- Whether no lower-case form in a run is an underscore or a capital. -/
def missesMarkedRuns : Nat × Nat × Nat × Int → Bool
  | (first, last, step, shift) =>
    decide (0 ≤ first + shift) && markedRuns.all
      (missesRun (Int.toNat (first + shift)) (Int.toNat (last + shift)) (first == last || step == 2))

theorem missesMarkedRuns_lowerRuns : lowerRuns.all missesMarkedRuns = true := by decide +kernel

theorem not_inRun_of_missesRun {first last step : Nat} {shift : Int} {r : Nat × Nat × Nat}
    {c d : Char} (hc : inRun first last step c = true) (hd : (d.toNat : Int) = c.toNat + shift)
    (hlow : 0 ≤ first + shift)
    (hmisses : missesRun (Int.toNat (first + shift)) (Int.toNat (last + shift))
      (first == last || step == 2) r = true) :
    ¬inRun r.1 r.2.1 r.2.2 d = true := by
  simp only [inRun, missesRun, Bool.and_eq_true, Bool.or_eq_true, decide_eq_true_eq,
    beq_iff_eq, Nat.blt_eq] at hmisses hc ⊢
  rintro ⟨⟨hfirst, hlast⟩, hstep⟩
  rcases hmisses with (hbelow | habove) | ⟨⟨hone | htwo, htwo'⟩, hodd⟩
  · omega
  · omega
  · rw [htwo'] at hstep
    omega
  · rw [htwo] at hc
    rw [htwo'] at hstep
    omega

theorem exists_upperRun {c : Char} (h : isUpperCase c = true) :
    ∃ r ∈ upperRuns, inRun r.1 r.2.1 r.2.2 c = true := by
  unfold isUpperCase at h
  split at h
  · obtain ⟨hfirst, hlast⟩ := isUpper_iff.1 h
    refine ⟨(65, 90, 1), List.mem_cons_self, ?_⟩
    simp [inRun, hfirst, hlast, Nat.mod_one]
  · obtain ⟨r, hr, hmember⟩ := List.any_eq_true.1 h
    exact ⟨r, hr, hmember⟩

/-- A character that is in none of the marked runs. -/
theorem plain_of_not_inRun {c : Char}
    (h : ∀ r ∈ markedRuns, ¬inRun r.1 r.2.1 r.2.2 c = true) : isUpperCase c = false ∧ c ≠ '_' := by
  constructor
  · rw [← Bool.not_eq_true]
    intro hupper
    obtain ⟨r, hr, hmember⟩ := exists_upperRun hupper
    exact h r (List.mem_cons_of_mem _ hr) hmember
  · rintro rfl
    exact h (95, 95, 1) List.mem_cons_self rfl

/-- What the tables give for a member of a run that misses all marked runs. -/
theorem plain_of_shift {first last step : Nat} {shift : Int} {c : Char}
    (hc : inRun first last step c = true)
    (hmisses : missesMarkedRuns (first, last, step, shift) = true) :
    isUpperCase (Char.ofNat (Int.toNat (c.toNat + shift))) = false ∧
      Char.ofNat (Int.toNat (c.toNat + shift)) ≠ '_' := by
  obtain ⟨hlow, hall⟩ := (Bool.and_eq_true_iff ..).1 hmisses
  by_cases hcode : ((Char.ofNat (Int.toNat (c.toNat + shift))).toNat : Int) = c.toNat + shift
  · refine plain_of_not_inRun fun r hr => ?_
    exact not_inRun_of_missesRun hc hcode (of_decide_eq_true hlow) (List.all_eq_true.1 hall r hr)
  · -- no character has this code
    have hnull : Char.ofNat (Int.toNat (c.toNat + shift)) = '\x00' := by
      by_cases hvalid : (Int.toNat (c.toNat + shift)).isValidChar
      · rw [toNat_ofNat hvalid] at hcode
        have hzero : Int.toNat (c.toNat + shift) = 0 := by omega
        rw [hzero]
      · unfold Char.ofNat
        rw [dif_neg hvalid]
        rfl
    rw [hnull]
    decide

theorem plain_toLower {c : Char} (h : c.isUpper = true) :
    isUpperCase c.toLower = false ∧ c.toLower ≠ '_' := by
  have hrange := isUpper_iff.1 h
  have hcode := toNat_toLower_of_isUpper h
  constructor
  · have hlow : ¬c.toLower.isUpper = true := by
      rw [isUpper_iff]
      omega
    unfold isUpperCase
    rw [if_pos (by omega), ← Bool.not_eq_true]
    exact hlow
  · intro hunderscore
    rw [hunderscore] at hcode
    have : '_'.toNat = 95 := rfl
    omega

/-- A capital is its own lower-case form, or that is made of other characters that a slug keeps. -/
theorem lowerChar_cases {c : Char} (h : isUpperCase c = true) :
    lowerChar c = [c] ∨ ∀ d ∈ lowerChar c, isUpperCase d = false ∧ d ≠ '_' := by
  unfold lowerChar
  split
  · rename_i hascii
    unfold isUpperCase at h
    rw [if_pos hascii] at h
    refine Or.inr fun d hd => ?_
    obtain rfl := List.mem_singleton.1 hd
    exact plain_toLower h
  · split
    · refine Or.inr fun d hd => ?_
      rcases List.mem_pair.1 hd with rfl | rfl
      · exact ⟨by decide, by decide⟩
      · exact ⟨by decide +kernel, by decide⟩
    · split
      · rename_i first last step shift hfound
        refine Or.inr fun d hd => ?_
        obtain rfl := List.mem_singleton.1 hd
        have hmember := List.find?_some hfound
        have hrun := List.mem_of_find?_eq_some hfound
        exact plain_of_shift hmember (List.all_eq_true.1 missesMarkedRuns_lowerRuns _ hrun)
      · exact Or.inl rfl

theorem slugChar_cases (c : Char) :
    slugChar c = [c] ∨ ∀ d ∈ slugChar c, isUpperCase d = false ∧ d ≠ '_' := by
  unfold slugChar
  by_cases hupper : isUpperCase c = true
  · rw [if_pos hupper]
    exact lowerChar_cases hupper
  · rw [if_neg hupper]
    split
    · exact Or.inr fun _ hd => nomatch hd
    · exact Or.inl rfl

theorem slugChar_of_plain {c : Char} (h : isUpperCase c = false ∧ c ≠ '_') : slugChar c = [c] := by
  unfold slugChar
  rw [if_neg (by simp [h.1]), if_neg (by simpa using h.2)]

/-- What a character comes to in a slug stays as it is in a slug. -/
theorem slugChar_of_mem {c d : Char} (h : d ∈ slugChar c) : slugChar d = [d] := by
  rcases slugChar_cases c with hself | hplain
  · rw [hself] at h
    rwa [List.mem_singleton.1 h]
  · exact slugChar_of_plain (hplain d h)

/-! ## The normal form -/

/-- A capital stands behind hyphens only. -/
def Behind (c d : Char) : Prop := isUpperCase d = true → c = '-'

/-- What may stand side by side in a slug: a capital behind a hyphen, and no two hyphens. -/
def Follows (c d : Char) : Prop := Behind c d ∧ ¬(c = '-' ∧ d = '-')

/-- The normal form of slugs. -/
structure IsSlug (t : Text) : Prop where
  settled : ∀ c ∈ t, slugChar c = [c]
  chain : t.IsChain Follows
  start : t.head? ≠ some '-'
  stop : t.getLast? ≠ some '-'

namespace IsSlug

variable {t : Text} (h : IsSlug t)
include h

theorem underscore_notMem : '_' ∉ t := by
  intro hmem
  have hself := h.settled '_' hmem
  rw [slugChar_underscore] at hself
  cases hself

theorem not_hyphens : ¬['-', '-'] <:+: t := by
  intro hin
  have hpair := h.chain.infix hin
  exact (List.isChain_pair.1 hpair).2 ⟨rfl, rfl⟩

end IsSlug

/-! ## A slug is in normal form -/

/-- What the characters of a class name add to the slug, one behind the other. -/
def slugParts : Text → Text
  | [] => []
  | c :: r => slugPart true c ++ r.flatMap (slugPart false)

theorem slugText_eq (t : Text) : slugText t = trimHyphens (collapseHyphens (slugParts t)) := by
  cases t <;> rfl

theorem isChain_of_forall {t : Text} (h : ∀ d ∈ t, isUpperCase d = false) : t.IsChain Behind := by
  refine List.isChain_iff_forall_rel_of_append_cons_cons.2 ?_
  rintro c d u v rfl hupper
  rw [h d (by simp)] at hupper
  cases hupper

theorem isChain_slugPart (first : Bool) (c : Char) : (slugPart first c).IsChain Behind := by
  rcases slugChar_cases c with hself | hplain
  · rcases slugPart_eq first c with hpart | hpart
    · rw [hpart, hself]
      exact List.isChain_singleton c
    · rw [hpart, hself]
      exact List.isChain_pair.2 fun _ => rfl
  · refine isChain_of_forall fun d hd => ?_
    rcases slugPart_eq first c with hpart | hpart
    · rw [hpart] at hd
      exact (hplain d hd).1
    · rw [hpart] at hd
      rcases List.mem_cons.1 hd with rfl | hd
      · decide
      · exact (hplain d hd).1

/-- Behind the first character, what is added begins with a hyphen or is no capital. -/
theorem head?_flatMap_slugPart (t : Text) :
    ∀ d ∈ (t.flatMap (slugPart false)).head?, isUpperCase d = false := by
  induction t with
  | nil => exact fun _ hd => nomatch hd
  | cons c t ih =>
    rw [List.flatMap_cons]
    unfold slugPart
    by_cases hupper : isUpperCase c = true
    · rw [if_pos hupper]
      rintro d ⟨⟩
      decide
    · rw [if_neg hupper]
      split
      · exact ih
      · rintro d ⟨⟩
        exact Bool.not_eq_true _ ▸ hupper

theorem isChain_append_flatMap (first : Bool) (c : Char) (t : Text) :
    (slugPart first c ++ t.flatMap (slugPart false)).IsChain Behind := by
  induction t generalizing first c with
  | nil =>
    rw [List.flatMap_nil, List.append_nil]
    exact isChain_slugPart first c
  | cons d t ih =>
    refine (isChain_slugPart first c).append (ih false d) fun x _ y hy hupper => ?_
    rw [head?_flatMap_slugPart (d :: t) y hy] at hupper
    cases hupper

theorem isChain_slugParts (t : Text) : (slugParts t).IsChain Behind := by
  cases t with
  | nil => exact List.isChain_nil
  | cons c r => exact isChain_append_flatMap true c r

theorem settled_slugParts {t : Text} {d : Char} (h : d ∈ slugParts t) : slugChar d = [d] := by
  have hpart : ∀ {first c}, d ∈ slugPart first c → slugChar d = [d] := by
    intro first c hd
    rcases slugPart_eq first c with hpart | hpart
    · exact slugChar_of_mem (hpart ▸ hd)
    · rw [hpart] at hd
      rcases List.mem_cons.1 hd with rfl | hd
      · decide
      · exact slugChar_of_mem hd
  cases t with
  | nil => cases h
  | cons c r =>
    rcases List.mem_append.1 h with hd | hd
    · exact hpart hd
    · obtain ⟨x, -, hd⟩ := List.mem_flatMap.1 hd
      exact hpart hd

theorem collapseHyphens_cons_of_head {c : Char} {r : Text}
    (h : ¬(c = '-' ∧ r.head? = some '-')) : collapseHyphens (c :: r) = c :: collapseHyphens r := by
  rw [collapseHyphens, if_neg (by simpa using h)]

theorem head?_collapseHyphens (t : Text) : (collapseHyphens t).head? = t.head? := by
  induction t with
  | nil => rfl
  | cons c r ih =>
    unfold collapseHyphens
    split
    · rename_i hhyphens
      simp only [Bool.and_eq_true, beq_iff_eq] at hhyphens
      rw [ih, hhyphens.1, hhyphens.2]
      rfl
    · rfl

theorem isChain_collapseHyphens {t : Text} (h : t.IsChain Behind) :
    (collapseHyphens t).IsChain Follows := by
  induction t with
  | nil => exact List.isChain_nil
  | cons c r ih =>
    obtain ⟨hhead, hrest⟩ := List.isChain_cons.1 h
    unfold collapseHyphens
    split
    · exact ih hrest
    · rename_i hhyphens
      refine List.isChain_cons.2 ⟨fun d hd => ?_, ih hrest⟩
      rw [head?_collapseHyphens] at hd
      refine ⟨hhead d hd, ?_⟩
      rintro ⟨rfl, rfl⟩
      exact hhyphens (by simpa using hd)

theorem trimHyphens_infix (t : Text) : trimHyphens t <:+: t := by
  have hend := List.dropWhile_suffix (l := (t.dropWhile (· == '-')).reverse) (· == '-')
  rw [← List.reverse_prefix, List.reverse_reverse] at hend
  exact hend.isInfix.trans (List.dropWhile_suffix _).isInfix

theorem getLast?_trimHyphens (t : Text) : (trimHyphens t).getLast? ≠ some '-' := by
  unfold trimHyphens
  rw [List.getLast?_reverse]
  intro h
  have hnot := List.head?_dropWhile_not (· == '-') (t.dropWhile (· == '-')).reverse
  rw [h] at hnot
  cases hnot

/-- Every slug is in normal form. -/
theorem isSlug_slugText (t : Text) : IsSlug (slugText t) := by
  have hin := trimHyphens_infix (collapseHyphens (slugParts t))
  rw [← slugText_eq] at hin
  refine ⟨fun c hc => ?_, ?_, fun h => ne_hyphen_of_head?_slugText h rfl, ?_⟩
  · exact settled_slugParts ((collapseHyphens_sublist _).subset (hin.subset hc))
  · exact List.IsChain.infix (isChain_collapseHyphens (isChain_slugParts t)) hin
  · rw [slugText_eq]
    exact getLast?_trimHyphens _

/-! ## A text in normal form is its own slug -/

theorem slugPart_true (c : Char) : slugPart true c = slugChar c := rfl

theorem slugPart_of_capital {c : Char} (h : isUpperCase c = true) :
    slugPart false c = '-' :: slugChar c := by
  rw [slugPart, slugChar, if_pos h, if_pos h]
  rfl

theorem slugPart_of_other {c : Char} (h : ¬isUpperCase c = true) :
    slugPart false c = slugChar c := by
  rw [slugPart, slugChar, if_neg h, if_neg h]

/-- The hyphen in front of a capital runs into the one that is there. -/
theorem collapseHyphens_flatMap {c : Char} {r : Text} (hchain : (c :: r).IsChain Follows)
    (hsettled : ∀ d ∈ r, slugChar d = [d]) :
    collapseHyphens (c :: r.flatMap (slugPart false)) = c :: r := by
  induction r generalizing c with
  | nil => exact collapseHyphens_cons_of_head (fun h => nomatch h.2)
  | cons d r ih =>
    obtain ⟨⟨hcapital, hhyphens⟩, hrest⟩ := List.isChain_cons_cons.1 hchain
    have hback := ih hrest fun e he => hsettled e (List.mem_cons_of_mem d he)
    have hkeep : collapseHyphens (c :: d :: r.flatMap (slugPart false)) = c :: d :: r := by
      rw [collapseHyphens_cons_of_head (by simpa using hhyphens), hback]
    rw [List.flatMap_cons]
    by_cases hupper : isUpperCase d = true
    · obtain rfl := hcapital hupper
      rw [slugPart_of_capital hupper, hsettled d List.mem_cons_self]
      exact hkeep
    · rw [slugPart_of_other hupper, hsettled d List.mem_cons_self]
      exact hkeep

theorem dropWhile_hyphens {t : Text} (h : t.head? ≠ some '-') : t.dropWhile (· == '-') = t := by
  cases t with
  | nil => rfl
  | cons c r => exact List.dropWhile_cons_of_neg (by simpa using h)

theorem trimHyphens_of_ends {t : Text} (hstart : t.head? ≠ some '-')
    (hstop : t.getLast? ≠ some '-') : trimHyphens t = t := by
  unfold trimHyphens
  rw [dropWhile_hyphens hstart, dropWhile_hyphens (by rwa [List.head?_reverse]),
    List.reverse_reverse]

theorem slugText_of_isSlug {t : Text} (h : IsSlug t) : slugText t = t := by
  cases t with
  | nil => rfl
  | cons c r =>
    have hsettled : ∀ d ∈ r, slugChar d = [d] := fun d hd => h.settled d (List.mem_cons_of_mem c hd)
    rw [slugText, slugPart_true, h.settled c List.mem_cons_self, List.singleton_append,
      collapseHyphens_flatMap h.chain hsettled]
    exact trimHyphens_of_ends h.start h.stop

/-- The texts in normal form are those that are their own slugs. -/
theorem slugText_eq_self_iff {t : Text} : slugText t = t ↔ IsSlug t :=
  ⟨fun h => h ▸ isSlug_slugText t, slugText_of_isSlug⟩

/-! ## Hyphens replaced as long as two stand side by side -/

theorem collapseHyphens_cons_congr {c : Char} {t u : Text}
    (h : collapseHyphens t = collapseHyphens u) :
    collapseHyphens (c :: t) = collapseHyphens (c :: u) := by
  have hhead : t.head? = u.head? := by
    rw [← head?_collapseHyphens t, h, head?_collapseHyphens]
  rw [collapseHyphens, collapseHyphens, h, hhead]

/-- One pass over the text does not change what comes out in the end. -/
theorem collapseHyphens_replace (t : Text) :
    collapseHyphens (Text.replace ['-', '-'] ['-'] t) = collapseHyphens t := by
  have hscan := literal_of ['-', '-']
  have htakes := hscan.takes (by decide)
  show collapseHyphens (substitute ((literal ['-', '-']).rule ['-']) t) = _
  induction t using htakes.induction with
  | nil => rfl
  | found t r hfound ih =>
    obtain ⟨w, rfl, rfl⟩ := (hscan t r).1 hfound
    rw [substitute_of_some htakes hfound]
    show collapseHyphens ('-' :: substitute _ r) = collapseHyphens ('-' :: r)
    exact collapseHyphens_cons_congr ih
  | skip c r hnone ih =>
    rw [substitute_of_none hnone]
    exact collapseHyphens_cons_congr ih

theorem collapseHyphens_of_no_pair {t : Text} (h : ¬['-', '-'] <:+: t) :
    collapseHyphens t = t := by
  induction t with
  | nil => rfl
  | cons c r ih =>
    rw [List.infix_cons_iff, not_or, List.cons_prefix_cons,
      List.singleton_prefix_iff_head?_eq_some] at h
    rw [collapseHyphens_cons_of_head (fun hc => h.1 ⟨hc.1.symm, hc.2⟩), ih h.2]

theorem hyphens_tidies : (literalRule ['-', '-'] ['-']).Tidies := by
  intro prev t new rest h
  obtain ⟨r, hr, heq⟩ := Option.map_eq_some_iff.1 h
  cases heq
  obtain ⟨w, rfl, rfl⟩ := (literal_of ['-', '-'] t rest).1 hr
  exact ⟨_, List.cons_ne_nil _ _, rfl, (Tidies.refl ['-']).drop '-'⟩

/-- Two hyphens are replaced by one in pass after pass until none stand side by side, and what is
left has its runs of hyphens collapsed. -/
theorem settles_collapseHyphens (t : Text) :
    ∃ n, Settles (Text.replace ['-', '-'] ['-']) n t (collapseHyphens t) := by
  have hpass : ∀ u, Tidies u (Text.replace ['-', '-'] ['-'] u) := hyphens_tidies.substitute
  obtain ⟨n, -, hsettles⟩ := settles_iterate hpass (Nat.le_refl (bulk t))
  generalize iterate _ _ t = r at hsettles
  have hsame := hsettles.induct (p := fun u => collapseHyphens u = collapseHyphens t)
    (fun u hu => (collapseHyphens_replace u).trans hu) rfl
  have hnone := ((replace_eq_self_iff (by decide)).1 hsettles.pass_eq).resolve_left (by decide)
  rw [collapseHyphens_of_no_pair hnone] at hsame
  exact ⟨n, hsame ▸ hsettles⟩

/-- **Slugs are in normal form.** From what the characters add, hyphens are taken out in pass after
pass until a pass changes nothing, which comes to an end for every text, and the ends are trimmed.
What is left holds no underscore, no two hyphens side by side and none at its ends, and it is its
own slug, also where capitals without a lower-case form are left in it. -/
theorem slug_settled (s : String) :
    (∃ n r, Settles (Text.replace ['-', '-'] ['-']) n (slugParts s.toList) r ∧
      (slug s).toList = trimHyphens r) ∧
    '_' ∉ (slug s).toList ∧ ¬['-', '-'] <:+: (slug s).toList ∧
    (slug s).toList.head? ≠ some '-' ∧ (slug s).toList.getLast? ≠ some '-' ∧
    slug (slug s) = slug s := by
  have htext : (slug s).toList = slugText s.toList := String.toList_ofList
  have hslug : IsSlug (slug s).toList := htext ▸ isSlug_slugText s.toList
  obtain ⟨n, hsettles⟩ := settles_collapseHyphens (slugParts s.toList)
  refine ⟨⟨n, _, hsettles, htext.trans (slugText_eq _)⟩, hslug.underscore_notMem,
    hslug.not_hyphens, hslug.start, hslug.stop, ?_⟩
  show String.ofList (slugText (slug s).toList) = slug s
  rw [slugText_of_isSlug hslug, String.ofList_toList]

/-- A capital without a lower-case form, and one whose lower-case form is two characters. -/
example : slug "X\u2102_\u0130y_" = "x-\u2102-i\u0307y" := by decide +kernel

end SchemaInstaller.Php
