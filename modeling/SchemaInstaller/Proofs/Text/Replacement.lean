import Mathlib.Data.List.Forall2
import SchemaInstaller.Proofs.Text.Scan

/-!
# Replacing what a scan takes

`Scan.rule s new` puts one text in the place of whatever a scan takes. On its way from left to right
the substitution either finds something or passes a character (`Scan.Takes.induction`), and these two
cases are all that is needed to know about it.

A scan of a class of words (`Scan.Of`) finds in a text what the text holds: without a word the text
stays (`substitute_of_forall_not_infix`), and with nothing in the place of words it gets shorter
exactly if it holds one (`substitute_nil_length`). Characters that no word has may be doubled before
or after (`substitute_doubled`). The spellings of a keyword are such a class (`letters_inAnyCase`),
and so are the words of two classes that start differently (`Of.orElse`).
-/

namespace SchemaInstaller

open Text

/-- The rule that puts one text in the place of what a scan takes. -/
def Scan.rule (s : Scan) (new : Text) : Rule := fun _ t => (s t).map (new, ·)

/-- A scan that takes at least one character. -/
def Scan.Takes (s : Scan) : Prop := ∀ t r, s t = some r → ∃ w, w ≠ [] ∧ t = w ++ r

/-- A scan that takes just the words of a class. -/
def Scan.Of (s : Scan) (W : Text → Prop) : Prop := ∀ t r, s t = some r ↔ ∃ w, W w ∧ t = w ++ r

namespace Scan

variable {s f : Scan} {W V : Text → Prop}

theorem Of.takes (h : s.Of W) (hnil : ¬W []) : s.Takes := by
  intro t r ht
  obtain ⟨w, hw, rfl⟩ := (h t r).1 ht
  exact ⟨w, fun hempty => hnil (hempty ▸ hw), rfl⟩

theorem Of.eq_some (h : s.Of W) {w : Text} (hw : W w) (r : Text) : s (w ++ r) = some r :=
  (h _ _).2 ⟨w, hw, rfl⟩

/-- There is one scan for a class of words. -/
theorem Of.unique (h : s.Of W) (k : f.Of W) : s = f := by
  funext t
  refine Option.ext fun r => ?_
  rw [h t r, k t r]

theorem literal_of (w : Text) : (literal w).Of (· = w) := by
  intro t r
  constructor
  · intro h
    exact ⟨w, rfl, (List.isPrefixOf?_eq_some_iff_append_eq.1 h).symm⟩
  · rintro ⟨-, rfl, rfl⟩
    exact List.isPrefixOf?_eq_some_iff_append_eq.2 rfl

/-- A word in any case of ASCII letters. -/
def anyCase (w : Text) : Scan := fun t =>
  if lowerAscii (t.take w.length) = lowerAscii w then some (t.drop w.length) else none

theorem length_lowerAscii (t : Text) : (lowerAscii t).length = t.length := List.length_map _

theorem anyCase_of (w : Text) : (anyCase w).Of fun v => lowerAscii v = lowerAscii w := by
  intro t r
  unfold anyCase
  constructor
  · intro h
    by_cases hcase : lowerAscii (t.take w.length) = lowerAscii w
    · rw [if_pos hcase] at h
      cases h
      exact ⟨_, hcase, (List.take_append_drop _ t).symm⟩
    · rw [if_neg hcase] at h
      cases h
  · rintro ⟨v, hv, rfl⟩
    have hlen : v.length = w.length := by
      rw [← length_lowerAscii, hv, length_lowerAscii]
    rw [← hlen, List.take_left, List.drop_left, if_pos hv]

theorem Of.congr (h : s.Of W) (hW : ∀ w, W w ↔ V w) : s.Of V := by
  intro t r
  rw [h]
  simp only [hW]

/-- A word and then another. -/
theorem Of.bind (hs : s.Of W) (hf : f.Of V) :
    Scan.Of (fun t => s t >>= f) fun u => ∃ w v, W w ∧ V v ∧ u = w ++ v := by
  intro t r
  constructor
  · intro h
    obtain ⟨m, hm, hr⟩ := Option.bind_eq_some_iff.1 h
    obtain ⟨w, hw, rfl⟩ := (hs t m).1 hm
    obtain ⟨v, hv, rfl⟩ := (hf m r).1 hr
    exact ⟨w ++ v, ⟨w, v, hw, hv, rfl⟩, (List.append_assoc w v r).symm⟩
  · rintro ⟨-, ⟨w, v, hw, hv, rfl⟩, rfl⟩
    refine Option.bind_eq_some_iff.2 ⟨v ++ r, ?_, (hf _ _).2 ⟨v, hv, rfl⟩⟩
    exact (hs _ _).2 ⟨w, hw, List.append_assoc w v r⟩

/-- A word of one class or another, where no word of the second starts like one of the first. -/
theorem Of.orElse (hs : s.Of W) (hf : f.Of V) (hapart : ∀ w r, V w → s (w ++ r) = none) :
    (Scan.orElse s f).Of fun w => W w ∨ V w := by
  intro t r
  unfold Scan.orElse
  rw [Option.or_eq_some_iff]
  constructor
  · rintro (h | ⟨-, h⟩)
    · obtain ⟨w, hw, rfl⟩ := (hs t r).1 h
      exact ⟨w, Or.inl hw, rfl⟩
    · obtain ⟨w, hw, rfl⟩ := (hf t r).1 h
      exact ⟨w, Or.inr hw, rfl⟩
  · rintro ⟨w, hw | hw, rfl⟩
    · exact Or.inl (hs.eq_some hw r)
    · exact Or.inr ⟨hapart w r hw, hf.eq_some hw r⟩

/-- A word in any case, and with the two characters that fold to ASCII letters. -/
def InAnyCase (k w : Text) : Prop := List.Forall₂ (fun d c => sameLetter d c = true) k w

theorem letters_inAnyCase (k : Text) : (letters k).Of (InAnyCase k) := by
  induction k with
  | nil =>
    intro t r
    constructor
    · intro h
      cases h
      exact ⟨[], .nil, rfl⟩
    · rintro ⟨w, hw, rfl⟩
      cases hw
      rfl
  | cons d k ih =>
    intro t r
    constructor
    · intro h
      cases t with
      | nil => cases h
      | cons c t =>
        rw [letters] at h
        split at h
        · obtain ⟨w, hw, rfl⟩ := (ih t r).1 h
          exact ⟨c :: w, .cons ‹_› hw, rfl⟩
        · cases h
    · rintro ⟨w, hw, rfl⟩
      cases hw with
      | cons hc hw =>
        rw [List.cons_append, letters, if_pos hc]
        exact ih.eq_some hw r

/-- A letter that no further character folds to. -/
theorem sameLetter_iff {d c : Char} (hs : d.toLower ≠ 's') (hk : d.toLower ≠ 'k') :
    sameLetter d c = true ↔ c.toLower = d.toLower := by
  unfold sameLetter
  rw [beq_false_of_ne hs, beq_false_of_ne hk]
  simp only [Bool.false_and, Bool.or_false, beq_iff_eq]
  exact eq_comm

theorem inAnyCase_iff {k w : Text}
    (hk : (k.all fun d => d.toLower != 's' && d.toLower != 'k') = true) :
    InAnyCase k w ↔ lowerAscii w = lowerAscii k := by
  induction k generalizing w with
  | nil => exact List.forall₂_nil_left_iff.trans List.map_eq_nil_iff.symm
  | cons d k ih =>
    simp only [List.all_cons, Bool.and_eq_true, bne_iff_ne] at hk
    obtain ⟨⟨hs, hk'⟩, hrest⟩ := hk
    cases w with
    | nil => exact iff_of_false (fun h => nomatch h) (fun h => nomatch h)
    | cons c w =>
      refine List.forall₂_cons.trans (Iff.trans ?_ List.cons_eq_cons.symm)
      exact and_congr (sameLetter_iff hs hk') (ih hrest)

/-- Letters without further cases are taken in just the cases of ASCII. -/
theorem letters_of {k : Text} (hk : (k.all fun d => d.toLower != 's' && d.toLower != 'k') = true) :
    (letters k).Of fun v => lowerAscii v = lowerAscii k :=
  (letters_inAnyCase k).congr fun _ => inAnyCase_iff hk

/-! ## Two cases -/

/-- A text is empty, or the scan finds something at its start, or it has a character there that the
scan passes. -/
theorem Takes.induction (hs : s.Takes) {P : Text → Prop} (nil : P [])
    (found : ∀ t r, s t = some r → P r → P t)
    (skip : ∀ c r, s (c :: r) = none → P r → P (c :: r)) (t : Text) : P t := by
  induction hn : t.length using Nat.strongRecOn generalizing t with
  | ind n ih =>
    cases t with
    | nil => exact nil
    | cons c r =>
      cases hscan : s (c :: r) with
      | none => exact skip c r hscan (ih r.length (by rw [← hn]; simp) r rfl)
      | some u =>
        obtain ⟨w, hw, hsplit⟩ := hs _ _ hscan
        have hlen : u.length < n := by
          have := List.length_pos_iff.2 hw
          rw [← hn, hsplit, List.length_append]
          omega
        exact found _ u hscan (ih u.length hlen u rfl)

end Scan

namespace Text

variable {s : Scan} {new : Text}

/-- The rule looks at nothing before its place. -/
theorem substituteFrom_rule (s : Scan) (new : Text) (prev : Option Char) (t : Text) :
    substituteFrom (s.rule new) 0 prev t = t.substitute (s.rule new) := by
  cases t <;> rfl

theorem substitute_of_some (hs : s.Takes) {t r : Text} (h : s t = some r) :
    t.substitute (s.rule new) = new ++ r.substitute (s.rule new) := by
  obtain ⟨w, hw, rfl⟩ := hs t r h
  have hmatch : s.rule new none (w ++ r) = some (new, r) := by
    simp [Scan.rule, h]
  rw [substitute, substituteFrom_of_some hw hmatch, substituteFrom_rule]

theorem substitute_of_none {c : Char} {r : Text} (h : s (c :: r) = none) :
    substitute (s.rule new) (c :: r) = c :: r.substitute (s.rule new) := by
  have hmatch : s.rule new none (c :: r) = none := by
    simp [Scan.rule, h]
  rw [substitute, substituteFrom_of_none hmatch, substituteFrom_rule]

/-! ## Texts without words -/

variable {W : Text → Prop}

theorem eq_none_iff_of (h : s.Of W) {t : Text} : s t = none ↔ ∀ w, W w → ¬w <+: t := by
  constructor
  · rintro hnone w hw ⟨r, hr⟩
    rw [(h t r).2 ⟨w, hw, hr.symm⟩] at hnone
    cases hnone
  · intro hno
    cases hscan : s t with
    | none => rfl
    | some r =>
      obtain ⟨w, hw, ht⟩ := (h t r).1 hscan
      exact absurd ⟨r, ht.symm⟩ (hno w hw)

/-- No word begins with a character that none of them has. -/
theorem eq_none_of_forall_notMem (h : s.Of W) (hnil : ¬W []) {c : Char} (hc : ∀ w, W w → c ∉ w)
    (r : Text) : s (c :: r) = none := by
  refine (eq_none_iff_of h).2 ?_
  rintro (_ | ⟨d, w⟩) hw hprefix
  · exact hnil hw
  · exact hc _ hw ((List.cons_prefix_cons.1 hprefix).1 ▸ List.mem_cons_self)

/-- A text that holds no word stays as it is. -/
theorem substitute_of_forall_not_infix (h : s.Of W) {t : Text} (ht : ∀ w, W w → ¬w <:+: t) :
    t.substitute (s.rule new) = t := by
  induction t with
  | nil => rfl
  | cons c r ih =>
    have hnone : s (c :: r) = none :=
      (eq_none_iff_of h).2 fun w hw hprefix => ht w hw hprefix.isInfix
    rw [substitute_of_none hnone, ih fun w hw hin => ht w hw (List.infix_cons hin)]

/-- Words left out make a text shorter, and a text that is as long as before held none. -/
theorem substitute_nil_length (h : s.Of W) (hnil : ¬W []) (t : Text) :
    (t.substitute (s.rule [])).length ≤ t.length ∧
      (t.length ≤ (t.substitute (s.rule [])).length → ∀ w, W w → ¬w <:+: t) := by
  have hs := h.takes hnil
  induction t using hs.induction with
  | nil =>
    refine ⟨Nat.le_refl _, fun _ w hw hin => ?_⟩
    rw [List.infix_nil.1 hin] at hw
    exact hnil hw
  | found t r hscan ih =>
    obtain ⟨w, hw, rfl⟩ := hs t r hscan
    have hpos := List.length_pos_iff.2 hw
    rw [substitute_of_some hs hscan, List.nil_append, List.length_append]
    omega
  | skip c r hscan ih =>
    rw [substitute_of_none hscan, List.length_cons, List.length_cons]
    refine ⟨by omega, fun hle w hw hin => ?_⟩
    rcases List.infix_cons_iff.1 hin with hprefix | hin
    · exact (eq_none_iff_of h).1 hscan w hw hprefix
    · exact ih.2 (by omega) w hw hin

/-- What is part of a text up to a character that it does not have is part of what stands before. -/
theorem prefix_of_prefix_append_cons {w t r : Text} {c : Char} (hc : c ∉ w)
    (h : w <+: t ++ c :: r) : w <+: t := by
  rcases Nat.lt_or_ge t.length w.length with hlt | hle
  · have hlong : t ++ [c] <+: t ++ c :: r := ⟨r, by simp⟩
    have hpart := List.prefix_of_prefix_length_le hlong h (by simp; omega)
    exact absurd (hpart.subset (by simp)) hc
  · exact List.prefix_of_prefix_length_le h (List.prefix_append t _) hle

/-- A character that no word has parts a text. -/
theorem substitute_append_cons (h : s.Of W) (hnil : ¬W []) {c : Char} (hc : ∀ w, W w → c ∉ w)
    (t r : Text) :
    substitute (s.rule new) (t ++ c :: r) =
      t.substitute (s.rule new) ++ c :: r.substitute (s.rule new) := by
  have hs := h.takes hnil
  induction t using hs.induction with
  | nil => exact substitute_of_none (eq_none_of_forall_notMem h hnil hc r)
  | found t u hscan ih =>
    obtain ⟨w, hw, rfl⟩ := (h t u).1 hscan
    rw [List.append_assoc, substitute_of_some hs (h.eq_some hw _), substitute_of_some hs hscan, ih,
      List.append_assoc]
  | skip d t hscan ih =>
    have hlong : s (d :: (t ++ c :: r)) = none := by
      refine (eq_none_iff_of h).2 fun w hw hprefix => (eq_none_iff_of h).1 hscan w hw ?_
      exact prefix_of_prefix_append_cons (hc w hw) (t := d :: t) hprefix
    rw [List.cons_append, substitute_of_none hlong, substitute_of_none hscan, ih, List.cons_append]

/-! ## Putting something else -/

/-- If what is put into a text begins with a character that a word does not have, then the text
begins with the word already before it is put there. -/
theorem prefix_of_prefix_substitute (hs : s.Takes) {d : Char} {x w t : Text} (hw : d ∉ w)
    (h : w <+: t.substitute (s.rule (d :: x))) : w <+: t := by
  induction w generalizing t with
  | nil => exact List.nil_prefix
  | cons c w ih =>
    cases hscan : s t with
    | some r =>
      rw [substitute_of_some hs hscan, List.cons_append] at h
      exact absurd ((List.cons_prefix_cons.1 h).1 ▸ List.mem_cons_self) hw
    | none =>
      cases t with
      | nil => exact h
      | cons e r =>
        rw [substitute_of_none hscan] at h
        obtain ⟨rfl, hrest⟩ := List.cons_prefix_cons.1 h
        refine List.cons_prefix_cons.2 ⟨rfl, ih ?_ hrest⟩
        exact fun hd => hw (List.mem_cons_of_mem c hd)

/-- What is put into a text can be told apart and replaced in turn, if the text does not hold it
before and only its first character is like that. -/
theorem replace_substitute (hs : s.Takes) {d : Char} {x : Text} (hx : d ∉ x) {t : Text}
    (ht : ¬d :: x <:+: t) (q : Text) :
    Text.replace (d :: x) q (t.substitute (s.rule (d :: x))) = t.substitute (s.rule q) := by
  have hcopies := Scan.literal_of (d :: x)
  have htakes := hcopies.takes (List.cons_ne_nil d x).symm
  show substitute ((Scan.literal (d :: x)).rule q) (t.substitute (s.rule (d :: x))) = _
  induction t using hs.induction with
  | nil => rfl
  | found t r hscan ih =>
    obtain ⟨w, -, rfl⟩ := hs t r hscan
    have hrest : ¬d :: x <:+: r := fun hin => ht (hin.trans (List.suffix_append w r).isInfix)
    rw [substitute_of_some hs hscan, substitute_of_some htakes (hcopies.eq_some rfl _),
      substitute_of_some hs hscan, ih hrest]
  | skip c r hscan ih =>
    have hnone : Scan.literal (d :: x) (c :: substitute (s.rule (d :: x)) r) = none := by
      refine (eq_none_iff_of hcopies).2 ?_
      rintro - rfl hprefix
      obtain ⟨rfl, htail⟩ := List.cons_prefix_cons.1 hprefix
      have hold : d :: x <+: d :: r :=
        List.cons_prefix_cons.2 ⟨rfl, prefix_of_prefix_substitute hs hx htail⟩
      exact ht hold.isInfix
    have hrest : ¬d :: x <:+: r := fun hin => ht (List.infix_cons hin)
    rw [substitute_of_none hscan, substitute_of_none hnone, substitute_of_none hscan, ih hrest]

/-! ## Characters written twice -/

/-- The text with every character of a class written twice. -/
def doubled (p : Char → Bool) (t : Text) : Text := t.flatMap fun c => if p c then [c, c] else [c]

variable {p : Char → Bool}

theorem doubled_append (t u : Text) : doubled p (t ++ u) = doubled p t ++ doubled p u :=
  List.flatMap_append

theorem doubled_cons_of_true {c : Char} (hc : p c = true) (r : Text) :
    doubled p (c :: r) = c :: c :: doubled p r := by
  simp [doubled, hc]

theorem doubled_cons_of_false {c : Char} (hc : p c = false) (r : Text) :
    doubled p (c :: r) = c :: doubled p r := by
  simp [doubled, hc]

/-- A text without such characters stays as it is. -/
theorem doubled_of_forall {t : Text} (ht : ∀ c ∈ t, p c = false) : doubled p t = t := by
  induction t with
  | nil => rfl
  | cons c r ih =>
    rw [doubled_cons_of_false (ht c List.mem_cons_self),
      ih fun d hd => ht d (List.mem_cons_of_mem c hd)]

/-- A word without such characters begins a text as soon as it begins what is written for it. -/
theorem prefix_of_prefix_doubled {w t : Text} (hw : ∀ c ∈ w, p c = false)
    (h : w <+: doubled p t) : w <+: t := by
  induction w generalizing t with
  | nil => exact List.nil_prefix
  | cons c w ih =>
    cases t with
    | nil => exact h
    | cons d r =>
      have hcd : c = d := by
        cases hd : p d with
        | true =>
          rw [doubled_cons_of_true hd] at h
          exact (List.cons_prefix_cons.1 h).1
        | false =>
          rw [doubled_cons_of_false hd] at h
          exact (List.cons_prefix_cons.1 h).1
      subst hcd
      rw [doubled_cons_of_false (hw c List.mem_cons_self)] at h
      refine List.cons_prefix_cons.2 ⟨rfl, ?_⟩
      exact ih (fun d hd => hw d (List.mem_cons_of_mem c hd)) (List.cons_prefix_cons.1 h).2

/-- A word without such characters is in a text as soon as it is in what is written for it. -/
theorem infix_of_infix_doubled {w t : Text} (hw : ∀ c ∈ w, p c = false)
    (h : w <:+: doubled p t) : w <:+: t := by
  induction t with
  | nil => exact h
  | cons c r ih =>
    cases hc : p c with
    | false =>
      have hcons := doubled_cons_of_false hc r
      rw [hcons] at h
      rcases List.infix_cons_iff.1 h with hprefix | hin
      · rw [← hcons] at hprefix
        exact (prefix_of_prefix_doubled hw hprefix).isInfix
      · exact List.infix_cons (ih hin)
    | true =>
      rw [doubled_cons_of_true hc] at h
      -- a word that began at either copy would have the character
      have hstart : ∀ u, w <+: c :: u → w <:+: c :: r := by
        intro u hprefix
        cases w with
        | nil => exact List.nil_infix
        | cons d w =>
          obtain rfl : d = c := (List.cons_prefix_cons.1 hprefix).1
          rw [hw d List.mem_cons_self] at hc
          cases hc
      rcases List.infix_cons_iff.1 h with hprefix | hin
      · exact hstart _ hprefix
      · rcases List.infix_cons_iff.1 hin with hprefix | hin
        · exact hstart _ hprefix
        · exact List.infix_cons (ih hin)

/-- Where neither the words nor what is put for them have such characters, it makes no difference
whether these are doubled before or after. -/
theorem substitute_doubled (h : s.Of W) (hnil : ¬W []) (hword : ∀ w, W w → ∀ c ∈ w, p c = false)
    (hnew : ∀ c ∈ new, p c = false) (t : Text) :
    (doubled p t).substitute (s.rule new) = doubled p (t.substitute (s.rule new)) := by
  have hs := h.takes hnil
  induction t using hs.induction with
  | nil => rfl
  | found t r hscan ih =>
    obtain ⟨w, hw, rfl⟩ := (h t r).1 hscan
    rw [doubled_append, doubled_of_forall (hword w hw), substitute_of_some hs (h.eq_some hw _),
      substitute_of_some hs hscan, ih, doubled_append, doubled_of_forall hnew]
  | skip c r hscan ih =>
    rw [substitute_of_none hscan]
    cases hc : p c with
    | false =>
      have hnone : s (c :: doubled p r) = none := by
        refine (eq_none_iff_of h).2 fun w hw hprefix => (eq_none_iff_of h).1 hscan w hw ?_
        rw [← doubled_cons_of_false hc] at hprefix
        exact prefix_of_prefix_doubled (hword w hw) hprefix
      rw [doubled_cons_of_false hc, doubled_cons_of_false hc, substitute_of_none hnone, ih]
    | true =>
      have hnone : ∀ u, s (c :: u) = none := by
        refine eq_none_of_forall_notMem h hnil fun w hw hmem => ?_
        rw [hword w hw c hmem] at hc
        cases hc
      rw [doubled_cons_of_true hc, doubled_cons_of_true hc, substitute_of_none (hnone _),
        substitute_of_none (hnone _), ih]

end Text

end SchemaInstaller
