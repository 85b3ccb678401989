import Mathlib.Data.List.Basic
import Mathlib.Data.Option.Basic
import SchemaInstaller.Proofs.Text.Substitution

/-!
# What scans take

Every scan takes a part off the front of a text, and a part that a keyword or blanks were found in
tidies to the keyword or to one space. `Scan.Tidies s w` says so of a scan; it is composed along the
steps of a pattern (`Scan.Tidies.bind`), and a rule that writes what its pattern tidies to, or less,
tidies (`Rule.tidies_of_scan`).
-/

namespace SchemaInstaller

open Scan Text

/-! ## Scans -/

/-- What the scan takes tidies to `w`. -/
def Scan.Tidies (s : Scan) (w : Text) : Prop :=
  ∀ t r, s t = some r → ∃ u, t = u ++ r ∧ Text.Tidies u w

namespace Scan.Tidies

variable {s f : Scan} {v w : Text}

/-- A scan that only takes something. -/
theorem to_nil (h : Scan.Tidies s w) : Scan.Tidies s [] := by
  intro t r ht
  obtain ⟨u, rfl, -⟩ := h t r ht
  exact ⟨u, rfl, Text.Tidies.to_nil u⟩

/-- A pattern and then another. -/
theorem bind (hs : Scan.Tidies s v) (hf : Scan.Tidies f w) :
    Scan.Tidies (fun t => s t >>= f) (v ++ w) := by
  intro t r h
  obtain ⟨m, hm, hr⟩ := Option.bind_eq_some_iff.1 h
  obtain ⟨a, rfl, ha⟩ := hs t m hm
  obtain ⟨b, rfl, hb⟩ := hf m r hr
  exact ⟨a ++ b, (List.append_assoc a b r).symm, ha.append hb⟩

theorem orElse (hs : Scan.Tidies s w) (hf : Scan.Tidies f w) :
    Scan.Tidies (Scan.orElse s f) w := by
  intro t r h
  rcases Option.or_eq_some_iff.1 h with h | ⟨-, h⟩
  · exact hs t r h
  · exact hf t r h

/-- A pattern behind characters that are passed over. -/
theorem after_dropWhile (hs : Scan.Tidies s w) (p : Char → Bool) :
    Scan.Tidies (fun t => s (t.dropWhile p)) w := by
  intro t r h
  obtain ⟨u, hu, htidies⟩ := hs _ r h
  refine ⟨t.takeWhile p ++ u, ?_, (Text.Tidies.to_nil _).append htidies⟩
  rw [List.append_assoc, ← hu, List.takeWhile_append_dropWhile]

theorem after_blanks (hs : Scan.Tidies s w) : Scan.Tidies (fun t => s (Text.skipBlanks t)) w :=
  hs.after_dropWhile isBlank

/-- Nothing more. -/
theorem pure : Scan.Tidies some [] := by
  intro t r h
  cases h
  exact ⟨[], rfl, .nil⟩

/-- A pattern behind another that may be missing. -/
theorem after_optional (hs : Scan.Tidies s w) (hf : Scan.Tidies f v) :
    Scan.Tidies (fun t => s (Scan.optional f t)) w := by
  intro t r h
  have hscan : s ((f t).getD t) = some r := h
  cases hft : f t with
  | none =>
    rw [hft] at hscan
    exact hs t r hscan
  | some m =>
    rw [hft] at hscan
    obtain ⟨a, rfl, -⟩ := hf t m hft
    obtain ⟨b, hb, htidies⟩ := hs m r hscan
    refine ⟨a ++ b, ?_, (Text.Tidies.to_nil a).append htidies⟩
    rw [List.append_assoc, ← hb]

/-- A condition on what stands before changes nothing about what is taken. -/
theorem guard (hs : Scan.Tidies s w) (p : Prop) [Decidable p] :
    Scan.Tidies (fun t => do guard p; s t) w := by
  intro t r h
  obtain ⟨-, -, h⟩ := Option.bind_eq_some_iff.1 h
  exact hs t r h

end Scan.Tidies

namespace Scan

theorem literal_tidies (w : Text) : Scan.Tidies (literal w) w := by
  intro t r h
  exact ⟨w, (List.isPrefixOf?_eq_some_iff_append_eq.1 h).symm, Text.Tidies.refl w⟩

theorem eq_cons_of_one {p : Char → Bool} {t r : Text} (h : one p t = some r) :
    ∃ c, t = c :: r ∧ p c = true := by
  cases t with
  | nil => cases h
  | cons c t =>
    rw [one] at h
    by_cases hc : p c = true
    · rw [if_pos hc] at h
      cases h
      exact ⟨c, rfl, hc⟩
    · rw [if_neg hc] at h
      cases h

theorem eq_cons_of_many1 {p : Char → Bool} {t r : Text} (h : many1 p t = some r) :
    ∃ c u, t = c :: (u ++ r) ∧ p c = true := by
  cases t with
  | nil => cases h
  | cons c t =>
    rw [many1] at h
    by_cases hc : p c = true
    · rw [if_pos hc] at h
      cases h
      exact ⟨c, t.takeWhile p, by rw [List.takeWhile_append_dropWhile], hc⟩
    · rw [if_neg hc] at h
      cases h

theorem one_tidies {p : Char → Bool} {w : Text} (h : ∀ c, p c = true → Text.Tidies [c] w) :
    Scan.Tidies (one p) w := by
  intro t r ht
  obtain ⟨c, rfl, hc⟩ := eq_cons_of_one ht
  exact ⟨[c], rfl, h c hc⟩

theorem many1_tidies {p : Char → Bool} {w : Text} (h : ∀ c, p c = true → Text.Tidies [c] w) :
    Scan.Tidies (many1 p) w := by
  intro t r ht
  obtain ⟨c, u, rfl, hc⟩ := eq_cons_of_many1 ht
  refine ⟨c :: u, rfl, ?_⟩
  have htidies := (h c hc).append (Text.Tidies.to_nil u)
  rw [List.append_nil] at htidies
  exact htidies

/-- A blank can become a space. -/
theorem tidies_space {c : Char} (h : isBlank c = true) : Text.Tidies [c] [' '] := by
  by_cases hc : c = ' '
  · rw [hc]
  · have hupper : ¬c.isUpper = true := by
      rw [isUpper_iff]
      simp only [isBlank, Bool.or_eq_true, Bool.and_eq_true, decide_eq_true_eq, beq_iff_eq] at h
      omega
    refine .turn ?_ rfl .nil
    simp [Text.isTidy, hupper, hc]

theorem blanks1_tidies : Scan.Tidies blanks1 [' '] := many1_tidies fun _ => tidies_space

/-- A capital in some case can become the capital. -/
theorem tidies_capital {k c : Char} (hk : k.isUpper = true) (h : sameLetter k c = true) :
    Text.Tidies [c] [k] := by
  by_cases hc : c = k
  · rw [hc]
  have hlow : k.toLower = c.toLower ∨ c = '\u017f' ∨ c = '\u212a' := by
    simp only [sameLetter, Bool.or_eq_true, Bool.and_eq_true, beq_iff_eq] at h
    tauto
  have hn := toNat_toLower_of_isUpper hk
  have hrange := isUpper_iff.1 hk
  -- two capitals with the same small letter are the same
  have hupper : ¬c.isUpper = true := by
    intro hupper
    rcases hlow with hlow | rfl | rfl
    · rw [hlow, toNat_toLower_of_isUpper hupper] at hn
      exact hc (Char.toNat_inj.1 (Nat.add_right_cancel hn))
    · cases hupper
    · cases hupper
  have hspace : c ≠ ' ' := by
    rintro rfl
    rcases hlow with hlow | hlow | hlow
    · rw [hlow, show ' '.toLower.toNat = 32 from rfl] at hn
      omega
    · cases hlow
    · cases hlow
  refine .turn ?_ ?_ .nil
  · simp [Text.isTidy, hupper, hspace]
  · simp [Text.isTidy, hk]

/-- Letters that can each become a text can become all these texts. -/
theorem letters_tidies {k : Text} {g : Char → Text}
    (h : ∀ d ∈ k, ∀ c, sameLetter d c = true → Text.Tidies [c] (g d)) :
    Scan.Tidies (letters k) (k.flatMap g) := by
  induction k with
  | nil => exact Scan.Tidies.pure
  | cons d k ih =>
    intro t r hletters
    cases t with
    | nil => cases hletters
    | cons c t =>
      rw [letters] at hletters
      by_cases hc : sameLetter d c = true
      · rw [if_pos hc] at hletters
        obtain ⟨u, rfl, hu⟩ := ih (fun e he => h e (List.mem_cons_of_mem d he)) t r hletters
        exact ⟨c :: u, rfl, (h d List.mem_cons_self c hc).append hu⟩
      · rw [if_neg hc] at hletters
        cases hletters

/-- A keyword in any case can become the keyword in capitals. -/
theorem keyword_tidies {w : String} {k : Text} (hw : w.toList = k)
    (hk : k.all Char.isUpper = true) : Scan.Tidies (keyword w) k := by
  have htidies := letters_tidies (g := fun d => [d]) fun d hd _ hc =>
    tidies_capital (List.all_eq_true.1 hk d hd) hc
  rw [List.flatMap_singleton'] at htidies
  unfold keyword
  rw [hw]
  exact htidies

/-- A keyword of any characters takes something. -/
theorem keyword_takes (w : String) : Scan.Tidies (keyword w) [] :=
  (letters_tidies (g := fun _ => []) fun _ _ c _ => Text.Tidies.to_nil [c]).to_nil

theorem quotedBy_tidies (q : Char) : Scan.Tidies (quotedBy q) [] := by
  intro t r h
  cases t with
  | nil => cases h
  | cons c t =>
    rw [quotedBy] at h
    by_cases hc : (c == q) = true
    · rw [if_pos hc] at h
      have hone := one_tidies (p := (· == q)) fun c _ => Text.Tidies.to_nil [c]
      obtain ⟨u, rfl, hu⟩ := hone.after_dropWhile (· != q) t r h
      exact ⟨c :: u, rfl, hu.drop c⟩
    · rw [if_neg hc] at h
      cases h

theorem wordEnd_tidies : Scan.Tidies wordEnd [] := by
  intro t r h
  unfold wordEnd at h
  split at h
  · cases h
  · cases h
    exact ⟨[], rfl, .nil⟩

end Scan

/-! ## What scans find -/

namespace Scan

theorem quotedBy_append {q : Char} {t : Text} (h : q ∉ t) (r : Text) :
    quotedBy q (q :: (t ++ q :: r)) = some r := by
  have hrest : (t ++ q :: r).dropWhile (· != q) = q :: r := by
    rw [List.dropWhile_append_of_pos]
    · rw [List.dropWhile_cons_of_neg]
      simp
    · intro d hd
      simpa using fun hdq : d = q => h (hdq ▸ hd)
  rw [quotedBy, if_pos (beq_self_eq_true q), hrest, one, if_pos (beq_self_eq_true q)]

theorem quotedBy_of_ne {q c : Char} (h : c ≠ q) (t : Text) : quotedBy q (c :: t) = none := by
  rw [quotedBy, if_neg]
  simpa using h

theorem letters_append (k r : Text) : letters k (k ++ r) = some r := by
  induction k with
  | nil => rfl
  | cons d k ih =>
    rw [List.cons_append, letters, if_pos (by simp [sameLetter])]
    exact ih

theorem keyword_append (w : String) (r : Text) : keyword w (w.toList ++ r) = some r :=
  letters_append w.toList r

theorem skipBlanks_space {c : Char} (hc : isBlank c = false) (r : Text) :
    Text.skipBlanks (' ' :: c :: r) = c :: r := by
  show Text.trimStart (' ' :: c :: r) = c :: r
  unfold Text.trimStart
  rw [List.dropWhile_cons_of_pos rfl, List.dropWhile_cons_of_neg (by simp [hc])]

theorem skipBlanks_of_not_isBlank {c : Char} (hc : isBlank c = false) (r : Text) :
    Text.skipBlanks (c :: r) = c :: r := by
  show Text.trimStart (c :: r) = c :: r
  unfold Text.trimStart
  rw [List.dropWhile_cons_of_neg (by simp [hc])]

theorem isAlphanum_of_sameLetter {k c : Char} (hk : k.isLower = true) (h : sameLetter k c = true) :
    c.isAlphanum = true ∨ c = '\u017f' ∨ c = '\u212a' := by
  by_cases hupper : c.isUpper = true
  · exact Or.inl (isAlphanum_iff.2 (Or.inl (Or.inl hupper)))
  have hkupper : ¬k.isUpper = true := by
    rw [isLower_iff] at hk
    rw [isUpper_iff]
    omega
  have hlow : k = c ∨ c = '\u017f' ∨ c = '\u212a' := by
    simp only [sameLetter, Bool.or_eq_true, Bool.and_eq_true, beq_iff_eq,
      toLower_of_not_isUpper hupper, toLower_of_not_isUpper hkupper] at h
    tauto
  rcases hlow with rfl | hlow
  · exact Or.inl (isAlphanum_iff.2 (Or.inl (Or.inr hk)))
  · exact Or.inr hlow

end Scan

/-! ## Where scans stop -/

/-- A scan that never takes a character: it looks at what stands before the character only. -/
def Scan.StopsAt (s : Scan) (c : Char) : Prop := ∀ t r, s (t ++ c :: r) = (s t).map (· ++ c :: r)

namespace Scan

variable {s f : Scan} {c : Char}

theorem StopsAt.bind (hs : s.StopsAt c) (hf : f.StopsAt c) :
    Scan.StopsAt (fun t => s t >>= f) c := by
  intro t r
  show (s (t ++ c :: r)).bind f = ((s t).bind f).map (· ++ c :: r)
  rw [hs]
  cases s t with
  | none => rfl
  | some m => exact hf m r

theorem StopsAt.orElse (hs : s.StopsAt c) (hf : f.StopsAt c) : (Scan.orElse s f).StopsAt c := by
  intro t r
  unfold Scan.orElse
  rw [hs, hf]
  cases s t <;> rfl

theorem literal_stopsAt {w : Text} (h : c ∉ w) : (literal w).StopsAt c := by
  intro t r
  unfold literal
  induction w generalizing t with
  | nil => rfl
  | cons d w ih =>
    cases t with
    | nil =>
      have hd : (d == c) = false := beq_false_of_ne fun hdc => h (hdc ▸ List.mem_cons_self)
      simp [List.isPrefixOf?, hd]
    | cons e t =>
      rw [List.cons_append, List.isPrefixOf?, List.isPrefixOf?]
      split
      · exact ih (fun hw => h (List.mem_cons_of_mem d hw)) t
      · rfl

theorem letters_stopsAt {k : Text} (h : ∀ d ∈ k, sameLetter d c = false) :
    (letters k).StopsAt c := by
  intro t r
  induction k generalizing t with
  | nil => rfl
  | cons d k ih =>
    cases t with
    | nil =>
      have hd : ¬sameLetter d c = true := by simp [h d List.mem_cons_self]
      exact if_neg hd
    | cons e t =>
      rw [List.cons_append, letters, letters]
      split
      · exact ih (fun x hx => h x (List.mem_cons_of_mem d hx)) t
      · rfl

theorem keyword_stopsAt {w : String} (h : w.toList.all (!sameLetter · c) = true) :
    (keyword w).StopsAt c := by
  refine letters_stopsAt fun d hd => ?_
  have hc := List.all_eq_true.1 h d hd
  rw [Bool.not_eq_true'] at hc
  exact hc

theorem one_stopsAt {p : Char → Bool} (h : p c = false) : (one p).StopsAt c := by
  intro t r
  cases t with
  | nil =>
    show (if p c then some r else none) = none
    rw [if_neg (by simp [h])]
  | cons d t =>
    rw [List.cons_append, one, one]
    split <;> rfl

theorem dropWhile_append_cons {p : Char → Bool} (h : p c = false) (t r : Text) :
    (t ++ c :: r).dropWhile p = t.dropWhile p ++ c :: r := by
  rw [List.dropWhile_append]
  split
  · rename_i hnil
    rw [List.isEmpty_iff.1 hnil, List.dropWhile_cons_of_neg (by simp [h])]
    rfl
  · rfl

theorem many1_stopsAt {p : Char → Bool} (h : p c = false) : (many1 p).StopsAt c := by
  intro t r
  cases t with
  | nil =>
    show (if p c then some (r.dropWhile p) else none) = none
    rw [if_neg (by simp [h])]
  | cons d t =>
    rw [List.cons_append, many1, many1]
    split
    · exact congrArg some (dropWhile_append_cons h t r)
    · rfl

theorem StopsAt.after_dropWhile (hs : s.StopsAt c) {p : Char → Bool} (h : p c = false) :
    Scan.StopsAt (fun t => s (t.dropWhile p)) c := by
  intro t r
  simp only [dropWhile_append_cons h]
  exact hs _ r

theorem StopsAt.optional (hs : s.StopsAt c) (t r : Text) :
    Scan.optional s (t ++ c :: r) = Scan.optional s t ++ c :: r := by
  unfold Scan.optional
  rw [hs]
  cases s t <;> rfl

theorem wordEnd_stopsAt (h : isWordChar c = false) : wordEnd.StopsAt c := by
  intro t r
  cases t with
  | nil =>
    show (if isWordChar c then none else some (c :: r)) = some (c :: r)
    rw [if_neg (by simp [h])]
  | cons d t =>
    show (if isWordChar d then none else some (d :: t ++ c :: r)) =
      (if isWordChar d then none else some (d :: t)).map (· ++ c :: r)
    split <;> rfl

end Scan

/-! ## Rules -/

section StopsAt

variable {rule : Rule} {s : Scan} {c : Char}

/-- A rule that writes something and takes nothing more. -/
theorem Rule.stopsAt_write (w : Text) : Rule.StopsAt (fun _ t => some (w, t)) c :=
  fun _ _ _ => rfl

/-- A pattern before what a rule does. -/
theorem Rule.StopsAt.after_scan (hrule : rule.StopsAt c) (hs : s.StopsAt c) :
    Rule.StopsAt (fun prev t => s t >>= rule prev) c := by
  intro prev t r
  show (s (t ++ c :: r)).bind (rule prev) = ((s t).bind (rule prev)).map _
  rw [hs]
  cases s t with
  | none => rfl
  | some m => exact hrule prev m r

/-- A condition on what stands before. -/
theorem Rule.StopsAt.guard (hrule : rule.StopsAt c) (p : Option Char → Prop)
    [∀ prev, Decidable (p prev)] :
    Rule.StopsAt (fun prev t => do guard (p prev); rule prev t) c := by
  intro prev t r
  by_cases hp : p prev
  · simp only [hp]
    exact hrule prev t r
  · simp only [hp]
    rfl

/-- The first of several rules that applies. -/
theorem Rule.stopsAt_findSome? {α : Type} {ks : List α} {f : α → Rule}
    (h : ∀ k ∈ ks, (f k).StopsAt c) :
    Rule.StopsAt (fun prev t => ks.findSome? fun k => f k prev t) c := by
  induction ks with
  | nil => exact fun _ _ _ => rfl
  | cons k ks ih =>
    intro prev t r
    have hrest := ih (fun l hl => h l (List.mem_cons_of_mem k hl)) prev t r
    simp only [List.findSome?_cons, h k List.mem_cons_self prev t r]
    cases f k prev t with
    | some m => rfl
    | none => exact hrest

end StopsAt

/-- A rule that writes what a scan has taken, or less, tidies. -/
theorem Rule.tidies_of_scan {rule : Rule}
    (h : ∀ prev t new rest, rule prev t = some (new, rest) →
      ∃ (s : Scan) (w : Text), Scan.Tidies s w ∧ w ≠ [] ∧ s t = some rest ∧ Text.Tidies w new) :
    rule.Tidies := by
  intro prev t new rest hmatch
  obtain ⟨s, w, hs, hw, hscan, hnew⟩ := h prev t new rest hmatch
  obtain ⟨u, rfl, hu⟩ := hs t rest hscan
  refine ⟨u, ?_, rfl, hu.trans hnew⟩
  rintro rfl
  cases hu
  exact hw rfl

/-- A rule that leaves out what a scan takes. -/
def Rule.LeavesOut (rule : Rule) (s : Option Char → Scan) : Prop :=
  ∀ prev t, rule prev t = (s prev t).map ([], ·)

section LeavesOut

variable {rule : Rule} {s : Option Char → Scan} (h : rule.LeavesOut s)
include h

theorem Rule.LeavesOut.eq_some {prev : Option Char} {t new rest : Text}
    (hmatch : rule prev t = some (new, rest)) : s prev t = some rest ∧ new = [] := by
  rw [h] at hmatch
  obtain ⟨r, hr, heq⟩ := Option.map_eq_some_iff.1 hmatch
  cases heq
  exact ⟨hr, rfl⟩

/-- What the scan takes nowhere is not there for the rule. -/
theorem Rule.LeavesOut.absent {t : Text}
    (hnone : ∀ a b rest, t = a ++ b → s a.getLast? b ≠ some rest) : rule.Absent t := by
  intro a b hab
  cases hmatch : rule a.getLast? b with
  | none => rfl
  | some x => exact absurd (h.eq_some hmatch).1 (hnone a b x.2 hab)

variable {w : Text} (hs : ∀ prev, Scan.Tidies (s prev) w) (hw : w ≠ [])
include hs hw

theorem Rule.LeavesOut.tidies : rule.Tidies := by
  refine Rule.tidies_of_scan fun prev t new rest hmatch => ?_
  obtain ⟨hscan, rfl⟩ := h.eq_some hmatch
  exact ⟨s prev, w, hs prev, hw, hscan, Text.Tidies.to_nil w⟩

theorem Rule.LeavesOut.shortens : rule.Shortens := by
  intro prev t new rest hmatch
  obtain ⟨old, hne, rfl, -⟩ := h.tidies hs hw prev t new rest hmatch
  have := List.length_pos_iff.2 hne
  rw [(h.eq_some hmatch).2, List.length_append, List.length_nil]
  omega

end LeavesOut

end SchemaInstaller
