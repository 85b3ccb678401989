import SchemaInstaller.Proofs.Text.Tidying

/-!
# Substitution step by step

A substitution sweeps over a text from left to right: where the rule does not apply it keeps a
character, and where it applies it replaces a part and goes on behind it (`Sweep`). Whatever relates
each replaced part to its replacement therefore relates the whole text to the result
(`Rule.Tidies.substitute`).

A substitution that changes nothing has found nothing to change. `Rule.Absent` says that a rule
applies nowhere in a text, and `Rule.Trivial` that wherever it applies it puts back what was there.
-/

namespace SchemaInstaller

open Text

/-! ## Rules -/

/-- A rule that replaces parts of which `R` holds, with their replacements, and none that are
empty. -/
def Rule.Replaces (rule : Rule) (R : Text → Text → Prop) : Prop :=
  ∀ prev t new rest, rule prev t = some (new, rest) →
    ∃ old, old ≠ [] ∧ t = old ++ rest ∧ R old new

theorem Rule.Replaces.nil {rule : Rule} {R : Text → Text → Prop} (hrule : rule.Replaces R)
    (prev : Option Char) : rule prev [] = none := by
  cases hmatch : rule prev [] with
  | none => rfl
  | some x =>
    obtain ⟨old, hne, hold, -⟩ := hrule prev [] x.1 x.2 hmatch
    exact absurd (List.append_eq_nil_iff.1 hold.symm).1 hne

/-- A rule that only tidies what it replaces. -/
def Rule.Tidies (rule : Rule) : Prop := rule.Replaces Text.Tidies

namespace Text

/-! ## Sweeps -/

/-- A rule led over a text, and what comes out. -/
inductive Sweep (rule : Rule) : Option Char → Text → Text → Prop
  | nil (prev : Option Char) : Sweep rule prev [] []
  | keep {prev : Option Char} {c : Char} {r u : Text} (h : rule prev (c :: r) = none)
      (k : Sweep rule (some c) r u) : Sweep rule prev (c :: r) (c :: u)
  | change {prev : Option Char} {old new rest u : Text} (hne : old ≠ [])
      (h : rule prev (old ++ rest) = some (new, rest))
      (k : Sweep rule (old.getLast?.or prev) rest u) : Sweep rule prev (old ++ rest) (new ++ u)

/-- The last character of a text behind another character. -/
theorem getLast?_cons_or (c : Char) (t : Text) (prev : Option Char) :
    (c :: t).getLast?.or prev = t.getLast?.or (some c) := by
  cases t with
  | nil => rfl
  | cons d r =>
    rw [List.getLast?_cons_cons, List.getLast?_eq_some_getLast (List.cons_ne_nil d r)]
    rfl

theorem getLast?_append_or (t u : Text) (prev : Option Char) :
    (t ++ u).getLast?.or prev = u.getLast?.or (t.getLast?.or prev) := by
  rw [List.getLast?_append, Option.or_assoc]

/-- Characters that have already been replaced are passed over. -/
theorem substituteFrom_length_append (rule : Rule) (prev : Option Char) (t r : Text) :
    substituteFrom rule t.length prev (t ++ r) =
      substituteFrom rule 0 (t.getLast?.or prev) r := by
  induction t generalizing prev with
  | nil => rfl
  | cons c t ih =>
    rw [List.length_cons, List.cons_append, substituteFrom, ih, getLast?_cons_or]

/-- Where the rule applies, its part is replaced and the substitution goes on behind it. -/
theorem substituteFrom_of_some {rule : Rule} {prev : Option Char} {old new rest : Text}
    (hne : old ≠ []) (h : rule prev (old ++ rest) = some (new, rest)) :
    substituteFrom rule 0 prev (old ++ rest) =
      new ++ substituteFrom rule 0 (old.getLast?.or prev) rest := by
  obtain ⟨c, t, rfl⟩ := List.exists_cons_of_ne_nil hne
  rw [List.cons_append] at h ⊢
  rw [substituteFrom, h]
  have hskip : (t ++ rest).length - rest.length = t.length := by
    rw [List.length_append, Nat.add_sub_cancel]
  simp only [hskip]
  rw [substituteFrom_length_append, getLast?_cons_or]

theorem substituteFrom_of_none {rule : Rule} {prev : Option Char} {c : Char} {r : Text}
    (h : rule prev (c :: r) = none) :
    substituteFrom rule 0 prev (c :: r) = c :: substituteFrom rule 0 (some c) r := by
  rw [substituteFrom, h]

/-- A substitution is a sweep. -/
theorem sweep_substituteFrom {rule : Rule} {R : Text → Text → Prop} (hrule : rule.Replaces R)
    (prev : Option Char) (t : Text) : Sweep rule prev t (substituteFrom rule 0 prev t) := by
  induction hn : t.length using Nat.strongRecOn generalizing prev t with
  | ind n ih =>
    cases t with
    | nil => exact .nil prev
    | cons c r =>
      cases hmatch : rule prev (c :: r) with
      | none =>
        rw [substituteFrom_of_none hmatch]
        exact .keep hmatch (ih r.length (by rw [← hn, List.length_cons]; omega) _ _ rfl)
      | some x =>
        obtain ⟨new, rest⟩ := x
        obtain ⟨old, hne, hold, -⟩ := hrule prev (c :: r) new rest hmatch
        have hlen : rest.length < n := by
          have := List.length_pos_iff.2 hne
          rw [← hn, hold, List.length_append]
          omega
        rw [hold] at hmatch ⊢
        rw [substituteFrom_of_some hne hmatch]
        exact .change hne hmatch (ih rest.length hlen _ _ rfl)

end Text

/-! ## Rules that tidy -/

/-- A rule that tidies what it replaces tidies every text. -/
theorem Rule.Tidies.sweep {rule : Rule} (hrule : rule.Tidies) {prev : Option Char} {t u : Text}
    (h : Sweep rule prev t u) : Text.Tidies t u := by
  induction h with
  | nil => exact .nil
  | keep _ _ ih => exact ih.keep _
  | change _ h _ ih =>
    obtain ⟨old, -, hold, htidies⟩ := hrule _ _ _ _ h
    rw [List.append_cancel_right hold]
    exact htidies.append ih

theorem Rule.Tidies.substitute {rule : Rule} (hrule : rule.Tidies) (t : Text) :
    Text.Tidies t (t.substitute rule) := hrule.sweep (sweep_substituteFrom hrule none t)

/-! ## Nothing to change -/

/-- A rule that applies nowhere in a text. -/
def Rule.Absent (rule : Rule) (t : Text) : Prop := ∀ a b, t = a ++ b → rule a.getLast? b = none

/-- Wherever a rule applies in a text, it puts back what was there. -/
def Rule.Trivial (rule : Rule) (t : Text) : Prop :=
  ∀ a b new rest, t = a ++ b → rule a.getLast? b = some (new, rest) → b = new ++ rest

/-- A rule that does not apply strictly inside a part that it puts back. -/
def Rule.Apart (rule : Rule) : Prop :=
  ∀ prev new rest, rule prev (new ++ rest) = some (new, rest) →
    ∀ a b, new = a ++ b → a ≠ [] → b ≠ [] → rule a.getLast? (b ++ rest) = none

/-- In a text that a sweep leaves unchanged a rule puts back what was there. -/
theorem Rule.Tidies.trivial_of_sweep {rule : Rule} (hrule : rule.Tidies) (hapart : rule.Apart)
    {prev : Option Char} {t u : Text} (h : Sweep rule prev t u) (hu : u = t) :
    ∀ a b new rest, t = a ++ b → rule (a.getLast?.or prev) b = some (new, rest) →
      b = new ++ rest := by
  induction h with
  | nil prev =>
    intro a b new rest hab hmatch
    obtain ⟨rfl, rfl⟩ := List.append_eq_nil_iff.1 hab.symm
    rw [Rule.Replaces.nil hrule] at hmatch
    cases hmatch
  | @keep prev c r u hnone k ih =>
    obtain rfl : u = r := (List.cons.inj hu).2
    intro a b new rest hab hmatch
    cases a with
    | nil =>
      obtain rfl : b = c :: u := hab.symm
      rw [List.getLast?_nil, Option.none_or, hnone] at hmatch
      cases hmatch
    | cons d a =>
      obtain ⟨rfl, rfl⟩ := List.cons.inj hab
      rw [getLast?_cons_or] at hmatch
      exact ih rfl a b new rest rfl hmatch
  | @change prev old new rest u hne h k ih =>
    obtain ⟨old', -, hold', htidies⟩ := hrule _ _ _ _ h
    obtain rfl : old = old' := List.append_cancel_right hold'
    obtain ⟨rfl, rfl⟩ := htidies.append_inj (hrule.sweep k) hu
    intro a b new' rest' hab hmatch
    by_cases ha : a = []
    · subst ha
      obtain rfl : b = new ++ u := hab.symm
      rw [List.getLast?_nil, Option.none_or, h] at hmatch
      cases hmatch
      rfl
    -- the place is inside the part that was put back, or behind it
    rcases List.append_eq_append_iff.1 hab with ⟨d, rfl, rfl⟩ | ⟨d, rfl, rfl⟩
    · rw [getLast?_append_or] at hmatch
      exact ih rfl d b new' rest' rfl hmatch
    · by_cases hd : d = []
      · subst hd
        rw [List.append_nil] at ih
        exact ih rfl [] u new' rest' rfl hmatch
      · have hlast : a.getLast?.or prev = a.getLast? := by
          rw [List.getLast?_eq_some_getLast ha]
          rfl
        rw [hlast, hapart prev _ _ h a d rfl ha hd] at hmatch
        cases hmatch

theorem Rule.Tidies.trivial {rule : Rule} (hrule : rule.Tidies) (hapart : rule.Apart) {t : Text}
    (h : t.substitute rule = t) : rule.Trivial t := by
  intro a b new rest hab hmatch
  refine hrule.trivial_of_sweep hapart (sweep_substituteFrom hrule none t) h a b new rest hab ?_
  rw [Option.or_none]
  exact hmatch

/-- A rule whose replacements are shorter than what they replace. -/
def Rule.Shortens (rule : Rule) : Prop :=
  ∀ prev t new rest, rule prev t = some (new, rest) → new.length + rest.length < t.length

/-- A rule that shortens applies nowhere in a text that it leaves unchanged. -/
theorem Rule.Tidies.absent {rule : Rule} (hrule : rule.Tidies) (hshort : rule.Shortens) {t : Text}
    (h : t.substitute rule = t) : rule.Absent t := by
  have hchange : ∀ prev new rest, rule prev (new ++ rest) ≠ some (new, rest) := by
    intro prev new rest hmatch
    have hlt := hshort _ _ _ _ hmatch
    rw [List.length_append] at hlt
    omega
  have hapart : rule.Apart := fun prev new rest hmatch => absurd hmatch (hchange prev new rest)
  intro a b hab
  cases hmatch : rule a.getLast? b with
  | none => rfl
  | some x =>
    obtain ⟨new, rest⟩ := x
    have hback := hrule.trivial hapart h a b new rest hab hmatch
    rw [hback] at hmatch
    exact absurd hmatch (hchange _ _ _)

/-! ## Parts that stay -/

/-- A rule that applies at no place of a part of a text, whatever follows the part. -/
def Rule.Inert (rule : Rule) (prev : Option Char) (x : Text) : Prop :=
  ∀ a b rest, x = a ++ b → b ≠ [] → rule (a.getLast?.or prev) (b ++ rest) = none

namespace Rule.Inert

variable {rule : Rule} {prev : Option Char} {c : Char} {x y : Text}

theorem nil : rule.Inert prev [] := by
  intro a b rest hab hb
  exact absurd (List.append_eq_nil_iff.1 hab.symm).2 hb

theorem head (h : rule.Inert prev (c :: x)) (rest : Text) : rule prev (c :: (x ++ rest)) = none :=
  h [] (c :: x) rest rfl (List.cons_ne_nil c x)

theorem tail (h : rule.Inert prev (c :: x)) : rule.Inert (some c) x := by
  rintro a b rest rfl hb
  have hplace := h (c :: a) b rest rfl hb
  rw [getLast?_cons_or] at hplace
  exact hplace

theorem cons (hc : ∀ rest, rule prev (c :: (x ++ rest)) = none) (hx : rule.Inert (some c) x) :
    rule.Inert prev (c :: x) := by
  intro a b rest hab hb
  cases a with
  | nil =>
    obtain rfl : c :: x = b := hab
    exact hc rest
  | cons d a =>
    obtain ⟨rfl, rfl⟩ := List.cons.inj hab
    rw [getLast?_cons_or]
    exact hx a b rest rfl hb

theorem append (hx : rule.Inert prev x) (hy : rule.Inert (x.getLast?.or prev) y) :
    rule.Inert prev (x ++ y) := by
  induction x generalizing prev with
  | nil => exact hy
  | cons c x ih =>
    rw [getLast?_cons_or] at hy
    refine cons (fun rest => ?_) (ih hx.tail hy)
    show rule prev (c :: (x ++ y ++ rest)) = none
    rw [List.append_assoc]
    exact hx.head (y ++ rest)

/-- A part whose characters the rule passes over wherever they stand, before one that stays
anywhere. -/
theorem append_of_forall
    (hx : ∀ c t, c :: t <:+ x → ∀ prev rest, rule prev (c :: (t ++ y ++ rest)) = none)
    (hy : ∀ prev, rule.Inert prev y) (prev : Option Char) : rule.Inert prev (x ++ y) := by
  induction x generalizing prev with
  | nil => exact hy prev
  | cons c x ih =>
    have hrest := ih fun d t hsuffix => hx d t (hsuffix.trans (List.suffix_cons c x))
    exact .cons (fun rest => hx c x (List.suffix_refl _) prev rest) (hrest (some c))

/-- A substitution keeps such a part and goes on behind it. -/
theorem substituteFrom (h : rule.Inert prev x) (r : Text) :
    Text.substituteFrom rule 0 prev (x ++ r) =
      x ++ Text.substituteFrom rule 0 (x.getLast?.or prev) r := by
  induction x generalizing prev with
  | nil => rfl
  | cons c x ih =>
    rw [getLast?_cons_or, List.cons_append, substituteFrom_of_none (h.head r), ih h.tail,
      List.cons_append]

end Rule.Inert

/-- A rule that no part with a character in it concerns: it looks at what stands before the
character only. -/
def Rule.StopsAt (rule : Rule) (c : Char) : Prop :=
  ∀ prev t r, rule prev (t ++ c :: r) = (rule prev t).map fun x => (x.1, x.2 ++ c :: r)

/-- A substitution goes over what stands on either side of such a character by itself. -/
theorem Rule.StopsAt.substituteFrom {rule : Rule} {c : Char} (h : rule.StopsAt c)
    {R : Text → Text → Prop} (hrule : rule.Replaces R) (prev : Option Char) (t r : Text) :
    Text.substituteFrom rule 0 prev (t ++ c :: r) =
      Text.substituteFrom rule 0 prev t ++ c :: Text.substituteFrom rule 0 (some c) r := by
  have hsweep := sweep_substituteFrom hrule prev t
  generalize Text.substituteFrom rule 0 prev t = u at hsweep
  induction hsweep with
  | nil prev =>
    refine substituteFrom_of_none ?_
    have hstop := h prev [] r
    rw [hrule.nil] at hstop
    exact hstop
  | @keep prev d t u hnone _ ih =>
    have hstop := h prev (d :: t) r
    rw [hnone] at hstop
    rw [List.cons_append] at hstop ⊢
    rw [substituteFrom_of_none hstop, ih, List.cons_append]
  | @change prev old new rest u hne hmatch _ ih =>
    have hstop := h prev (old ++ rest) r
    rw [hmatch, List.append_assoc] at hstop
    rw [List.append_assoc, substituteFrom_of_some hne hstop, ih, List.append_assoc]

end SchemaInstaller
