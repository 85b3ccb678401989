import SchemaInstaller.Proofs.Text.Scan

/-!
# Passages that stay

Passages that stand in a text one behind the other (`Text.InOrder`) stand so in the text that a
substitution makes of it, if no part that the rule replaces reaches into one of them
(`Rule.Spares`), or if the rule never takes the character that fences a passage on both sides and,
inside it, changes nothing (`Rule.StopsAt`, `Rule.Trivial`). Trimming keeps passages that neither
begin nor end with a blank.
-/

namespace SchemaInstaller

open Text

namespace Text

/-! ## Passages -/

/-- The passages stand in the text, one behind the other. -/
def InOrder : List Text → Text → Prop
  | [], _ => True
  | x :: xs, t => ∃ gap rest, t = gap ++ (x ++ rest) ∧ InOrder xs rest

variable {x t : Text} {xs : List Text}

theorem inOrder_singleton : InOrder [x] t ↔ x <:+: t := by
  constructor
  · rintro ⟨gap, rest, rfl, -⟩
    exact ⟨gap, rest, List.append_assoc gap x rest⟩
  · rintro ⟨gap, rest, rfl⟩
    exact ⟨gap, rest, List.append_assoc gap x rest, trivial⟩

theorem InOrder.isInfix (h : InOrder xs t) (hx : x ∈ xs) : x <:+: t := by
  induction xs generalizing t with
  | nil => cases hx
  | cons y xs ih =>
    obtain ⟨gap, rest, rfl, h⟩ := h
    rcases List.mem_cons.1 hx with rfl | hx
    · exact ⟨gap, rest, List.append_assoc gap x rest⟩
    · refine (ih h hx).trans ⟨gap ++ y, [], ?_⟩
      rw [List.append_nil, List.append_assoc]

/-! ## Trimming -/

/-- A passage between two characters that are alike and of which `p` holds. -/
def Fenced (p : Char → Prop) (x : Text) : Prop := ∃ c body, p c ∧ x = c :: (body ++ [c])

theorem Fenced.imp {p q : Char → Prop} (hx : Fenced p x) (h : ∀ c, p c → q c) : Fenced q x := by
  obtain ⟨c, body, hc, rfl⟩ := hx
  exact ⟨c, body, h c hc, rfl⟩

theorem InOrder.trimEnd (h : InOrder xs t) (hxs : ∀ x ∈ xs, Fenced (isBlank · = false) x) :
    InOrder xs t.trimEnd := by
  induction xs generalizing t with
  | nil => trivial
  | cons x xs ih =>
    obtain ⟨gap, rest, rfl, h⟩ := h
    obtain ⟨c, body, hc, rfl⟩ := hxs x List.mem_cons_self
    refine ⟨gap, rest.trimEnd, ?_, ih h fun y hy => hxs y (List.mem_cons_of_mem _ hy)⟩
    have hlast : (gap ++ c :: (body ++ [c])).getLast? = some c := by
      rw [← List.cons_append, ← List.append_assoc, List.getLast?_concat]
    have htrim := trimEnd_append hlast hc rest
    rw [List.append_assoc, List.append_assoc] at htrim
    exact htrim

theorem InOrder.trim (h : InOrder xs t) (hxs : ∀ x ∈ xs, Fenced (isBlank · = false) x) :
    InOrder xs t.trim := by
  cases xs with
  | nil => trivial
  | cons x xs =>
    refine InOrder.trimEnd ?_ hxs
    obtain ⟨gap, rest, rfl, h⟩ := h
    obtain ⟨c, body, hc, rfl⟩ := hxs x List.mem_cons_self
    refine ⟨gap.trimStart, rest, ?_, h⟩
    exact Scan.dropWhile_append_cons hc gap (body ++ [c] ++ rest)

end Text

/-! ## Rules that spare a passage -/

/-- No part that the rule can replace in the text reaches into a place where the passage stands. -/
def Rule.Spares (rule : Rule) (x t : Text) : Prop :=
  ∀ i ≤ t.length, ∀ m ∈ rule (t.take i).getLast? (t.drop i), ∀ j ≤ t.length, x <+: t.drop j →
    j + x.length ≤ i ∨ t.length ≤ j + m.2.length

instance (rule : Rule) (x t : Text) : Decidable (rule.Spares x t) := by
  unfold Rule.Spares
  infer_instance

section Spares

variable {rule : Rule} {R : Text → Text → Prop} {prev : Option Char} {gap x w t : Text}
  {xs : List Text}

/-- What is replaced stands behind the passage or before it. -/
theorem Rule.Spares.apart (h : rule.Spares x t) {a b new rest p q : Text} (hab : t = a ++ b)
    (hmatch : rule a.getLast? b = some (new, rest)) (hpq : t = p ++ (x ++ q)) :
    b.length ≤ q.length ∨ x.length + q.length ≤ rest.length := by
  have hlength : t.length = a.length + b.length := by rw [hab, List.length_append]
  have hlength' : t.length = p.length + (x.length + q.length) := by
    rw [hpq, List.length_append, List.length_append]
  have htake : t.take a.length = a := by rw [hab, List.take_left]
  have hdrop : t.drop a.length = b := by rw [hab, List.drop_left]
  have hplace : x <+: t.drop p.length := by
    rw [hpq, List.drop_left]
    exact List.prefix_append x q
  have hmem : (new, rest) ∈ rule (t.take a.length).getLast? (t.drop a.length) := by
    rw [htake, hdrop]
    exact hmatch
  have happart := h a.length (by omega) _ hmem p.length (by omega) hplace
  simp only at happart
  omega

/-- A sweep that does not reach from one part of a text into the next makes something of each by
itself. -/
theorem Text.Sweep.exists_append {u : Text} (hsweep : Sweep rule prev (gap ++ w) u)
    (h : ∀ a b new rest, gap = a ++ b → b ≠ [] →
      rule (a.getLast?.or prev) (b ++ w) = some (new, rest) → w.length ≤ rest.length) :
    ∃ y v, u = y ++ v ∧ Sweep rule (gap.getLast?.or prev) w v := by
  generalize ht : gap ++ w = t at hsweep
  induction hsweep generalizing gap with
  | nil prev =>
    obtain ⟨rfl, rfl⟩ := List.append_eq_nil_iff.1 ht
    exact ⟨[], [], rfl, .nil prev⟩
  | @keep prev c r u hnone hrest ih =>
    cases gap with
    | nil =>
      obtain rfl : w = c :: r := ht
      exact ⟨[], c :: u, rfl, .keep hnone hrest⟩
    | cons d gap =>
      obtain ⟨rfl, rfl⟩ := List.cons.inj ht
      obtain ⟨y, v, rfl, hv⟩ := ih (fun a b new rest hab hb hmatch => by
        refine h (d :: a) b new rest (congrArg (d :: ·) hab) hb ?_
        rw [getLast?_cons_or]
        exact hmatch) rfl
      rw [getLast?_cons_or]
      exact ⟨d :: y, v, rfl, hv⟩
  | @change prev old new rest u hne hmatch hrest ih =>
    by_cases hgap : gap = []
    · subst hgap
      obtain rfl : w = old ++ rest := ht
      exact ⟨[], new ++ u, rfl, .change hne hmatch hrest⟩
    · have hle := h [] gap new rest rfl hgap (by rw [ht]; exact hmatch)
      -- what is replaced ends in the first part
      obtain ⟨d, rfl, rfl⟩ : ∃ d, gap = old ++ d ∧ rest = d ++ w := by
        rcases List.append_eq_append_iff.1 ht with ⟨d, rfl, rfl⟩ | h
        · rw [List.length_append] at hle
          obtain rfl : d = [] := List.eq_nil_of_length_eq_zero (by omega)
          exact ⟨[], by simp, rfl⟩
        · exact h
      obtain ⟨y, v, rfl, hv⟩ := ih (fun a b new' rest' hab hb hinside => by
        refine h (old ++ a) b new' rest' (by rw [hab, List.append_assoc]) hb ?_
        rw [getLast?_append_or]
        exact hinside) rfl
      rw [getLast?_append_or]
      exact ⟨new ++ y, v, (List.append_assoc new y v).symm, hv⟩

/-- A sweep keeps a part in which nothing to be replaced begins. -/
theorem Text.Sweep.passage {u : Text} (hsweep : Sweep rule prev (x ++ w) u)
    (h : ∀ a b, x = a ++ b → b ≠ [] → rule (a.getLast?.or prev) (b ++ w) = none) :
    ∃ v, u = x ++ v ∧ Sweep rule (x.getLast?.or prev) w v := by
  induction x generalizing prev u with
  | nil => exact ⟨u, rfl, hsweep⟩
  | cons c x ih =>
    have hnone : rule prev (c :: (x ++ w)) = none := h [] (c :: x) rfl nofun
    generalize ht : c :: x ++ w = t at hsweep
    cases hsweep with
    | nil => cases ht
    | keep _ hrest =>
      obtain ⟨rfl, rfl⟩ := List.cons.inj ht
      obtain ⟨v, rfl, hv⟩ := ih hrest fun a b hab hb => by
        have hplace := h (c :: a) b (congrArg (c :: ·) hab) hb
        rw [getLast?_cons_or] at hplace
        exact hplace
      rw [getLast?_cons_or]
      exact ⟨v, rfl, hv⟩
    | change _ hmatch _ =>
      rw [← ht, List.cons_append, hnone] at hmatch
      cases hmatch

/-- A sweep over the rest of a text keeps a passage there that the rule spares. -/
theorem Rule.Spares.sweep {done rest u : Text} (hx : rule.Spares x t) (hrule : rule.Replaces R)
    (ht : t = done ++ (gap ++ (x ++ rest)))
    (hsweep : Sweep rule done.getLast? (gap ++ (x ++ rest)) u) :
    ∃ y v, u = y ++ (x ++ v) ∧ Sweep rule (done ++ (gap ++ x)).getLast? rest v := by
  have hlast : ∀ a b : Text, a.getLast?.or b.getLast? = (b ++ a).getLast? :=
    fun a b => List.getLast?_append.symm
  have hplace : t = (done ++ gap) ++ (x ++ rest) := by rw [ht, List.append_assoc]
  obtain ⟨y, w, rfl, hw⟩ := hsweep.exists_append fun a b new rest' hab hb hmatch => by
    rw [hlast] at hmatch
    have happart := hx.apart (by rw [ht, hab]; simp only [List.append_assoc]) hmatch hplace
    have := List.length_pos_iff.2 hb
    simp only [List.length_append] at happart ⊢
    omega
  obtain ⟨v, rfl, hv⟩ := hw.passage fun a b hab hb => by
    rw [hlast, hlast]
    cases hmatch : rule ((done ++ gap) ++ a).getLast? (b ++ rest) with
    | none => rfl
    | some m =>
      obtain ⟨old, hne, hold, -⟩ := hrule _ _ _ _ hmatch
      have happart := hx.apart (by rw [ht, hab]; simp only [List.append_assoc]) hmatch hplace
      have hlength := congrArg List.length hold
      have hold := List.length_pos_iff.2 hne
      have hpart := List.length_pos_iff.2 hb
      simp only [hab, List.length_append] at happart hlength
      omega
  rw [hlast, hlast, List.append_assoc] at hv
  exact ⟨y, v, rfl, hv⟩

theorem Text.InOrder.sweep {done r u : Text} (h : InOrder xs r) (hrule : rule.Replaces R)
    (hspares : ∀ x ∈ xs, rule.Spares x t) (ht : t = done ++ r)
    (hsweep : Sweep rule done.getLast? r u) : InOrder xs u := by
  induction xs generalizing done r u with
  | nil => trivial
  | cons x xs ih =>
    obtain ⟨gap, rest, rfl, h⟩ := h
    obtain ⟨y, v, rfl, hv⟩ := (hspares x List.mem_cons_self).sweep hrule ht hsweep
    refine ⟨y, v, rfl, ih h (fun z hz => hspares z (List.mem_cons_of_mem x hz)) ?_ hv⟩
    rw [ht]
    simp only [List.append_assoc]

/-- A rule that spares passages leaves them where they are. -/
theorem Text.InOrder.substitute (h : InOrder xs t) (hrule : rule.Replaces R)
    (hspares : ∀ x ∈ xs, rule.Spares x t) : InOrder xs (t.substitute rule) :=
  h.sweep hrule hspares (List.nil_append t).symm (sweep_substituteFrom hrule none t)

end Spares

/-! ## Rules that stop at the fences of a passage -/

section Fences

variable {rule : Rule} {R : Text → Text → Prop} {t x : Text} {xs : List Text}

/-- A sweep of a rule that only puts back what was there. -/
theorem Text.Sweep.eq_of_trivial {prev : Option Char} {u : Text} (h : Sweep rule prev t u)
    (htrivial : ∀ a b new rest, t = a ++ b → rule (a.getLast?.or prev) b = some (new, rest) →
      b = new ++ rest) : u = t := by
  induction h with
  | nil => rfl
  | @keep prev c r u _ _ ih =>
    rw [ih fun a b new rest hab hmatch => ?_]
    refine htrivial (c :: a) b new rest (congrArg (c :: ·) hab) ?_
    rw [getLast?_cons_or]
    exact hmatch
  | @change prev old new rest u _ hmatch _ ih =>
    have hback : old ++ rest = new ++ rest := htrivial [] _ new rest rfl hmatch
    rw [ih fun a b new' rest' hab hinside => ?_, hback]
    refine htrivial (old ++ a) b new' rest' (by rw [hab, List.append_assoc]) ?_
    rw [getLast?_append_or]
    exact hinside

theorem Rule.Trivial.substitute_eq (h : rule.Trivial t) (hrule : rule.Replaces R) :
    t.substitute rule = t := by
  refine (sweep_substituteFrom hrule none t).eq_of_trivial fun a b new rest hab hmatch => ?_
  rw [Option.or_none] at hmatch
  exact h a b new rest hab hmatch

/-- A rule that stops at the fences of a passage and changes nothing in it. -/
theorem substituteFrom_fenced {c : Char} (hc : rule.StopsAt c)
    (hrule : rule.Replaces R) {body : Text} (h : rule.Trivial (c :: (body ++ [c])))
    (prev : Option Char) (gap rest : Text) :
    substituteFrom rule 0 prev (gap ++ c :: (body ++ c :: rest)) =
      substituteFrom rule 0 prev gap ++
        c :: (body ++ c :: substituteFrom rule 0 (some c) rest) := by
  have hsplit := fun prev t r => Rule.StopsAt.substituteFrom hc hrule prev t r
  have halone : c :: (substituteFrom rule 0 (some c) body ++ [c]) = c :: (body ++ [c]) := by
    have hback : substituteFrom rule 0 none ([] ++ c :: (body ++ c :: [])) = c :: (body ++ [c]) :=
      h.substitute_eq hrule
    rw [hsplit, hsplit] at hback
    exact hback
  rw [hsplit, hsplit, List.append_cancel_right (List.cons.inj halone).2]

/-- A rule that stops at fences and changes nothing in passages leaves them where they are. -/
theorem Text.InOrder.substitute_of_stopsAt (h : InOrder xs t) (hrule : rule.Replaces R)
    (hxs : ∀ x ∈ xs, Fenced rule.StopsAt x ∧ rule.Trivial x) : InOrder xs (t.substitute rule) := by
  suffices hfrom : ∀ prev, InOrder xs (substituteFrom rule 0 prev t) from hfrom none
  induction xs generalizing t with
  | nil => exact fun _ => trivial
  | cons x xs ih =>
    obtain ⟨gap, rest, rfl, h⟩ := h
    obtain ⟨⟨c, body, hc, rfl⟩, htrivial⟩ := hxs x List.mem_cons_self
    have hrest := ih h fun y hy => hxs y (List.mem_cons_of_mem _ hy)
    intro prev
    refine ⟨substituteFrom rule 0 prev gap, substituteFrom rule 0 (some c) rest, ?_, hrest _⟩
    have hassoc : ∀ r, c :: (body ++ [c]) ++ r = c :: (body ++ c :: r) := by simp
    rw [hassoc, hassoc, substituteFrom_fenced hc hrule htrivial]

/-- Where a rule changes nothing in a text, it changes nothing in a passage at whose fences it
stops. -/
theorem Rule.Trivial.of_isInfix (h : rule.Trivial t) (hrule : rule.Replaces R) (hx : x <:+: t)
    (hfenced : Fenced rule.StopsAt x) : rule.Trivial x := by
  obtain ⟨c, body, hc, rfl⟩ := hfenced
  obtain ⟨p, q, rfl⟩ := hx
  intro a b new rest hab hmatch
  rcases List.eq_nil_or_concat' b with rfl | ⟨b, e, rfl⟩
  · rw [hrule.nil] at hmatch
    cases hmatch
  rw [← List.cons_append, ← List.append_assoc] at hab
  obtain ⟨hinner, hlast⟩ := List.append_inj' hab rfl
  obtain rfl : c = e := (List.cons.inj hlast).1
  rw [hc _ b []] at hmatch
  obtain ⟨⟨new, rest⟩, hinside, heq⟩ := Option.map_eq_some_iff.1 hmatch
  cases heq
  cases a with
  | nil =>
    -- nothing to be replaced begins at a fence
    obtain rfl : c :: body = b := hinner
    have hstop := hc (List.getLast? []) [] body
    rw [List.nil_append, hinside, hrule.nil] at hstop
    cases hstop
  | cons d a =>
    have hprev : (p ++ d :: a).getLast? = (d :: a).getLast? :=
      List.getLast?_append_of_ne_nil p nofun
    have hwhole := hc (d :: a).getLast? b q
    rw [hinside] at hwhole
    have hback := h (p ++ d :: a) (b ++ c :: q) new (rest ++ c :: q)
      (by rw [← List.cons_append, hinner]; simp) (by rw [hprev]; exact hwhole)
    rw [← List.append_assoc] at hback
    rw [List.append_cancel_right hback, List.append_assoc]

end Fences

end SchemaInstaller
