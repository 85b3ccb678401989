import Mathlib.Data.List.Infix
import SchemaInstaller.Proofs.Text.Scan
import SchemaInstaller.Sql.TablePrefix

/-!
# Where the prefix stands

The expression for the prefix is put wherever a text holds the literal prefix or the token for it
(`HoldsPrefix`), and a text that holds neither stays as it is (`injectPrefix_of_not_holdsPrefix`). A
backtick parts a text: what stands on either side of it is gone through by itself.
-/

namespace SchemaInstaller.Sql

open Scan Text

variable {p : Text}

/-- A text that holds the prefix or the token for it. -/
def HoldsPrefix (p t : Text) : Prop := p <:+: t ∨ ∃ b, b <:+ t ∧ (prefixToken b).isSome = true

/-- The rule that puts the expression in the place of a prefix. -/
def prefixRule (p : Text) : Rule := fun _ t =>
  (orElse prefixToken (literal p) t).map (prefixExpression, ·)

theorem injectPrefix_eq (hp : p ≠ []) (t : Text) : injectPrefix p t = t.substitute (prefixRule p) := by
  obtain ⟨c, r, rfl⟩ := List.exists_cons_of_ne_nil hp
  rfl

theorem prefixToken_tidies : Scan.Tidies prefixToken ['\x7b'] :=
  (literal_tidies _).bind ((keyword_takes "wp_").bind (literal_tidies _).to_nil)

theorem prefixRule_replaces (hp : p ≠ []) :
    (prefixRule p).Replaces fun _ new => new = prefixExpression := by
  intro prev t new rest h
  obtain ⟨r, hr, heq⟩ := Option.map_eq_some_iff.1 h
  cases heq
  rcases Option.or_eq_some_iff.1 hr with hr | ⟨-, hr⟩
  · obtain ⟨u, rfl, hu⟩ := prefixToken_tidies t rest hr
    refine ⟨u, ?_, rfl, rfl⟩
    rintro rfl
    cases hu
  · exact ⟨p, hp, (List.isPrefixOf?_eq_some_iff_append_eq.1 hr).symm, rfl⟩

/-- The rule looks at nothing before its place. -/
theorem substituteFrom_prefixRule (hp : p ≠ []) (prev : Option Char) (t : Text) :
    substituteFrom (prefixRule p) 0 prev t = injectPrefix p t := by
  have hprev : ∀ (t : Text) (n : Nat) (prev : Option Char),
      substituteFrom (prefixRule p) n prev t = substituteFrom (prefixRule p) n none t := by
    intro t n prev
    cases t <;> cases n <;> rfl
  rw [injectPrefix_eq hp]
  exact hprev t 0 prev

/-! ## Texts without prefixes -/

theorem holdsPrefix_of_rule {prev : Option Char} {t : Text} {x : Text × Text}
    (h : prefixRule p prev t = some x) : HoldsPrefix p t := by
  obtain ⟨r, hr, -⟩ := Option.map_eq_some_iff.1 h
  rcases Option.or_eq_some_iff.1 hr with hr | ⟨-, hr⟩
  · exact Or.inr ⟨t, List.suffix_refl t, Option.isSome_of_eq_some hr⟩
  · exact Or.inl ⟨[], r, List.isPrefixOf?_eq_some_iff_append_eq.1 hr⟩

theorem HoldsPrefix.cons {c : Char} {t : Text} (h : HoldsPrefix p t) : HoldsPrefix p (c :: t) := by
  rcases h with h | ⟨b, hb, htoken⟩
  · exact Or.inl (List.infix_cons h)
  · exact Or.inr ⟨b, hb.trans (List.suffix_cons c t), htoken⟩

/-- A prefix in a text is at its start or behind it. -/
theorem holdsPrefix_of_cons {prev : Option Char} {c : Char} {t : Text}
    (h : prefixRule p prev (c :: t) = none) (hholds : HoldsPrefix p (c :: t)) : HoldsPrefix p t := by
  have hnone : orElse prefixToken (literal p) (c :: t) = none := Option.map_eq_none_iff.1 h
  obtain ⟨htoken, hliteral⟩ := Option.or_eq_none_iff.1 hnone
  rcases hholds with hin | ⟨b, hb, hsome⟩
  · rcases List.infix_cons_iff.1 hin with ⟨r, hr⟩ | hin
    · have hsome : literal p (c :: t) = some r := List.isPrefixOf?_eq_some_iff_append_eq.2 hr
      rw [hsome] at hliteral
      cases hliteral
    · exact Or.inl hin
  · rcases List.suffix_cons_iff.1 hb with rfl | hb
    · rw [htoken] at hsome
      cases hsome
    · exact Or.inr ⟨b, hb, hsome⟩

theorem not_holdsPrefix_nil (hp : p ≠ []) : ¬HoldsPrefix p [] := by
  rintro (h | ⟨b, hb, htoken⟩)
  · exact hp (List.infix_nil.1 h)
  · rw [List.suffix_nil.1 hb] at htoken
    cases htoken

theorem not_holdsPrefix_of_tails {t : Text} (hp : ¬p <:+: t)
    (ht : ∀ b ∈ t.tails, prefixToken b = none) : ¬HoldsPrefix p t := by
  rintro (h | ⟨b, hb, htoken⟩)
  · exact hp h
  · rw [ht b ((List.mem_tails b t).2 hb)] at htoken
    cases htoken

/-- In a text without prefixes nothing is put. -/
theorem injectPrefix_of_not_holdsPrefix (hp : p ≠ []) {t : Text} (h : ¬HoldsPrefix p t) :
    injectPrefix p t = t := by
  have hsweep := sweep_substituteFrom (prefixRule_replaces hp) none t
  have heq : ∀ {prev t u}, Sweep (prefixRule p) prev t u → ¬HoldsPrefix p t → u = t := by
    intro prev t u hsweep h
    induction hsweep with
    | nil => rfl
    | keep _ _ ih => rw [ih fun hholds => h hholds.cons]
    | change _ hmatch _ _ => exact absurd (holdsPrefix_of_rule hmatch) h
  rw [injectPrefix_eq hp]
  exact heq hsweep h

/-! ## Parts of a text -/

theorem prefixToken_stopsAt : prefixToken.StopsAt '\x60' := by
  have hopen : (literal ['\x7b']).StopsAt '\x60' := literal_stopsAt (by decide)
  have hword : (keyword "wp_").StopsAt '\x60' := keyword_stopsAt (by decide)
  have hclose : (literal ['\x7d']).StopsAt '\x60' := literal_stopsAt (by decide)
  exact hopen.bind (hword.bind hclose)

theorem prefixRule_stopsAt (h : '\x60' ∉ p) : (prefixRule p).StopsAt '\x60' := by
  intro prev t r
  have hscan := prefixToken_stopsAt.orElse (literal_stopsAt h) t r
  unfold prefixRule
  rw [hscan]
  simp only [Option.map_map, Function.comp_def]

/-- Prefixes do not reach over a backtick. -/
theorem injectPrefix_backtick (hp : p ≠ []) (h : '\x60' ∉ p) (t r : Text) :
    injectPrefix p (t ++ '\x60' :: r) = injectPrefix p t ++ '\x60' :: injectPrefix p r := by
  rw [injectPrefix_eq hp]
  unfold substitute
  rw [(prefixRule_stopsAt h).substituteFrom (prefixRule_replaces hp), substituteFrom_prefixRule hp,
    substituteFrom_prefixRule hp]

/-- The prefix at the start of a text gives way to the expression, unless a token begins there that
is another text. -/
theorem injectPrefix_append (hp : p ≠ []) {t : Text}
    (htoken : ∀ r, prefixToken (p ++ t) = some r → r = t) :
    injectPrefix p (p ++ t) = prefixExpression ++ injectPrefix p t := by
  have hmatch : prefixRule p none (p ++ t) = some (prefixExpression, t) := by
    unfold prefixRule orElse
    cases hscan : prefixToken (p ++ t) with
    | none =>
      have hliteral : literal p (p ++ t) = some t := List.isPrefixOf?_eq_some_iff_append_eq.2 rfl
      rw [hliteral]
      rfl
    | some r =>
      rw [htoken r hscan]
      rfl
  rw [injectPrefix_eq hp]
  unfold substitute
  rw [substituteFrom_of_some hp hmatch, substituteFrom_prefixRule hp]

end SchemaInstaller.Sql
