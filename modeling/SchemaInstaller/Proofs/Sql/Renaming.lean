import SchemaInstaller.Proofs.Sql.TablePrefix
import SchemaInstaller.Proofs.Text.Letters
import SchemaInstaller.Proofs.Text.Replacement

/-!
# Renaming a prefix

A text goes from one prefix to another by way of the expression: the prefix and the tokens for it
give way to the expression, and this to the new prefix. `Renamed` says what should come of it, in
one pass over the text, and `resolvePrefix_injectPrefix` that this comes of it.

No copy of the expression comes about beside those that are put into the text. One that did would
begin with a character of the text, and go on with characters that no copy begins with, so that it
was there before.
-/

namespace SchemaInstaller

open Scan Text

namespace Sql

/-! ## Tokens -/

/-- A token for the prefix, in some case. -/
def IsToken (w : Text) : Prop := lowerAscii w = ['\x7b', 'w', 'p', '_', '\x7d']

/-- A text that holds a token. -/
def HoldsToken (t : Text) : Prop := ∃ w, IsToken w ∧ w <:+: t

theorem not_isToken_nil : ¬IsToken [] := nofun

theorem isToken_iff {u : Text} : IsToken u ↔ ∃ w v, w = ['\x7b'] ∧
    (∃ x y, lowerAscii x = lowerAscii "wp_".toList ∧ y = ['\x7d'] ∧ v = x ++ y) ∧ u = w ++ v := by
  have hword : lowerAscii "wp_".toList = ['w', 'p', '_'] := by
    rw [String.toList_ofList]
    decide
  rw [hword]
  constructor
  · intro h
    have hsplit : ['w', 'p', '_', '\x7d'] = ['w', 'p', '_'] ++ ['\x7d'] := rfl
    obtain ⟨a, v, rfl, ha, hv⟩ := List.map_eq_cons_iff.1 h
    obtain ⟨x, y, rfl, hx, hy⟩ := List.map_eq_append_iff.1 (hv.trans hsplit)
    obtain ⟨b, z, rfl, hb, hz⟩ := List.map_eq_cons_iff.1 hy
    obtain rfl := List.map_eq_nil_iff.1 hz
    rw [eq_of_toLower_eq (by decide) ha, eq_of_toLower_eq (by decide) hb]
    exact ⟨_, _, rfl, ⟨x, _, hx, rfl, rfl⟩, rfl⟩
  · rintro ⟨-, -, rfl, ⟨x, -, hx, rfl, rfl⟩, rfl⟩
    unfold IsToken
    unfold lowerAscii at hx ⊢
    rw [List.map_append, List.map_append, hx]
    decide

theorem prefixToken_of : prefixToken.Of IsToken := by
  have hletters : (keyword "wp_").Of fun v => lowerAscii v = lowerAscii "wp_".toList :=
    letters_of (by decide)
  have hscan := (literal_of ['\x7b']).bind (hletters.bind (literal_of ['\x7d']))
  exact hscan.congr fun w => isToken_iff.symm

theorem prefixToken_takes : prefixToken.Takes := prefixToken_of.takes not_isToken_nil

theorem not_holdsToken_of_tails {t : Text} (h : ∀ b ∈ t.tails, prefixToken b = none) :
    ¬HoldsToken t := by
  rintro ⟨w, hw, hin⟩
  obtain ⟨b, hprefix, hsuffix⟩ := List.infix_iff_prefix_suffix.1 hin
  exact (eq_none_iff_of prefixToken_of).1 (h b ((List.mem_tails b t).2 hsuffix)) w hw hprefix

/-! ## Renaming -/

/-- A text under another prefix: from left to right, and none of it twice, each token for the prefix
or else each copy of `p` has given way to `q`. -/
inductive Renamed (p q : Text) : Text → Text → Prop
  | nil : Renamed p q [] []
  | token {w r u : Text} (hw : IsToken w) (k : Renamed p q r u) : Renamed p q (w ++ r) (q ++ u)
  | copy {r u : Text} (htoken : ∀ w, IsToken w → ¬w <+: p ++ r) (k : Renamed p q r u) :
    Renamed p q (p ++ r) (q ++ u)
  | keep {c : Char} {r u : Text} (htoken : ∀ w, IsToken w → ¬w <+: c :: r)
    (hcopy : ¬p <+: c :: r) (k : Renamed p q r u) : Renamed p q (c :: r) (c :: u)

/-- What gives way to a prefix: a token or else a literal prefix. -/
def prefixScan (p : Text) : Scan := orElse prefixToken (literal p)

variable {p q t : Text}

theorem prefixScan_of_token {r : Text} (h : prefixToken t = some r) : prefixScan p t = some r := by
  unfold prefixScan orElse
  rw [h]
  rfl

theorem prefixScan_of_none (h : prefixToken t = none) : prefixScan p t = literal p t := by
  unfold prefixScan orElse
  rw [h]
  rfl

theorem prefixScan_takes (hp : p ≠ []) : (prefixScan p).Takes := by
  intro t r h
  rcases Option.or_eq_some_iff.1 h with htoken | ⟨-, hliteral⟩
  · exact prefixToken_takes t r htoken
  · exact (literal_of p).takes (fun h => hp h.symm) t r hliteral

/-- There is one text under the other prefix, and a single pass gives it. -/
theorem renamed_iff (hp : p ≠ []) {u : Text} :
    Renamed p q t u ↔ u = t.substitute ((prefixScan p).rule q) := by
  have hs := prefixScan_takes hp
  constructor
  · intro h
    induction h with
    | nil => rfl
    | token hw _ ih =>
      rw [substitute_of_some hs (prefixScan_of_token (prefixToken_of.eq_some hw _)), ih]
    | @copy r _ htoken _ ih =>
      have hnone := (eq_none_iff_of prefixToken_of).2 htoken
      have hliteral := (literal_of p).eq_some rfl r
      rw [← prefixScan_of_none hnone] at hliteral
      rw [substitute_of_some hs hliteral, ih]
    | keep htoken hcopy _ ih =>
      have hnone := (eq_none_iff_of prefixToken_of).2 htoken
      have hliteral := (eq_none_iff_of (literal_of p)).2 fun w hw => hw ▸ hcopy
      rw [← prefixScan_of_none hnone] at hliteral
      rw [substitute_of_none hliteral, ih]
  · rintro rfl
    induction t using hs.induction with
    | nil => exact .nil
    | found t r hscan ih =>
      rw [substitute_of_some hs hscan]
      rcases Option.or_eq_some_iff.1 hscan with htoken | ⟨hnone, hliteral⟩
      · obtain ⟨w, hw, rfl⟩ := (prefixToken_of t r).1 htoken
        exact .token hw ih
      · obtain ⟨w, rfl, rfl⟩ := (literal_of p t r).1 hliteral
        exact .copy ((eq_none_iff_of prefixToken_of).1 hnone) ih
    | skip c r hscan ih =>
      obtain ⟨hnone, hliteral⟩ := Option.or_eq_none_iff.1 hscan
      rw [substitute_of_none hscan]
      exact .keep ((eq_none_iff_of prefixToken_of).1 hnone)
        ((eq_none_iff_of (literal_of p)).1 hliteral p rfl) ih

/-- A text without tokens is the same under the prefix that it has. -/
theorem renamed_refl (hp : p ≠ []) (ht : ¬HoldsToken t) : Renamed p p t t := by
  induction t using (prefixScan_takes hp).induction with
  | nil => exact .nil
  | found t r hscan ih =>
    have htoken : ∀ w, IsToken w → ¬w <+: t := fun w hw hprefix => ht ⟨w, hw, hprefix.isInfix⟩
    rw [prefixScan_of_none ((eq_none_iff_of prefixToken_of).2 htoken)] at hscan
    obtain ⟨w, rfl, rfl⟩ := (literal_of p t r).1 hscan
    refine .copy htoken (ih ?_)
    rintro ⟨w, hw, hin⟩
    exact ht ⟨w, hw, hin.trans (List.suffix_append _ r).isInfix⟩
  | skip c r hscan ih =>
    obtain ⟨hnone, hliteral⟩ := Option.or_eq_none_iff.1 hscan
    refine .keep ((eq_none_iff_of prefixToken_of).1 hnone)
      ((eq_none_iff_of (literal_of p)).1 hliteral p rfl) (ih ?_)
    rintro ⟨w, hw, hin⟩
    exact ht ⟨w, hw, List.infix_cons hin⟩

theorem resolvePrefix_injectPrefix_eq {p q t : Text} (hp : p ≠ []) (ht : ¬prefixExpression <:+: t) :
    resolvePrefix q (injectPrefix p t) =
      (t.substitute ((prefixScan p).rule q)).substitute (prefixToken.rule q) := by
  obtain ⟨x, hx, hexpression⟩ : ∃ x, '\x7b' ∉ x ∧ prefixExpression = '\x7b' :: x := by
    unfold prefixExpression
    rw [String.toList_ofList]
    exact ⟨_, by decide, rfl⟩
  have hreplace := replace_substitute (prefixScan_takes hp) hx (hexpression ▸ ht) q
  rw [← hexpression] at hreplace
  rw [injectPrefix_eq hp]
  exact congrArg (substitute (prefixToken.rule q)) hreplace

/-- A text without expressions goes over to another prefix: there is one text `t'` under that prefix,
and putting expressions into the text and the other prefix in their place gives `t'`, unless it has
tokens left. Under the prefix that it has, a text without tokens comes back. -/
theorem resolvePrefix_injectPrefix (hp : p ≠ []) (ht : ¬prefixExpression <:+: t) (q : Text) :
    ∃ t', (∀ u, Renamed p q t u ↔ u = t') ∧
      (¬HoldsToken t' → resolvePrefix q (injectPrefix p t) = t') ∧
      (¬HoldsToken t → resolvePrefix p (injectPrefix p t) = t) := by
  refine ⟨t.substitute ((prefixScan p).rule q), fun u => renamed_iff hp, ?_, ?_⟩
  · intro hnone
    rw [resolvePrefix_injectPrefix_eq hp ht]
    exact substitute_of_forall_not_infix prefixToken_of fun w hw hin => hnone ⟨w, hw, hin⟩
  · intro hnone
    rw [resolvePrefix_injectPrefix_eq hp ht, ← (renamed_iff hp).1 (renamed_refl hp hnone)]
    exact substitute_of_forall_not_infix prefixToken_of fun w hw hin => hnone ⟨w, hw, hin⟩

/-- An expression that comes about only because the new prefix is empty is left alone. -/
theorem resolvePrefix_bare :
    resolvePrefix [] (injectPrefix "wp_".toList "\x7b$this->wp_\x7bWp_\x7dprefix\x7d".toList) =
        prefixExpression ∧
      resolvePrefix "wp_".toList (injectPrefix "wp_".toList "\x7b$this->wp_\x7dwp\x7d".toList) =
        "\x7b$this->wp_\x7dwp\x7d".toList := by
  have hp : "wp_".toList ≠ [] := by decide
  obtain ⟨t', hunique, hback, -⟩ := resolvePrefix_injectPrefix hp
    (t := "\x7b$this->wp_\x7bWp_\x7dprefix\x7d".toList) (by decide +kernel) []
  have ht' : prefixExpression = t' := (hunique _).1 ((renamed_iff hp).2 (by decide +kernel))
  obtain ⟨-, -, -, hsame⟩ := resolvePrefix_injectPrefix hp
    (t := "\x7b$this->wp_\x7dwp\x7d".toList) (by decide +kernel) []
  constructor
  · rw [ht']
    exact hback (ht' ▸ not_holdsToken_of_tails (by decide +kernel))
  · exact hsame (not_holdsToken_of_tails (by decide +kernel))

end Sql

end SchemaInstaller
