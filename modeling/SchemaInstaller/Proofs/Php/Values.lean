import SchemaInstaller.Proofs.Php.Literals
import SchemaInstaller.Proofs.Text.Replacement

/-!
# What literals say when they run

When a file runs, the expression for the prefix in a literal gives way to the prefix of the site
(`Literal.valueAt`). A statement with expressions is worked out from left to right (`resolved`): a
backtick parts it, an expression becomes the prefix, and without a prefix nothing is longer than it
was written (`resolved_length_le`).
-/

namespace SchemaInstaller.Php

open Sql Text

/-! ## Expressions in a text -/

theorem splitFrom_ne_nil (sep : Text) (skip : Nat) (piece t : Text) :
    splitFrom sep skip piece t ≠ [] := by
  fun_induction splitFrom sep skip piece t <;> simp_all

/-- What has been read of a piece stands before it. -/
theorem splitFrom_piece (sep : Text) (skip : Nat) (piece t : Text) :
    splitFrom sep skip piece t = (splitFrom sep skip [] t).modifyHead (piece.reverse ++ ·) := by
  induction t generalizing skip piece with
  | nil => simp [splitFrom]
  | cons c r ih =>
    cases skip with
    | succ n => rw [splitFrom, splitFrom, ih]
    | zero =>
      rw [splitFrom, splitFrom]
      split
      · simp
      · rw [ih 0 (c :: piece), ih 0 [c]]
        cases splitFrom sep 0 [] r <;> simp

theorem splitFrom_skip (sep x r : Text) :
    splitFrom sep x.length [] (x ++ r) = splitFrom sep 0 [] r := by
  induction x with
  | nil => rfl
  | cons c x ih => exact ih

/-- A separator ends a piece. -/
theorem splitFrom_append {sep : Text} (hsep : sep ≠ []) (r : Text) :
    splitFrom sep 0 [] (sep ++ r) = [] :: splitFrom sep 0 [] r := by
  obtain ⟨c, s, rfl⟩ := List.exists_cons_of_ne_nil hsep
  have hprefix : (c :: s).isPrefixOf (c :: (s ++ r)) = true :=
    List.isPrefixOf_iff_prefix.2 (List.prefix_append (c :: s) r)
  rw [List.cons_append, splitFrom, if_pos hprefix]
  exact congrArg ([] :: ·) (splitFrom_skip (c :: s) s r)

/-- A character that begins no expression. -/
theorem atoms_cons {c : Char} {r : Text} (h : ¬prefixExpression <+: c :: r) :
    atoms (c :: r) = some c :: atoms r := by
  have hfalse : prefixExpression.isPrefixOf (c :: r) = false := by
    rw [← Bool.not_eq_true, List.isPrefixOf_iff_prefix]
    exact h
  unfold atoms splitOn
  rw [splitFrom, hfalse, if_neg Bool.false_ne_true, splitFrom_piece]
  cases hsplit : splitFrom prefixExpression 0 [] r with
  | nil => exact absurd hsplit (splitFrom_ne_nil _ _ _ _)
  | cons u us => cases us <;> simp

/-- An expression. -/
theorem atoms_prefixExpression (r : Text) : atoms (prefixExpression ++ r) = none :: atoms r := by
  unfold atoms splitOn
  rw [splitFrom_append prefixExpression_ne_nil]
  cases hrest : splitFrom prefixExpression 0 [] r with
  | nil => exact absurd hrest (splitFrom_ne_nil _ _ _ _)
  | cons u us => simp

/-! ## Values -/

/-- What a literal says on a site with a prefix. -/
def Literal.valueAt (q : Text) (l : Literal) : Text :=
  l.content.flatMap fun e => match e with
    | .text c => [c]
    | .live e => if e = prefixExpression then q else e
    | _ => []

/-- A statement as the host gets it on a site with a prefix. -/
def resolved (q t : Text) : Text :=
  (atoms t).flatMap fun a => match a with
    | none => q
    | some c => withoutReturn c

theorem valueAt_spliced (q : Text) (place : Place) (t : Text) :
    Literal.valueAt q ⟨place, spliced withoutReturn t⟩ = resolved q t := by
  have hatom : ∀ a, (foundAtom withoutReturn a).flatMap (fun e => match e with
      | .text c => [c]
      | .live e => if e = prefixExpression then q else e
      | _ => []) = match a with
        | none => q
        | some c => withoutReturn c := by
    intro a
    cases a with
    | none => simp [foundAtom]
    | some c => simp [foundAtom, List.flatMap_map]
  unfold Literal.valueAt spliced resolved
  rw [List.flatMap_assoc]
  exact congrArg (List.flatMap · (atoms t)) (funext hatom)

theorem resolved_cons (q : Text) {c : Char} {r : Text} (h : ¬prefixExpression <+: c :: r) :
    resolved q (c :: r) = withoutReturn c ++ resolved q r := by
  unfold resolved
  rw [atoms_cons h, List.flatMap_cons]

theorem resolved_prefixExpression (q r : Text) :
    resolved q (prefixExpression ++ r) = q ++ resolved q r := by
  unfold resolved
  rw [atoms_prefixExpression, List.flatMap_cons]

/-- A text is empty, or begins with an expression, or with a character that begins none. -/
theorem expression_induction {P : Text → Prop} (nil : P [])
    (expression : ∀ r, P r → P (prefixExpression ++ r))
    (cons : ∀ c r, ¬prefixExpression <+: c :: r → P r → P (c :: r)) (t : Text) : P t := by
  have hliteral := Scan.literal_of prefixExpression
  induction t using (hliteral.takes prefixExpression_ne_nil.symm).induction with
  | nil => exact nil
  | found t r hscan ih =>
    obtain ⟨w, rfl, rfl⟩ := (hliteral t r).1 hscan
    exact expression r ih
  | skip c r hscan ih => exact cons c r ((eq_none_iff_of hliteral).1 hscan _ rfl) ih

/-- A character that no expression has parts a statement. -/
theorem resolved_append_cons {c : Char} (hc : c ∉ prefixExpression) (hreturn : c ≠ '\r')
    (q t r : Text) : resolved q (t ++ c :: r) = resolved q t ++ c :: resolved q r := by
  induction t using expression_induction with
  | nil =>
    have hnone : ¬prefixExpression <+: c :: r := by
      rw [prefixExpression_eq] at hc ⊢
      intro hprefix
      exact hc ((List.cons_prefix_cons.1 hprefix).1 ▸ List.mem_cons_self)
    rw [List.nil_append, resolved_cons q hnone, withoutReturn, if_neg hreturn]
    rfl
  | expression t ih =>
    rw [List.append_assoc, resolved_prefixExpression, resolved_prefixExpression, ih,
      List.append_assoc]
  | cons d t hd ih =>
    have hnone : ¬prefixExpression <+: d :: (t ++ c :: r) := fun h =>
      hd (prefix_of_prefix_append_cons hc (t := d :: t) h)
    rw [List.cons_append, resolved_cons q hnone, resolved_cons q hd, ih, List.append_assoc]

theorem resolved_backtick (q t r : Text) :
    resolved q (t ++ '\x60' :: r) = resolved q t ++ '\x60' :: resolved q r := by
  exact resolved_append_cons backtick_notMem_prefixExpression (by decide) q t r

/-- A text that comes out as it is: it has neither an expression nor a carriage return. -/
def IsVerbatim (t : Text) : Prop := ¬prefixExpression <:+: t ∧ '\r' ∉ t

theorem isVerbatim_of_not_mem {t : Text} (hbrace : '\x7b' ∉ t) (hreturn : '\r' ∉ t) :
    IsVerbatim t := by
  refine ⟨fun h => hbrace (h.subset ?_), hreturn⟩
  rw [prefixExpression_eq]
  exact List.mem_cons_self

theorem resolved_of_isVerbatim {t : Text} (h : IsVerbatim t) (q : Text) : resolved q t = t := by
  induction t with
  | nil => rfl
  | cons c r ih =>
    have hc : c ≠ '\r' := fun hc => h.2 (hc ▸ List.mem_cons_self)
    have hrest : IsVerbatim r :=
      ⟨fun hin => h.1 (List.infix_cons hin), fun hr => h.2 (List.mem_cons_of_mem c hr)⟩
    rw [resolved_cons q fun hpre => h.1 hpre.isInfix, withoutReturn, if_neg hc, ih hrest]
    rfl

theorem resolved_append {x : Text} (hbrace : '\x7b' ∉ x) (hreturn : '\r' ∉ x) (q w : Text) :
    resolved q (x ++ w) = x ++ resolved q w := by
  induction x with
  | nil => rfl
  | cons c x ih =>
    have hc : ¬prefixExpression <+: c :: (x ++ w) := fun h =>
      hbrace (eq_brace_of_expression h ▸ List.mem_cons_self)
    have hr : c ≠ '\r' := fun hr => hreturn (hr ▸ List.mem_cons_self)
    rw [List.cons_append, resolved_cons q hc, withoutReturn, if_neg hr,
      ih (fun h => hbrace (List.mem_cons_of_mem c h)) fun h => hreturn (List.mem_cons_of_mem c h)]
    rfl

/-- Characters that neither an expression nor the prefix has may be written twice before or after. -/
theorem resolved_doubled {p : Char → Bool} {q : Text} (hq : ∀ c ∈ q, p c = false)
    (hexpression : ∀ c ∈ prefixExpression, p c = false) (hreturn : p '\r' = false) (t : Text) :
    resolved q (doubled p t) = doubled p (resolved q t) := by
  induction t using expression_induction with
  | nil => rfl
  | expression r ih =>
    rw [doubled_append, doubled_of_forall hexpression, resolved_prefixExpression,
      resolved_prefixExpression, ih, doubled_append, doubled_of_forall hq]
  | cons c r hc ih =>
    rw [resolved_cons q hc]
    cases hp : p c with
    | false =>
      have hnone : ¬prefixExpression <+: c :: doubled p r := by
        rw [← doubled_cons_of_false hp]
        exact fun hprefix => hc (prefix_of_prefix_doubled hexpression hprefix)
      have hone : doubled p (withoutReturn c) = withoutReturn c := by
        unfold withoutReturn
        split
        · rfl
        · exact doubled_of_forall (List.forall_mem_singleton.2 hp)
      rw [doubled_cons_of_false hp, resolved_cons q hnone, ih, doubled_append, hone]
    | true =>
      have hout : c ∉ prefixExpression := by
        intro hin
        rw [hexpression c hin] at hp
        cases hp
      have hother : c ≠ '\r' := by
        rintro rfl
        rw [hreturn] at hp
        cases hp
      have hparts := resolved_append_cons hout hother q []
      rw [doubled_cons_of_true hp, ← List.nil_append (c :: c :: _), hparts,
        ← List.nil_append (c :: doubled p r), hparts, ih, withoutReturn, if_neg hother,
        doubled_append, doubled_cons_of_true hp]
      rfl

/-! ## Without a prefix -/

/-- Where the prefix is empty, a text gets shorter unless it comes out as it is. -/
theorem resolved_length (t : Text) :
    (resolved [] t).length ≤ t.length ∧ (t.length ≤ (resolved [] t).length → IsVerbatim t) := by
  induction t using expression_induction with
  | nil =>
    refine ⟨Nat.le_refl _, fun _ => ⟨fun h => ?_, List.not_mem_nil⟩⟩
    rw [prefixExpression_eq] at h
    cases List.infix_nil.1 h
  | expression r ih =>
    have hlen : (prefixExpression ++ r).length = 15 + r.length := by
      rw [prefixExpression_eq, List.length_append]
      rfl
    rw [resolved_prefixExpression, List.nil_append, hlen]
    exact ⟨by omega, by omega⟩
  | cons c r hc ih =>
    rw [resolved_cons [] hc, List.length_append, List.length_cons]
    unfold withoutReturn
    by_cases hr : c = '\r'
    · rw [if_pos hr, List.length_nil]
      exact ⟨by omega, by omega⟩
    · rw [if_neg hr, List.length_singleton]
      refine ⟨by omega, fun hle => ?_⟩
      obtain ⟨hexpr, hreturn⟩ := ih.2 (by omega)
      refine ⟨fun hin => ?_, fun hin => ?_⟩
      · rcases List.infix_cons_iff.1 hin with hin | hin
        · exact hc hin
        · exact hexpr hin
      · rcases List.mem_cons.1 hin with hin | hin
        · exact hr hin.symm
        · exact hreturn hin

/-- One more character makes a text longer by one at most. -/
theorem resolved_cons_length_le (c : Char) (r : Text) :
    (resolved [] (c :: r)).length ≤ (resolved [] r).length + 1 := by
  by_cases h : prefixExpression <+: c :: r
  · obtain ⟨w, hw⟩ := h
    have htail : prefixExpression = '\x7b' :: prefixExpression.tail := by
      rw [prefixExpression_eq]
      rfl
    have hr : r = prefixExpression.tail ++ w := by
      rw [htail] at hw
      exact (List.cons.inj hw).2.symm
    have hbrace : '\x7b' ∉ prefixExpression.tail := by
      rw [prefixExpression_eq]
      decide
    have hreturn : '\r' ∉ prefixExpression.tail := by
      rw [prefixExpression_eq]
      decide
    rw [← hw, resolved_prefixExpression, List.nil_append, hr, resolved_append hbrace hreturn,
      List.length_append]
    omega
  · rw [resolved_cons [] h, List.length_append]
    unfold withoutReturn
    split
    · rw [List.length_nil]
      omega
    · rw [List.length_singleton]
      omega

end SchemaInstaller.Php
