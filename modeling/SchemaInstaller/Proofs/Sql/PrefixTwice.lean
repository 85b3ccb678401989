import SchemaInstaller.Proofs.Sql.Renaming
import SchemaInstaller.Proofs.Text.Occurrences

/-!
# Putting the prefix twice

After the expression has been put into a text no token is left, so a second time only copies of the
prefix itself could give way (`injectPrefix_injectPrefix_iff`). The first time has left none of
those that were there. Others come about just if the prefix fits together with the expression in one
of five ways (`Clashes`): `clashes_of_isInfix` goes through the ways for a word to arise, and for each
of the five there is a text that shows it (`exists_isInfix_of_clashes`). Then the expression is
written into an expression. Of the prefixes without braces only the parts of the expression do that
(`clashes_iff_isInfix`).
-/

namespace SchemaInstaller.Sql

open Scan Text

variable {p t : Text}

/-! ## Tokens and expressions -/

theorem IsToken.exists_cons {w : Text} (h : IsToken w) :
    ∃ c r, w = '\x7b' :: c :: r ∧ c ≠ '$' ∧ '\x7b' ∉ c :: r := by
  obtain ⟨a, v, rfl, ha, hv⟩ := List.map_eq_cons_iff.1 h
  obtain rfl := eq_of_toLower_eq (by decide) ha
  have hbrace : '\x7b' ∉ v := by
    intro hmem
    have := List.mem_map_of_mem (f := Char.toLower) hmem
    rw [hv] at this
    revert this
    decide
  obtain ⟨c, r, rfl, hc, -⟩ := List.map_eq_cons_iff.1 hv
  refine ⟨c, r, rfl, ?_, hbrace⟩
  rintro rfl
  revert hc
  decide

theorem prefixExpression_eq_cons :
    ∃ x, prefixExpression = '\x7b' :: '$' :: x ∧ '\x7b' ∉ '$' :: x := by
  unfold prefixExpression
  rw [String.toList_ofList]
  exact ⟨_, rfl, by decide⟩

theorem length_prefixExpression : prefixExpression.length = 15 := by
  unfold prefixExpression
  rw [String.toList_ofList]
  rfl

theorem HoldsToken.mono {u : Text} (h : HoldsToken t) (hin : t <:+: u) : HoldsToken u := by
  obtain ⟨w, hw, hwt⟩ := h
  exact ⟨w, hw, hwt.trans hin⟩

/-- In a text without tokens none is taken anywhere. -/
theorem prefixToken_eq_none {b : Text} (ht : ¬HoldsToken t) (hb : b <:+ t) :
    prefixToken b = none :=
  (eq_none_iff_of prefixToken_of).2 fun w hw hprefix =>
    ht ⟨w, hw, hprefix.isInfix.trans hb.isInfix⟩

/-- No token begins like the expression. -/
theorem IsToken.not_prefix_append {w : Text} (h : IsToken w) (r : Text) :
    ¬w <+: prefixExpression ++ r := by
  obtain ⟨c, v, rfl, hc, -⟩ := h.exists_cons
  obtain ⟨x, hx, -⟩ := prefixExpression_eq_cons
  rw [hx]
  intro hprefix
  exact hc (List.cons_prefix_cons.1 (List.cons_prefix_cons.1 hprefix).2).1

/-- Where a scan takes every token and the expression is put, no token comes about. -/
theorem not_holdsToken_substitute {s : Scan} (hs : s.Takes)
    (htokens : ∀ t, s t = none → prefixToken t = none) (t : Text) :
    ¬HoldsToken (t.substitute (s.rule prefixExpression)) := by
  rintro ⟨w, hw, hin⟩
  obtain ⟨c, z, hcons, -, hbrace⟩ := hw.exists_cons
  obtain ⟨x, hx, hrest⟩ := prefixExpression_eq_cons
  have hne : w ≠ [] := hcons ▸ List.cons_ne_nil _ _
  cases arises_of_isInfix hs hne hin with
  | @kept b _ hkeeps =>
    have hnone := htokens _ (hkeeps.eq_none hne)
    rw [prefixToken_of.eq_some hw b] at hnone
    cases hnone
  | @inside y r hy hnew hprefix =>
    -- of the ends of an expression only the whole one has the brace that a token begins with
    rw [hx] at hnew
    rcases List.suffix_cons_iff.1 hnew with rfl | hsuffix
    · exact hw.not_prefix_append r (hx ▸ hprefix)
    · obtain ⟨d, y, rfl⟩ := List.exists_cons_of_ne_nil hy
      rw [hcons, List.cons_append] at hprefix
      obtain ⟨rfl, -⟩ := List.cons_prefix_cons.1 hprefix
      exact hrest (hsuffix.subset List.mem_cons_self)
  | @reaching v u b r hsplit hu _ _ _ hstart =>
    -- and of the ends of a token
    obtain ⟨d, u, rfl⟩ := List.exists_cons_of_ne_nil hu
    have hd : d = '\x7b' := by
      rw [hx] at hstart
      exact (List.cons_prefix_cons.1 hstart).1
    subst hd
    rcases List.append_eq_cons_iff.1 (hsplit.symm.trans hcons) with ⟨rfl, -⟩ | ⟨v', -, htail⟩
    · rw [List.nil_append] at hsplit
      exact hw.not_prefix_append _ (hsplit ▸ hstart)
    · exact hbrace (htail ▸ List.mem_append_right v' List.mem_cons_self)

theorem injectPrefix_nil (t : Text) :
    injectPrefix [] t = t.substitute (prefixToken.rule prefixExpression) := by
  have hrule : orElse prefixToken (fun _ => none) = prefixToken := by
    funext t
    exact Option.or_none
  show t.substitute ((orElse prefixToken fun _ => none).rule prefixExpression) = _
  rw [hrule]

/-- What the expression has been put into holds no token. -/
theorem not_holdsToken_injectPrefix (p t : Text) : ¬HoldsToken (injectPrefix p t) := by
  rcases eq_or_ne p [] with rfl | hp
  · rw [injectPrefix_nil]
    exact not_holdsToken_substitute prefixToken_takes (fun _ h => h) t
  · rw [injectPrefix_eq hp]
    exact not_holdsToken_substitute (prefixScan_takes hp)
      (fun t h => (Option.or_eq_none_iff.1 h).1) t

/-- In a text without tokens the copies of the prefix give way. -/
theorem injectPrefix_of_not_holdsToken (hp : p ≠ []) (ht : ¬HoldsToken t) :
    injectPrefix p t = Text.replace p prefixExpression t := by
  have hcopies := literal_of p
  have hnone : ∀ b, b <:+ t → prefixToken b = none := fun b hb => prefixToken_eq_none ht hb
  rw [injectPrefix_eq hp]
  show substitute ((prefixScan p).rule _) t = substitute ((literal p).rule _) t
  clear ht
  induction t using (hcopies.takes hp.symm).induction with
  | nil => rfl
  | found t r hscan ih =>
    have hfound := hscan
    rw [← prefixScan_of_none (hnone t (List.suffix_refl t))] at hfound
    obtain ⟨w, -, rfl⟩ := (hcopies t r).1 hscan
    rw [substitute_of_some (prefixScan_takes hp) hfound,
      substitute_of_some (hcopies.takes hp.symm) hscan,
      ih fun b hb => hnone b (hb.trans (List.suffix_append w r))]
  | skip c r hscan ih =>
    have hskip := hscan
    rw [← prefixScan_of_none (hnone _ (List.suffix_refl _))] at hskip
    rw [substitute_of_none hskip, substitute_of_none hscan,
      ih fun b hb => hnone b (hb.trans (List.suffix_cons c r))]

/-- The second time changes nothing just if the first has left no copy of the prefix, unless the
prefix is empty or the expression itself. -/
theorem injectPrefix_injectPrefix_iff (p t : Text) :
    injectPrefix p (injectPrefix p t) = injectPrefix p t ↔
      p = [] ∨ p = prefixExpression ∨ ¬p <:+: injectPrefix p t := by
  have hnone := not_holdsToken_injectPrefix p t
  rcases eq_or_ne p [] with rfl | hp
  · refine iff_of_true ?_ (Or.inl rfl)
    rw [injectPrefix_nil (injectPrefix [] t)]
    exact substitute_of_forall_not_infix prefixToken_of fun w hw hin => hnone ⟨w, hw, hin⟩
  · rw [injectPrefix_of_not_holdsToken hp hnone, eq_comm (a := p) (b := prefixExpression)]
    exact (replace_eq_self_iff hp).trans (or_iff_right hp).symm

/-! ## Clashes -/

/-- A prefix of which there can be a copy where the expression has been put. -/
inductive Clashes (p : Text) : Prop
  /-- The expression holds the prefix. -/
  | inside (h : p <:+: prefixExpression)
  /-- The prefix holds the expression. -/
  | around (h : prefixExpression <:+: p)
  /-- The prefix begins like the expression ends. -/
  | behind {u v : Text} (hsplit : p = u ++ v) (hu : u ≠ []) (h : u <:+ prefixExpression)
  /-- The prefix ends with the first characters of the expression, at least two. -/
  | before {v u : Text} (hsplit : p = v ++ u) (h : u <+: prefixExpression) (hlen : 2 ≤ u.length)
  /-- The prefix ends with the brace of the expression, and what stands before the brace stays where
  it stands before the whole prefix. -/
  | brace {v : Text} (hsplit : p = v ++ ['\x7b']) (hhead : v.head? ≠ some '\x7b')
    (htoken : ¬HoldsToken (v ++ p))

theorem prefixScan_eq_none_iff :
    prefixScan p t = none ↔ prefixToken t = none ∧ ¬p <+: t := by
  refine Option.or_eq_none_iff.trans (and_congr_right fun _ => ?_)
  exact (eq_none_iff_of (literal_of p)).trans forall_eq

section Arises

variable (hp : p ≠ []) (htoken : ¬HoldsToken p)
include htoken

/-- The prefix clashes with the expression also if they share no more than the brace. -/
theorem clashes_of_brace {v b r : Text} (hsplit : p = v ++ ['\x7b'])
    (hkeeps : (prefixScan p).Keeps v b) (hfound : prefixScan p b = some r) : Clashes p := by
  rcases eq_or_ne v [] with rfl | hv
  · obtain ⟨x, hx, -⟩ := prefixExpression_eq_cons
    exact .inside (hsplit ▸ hx ▸ ⟨[], '$' :: x, rfl⟩)
  -- a brace behind `v` would make a copy of the prefix, which would have given way
  have hbrace : ∀ z, b ≠ '\x7b' :: z := by
    rintro z rfl
    refine (prefixScan_eq_none_iff.1 (hkeeps.eq_none hv)).2 ⟨z, ?_⟩
    rw [hsplit, List.append_assoc]
    rfl
  rcases Option.or_eq_some_iff.1 hfound with hfound | ⟨-, hfound⟩
  · obtain ⟨w, hw, rfl⟩ := (prefixToken_of b r).1 hfound
    obtain ⟨e, z, rfl, -, -⟩ := hw.exists_cons
    exact absurd rfl (hbrace _)
  obtain rfl : p ++ r = b := List.isPrefixOf?_eq_some_iff_append_eq.1 hfound
  refine .brace hsplit ?_ ?_
  · intro hhead
    obtain ⟨z, rfl⟩ := List.head?_eq_some_iff.1 hhead
    refine hbrace (z ++ ['\x7b'] ++ r) ?_
    rw [hsplit]
    rfl
  · rintro ⟨w, hw, hin⟩
    rcases List.infix_append_iff.1 hin with hin | hin | ⟨y, z, rfl, ⟨a, rfl⟩, hz⟩
    · exact htoken ⟨w, hw, hin.trans (hsplit ▸ (List.prefix_append v _).isInfix)⟩
    · exact htoken ⟨w, hw, hin⟩
    · rcases eq_or_ne y [] with rfl | hy
      · exact htoken ⟨z, hw, hz.isInfix⟩
      · have hnone := (prefixScan_eq_none_iff.1 (hkeeps a y rfl hy)).1
        refine (eq_none_iff_of prefixToken_of).1 hnone _ hw ?_
        exact (List.prefix_append_right_inj y).2 (List.prefix_append_of_prefix hz)

include hp

/-- The prefix is in a text that the expression has been put into only if they clash. -/
theorem clashes_of_isInfix (h : p <:+: injectPrefix p t) : Clashes p := by
  rw [injectPrefix_eq hp] at h
  cases arises_of_isInfix (s := prefixScan p) (prefixScan_takes hp) hp h with
  | @kept b _ hkeeps =>
    exact absurd (List.prefix_append p b) (prefixScan_eq_none_iff.1 (hkeeps.eq_none hp)).2
  | @inside y r hy hnew hprefix =>
    rcases List.prefix_or_prefix_of_prefix hprefix (List.prefix_append y r) with hin | ⟨v, hv⟩
    · exact .inside (hin.isInfix.trans hnew.isInfix)
    · exact .behind hv.symm hy hnew
  | @reaching v u b r hsplit hu _ hkeeps hfound hstart =>
    have hsuffix : u <:+ p := ⟨v, hsplit.symm⟩
    rcases List.prefix_or_prefix_of_prefix hstart (List.prefix_append _ _) with hstart | haround
    · match u, hu with
      | c :: d :: z, _ => exact .before hsplit hstart (by simp)
      | [c], _ =>
        obtain ⟨x, hx, -⟩ := prefixExpression_eq_cons
        obtain rfl : c = '\x7b' := (List.cons_prefix_cons.1 (hx ▸ hstart)).1
        exact clashes_of_brace htoken hsplit hkeeps hfound
    · exact .around (haround.isInfix.trans hsuffix.isInfix)

end Arises

/-! ## Texts that show a clash -/

/-- The token as it is written. -/
def token : Text := ['\x7b', 'w', 'p', '_', '\x7d']

theorem isToken_token : IsToken token := by
  unfold IsToken
  decide

/-- In front of a brace a text without tokens stays, unless a copy of the prefix begins in it. -/
theorem keeps_of_not_holdsToken {v z : Text} (htoken : ¬HoldsToken v)
    (hcopy : ∀ x y, v = x ++ y → y ≠ [] → ¬p <+: y ++ '\x7b' :: z) :
    (prefixScan p).Keeps v ('\x7b' :: z) := by
  intro x y hv hy
  refine prefixScan_eq_none_iff.2 ⟨?_, hcopy x y hv hy⟩
  refine (eq_none_iff_of prefixToken_of).2 fun w hw hprefix => htoken ⟨w, hw, ?_⟩
  obtain ⟨c, r, rfl, -, hbrace⟩ := hw.exists_cons
  obtain ⟨d, y, rfl⟩ := List.exists_cons_of_ne_nil hy
  obtain ⟨rfl, hrest⟩ := List.cons_prefix_cons.1 hprefix
  have hin : '\x7b' :: c :: r <+: '\x7b' :: y :=
    List.cons_prefix_cons.2 ⟨rfl, prefix_of_prefix_append_cons hbrace hrest⟩
  exact hin.isInfix.trans (hv ▸ (List.suffix_append x _).isInfix)

/-- In a part of the prefix that is not the whole there is nothing to give way. -/
theorem not_holdsPrefix_of_isInfix {r : Text} (htoken : ¬HoldsToken p) (hin : r <:+: p)
    (hlen : r.length < p.length) : ¬HoldsPrefix p r := by
  rintro (hcopy | ⟨b, hb, hsome⟩)
  · exact absurd hcopy.length_le (Nat.not_le.2 hlen)
  · rw [prefixToken_eq_none (fun h => htoken (h.mono hin)) hb] at hsome
    cases hsome

/-- The expression is put in one place, between parts that stay. -/
theorem injectPrefix_of_keeps (hp : p ≠ []) {v b r : Text} (hv : (prefixScan p).Keeps v b)
    (hfound : prefixScan p b = some r) (hr : ¬HoldsPrefix p r) :
    injectPrefix p (v ++ b) = v ++ (prefixExpression ++ r) := by
  have hrest := injectPrefix_of_not_holdsPrefix hp hr
  rw [injectPrefix_eq hp] at hrest ⊢
  calc substitute ((prefixScan p).rule prefixExpression) (v ++ b)
      = v ++ substitute ((prefixScan p).rule prefixExpression) b := substitute_append hv
    _ = v ++ (prefixExpression ++ substitute ((prefixScan p).rule prefixExpression) r) := by
      rw [substitute_of_some (prefixScan_takes hp) hfound]
    _ = v ++ (prefixExpression ++ r) := congrArg (fun u => v ++ (prefixExpression ++ u)) hrest

/-- The expression is put in the place of a token. -/
theorem injectPrefix_append_token (hp : p ≠ []) {v r : Text}
    (hv : (prefixScan p).Keeps v (token ++ r)) (hr : ¬HoldsPrefix p r) :
    injectPrefix p (v ++ (token ++ r)) = v ++ (prefixExpression ++ r) :=
  injectPrefix_of_keeps hp hv (prefixScan_of_token (prefixToken_of.eq_some isToken_token r)) hr

section Shown

variable (hp : p ≠ []) (htoken : ¬HoldsToken p)
include hp htoken

/-- A prefix that holds the expression comes out of a text that has a token in its place. -/
theorem injectPrefix_around {a b : Text} (hsplit : p = a ++ (prefixExpression ++ b)) :
    injectPrefix p (a ++ (token ++ b)) = p := by
  have hlen := length_prefixExpression
  have hb : b.length < p.length := by
    simp only [hsplit, List.length_append]
    omega
  have ha : a <:+: p := hsplit ▸ (List.prefix_append a _).isInfix
  have hbin : b <:+: p := by
    rw [hsplit, ← List.append_assoc]
    exact (List.suffix_append _ b).isInfix
  -- a copy is longer than what the token stands in
  have hcopy : ∀ x y, a = x ++ y → y ≠ [] →
      ¬p <+: y ++ '\x7b' :: (['w', 'p', '_', '\x7d'] ++ b) := by
    rintro x y rfl - hprefix
    have hle := hprefix.length_le
    simp only [hsplit, List.length_append, List.length_cons, List.length_nil] at hle
    omega
  have hkeeps := keeps_of_not_holdsToken (fun h => htoken (h.mono ha)) hcopy
  rw [injectPrefix_append_token hp hkeeps (not_holdsPrefix_of_isInfix htoken hbin hb), hsplit]

/-- A prefix that ends like the expression begins comes out where its other part stands in front
of a token. -/
theorem injectPrefix_before {v u : Text} (hsplit : p = v ++ u) (h : u <+: prefixExpression)
    (hlen : 2 ≤ u.length) :
    injectPrefix p (v ++ (token ++ [])) = v ++ (prefixExpression ++ []) := by
  have hdollar : '$' ∈ u := by
    obtain ⟨z, hz, -⟩ := prefixExpression_eq_cons
    match u, hlen with
    | c :: d :: z, _ =>
      rw [hz] at h
      rw [(List.cons_prefix_cons.1 (List.cons_prefix_cons.1 h).2).1]
      simp
  -- a copy that begins in `v` would have the second character of the expression in the token
  have hcopy : ∀ x y, v = x ++ y → y ≠ [] → ¬p <+: y ++ token := by
    rintro x y rfl - ⟨r, hr⟩
    rw [hsplit, List.append_assoc] at hr
    have hin : u ++ r <:+ token := by
      rcases List.append_eq_append_iff.1 hr with ⟨a, hy, ha⟩ | ⟨a, -, ha⟩
      · have hlen := congrArg List.length hy
        simp only [List.length_append] at hlen
        have hnil : a = [] := List.length_eq_zero_iff.1 (by omega)
        rw [ha, hnil]
        exact List.suffix_refl token
      · exact ⟨a, ha.symm⟩
    have hmem : '$' ∈ token := hin.subset (List.mem_append_left r hdollar)
    revert hmem
    decide
  have hv : v <:+: p := hsplit ▸ (List.prefix_append v u).isInfix
  exact injectPrefix_append_token hp
    (keeps_of_not_holdsToken (fun h => htoken (h.mono hv)) hcopy) (not_holdsPrefix_nil hp)

/-- A prefix that ends with a brace comes out where what stands before the brace stands before the
prefix. -/
theorem injectPrefix_brace {v : Text} (hsplit : p = v ++ ['\x7b']) (hhead : v.head? ≠ some '\x7b')
    (htwice : ¬HoldsToken (v ++ p)) : injectPrefix p (v ++ p) = v ++ prefixExpression := by
  have hkeeps : (prefixScan p).Keeps v p := by
    rintro x y rfl hy
    refine prefixScan_eq_none_iff.2 ⟨?_, ?_⟩
    · rw [List.append_assoc] at htwice
      exact prefixToken_eq_none htwice (List.suffix_append x _)
    -- a copy there makes `x` and `y` change places, and `y` begins with the brace
    · rintro ⟨r, hr⟩
      rw [hsplit] at hr
      simp only [List.append_assoc] at hr
      rw [← List.append_assoc, ← List.append_assoc y] at hr
      obtain ⟨hswap, hend⟩ := List.append_inj hr (by simp [Nat.add_comm])
      obtain ⟨d, y, rfl⟩ := List.exists_cons_of_ne_nil hy
      obtain ⟨rfl, -⟩ := List.cons_eq_cons.1 hend
      exact hhead (hswap ▸ rfl)
  have hnone : prefixToken p = none := prefixToken_eq_none htoken (List.suffix_refl p)
  have hfound : prefixScan p p = some [] := by
    have hliteral := (literal_of p).eq_some rfl []
    rw [List.append_nil] at hliteral
    rw [prefixScan_of_none hnone, hliteral]
  rw [injectPrefix_of_keeps hp hkeeps hfound (not_holdsPrefix_nil hp), List.append_nil]

/-- A prefix that clashes with the expression is in a text that the expression has been put into. -/
theorem exists_isInfix_of_clashes (h : Clashes p) : ∃ t, p <:+: injectPrefix p t := by
  cases h with
  | inside h =>
    refine ⟨[] ++ (token ++ []), ?_⟩
    rw [injectPrefix_append_token hp (Keeps.nil _ _) (not_holdsPrefix_nil hp), List.append_nil]
    exact h
  | around h =>
    obtain ⟨a, b, hsplit⟩ := h
    rw [List.append_assoc] at hsplit
    refine ⟨a ++ (token ++ b), ?_⟩
    rw [injectPrefix_around hp htoken hsplit.symm]
  | @behind u v hsplit hu h =>
    have hv : v.length < p.length := by
      have := List.length_pos_iff.2 hu
      rw [hsplit, List.length_append]
      omega
    have hrest : ¬HoldsPrefix p v :=
      not_holdsPrefix_of_isInfix htoken (hsplit ▸ (List.suffix_append u v).isInfix) hv
    obtain ⟨x, hx⟩ := h
    refine ⟨[] ++ (token ++ v), ?_⟩
    rw [injectPrefix_append_token hp (Keeps.nil _ _) hrest, hsplit, List.nil_append, ← hx,
      List.append_assoc]
    exact (List.suffix_append x _).isInfix
  | @before v u hsplit h hlen =>
    refine ⟨v ++ (token ++ []), ?_⟩
    rw [injectPrefix_before hp htoken hsplit h hlen, List.append_nil, hsplit]
    exact ((List.prefix_append_right_inj v).2 h).isInfix
  | @brace v hsplit hhead htwice =>
    have hbrace : ['\x7b'] <+: prefixExpression := by
      obtain ⟨z, hz, -⟩ := prefixExpression_eq_cons
      exact ⟨'$' :: z, hz.symm⟩
    refine ⟨v ++ p, ?_⟩
    rw [injectPrefix_brace hp htoken hsplit hhead htwice, hsplit]
    exact ((List.prefix_append_right_inj v).2 hbrace).isInfix

end Shown

/-! ## Every text -/

theorem forall_injectPrefix_injectPrefix_iff (p : Text) :
    (∀ t, injectPrefix p (injectPrefix p t) = injectPrefix p t) ↔
      p = [] ∨ p = prefixExpression ∨ HoldsToken p ∨ ¬Clashes p := by
  simp only [injectPrefix_injectPrefix_iff, forall_or_left]
  rcases eq_or_ne p [] with rfl | hp
  · exact iff_of_true (Or.inl rfl) (Or.inl rfl)
  refine or_congr_right (or_congr_right ⟨fun hnone => ?_, fun h t hcopy => ?_⟩)
  · by_contra! hclash
    obtain ⟨htoken, hclash⟩ := hclash
    obtain ⟨t, hin⟩ := exists_isInfix_of_clashes hp htoken hclash
    exact hnone t hin
  · have htoken : ¬HoldsToken p := fun hholds => not_holdsToken_injectPrefix p t (hholds.mono hcopy)
    rcases h with hholds | hclash
    · exact htoken hholds
    · exact hclash (clashes_of_isInfix hp htoken hcopy)

/-- A prefix without braces clashes with the expression just if it is a part of it. -/
theorem clashes_iff_isInfix (hopen : '\x7b' ∉ p) (hclose : '\x7d' ∉ p) :
    Clashes p ↔ p <:+: prefixExpression := by
  obtain ⟨x, hx, -⟩ := prefixExpression_eq_cons
  refine ⟨fun h => ?_, .inside⟩
  cases h with
  | inside h => exact h
  | around h => exact absurd (h.subset (hx ▸ List.mem_cons_self)) hopen
  | @behind u v hsplit hu h =>
    obtain ⟨z, hz⟩ : ∃ z, prefixExpression = z ++ ['\x7d'] := by
      unfold prefixExpression
      rw [String.toList_ofList]
      exact ⟨"\x7b$this->prefix".toList, by rw [String.toList_ofList]; rfl⟩
    have hlast : ['\x7d'] <:+ u :=
      List.suffix_of_suffix_length_le ⟨z, hz.symm⟩ h (List.length_pos_iff.2 hu)
    exact absurd (hsplit ▸ List.mem_append_left v (hlast.subset List.mem_cons_self)) hclose
  | @before v u hsplit h hlen =>
    obtain ⟨c, u, rfl⟩ := List.exists_cons_of_length_pos (Nat.lt_of_lt_of_le Nat.two_pos hlen)
    obtain rfl : c = '\x7b' := (List.cons_prefix_cons.1 (hx ▸ h)).1
    exact absurd (hsplit ▸ List.mem_append_right v List.mem_cons_self) hopen
  | @brace v hsplit _ _ =>
    exact absurd (hsplit ▸ List.mem_append_right v List.mem_cons_self) hopen

/-- With a prefix as sites have it, without braces, only a part of the expression is put twice. -/
theorem forall_injectPrefix_injectPrefix_iff_not_isInfix (hopen : '\x7b' ∉ p)
    (hclose : '\x7d' ∉ p) :
    (∀ t, injectPrefix p (injectPrefix p t) = injectPrefix p t) ↔
      p = [] ∨ ¬p <:+: prefixExpression := by
  obtain ⟨x, hx, -⟩ := prefixExpression_eq_cons
  have hself : p ≠ prefixExpression := by
    rintro rfl
    exact hopen (hx ▸ List.mem_cons_self)
  have htoken : ¬HoldsToken p := by
    rintro ⟨w, hw, hin⟩
    obtain ⟨c, r, rfl, -, -⟩ := hw.exists_cons
    exact hopen (hin.subset List.mem_cons_self)
  rw [forall_injectPrefix_injectPrefix_iff, clashes_iff_isInfix hopen hclose, or_iff_right hself,
    or_iff_right htoken]

/-- The prefix that sites have when nothing else is said. -/
example (t : Text) :
    injectPrefix "wp_".toList (injectPrefix "wp_".toList t) = injectPrefix "wp_".toList t :=
  (forall_injectPrefix_injectPrefix_iff_not_isInfix (by decide) (by decide)).2
    (Or.inr (by decide +kernel)) t

/-- Putting the prefix a second time changes nothing in a text just if the first time leaves no copy
of the prefix, unless the prefix is empty or the expression itself. So it is in every text just if
the prefix is one of these, or holds a token, or does not clash with the expression. -/
theorem injectPrefix_idempotent_iff (p : Text) :
    (∀ t, injectPrefix p (injectPrefix p t) = injectPrefix p t ↔
        p = [] ∨ p = prefixExpression ∨ ¬p <:+: injectPrefix p t) ∧
      ((∀ t, injectPrefix p (injectPrefix p t) = injectPrefix p t) ↔
        p = [] ∨ p = prefixExpression ∨ HoldsToken p ∨ ¬Clashes p) :=
  ⟨injectPrefix_injectPrefix_iff p, forall_injectPrefix_injectPrefix_iff p⟩

/-- A prefix that is a word of the expression. -/
theorem injectPrefix_word_twice :
    injectPrefix "prefix".toList "FROM prefixorders".toList =
        "FROM \x7b$this->prefix\x7dorders".toList ∧
      injectPrefix "prefix".toList (injectPrefix "prefix".toList "FROM prefixorders".toList) =
        "FROM \x7b$this->\x7b$this->prefix\x7d\x7dorders".toList := by
  decide +kernel

end SchemaInstaller.Sql
