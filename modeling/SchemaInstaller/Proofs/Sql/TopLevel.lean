import SchemaInstaller.Proofs.Sql.Parameters

/-!
# The top level of a parameter list

The list goes on to the first parenthesis that closes it, where what stands in quotes does not count
(`Encloses`), and it is split at those of its commas that are at its top level, and nowhere else
(`IsSplit`). Both are said by what stands outside of the quotes of a text (`Outside`). A scanner
knows no more of it than how deep it is and which quote is open (`Place`), and that is enough to
tell where the top level is (`isTop_iff`).
-/

namespace SchemaInstaller.Sql

/-! ## Outside of quotes -/

/-- A text whose quotes are all closed, each by the next one of its kind, and what of it stands
outside of them. -/
inductive Outside : Text → Text → Prop
  | nil : Outside [] []
  | plain {c : Char} {t u : Text} (hc : isQuote c = false) (h : Outside t u) :
      Outside (c :: t) (c :: u)
  | quoted {q : Char} {s t u : Text} (hq : isQuote q = true) (hs : q ∉ s) (h : Outside t u) :
      Outside (q :: (s ++ q :: t)) u

/-- The number of parentheses that are open behind a character. One that closes nothing is passed
over. -/
def depthBehind (depth : Nat) (c : Char) : Nat :=
  if c = '(' then depth + 1 else if c = ')' then depth - 1 else depth

/-- All quotes of the text are closed, and outside of them no parenthesis is open. -/
def IsTop (t : Text) : Prop :=
  ∃ u, Outside t u ∧ u.foldl depthBehind 0 = 0

theorem depthBehind_of_isQuote {q : Char} (hq : isQuote q = true) (depth : Nat) :
    depthBehind depth q = depth := by
  rcases isQuote_iff.1 hq with rfl | rfl | rfl <;> rfl

/-! ## Places -/

/-- What a scanner knows of the text that it has passed: how many parentheses are open, and which
quote. -/
structure Place where
  depth : Nat
  quote : Option Char

namespace Place

/-- The place behind a character. -/
def behind (p : Place) (c : Char) : Place :=
  ⟨if p.quote.isSome then p.depth else depthBehind p.depth c, quoteBehind p.quote c⟩

/-- The place behind a text. -/
def after (p : Place) (t : Text) : Place := t.foldl behind p

/-- Where no parenthesis and no quote is open. -/
def top : Place := ⟨0, none⟩

variable {c q : Char} {depth : Nat} {t u : Text}

@[simp] theorem after_nil (p : Place) : p.after [] = p := rfl

@[simp] theorem after_cons (p : Place) (c : Char) (t : Text) :
    p.after (c :: t) = (p.behind c).after t := rfl

theorem behind_plain (hc : isQuote c = false) (depth : Nat) :
    behind ⟨depth, none⟩ c = ⟨depthBehind depth c, none⟩ := by
  unfold behind
  rw [quoteBehind_plain hc]
  rfl

theorem behind_opening (hq : isQuote q = true) (depth : Nat) :
    behind ⟨depth, none⟩ q = ⟨depth, some q⟩ := by
  unfold behind
  rw [quoteBehind_opening hq]
  exact congrArg (Place.mk · (some q)) (depthBehind_of_isQuote hq depth)

theorem behind_closing (q : Char) (depth : Nat) : behind ⟨depth, some q⟩ q = ⟨depth, none⟩ := by
  unfold behind
  rw [quoteBehind_closing]
  rfl

theorem behind_quoted (h : c ≠ q) (depth : Nat) :
    behind ⟨depth, some q⟩ c = ⟨depth, some q⟩ := by
  unfold behind
  rw [quoteBehind_of_ne h]
  rfl

theorem behind_other (hopen : c ≠ '(') (hclose : c ≠ ')') (depth : Nat) :
    behind ⟨depth, none⟩ c = ⟨depth, quoteBehind none c⟩ := by
  unfold behind depthBehind
  rw [if_neg hopen, if_neg hclose]
  rfl

/-- Between quotes nothing counts up to the closing one. -/
theorem after_quoted (hu : q ∉ u) (depth : Nat) (t : Text) :
    after ⟨depth, some q⟩ (u ++ q :: t) = after ⟨depth, none⟩ t := by
  induction u with
  | nil => rw [List.nil_append, after_cons, behind_closing]
  | cons c u ih =>
    rw [List.mem_cons, not_or] at hu
    rw [List.cons_append, after_cons, behind_quoted (Ne.symm hu.1), ih hu.2]

/-- A quote that is not open any more has been closed. -/
theorem exists_closing (h : (after ⟨depth, some q⟩ t).quote = none) :
    ∃ u r, q ∉ u ∧ t = u ++ q :: r := by
  induction t with
  | nil => cases h
  | cons c t ih =>
    by_cases hc : c = q
    · exact ⟨[], t, List.not_mem_nil, by rw [hc]; rfl⟩
    · rw [after_cons, behind_quoted hc] at h
      obtain ⟨u, r, hu, rfl⟩ := ih h
      refine ⟨c :: u, r, ?_, rfl⟩
      rw [List.mem_cons, not_or]
      exact ⟨Ne.symm hc, hu⟩

/-- Only what stands outside of quotes counts. -/
theorem after_of_outside (h : Outside t u) (depth : Nat) :
    after ⟨depth, none⟩ t = ⟨u.foldl depthBehind depth, none⟩ := by
  induction h generalizing depth with
  | nil => rfl
  | plain hc _ ih => rw [after_cons, behind_plain hc, ih]; rfl
  | quoted hq hs _ ih => rw [after_cons, behind_opening hq, after_quoted hs, ih]

theorem exists_outside (t : Text) (depth : Nat) (h : (after ⟨depth, none⟩ t).quote = none) :
    ∃ u, Outside t u :=
  -- a quoted part is taken off as a whole, so it is the length that gets smaller
  match t with
  | [] => ⟨[], .nil⟩
  | c :: t => by
    by_cases hc : isQuote c = true
    · rw [after_cons, behind_opening hc] at h
      obtain ⟨s, r, hs, rfl⟩ := exists_closing h
      rw [after_quoted hs] at h
      obtain ⟨u, hu⟩ := exists_outside r depth h
      exact ⟨u, .quoted hc hs hu⟩
    · rw [Bool.not_eq_true] at hc
      rw [after_cons, behind_plain hc] at h
      obtain ⟨u, hu⟩ := exists_outside t _ h
      exact ⟨c :: u, .plain hc hu⟩
  termination_by t.length

end Place

/-- A scanner can tell whether it is at the top level. -/
theorem isTop_iff {t : Text} : IsTop t ↔ Place.top.after t = Place.top := by
  constructor
  · rintro ⟨u, hu, hdepth⟩
    unfold Place.top
    rw [Place.after_of_outside hu, hdepth]
  · intro h
    obtain ⟨u, hu⟩ := Place.exists_outside t 0 (congrArg Place.quote h)
    have hplace := (Place.after_of_outside hu 0).symm.trans h
    exact ⟨u, hu, congrArg Place.depth hplace⟩

/-! ## The end of the list -/

/-- No parenthesis behind an opening one closes it: each is in quotes or leaves some open. -/
def Unclosed (t : Text) : Prop :=
  ∀ v w, t = v ++ ')' :: w → ¬IsTop ('(' :: (v ++ [')']))

/-- A list between its parentheses: the closing one is outside of quotes and leaves none open, and
none in the list does so. -/
structure Encloses (list : Text) : Prop where
  closed : IsTop ('(' :: (list ++ [')']))
  first : Unclosed list

/-- The parenthesis behind the text leaves none open. -/
def Place.Closes (p : Place) (v : Text) : Prop := p.after (v ++ [')']) = .top

/-- It does, and no parenthesis in the text does. -/
structure Place.ClosesFirst (p : Place) (l : Text) : Prop where
  closes : p.Closes l
  first : ∀ v w, l = v ++ ')' :: w → ¬p.Closes v

theorem closes_iff_isTop {v : Text} :
    Place.Closes ⟨1, none⟩ v ↔ IsTop ('(' :: (v ++ [')'])) := by
  rw [isTop_iff]
  rfl

theorem encloses_iff {l : Text} : Encloses l ↔ Place.ClosesFirst ⟨1, none⟩ l := by
  constructor
  · rintro ⟨hclosed, hfirst⟩
    exact ⟨closes_iff_isTop.2 hclosed, fun v w hl hv => hfirst v w hl (closes_iff_isTop.1 hv)⟩
  · rintro ⟨hcloses, hfirst⟩
    exact ⟨closes_iff_isTop.1 hcloses, fun v w hl hv => hfirst v w hl (closes_iff_isTop.2 hv)⟩

section Closing

variable {p : Place} {c : Char} {depth : Nat} {quote : Option Char} {l t : Text}

/-- The scan ends at a parenthesis, or it goes on with another one still open. -/
theorem untilClosing_cases (depth : Nat) (quote : Option Char) (c : Char) :
    (depth = 0 ∧ quote = none ∧ c = ')') ∨
      ∃ d q, Place.behind ⟨depth + 1, quote⟩ c = ⟨d + 1, q⟩ ∧
        ∀ t, untilClosing depth quote (c :: t) = (untilClosing d q t).map (c :: ·) := by
  cases quote with
  | some q => exact .inr ⟨depth, quoteBehind (some q) c, rfl, fun t => rfl⟩
  | none =>
    by_cases hopen : c = '('
    · subst hopen
      exact .inr ⟨depth + 1, none, rfl, fun t => rfl⟩
    · by_cases hclose : c = ')'
      · subst hclose
        cases depth with
        | zero => exact .inl ⟨rfl, rfl, rfl⟩
        | succ depth => exact .inr ⟨depth, none, rfl, fun t => rfl⟩
      · refine .inr ⟨depth, quoteBehind none c, Place.behind_other hopen hclose _, fun t => ?_⟩
        exact untilClosing_passes.other depth c t hopen hclose fun _ => trivial

/-- A character that leaves something open does not decide which parenthesis is the first. -/
theorem closesFirst_cons (h : p.behind c ≠ .top) :
    p.ClosesFirst (c :: l) ↔ (p.behind c).ClosesFirst l := by
  constructor
  · intro hl
    exact ⟨hl.closes, fun v w hw hv => hl.first (c :: v) w (by rw [hw]; rfl) hv⟩
  · intro hl
    refine ⟨hl.closes, fun v w hw hv => ?_⟩
    rcases List.cons_eq_append_iff.1 hw with ⟨rfl, hc⟩ | ⟨v, rfl, hl'⟩
    · cases hc
      exact h hv
    · exact hl.first v w hl' hv

/-- The scan finds the text before the first parenthesis that leaves none open. -/
theorem untilClosing_eq_some_iff : untilClosing depth quote t = some l ↔
    ∃ r, t = l ++ ')' :: r ∧ Place.ClosesFirst ⟨depth + 1, quote⟩ l := by
  induction t generalizing depth quote l with
  | nil => simp [untilClosing]
  | cons c t ih =>
    rcases untilClosing_cases depth quote c with ⟨rfl, rfl, rfl⟩ | ⟨d, q, hplace, hrest⟩
    · have hends : Place.Closes ⟨1, none⟩ [] := rfl
      constructor
      · intro h
        cases h
        exact ⟨t, rfl, hends, fun v w hw => by simp at hw⟩
      · rintro ⟨r, hr, hl⟩
        cases l with
        | nil => rfl
        | cons e l =>
          cases hr
          exact absurd hends (hl.first [] l rfl)
    · -- behind the character a parenthesis is open, so it is not the end
      have hne : Place.behind ⟨depth + 1, quote⟩ c ≠ .top := by
        rw [hplace]
        exact fun h => Nat.succ_ne_zero d (congrArg Place.depth h)
      rw [hrest, Option.map_eq_some_iff]
      constructor
      · rintro ⟨l, hl, rfl⟩
        obtain ⟨r, rfl, hfirst⟩ := ih.1 hl
        exact ⟨r, rfl, (closesFirst_cons hne).2 (hplace ▸ hfirst)⟩
      · rintro ⟨r, hr, hl⟩
        rcases List.cons_eq_append_iff.1 hr with ⟨rfl, hc⟩ | ⟨l, rfl, ht⟩
        · cases hc
          exact absurd hl.closes hne
        · exact ⟨l, ih.2 ⟨r, ht, hplace ▸ (closesFirst_cons hne).1 hl⟩, rfl⟩

/-- If a parenthesis leaves none open, there is a first one that does. -/
theorem exists_closesFirst (v w : Text) (h : p.Closes v) :
    ∃ l r, v ++ ')' :: w = l ++ ')' :: r ∧ p.ClosesFirst l := by
  by_cases hearlier : ∃ v' w', v = v' ++ ')' :: w' ∧ p.Closes v'
  · obtain ⟨v', w', hv, h'⟩ := hearlier
    have hshort : v'.length < v.length := by simp [hv]
    rw [hv, List.append_assoc, List.cons_append]
    exact exists_closesFirst v' (w' ++ ')' :: w) h'
  · exact ⟨v, w, rfl, h, fun v' w' hv h' => hearlier ⟨v', w', hv, h'⟩⟩
  termination_by v.length

theorem untilClosing_eq_none_iff : untilClosing depth quote t = none ↔
    ∀ v w, t = v ++ ')' :: w → ¬Place.Closes ⟨depth + 1, quote⟩ v := by
  constructor
  · rintro hnone v w rfl h
    obtain ⟨l, r, hsplit, hl⟩ := exists_closesFirst v w h
    rw [untilClosing_eq_some_iff.2 ⟨r, hsplit, hl⟩] at hnone
    cases hnone
  · intro h
    rw [Option.eq_none_iff_forall_ne_some]
    intro l hl
    obtain ⟨r, ht, hclosing⟩ := untilClosing_eq_some_iff.1 hl
    exact h l r ht hclosing.closes

theorem untilClosing_eq_none_iff_unclosed : untilClosing 0 none t = none ↔ Unclosed t := by
  rw [untilClosing_eq_none_iff]
  unfold Unclosed
  simp only [Nat.zero_add, closes_iff_isTop]

end Closing

/-! ## The commas of the list -/

/-- Pieces of a list with commas between them. What is before a comma between two pieces is closed,
so that the comma is at the top level of the list, and no comma in a piece is there. -/
structure IsSplit (list : Text) (pieces : List Text) : Prop where
  joined : [','].intercalate pieces = list
  removed : ∀ xs x y ys, pieces = xs ++ x :: y :: ys → IsTop ([','].intercalate (xs ++ [x]))
  kept : ∀ xs v w ys, pieces = xs ++ (v ++ ',' :: w) :: ys →
    ¬IsTop ([','].intercalate (xs ++ [v]))

/-- Pieces of a text that stands behind a place. -/
structure Place.Splits (p : Place) (t : Text) (pieces : List Text) : Prop where
  joined : [','].intercalate pieces = t
  removed : ∀ xs x y ys, pieces = xs ++ x :: y :: ys →
    p.after ([','].intercalate (xs ++ [x])) = .top
  kept : ∀ xs v w ys, pieces = xs ++ (v ++ ',' :: w) :: ys →
    p.after ([','].intercalate (xs ++ [v])) ≠ .top

theorem isSplit_of_splits {list : Text} {pieces : List Text} (h : Place.top.Splits list pieces) :
    IsSplit list pieces where
  joined := h.joined
  removed xs x y ys hpieces := isTop_iff.2 (h.removed xs x y ys hpieces)
  kept xs v w ys hpieces htop := h.kept xs v w ys hpieces (isTop_iff.1 htop)

section Splitting

variable {p : Place} {c : Char} {t x : Text} {xs : List Text}

theorem intercalate_cons_head (c : Char) (x : Text) (xs : List Text) :
    [','].intercalate ((c :: x) :: xs) = c :: [','].intercalate (x :: xs) := by
  cases xs with
  | nil => simp
  | cons y ys => simp [List.intercalate_cons_cons]

theorem intercalate_nil_head (h : xs ≠ []) :
    [','].intercalate ([] :: xs) = ',' :: [','].intercalate xs := by
  obtain ⟨y, ys, rfl⟩ := List.exists_cons_of_ne_nil h
  simp [List.intercalate_cons_cons]

theorem splits_nil (p : Place) : p.Splits [] [[]] where
  joined := rfl
  removed := by
    intro zs x y ys h
    have hlength := congrArg List.length h
    simp only [List.length_append, List.length_cons, List.length_nil] at hlength
    omega
  kept := by
    intro zs v w ys h
    rcases List.cons_eq_append_iff.1 h with ⟨rfl, heq⟩ | ⟨zs, rfl, heq⟩
    · simp at heq
    · simp at heq

/-- A comma at the top level begins a new piece. -/
theorem splits_comma (h : Place.top.Splits t xs) (hne : xs ≠ []) :
    Place.top.Splits (',' :: t) ([] :: xs) where
  joined := by rw [intercalate_nil_head hne, h.joined]
  removed := by
    intro zs x y ys hxs
    rcases List.cons_eq_append_iff.1 hxs with ⟨rfl, heq⟩ | ⟨zs, rfl, hzs⟩
    · cases heq
      rfl
    · rw [List.cons_append, intercalate_nil_head (by simp)]
      exact h.removed zs x y ys hzs
  kept := by
    intro zs v w ys hxs
    rcases List.cons_eq_append_iff.1 hxs with ⟨rfl, heq⟩ | ⟨zs, rfl, hzs⟩
    · simp at heq
    · rw [List.cons_append, intercalate_nil_head (by simp)]
      exact h.kept zs v w ys hzs

/-- Any other character belongs to the piece that it stands before. -/
theorem splits_cons (hc : p = .top → c ≠ ',') (h : (p.behind c).Splits t (x :: xs)) :
    p.Splits (c :: t) ((c :: x) :: xs) where
  joined := by rw [intercalate_cons_head, h.joined]
  removed := by
    intro zs x' y ys hxs
    rcases List.cons_eq_append_iff.1 hxs with ⟨rfl, heq⟩ | ⟨zs, rfl, rfl⟩
    · cases heq
      exact h.removed [] x y ys rfl
    · rw [List.cons_append, intercalate_cons_head]
      exact h.removed (x :: zs) x' y ys rfl
  kept := by
    intro zs v w ys hxs
    rcases List.cons_eq_append_iff.1 hxs with ⟨rfl, heq⟩ | ⟨zs, rfl, rfl⟩
    · cases v with
      | nil =>
        cases heq
        exact fun htop => hc htop rfl
      | cons e v =>
        cases heq
        exact h.kept [] v w xs rfl
    · rw [List.cons_append, intercalate_cons_head]
      exact h.kept (x :: zs) v w ys rfl

/-- The scan passes everything but a comma at the top level. -/
theorem splitTopLevel_behind {depth : Nat} {quote : Option Char}
    (hc : Place.mk depth quote = .top → c ≠ ',') (t : Text) :
    splitTopLevel depth quote (c :: t) =
      (splitTopLevel (Place.behind ⟨depth, quote⟩ c).depth (quoteBehind quote c) t).modifyHead
        (c :: ·) := by
  cases quote with
  | some q => exact cons_piece depth (quoteBehind (some q) c) c t
  | none =>
    by_cases hopen : c = '('
    · subst hopen
      exact cons_piece (depth + 1) none '(' t
    · by_cases hclose : c = ')'
      · subst hclose
        exact cons_piece (depth - 1) none ')' t
      · rw [Place.behind_other hopen hclose]
        refine splitTopLevel_passes.other depth c t hopen hclose fun hcomma => ?_
        refine Nat.pos_of_ne_zero fun hzero => ?_
        exact hc (congrArg (Place.mk · none) hzero) hcomma

/-- The scan splits a text at the commas that are at the top level, and at no others. -/
theorem splits_splitTopLevel (depth : Nat) (quote : Option Char) (t : Text) :
    Place.Splits ⟨depth, quote⟩ t (splitTopLevel depth quote t) := by
  induction t generalizing depth quote with
  | nil => exact splits_nil _
  | cons c t ih =>
    by_cases hcomma : Place.mk depth quote = .top ∧ c = ','
    · obtain ⟨hplace, rfl⟩ := hcomma
      cases hplace
      rw [splitTopLevel_comma]
      exact splits_comma (ih 0 none) (splitTopLevel_ne_nil 0 none t)
    · have hc : Place.mk depth quote = .top → c ≠ ',' := fun h hc => hcomma ⟨h, hc⟩
      have hrest := ih (Place.behind ⟨depth, quote⟩ c).depth (quoteBehind quote c)
      obtain ⟨x, xs, hpieces⟩ := List.exists_cons_of_ne_nil (splitTopLevel_ne_nil
        (Place.behind ⟨depth, quote⟩ c).depth (quoteBehind quote c) t)
      rw [splitTopLevel_behind hc, hpieces]
      rw [hpieces] at hrest
      exact splits_cons hc hrest

end Splitting

end SchemaInstaller.Sql
