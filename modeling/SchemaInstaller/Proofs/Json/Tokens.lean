import SchemaInstaller.Proofs.Json.RoundTrip

/-!
# Numbers and strings in front of closing braces

A reader looks at one character after another, so it takes the same from a text whether the text
ends there or goes on with the closing braces of the objects around it (`Stays`); no brace belongs to
a number, a word or an escape, and inside a string a brace ends nothing. Where braces belong to what
is read, a text that is not finished may take some of them (`Embeds`).
-/

namespace SchemaInstaller.Json

/-- Closing braces. -/
def braces (n : Nat) : Text := List.replicate n '\x7d'

theorem braces_succ (n : Nat) : braces (n + 1) = '\x7d' :: braces n := rfl

/-! ## What a reader makes of more text -/

section Relations

variable {α β : Type} {n k : Nat}

/-- A reader takes the same from a text and from the text with closing braces behind it, and leaves
`k` characters of the text at most; or it stops in both. -/
inductive Stays (n k : Nat) : Except Stop (Parsed α) → Except Stop (Parsed α) → Prop
  | ok (a : α) (rest : Text) (h : rest.length ≤ k) :
    Stays n k (.ok (a, rest)) (.ok (a, rest ++ braces n))
  | error (s s' : Stop) : Stays n k (.error s) (.error s')

/-- In addition, a reader that does not come to an end of the text may use up some of the braces; and
nothing is said where it finds a text too deep. -/
inductive Embeds (n k : Nat) : Except Stop (Parsed α) → Except Stop (Parsed α) → Prop
  | stays {x y : Except Stop (Parsed α)} (h : Stays n k x y) : Embeds n k x y
  | unfinished (s : Stop) (a : α) {m : Nat} (h : m < n) : Embeds n k (.error s) (.ok (a, braces m))
  | deep {s : Stop} (h : s.fault = .tooDeep) (y : Except Stop (Parsed α)) : Embeds n k (.error s) y

variable {x y : Except Stop (Parsed α)}

theorem Stays.mono {k' : Nat} (h : Stays n k x y) (hk : k ≤ k') : Stays n k' x y := by
  cases h with
  | ok a rest hlen => exact .ok a rest (Nat.le_trans hlen hk)
  | error s s' => exact .error s s'

theorem Stays.bind {k' : Nat} {f g : Parsed α → Except Stop (Parsed β)} (h : Stays n k x y)
    (hok : ∀ a rest, rest.length ≤ k → Stays n k' (f (a, rest)) (g (a, rest ++ braces n))) :
    Stays n k' (x.bind f) (y.bind g) := by
  cases h with
  | ok a rest hlen => exact hok a rest hlen
  | error s s' => exact .error s s'

theorem Stays.map (f : α → β) (h : Stays n k x y) :
    Stays n k (x.map fun p => (f p.1, p.2)) (y.map fun p => (f p.1, p.2)) := by
  cases h with
  | ok a rest hlen => exact .ok (f a) rest hlen
  | error s s' => exact .error s s'

/-- A first reader that stays, and one behind it. -/
theorem Stays.bind_embeds {k' : Nat} {f g : Parsed α → Except Stop (Parsed β)} (h : Stays n k x y)
    (hok : ∀ a rest, rest.length ≤ k → Embeds n k' (f (a, rest)) (g (a, rest ++ braces n))) :
    Embeds n k' (x.bind f) (y.bind g) := by
  cases h with
  | ok a rest hlen => exact hok a rest hlen
  | error s s' => exact .stays (.error s s')

/-- A reader that is given only braces takes nothing but braces. -/
def UsesUp (n : Nat) (y : Except Stop (Parsed α)) : Prop :=
  (∃ s, y = .error s) ∨ ∃ a m, m < n ∧ y = .ok (a, braces m)

theorem UsesUp.embeds (h : UsesUp n y) (s : Stop) : Embeds n k (.error s) y := by
  obtain ⟨s', rfl⟩ | ⟨a, m, hm, rfl⟩ := h
  · exact .stays (.error s s')
  · exact .unfinished s a hm

theorem UsesUp.eq_error (h : UsesUp 0 y) : ∃ s, y = .error s := by
  obtain herror | ⟨_, m, hm, _⟩ := h
  · exact herror
  · exact absurd hm (Nat.not_lt_zero m)

theorem UsesUp.mono {m : Nat} (h : UsesUp m y) (hm : m ≤ n) : UsesUp n y := by
  obtain herror | ⟨a, l, hl, hy⟩ := h
  · exact .inl herror
  · exact .inr ⟨a, l, Nat.lt_of_lt_of_le hl hm, hy⟩

theorem Embeds.bind {k' : Nat} {f g : Parsed α → Except Stop (Parsed β)} (h : Embeds n k x y)
    (hok : ∀ a rest, rest.length ≤ k → Embeds n k' (f (a, rest)) (g (a, rest ++ braces n)))
    (hbraces : ∀ a m, m < n → UsesUp n (g (a, braces m))) :
    Embeds n k' (x.bind f) (y.bind g) := by
  cases h with
  | stays h => exact h.bind_embeds hok
  | unfinished s a hm => exact (hbraces a _ hm).embeds s
  | deep h y => exact .deep h (y.bind g)

theorem Embeds.eq_ok {a : α} {rest : Text} (h : Embeds n k (.ok (a, rest)) y) :
    y = .ok (a, rest ++ braces n) := by
  cases h with
  | stays h =>
    cases h
    rfl

theorem Embeds.usesUp {s : Stop} (h : Embeds n k (.error s) y) (hs : s.fault ≠ .tooDeep) :
    UsesUp n y := by
  cases h with
  | stays h =>
    cases h with
    | error _ s' => exact .inl ⟨s', rfl⟩
  | unfinished _ a hm => exact .inr ⟨a, _, hm, rfl⟩
  | deep hdeep => exact absurd hdeep hs

theorem Embeds.map (f : α → β) (h : Embeds n k x y) :
    Embeds n k (x.map fun p => (f p.1, p.2)) (y.map fun p => (f p.1, p.2)) := by
  cases h with
  | stays h => exact .stays (h.map f)
  | unfinished s a hm => exact .unfinished s (f a) hm
  | deep h y => exact .deep h _

end Relations

/-! ## Digits and spacing in front of braces -/

variable {n : Nat}

theorem endsNumber_braces (n : Nat) : EndsNumber (braces n) := by
  cases n with
  | zero => exact fun c hc => nomatch hc
  | succ n => exact endsNumber_cons _ (by decide)

/-- A run of characters that are no braces ends at the braces. -/
theorem dropWhile_braces {p : Char → Bool} (hp : p '\x7d' = false) (t : Text) (n : Nat) :
    (t ++ braces n).dropWhile p = t.dropWhile p ++ braces n := by
  induction t with
  | nil =>
    cases n with
    | zero => rfl
    | succ n =>
      rw [List.nil_append, braces_succ, List.dropWhile_cons_of_neg (by simp [hp])]
      rfl
  | cons c t ih =>
    rw [List.cons_append, List.dropWhile_cons, List.dropWhile_cons, ih]
    split <;> rfl

theorem takeWhile_braces {p : Char → Bool} (hp : p '\x7d' = false) (t : Text) (n : Nat) :
    (t ++ braces n).takeWhile p = t.takeWhile p := by
  induction t with
  | nil =>
    cases n with
    | zero => rfl
    | succ n => rw [List.nil_append, braces_succ, List.takeWhile_cons_of_neg (by simp [hp])]; rfl
  | cons c t ih => rw [List.cons_append, List.takeWhile_cons, List.takeWhile_cons, ih]

theorem skipSpacing_braces (t : Text) (n : Nat) :
    skipSpacing (t ++ braces n) = skipSpacing t ++ braces n := dropWhile_braces rfl t n

theorem skipSpacing_only_braces (n : Nat) : skipSpacing (braces n) = braces n :=
  skipSpacing_braces [] n

theorem startsWithDigit_braces (t : Text) (n : Nat) :
    startsWithDigit (t ++ braces n) = startsWithDigit t := by
  cases t with
  | nil => exact startsWithDigit_eq_false (endsNumber_braces n)
  | cons c t => rfl

theorem takeDigits_braces (t : Text) (n significand taken : Nat) :
    takeDigits significand taken (t ++ braces n) =
      ((takeDigits significand taken t).1, (takeDigits significand taken t).2.1,
        (takeDigits significand taken t).2.2 ++ braces n) := by
  induction t generalizing significand taken with
  | nil => cases n <;> rfl
  | cons c t ih =>
    rw [List.cons_append, takeDigits, takeDigits]
    split
    · exact ih _ _
    · rfl

theorem length_takeDigits_le (t : Text) (significand taken : Nat) :
    (takeDigits significand taken t).2.2.length ≤ t.length := by
  induction t generalizing significand taken with
  | nil => exact Nat.le_refl _
  | cons c t ih =>
    rw [takeDigits]
    split
    · exact Nat.le_succ_of_le (ih _ _)
    · exact Nat.le_refl _

theorem exponentDigits_braces (t : Text) (n e : Nat) :
    exponentDigits e (t ++ braces n) =
      ((exponentDigits e t).1, (exponentDigits e t).2 ++ braces n) := by
  induction t generalizing e with
  | nil => cases n <;> rfl
  | cons c t ih =>
    rw [List.cons_append, exponentDigits, exponentDigits]
    dsimp only
    split
    · split
      · rfl
      · exact ih _
    · rfl

theorem length_exponentDigits_le (t : Text) (e : Nat) :
    (exponentDigits e t).2.length ≤ t.length := by
  induction t generalizing e with
  | nil => exact Nat.le_refl _
  | cons c t ih =>
    rw [exponentDigits]
    dsimp only
    split
    · split
      · exact Nat.le_succ _
      · exact Nat.le_succ_of_le (ih _)
    · exact Nat.le_refl _

theorem length_dropWhile_le (p : Char → Bool) (t : Text) : (t.dropWhile p).length ≤ t.length :=
  (List.dropWhile_suffix p).length_le

/-- Behind spacing there is nothing or a character, and braces behind the text stand behind that. -/
theorem skipSpacing_inside (t : Text) (n : Nat) :
    (skipSpacing t = [] ∧ skipSpacing (t ++ braces n) = braces n) ∨
      ∃ c r, r.length < t.length ∧ skipSpacing t = c :: r ∧
        skipSpacing (t ++ braces n) = c :: (r ++ braces n) := by
  have hlength : (skipSpacing t).length ≤ t.length := length_dropWhile_le isSpacing t
  rw [skipSpacing_braces]
  cases hskip : skipSpacing t with
  | nil => exact .inl ⟨rfl, rfl⟩
  | cons c r =>
    rw [hskip, List.length_cons] at hlength
    exact .inr ⟨c, r, hlength, rfl, rfl⟩

/-! ## Numbers in front of braces -/

/-- The exponent behind its mark and its sign. -/
def exponentBehindSign (negative : Bool) (significand : Nat) (k : Int) (down : Bool) (t : Text) :
    Except Stop (Parsed Number) :=
  match t with
  | [] => stopBehind .endInValue t 0
  | c :: _ =>
    if !c.isDigit then stopBehind .invalidNumber t 1
    else match exponentDigits 0 t with
      | (some e, rest) => realNumber negative significand (if down then k - e else k + e) rest
      | (none, rest) =>
        if significand != 0 && !down then stopBehind .numberOutOfRange rest 0
        else .ok (.real (.zero negative), rest.dropWhile Char.isDigit)

theorem exponentPart_eq {c : Char} (hplus : c ≠ '+') (hminus : c ≠ '-') (negative : Bool)
    (significand : Nat) (k : Int) (t : Text) :
    exponentPart negative significand k (c :: t) =
      exponentBehindSign negative significand k false (c :: t) := by
  unfold exponentPart
  split
  next heq =>
    split at heq
    · next h => exact absurd (List.cons.inj h).1 hplus
    · next h => exact absurd (List.cons.inj h).1 hminus
    · obtain ⟨rfl, rfl⟩ := Prod.mk.inj heq
      rfl

theorem stays_realNumber (negative : Bool) (significand : Nat) (e : Int) {k : Nat} {t : Text}
    (h : t.length ≤ k) (n : Nat) :
    Stays n k (realNumber negative significand e t)
      (realNumber negative significand e (t ++ braces n)) := by
  unfold realNumber
  split
  · exact .ok _ t h
  · exact .error _ _

theorem stays_exponentBehindSign (negative : Bool) (significand : Nat) (e : Int) (down : Bool)
    (t : Text) (n : Nat) :
    Stays n t.length (exponentBehindSign negative significand e down t)
      (exponentBehindSign negative significand e down (t ++ braces n)) := by
  cases t with
  | nil => cases n <;> exact .error _ _
  | cons c r =>
    have hdigits := exponentDigits_braces (c :: r) n 0
    have hlength := length_exponentDigits_le (c :: r) 0
    unfold exponentBehindSign
    rw [List.cons_append] at hdigits ⊢
    dsimp only
    rw [hdigits]
    generalize exponentDigits 0 (c :: r) = taken at hlength ⊢
    obtain ⟨value?, rest⟩ := taken
    split
    · exact .error _ _
    · cases value? with
      | some value => exact stays_realNumber _ _ _ hlength n
      | none =>
        dsimp only
        split
        · exact .error _ _
        · rw [dropWhile_braces rfl]
          exact .ok _ _ (Nat.le_trans (length_dropWhile_le _ rest) hlength)

theorem stays_exponentPart (negative : Bool) (significand : Nat) (e : Int) (t : Text) (n : Nat) :
    Stays n t.length (exponentPart negative significand e t)
      (exponentPart negative significand e (t ++ braces n)) := by
  cases t with
  | nil => cases n <;> exact .error _ _
  | cons c r =>
    by_cases hplus : c = '+'
    · subst hplus
      exact (stays_exponentBehindSign negative significand e false r n).mono (Nat.le_succ _)
    by_cases hminus : c = '-'
    · subst hminus
      exact (stays_exponentBehindSign negative significand e true r n).mono (Nat.le_succ _)
    rw [List.cons_append, exponentPart_eq hplus hminus, exponentPart_eq hplus hminus]
    exact stays_exponentBehindSign negative significand e false (c :: r) n

theorem stays_afterDigits (negative : Bool) (significand : Nat) (e : Int) {k : Nat} {t : Text}
    (h : t.length ≤ k) (n : Nat) :
    Stays n k (afterDigits negative significand e t)
      (afterDigits negative significand e (t ++ braces n)) := by
  cases t with
  | nil =>
    have hreal := stays_realNumber negative significand e h n
    cases n <;> exact hreal
  | cons c r =>
    rw [List.cons_append, afterDigits, afterDigits]
    split
    · exact (stays_exponentPart negative significand e r n).mono (Nat.le_of_succ_le h)
    · exact stays_realNumber negative significand e h n

theorem stays_fractionPart (negative : Bool) (significand : Nat) (e : Int) {k : Nat} {t : Text}
    (h : t.length ≤ k) (n : Nat) :
    Stays n k (fractionPart negative significand e t)
      (fractionPart negative significand e (t ++ braces n)) := by
  have hlength := Nat.le_trans (length_takeDigits_le t significand 0) h
  unfold fractionPart
  rw [takeDigits_braces]
  generalize takeDigits significand 0 t = taken at hlength ⊢
  obtain ⟨significand, taken, rest⟩ := taken
  dsimp only at hlength ⊢
  rw [startsWithDigit_braces]
  split
  · rw [dropWhile_braces rfl]
    exact stays_afterDigits _ _ _ (Nat.le_trans (length_dropWhile_le _ rest) hlength) n
  · split
    · split <;> split <;> exact .error _ _
    · exact stays_afterDigits _ _ _ hlength n

theorem stays_wholeNumber (negative : Bool) (significand : Nat) {k : Nat} {t : Text}
    (h : t.length ≤ k) (n : Nat) :
    Stays n k (wholeNumber negative significand t)
      (wholeNumber negative significand (t ++ braces n)) := by
  unfold wholeNumber
  split
  · split
    · exact .ok _ t h
    · exact .error _ _
  · split
    · split
      · exact .ok _ t h
      · exact .error _ _
    · exact stays_realNumber true significand 0 h n

/-- What follows the digits before the point when there is no point. -/
theorem afterWhole_cons {t r : Text} {c : Char} (h : t.dropWhile Char.isDigit = c :: r)
    (hpoint : c ≠ '.') (negative : Bool) (significand : Nat) :
    afterWhole negative significand t =
      if c == 'e' || c == 'E' then
        exponentPart negative significand (t.takeWhile Char.isDigit).length r
      else if (t.takeWhile Char.isDigit).length == 0 then wholeNumber negative significand (c :: r)
      else realNumber negative significand (t.takeWhile Char.isDigit).length (c :: r) := by
  unfold afterWhole
  rw [h]
  dsimp only
  split
  · next heq => exact absurd (List.cons.inj heq).1 hpoint
  · rfl

theorem stays_afterWhole (negative : Bool) (significand : Nat) {k : Nat} {t : Text}
    (h : t.length ≤ k) (n : Nat) :
    Stays n k (afterWhole negative significand t)
      (afterWhole negative significand (t ++ braces n)) := by
  have hlength := Nat.le_trans (length_dropWhile_le Char.isDigit t) h
  have hdrop : (t ++ braces n).dropWhile Char.isDigit = t.dropWhile Char.isDigit ++ braces n :=
    dropWhile_braces rfl t n
  have htake : (t ++ braces n).takeWhile Char.isDigit = t.takeWhile Char.isDigit :=
    takeWhile_braces rfl t n
  cases hrest : t.dropWhile Char.isDigit with
  | nil =>
    rw [hrest] at hlength
    have hend : Stays n k
        (if (t.takeWhile Char.isDigit).length == 0 then wholeNumber negative significand []
          else realNumber negative significand (t.takeWhile Char.isDigit).length [])
        (if (t.takeWhile Char.isDigit).length == 0 then wholeNumber negative significand (braces n)
          else realNumber negative significand (t.takeWhile Char.isDigit).length (braces n)) := by
      split
      · exact stays_wholeNumber negative significand hlength n
      · exact stays_realNumber negative significand _ hlength n
    unfold afterWhole
    rw [hdrop, htake, hrest]
    cases n <;> exact hend
  | cons c r =>
    rw [hrest] at hlength hdrop
    by_cases hpoint : c = '.'
    · subst hpoint
      unfold afterWhole
      rw [hdrop, htake, hrest]
      exact stays_fractionPart negative significand _ (Nat.le_of_succ_le hlength) n
    · rw [afterWhole_cons hrest hpoint, afterWhole_cons hdrop hpoint, htake]
      split
      · exact (stays_exponentPart negative significand _ r n).mono (Nat.le_of_succ_le hlength)
      · split
        · exact stays_wholeNumber negative significand hlength n
        · exact stays_realNumber negative significand _ hlength n

/-- A number takes one character at least. -/
theorem stays_readNumber (negative : Bool) (t : Text) (n : Nat) :
    Stays n (t.length - 1) (readNumber negative t) (readNumber negative (t ++ braces n)) := by
  cases t with
  | nil => cases n <;> exact .error _ _
  | cons c r =>
    rw [List.cons_append, readNumber, readNumber, startsWithDigit_braces]
    split
    · split
      · exact .error _ _
      · exact stays_afterWhole negative 0 (Nat.le_refl _) n
    · split
      · next hdigit =>
        have hdigits := takeDigits_braces (c :: r) n 0 0
        have hlength : (takeDigits 0 0 (c :: r)).2.2.length ≤ r.length := by
          have hfits : 0 * 10 + (c.toNat - 48) < 18446744073709551616 := by
            have hnine : c.toNat ≤ 57 := (Char.isDigit_iff_toNat.1 hdigit).2
            omega
          rw [takeDigits, hdigit, decide_eq_true hfits]
          exact length_takeDigits_le r _ 1
        rw [List.cons_append] at hdigits
        rw [hdigits]
        exact stays_afterWhole negative _ hlength n
      · exact .error _ _

/-! ## Words and strings in front of braces -/

theorem stays_word {w : Text} (hw : '\x7d' ∉ w) (t : Text) (n : Nat) :
    Stays n t.length (word w t) (word w (t ++ braces n)) := by
  induction w generalizing t with
  | nil => cases t <;> exact .ok () _ (Nat.le_refl _)
  | cons c w ih =>
    rw [List.mem_cons, not_or] at hw
    cases t with
    | nil =>
      have hbrace : ¬('\x7d' == c) = true := by simpa using hw.1
      cases n with
      | zero => exact .error _ _
      | succ n =>
        rw [List.nil_append, braces_succ, word, word, if_neg hbrace]
        exact .error _ _
    | cons d r =>
      rw [List.cons_append, word, word]
      split
      · exact (ih hw.2 r).mono (Nat.le_succ _)
      · exact .error _ _

theorem hexFour?_of_short {t : Text} (h : t.length < 4) : hexFour? t = none := by
  unfold hexFour?
  split
  · simp only [List.length_cons] at h
    omega
  · rfl

theorem exists_four {t : Text} (h : ¬t.length < 4) : ∃ a b c d r, t = a :: b :: c :: d :: r := by
  rcases t with _ | ⟨a, _ | ⟨b, _ | ⟨c, _ | ⟨d, r⟩⟩⟩⟩
  iterate 4 simp at h
  exact ⟨a, b, c, d, r, rfl⟩

/-- A brace is no hexadecimal digit. -/
theorem hexFour?_of_brace {t : Text} (h : '\x7d' ∈ t.take 4) : hexFour? t = none := by
  have hbrace : hexValue? '\x7d' = none := by decide
  by_cases hshort : t.length < 4
  · exact hexFour?_of_short hshort
  · obtain ⟨a, b, c, d, r, rfl⟩ := exists_four hshort
    simp only [List.take_succ_cons, List.take_zero, List.mem_cons, List.not_mem_nil, or_false] at h
    rcases h with rfl | rfl | rfl | rfl <;> simp [hexFour?, hbrace]

theorem hexFour?_braces (t : Text) (n : Nat) :
    hexFour? (t ++ braces n) = (hexFour? t).map fun p => (p.1, p.2 ++ braces n) := by
  by_cases hshort : t.length < 4
  · rw [hexFour?_of_short hshort, Option.map_none]
    cases n with
    | zero => exact hexFour?_of_short (by simpa [braces] using hshort)
    | succ n =>
      refine hexFour?_of_brace ?_
      obtain ⟨k, hk⟩ : ∃ k, 4 - t.length = k + 1 := Nat.exists_eq_add_one_of_ne_zero (by omega)
      rw [braces_succ, List.take_append, hk]
      exact List.mem_append_right _ List.mem_cons_self
  · obtain ⟨a, b, c, d, r, rfl⟩ := exists_four hshort
    simp only [List.cons_append, hexFour?]
    cases hexValue? a <;> cases hexValue? b <;> cases hexValue? c <;> cases hexValue? d <;> rfl

theorem length_le_of_hexFour? {t r : Text} {x : Nat} (h : hexFour? t = some (x, r)) :
    r.length ≤ t.length := by
  unfold hexFour? at h
  split at h
  · simp only [Option.bind_eq_bind, Option.bind_eq_some_iff, Option.pure_def, Option.some.injEq,
      Prod.mk.injEq] at h
    obtain ⟨_, _, _, _, _, _, _, _, _, rfl⟩ := h
    simp only [List.length_cons]
    omega
  · cases h

theorem stays_hexEscape (t : Text) (n : Nat) :
    Stays n t.length (hexEscape t) (hexEscape (t ++ braces n)) := by
  unfold hexEscape
  rw [hexFour?_braces]
  cases hfour : hexFour? t with
  | some p => exact .ok p.1 p.2 (length_le_of_hexFour? hfour)
  | none =>
    dsimp only [Option.map_none]
    split <;> split <;> exact .error _ _

theorem stays_pairMark {c : Char} (hc : '\x7d' ≠ c) (t : Text) (n : Nat) :
    Stays n t.length (pairMark c t) (pairMark c (t ++ braces n)) := by
  cases t with
  | nil =>
    cases n with
    | zero => exact .error _ _
    | succ n =>
      rw [List.nil_append, braces_succ, pairMark, pairMark, if_neg (by simpa using hc)]
      exact .error _ _
  | cons d r =>
    rw [List.cons_append, pairMark, pairMark]
    split
    · exact .ok () r (Nat.le_succ _)
    · exact .error _ _

theorem stays_numericEscape (t : Text) (n : Nat) :
    Stays n t.length (numericEscape t) (numericEscape (t ++ braces n)) := by
  refine (stays_hexEscape t n).bind fun high r hr => ?_
  dsimp only
  split
  · exact .error _ _
  split
  · exact .ok _ r hr
  refine ((stays_pairMark (by decide) r n).mono hr).bind fun _ r hr => ?_
  refine ((stays_pairMark (by decide) r n).mono hr).bind fun _ r hr => ?_
  refine ((stays_hexEscape r n).mono hr).bind fun low r hr => ?_
  dsimp only
  split
  · exact .error _ _
  · exact .ok _ r hr

theorem stays_escape (t : Text) (n : Nat) :
    Stays n t.length (escape t) (escape (t ++ braces n)) := by
  cases t with
  | nil => cases n <;> exact .error _ _
  | cons c r =>
    rw [List.cons_append, escape, escape]
    split
    · exact (stays_numericEscape r n).mono (Nat.le_succ _)
    · split
      · exact .ok _ r (Nat.le_succ _)
      · exact .error _ _

/-- Braces inside a string do not end it. -/
theorem stringBody_only_braces (fuel : Nat) (done : Text) (n : Nat) :
    ∃ s, stringBody fuel done (braces n) = .error s := by
  induction n generalizing fuel done with
  | zero => cases fuel <;> exact ⟨_, rfl⟩
  | succ n ih =>
    cases fuel with
    | zero => exact ⟨_, rfl⟩
    | succ fuel => exact ih fuel ('\x7d' :: done)

theorem stays_stringBody {fuel fuel' : Nat} {t : Text} (hfuel : t.length < fuel)
    (hfuel' : t.length < fuel') (done : Text) (n : Nat) :
    Stays n t.length (stringBody fuel done t) (stringBody fuel' done (t ++ braces n)) := by
  induction fuel generalizing fuel' t done with
  | zero => exact absurd hfuel (Nat.not_lt_zero _)
  | succ fuel ih =>
    obtain ⟨fuel', rfl⟩ : ∃ m, fuel' = m + 1 := Nat.exists_eq_add_one_of_ne_zero (by omega)
    cases t with
    | nil =>
      obtain ⟨s, hs⟩ := stringBody_only_braces (fuel' + 1) done n
      rw [List.nil_append, hs]
      exact .error _ _
    | cons c r =>
      rw [List.length_cons] at hfuel hfuel'
      have hstep {rest : Text} (hrest : rest.length ≤ r.length) (done : Text) :
          Stays n (c :: r).length (stringBody fuel done rest)
            (stringBody fuel' done (rest ++ braces n)) := by
        refine (ih ?_ ?_ done).mono (Nat.le_succ_of_le hrest) <;> omega
      rw [List.cons_append, stringBody, stringBody]
      split
      · exact .ok _ r (Nat.le_succ _)
      split
      · exact (stays_escape r n).bind fun d rest hrest => hstep hrest (d :: done)
      split
      · exact .error _ _
      · exact hstep (Nat.le_refl _) (c :: done)

end SchemaInstaller.Json
