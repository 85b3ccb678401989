import SchemaInstaller.Proofs.Installer.ColumnDefaults
import SchemaInstaller.Proofs.Text.Words

/-!
# What is rewritten around the current time

A default for the current time is spelled in many ways, and `nowDefault?_eq_some_iff` lists them:
the letters in any case, blanks, a quote, parentheses with a precision. The normalization gives each
its one spelling, but it also takes the blanks and a quote that follow. Against it stands
`spareRule`, which rewrites the default and what closes its quote and nothing else, and
`words_kept_iff` says for which texts the two leave the same words.

No default starts inside another or inside the gap behind it, so both find the same ones. A gap
that is taken away costs a character or joins two words, and what follows cannot make up for it.
-/

namespace SchemaInstaller.Sql

open Scan Text

/-! ## Spellings -/

/-- Parentheses with the digits of a precision between blanks. The digits may be missing. -/
inductive Parens (ds : Text) : Text → Prop
  | mk {b b' : Text} (hb : Blanks b) (hds : ∀ c ∈ ds, isDecimalDigit c = true) (hb' : Blanks b') :
    Parens ds ('(' :: (b ++ (ds ++ (b' ++ [')']))))

/-- A quote, if there is to be one. -/
def mark (quoted : Bool) : Text := if quoted then ['\x27'] else []

/-- A default for the current time as it is spelled in front of `r`: the keyword, a quote perhaps,
the word in any case, and a precision if one follows. What closes the quote does not belong to it. -/
inductive NowDefault (quoted : Bool) : Text → Text → Text → Prop
  | plain {k b b' w r : Text} (hk : InAnyCase "DEFAULT".toList k) (hb : Blanks b) (hb' : Blanks b')
      (hw : InAnyCase "current_timestamp".toList w)
      (hr : ∀ b'' ds p s, Blanks b'' → Parens ds p → r ≠ b'' ++ (p ++ s)) :
    NowDefault quoted [] (k ++ (b ++ (mark quoted ++ (b' ++ w)))) r
  | precise {k b b' w b'' ds p r : Text} (hk : InAnyCase "DEFAULT".toList k) (hb : Blanks b)
      (hb' : Blanks b') (hw : InAnyCase "current_timestamp".toList w) (hb'' : Blanks b'')
      (hp : Parens ds p) :
    NowDefault quoted ds (k ++ (b ++ (mark quoted ++ (b' ++ (w ++ (b'' ++ p)))))) r

/-- The scan for a default: whether it has a quote, the digits of its precision, and what follows. -/
def nowDefault? (t : Text) : Option (Bool × Text × Text) := do
  let t ← keyword "DEFAULT" t
  let u ← keyword "current_timestamp" (openingQuote t)
  let (digits, rest) := (precision? (skipBlanks u)).getD ([], u)
  return ((skipBlanks t).head? == some '\x27', digits, rest)

/-! ### Precisions -/

theorem precision?_eq_some_iff {t ds r : Text} :
    precision? t = some (ds, r) ↔ ∃ p, Parens ds p ∧ t = p ++ r := by
  constructor
  · intro h
    obtain ⟨b, b', hb, hds, hb', ht⟩ := eq_append_of_precision? h
    exact ⟨_, .mk hb hds hb', by rw [ht]; simp⟩
  · rintro ⟨p, ⟨hb, hds, hb'⟩, rfl⟩
    have hparens := precision?_parens hb hds hb' r
    simpa using hparens

theorem precision?_eq_none {r : Text}
    (h : ∀ b ds p s, Blanks b → Parens ds p → r ≠ b ++ (p ++ s)) :
    precision? (skipBlanks r) = none := by
  cases hfound : precision? (skipBlanks r) with
  | none => rfl
  | some x =>
    obtain ⟨p, hp, hskip⟩ := precision?_eq_some_iff.1 hfound
    obtain ⟨b, hb, hr⟩ := exists_skipBlanks r
    exact absurd (hr.trans (congrArg _ hskip)) (h b _ p _ hb hp)

theorem Parens.exists_cons {ds p : Text} (h : Parens ds p) : ∃ q, p = '(' :: q := by
  cases h with
  | mk => exact ⟨_, rfl⟩

/-! ### Quotes -/

theorem exists_openingQuote_mark (t : Text) : ∃ b b', Blanks b ∧ Blanks b' ∧
    t = b ++ (mark ((skipBlanks t).head? == some '\x27') ++ (b' ++ openingQuote t)) := by
  obtain ⟨b, hb, ht⟩ := exists_skipBlanks t
  obtain ⟨b', hb', hrest⟩ := exists_skipBlanks (Scan.optional (literal ['\x27']) (skipBlanks t))
  have hquote : skipBlanks t = mark ((skipBlanks t).head? == some '\x27') ++
      Scan.optional (literal ['\x27']) (skipBlanks t) := by
    cases hskip : skipBlanks t with
    | nil => rfl
    | cons c r =>
      by_cases hc : c = '\x27'
      · rw [hc]
        rfl
      · have hmark : (List.head? (c :: r) == some '\x27') = false := by simpa using hc
        rw [hmark, optional_quote_of_ne hc]
        rfl
  refine ⟨b, b', hb, hb', ?_⟩
  calc t = b ++ skipBlanks t := ht
    _ = b ++ (mark ((skipBlanks t).head? == some '\x27') ++
          Scan.optional (literal ['\x27']) (skipBlanks t)) := by rw [← hquote]
    _ = _ := by rw [hrest]; rfl

theorem maybeQuote_mark (quoted : Bool) : MaybeQuote (mark quoted) := by
  cases quoted
  · exact Or.inl rfl
  · exact Or.inr rfl

theorem head?_skipBlanks_mark {b b' t : Text} {c : Char} (quoted : Bool) (hb : Blanks b)
    (hb' : Blanks b') (hblank : isBlank c = false) (hc : c ≠ '\x27') :
    ((skipBlanks (b ++ (mark quoted ++ (b' ++ c :: t)))).head? == some '\x27') = quoted := by
  rw [skipBlanks_append hb]
  cases quoted with
  | false =>
    show ((skipBlanks (b' ++ c :: t)).head? == some '\x27') = false
    rw [skipBlanks_append hb', skipBlanks_of_not_isBlank hblank]
    simpa using hc
  | true =>
    show ((skipBlanks ('\x27' :: (b' ++ c :: t))).head? == some '\x27') = true
    rw [skipBlanks_of_not_isBlank rfl]
    rfl

/-! ### The scan -/

/-- The scan for a precision behind the word. -/
def behindWord (u : Text) : Text × Text := (precision? (skipBlanks u)).getD ([], u)

theorem nowDefault?_append {k b b' w u : Text} (quoted : Bool)
    (hk : InAnyCase "DEFAULT".toList k) (hb : Blanks b) (hb' : Blanks b')
    (hw : InAnyCase "current_timestamp".toList w) :
    nowDefault? (k ++ (b ++ (mark quoted ++ (b' ++ (w ++ u))))) =
      some (quoted, behindWord u) := by
  obtain ⟨c, v, rfl, hblank, hc⟩ := NowWord.exists_cons (Or.inl hw)
  unfold nowDefault? keyword
  rw [(letters_inAnyCase _).eq_some hk]
  simp only [Option.bind_eq_bind, Option.bind_some]
  rw [List.cons_append, openingQuote_append hb (maybeQuote_mark quoted) hb' hblank hc,
    head?_skipBlanks_mark quoted hb hb' hblank hc, ← List.cons_append,
    (letters_inAnyCase _).eq_some hw]
  rfl

/-- Where the scan finds something, it has gone through the keyword and the word. -/
theorem exists_of_nowDefault? {t : Text} {x : Bool × Text × Text} (h : nowDefault? t = some x) :
    ∃ k b quoted b' w u, InAnyCase "DEFAULT".toList k ∧ Blanks b ∧ Blanks b' ∧
      InAnyCase "current_timestamp".toList w ∧
      t = k ++ (b ++ (mark quoted ++ (b' ++ (w ++ u)))) := by
  obtain ⟨t', hkeyword, hrest⟩ := Option.bind_eq_some_iff.1 h
  obtain ⟨u, hword, -⟩ := Option.bind_eq_some_iff.1 hrest
  obtain ⟨k, hk, hsplit⟩ := (letters_inAnyCase _ _ _).1 hkeyword
  obtain ⟨w, hw, hopening⟩ := (letters_inAnyCase _ _ _).1 hword
  obtain ⟨b, b', hb, hb', ht⟩ := exists_openingQuote_mark t'
  rw [hopening] at ht
  exact ⟨k, b, _, b', w, u, hk, hb, hb', hw, hsplit.trans (congrArg _ ht)⟩

theorem skipBlanks_parens {b ds p : Text} (hb : Blanks b) (hp : Parens ds p) (r : Text) :
    skipBlanks (b ++ (p ++ r)) = p ++ r := by
  obtain ⟨q, rfl⟩ := hp.exists_cons
  rw [skipBlanks_append hb]
  exact skipBlanks_of_not_isBlank rfl _

/-- The scan finds the defaults for the current time and nothing else. -/
theorem nowDefault?_eq_some_iff {t ds r : Text} {quoted : Bool} :
    nowDefault? t = some (quoted, ds, r) ↔ ∃ d, NowDefault quoted ds d r ∧ t = d ++ r := by
  constructor
  · intro h
    obtain ⟨k, b, q, b', w, u, hk, hb, hb', hw, rfl⟩ := exists_of_nowDefault? h
    rw [nowDefault?_append q hk hb hb' hw, Option.some_inj, behindWord] at h
    cases hfound : precision? (skipBlanks u) with
    | none =>
      rw [hfound] at h
      cases h
      refine ⟨_, .plain hk hb hb' hw ?_, by simp only [List.append_assoc]⟩
      rintro b'' ds p s hb'' hp rfl
      rw [skipBlanks_parens hb'' hp, precision?_eq_some_iff.2 ⟨p, hp, rfl⟩] at hfound
      cases hfound
    | some x =>
      rw [hfound] at h
      cases h
      obtain ⟨p, hp, hskip⟩ := precision?_eq_some_iff.1 hfound
      obtain ⟨b'', hb'', hu⟩ := exists_skipBlanks u
      refine ⟨_, .precise hk hb hb' hw hb'' hp, ?_⟩
      conv_lhs => rw [hu, hskip]
      simp only [List.append_assoc]
  · rintro ⟨d, h, rfl⟩
    cases h with
    | plain hk hb hb' hw hr =>
      have happend := nowDefault?_append quoted (u := r) hk hb hb' hw
      simp only [List.append_assoc]
      rw [happend, behindWord, precision?_eq_none hr]
      rfl
    | @precise k b b' w b'' ds p r hk hb hb' hw hb'' hp =>
      have happend := nowDefault?_append quoted (u := b'' ++ (p ++ r)) hk hb hb' hw
      simp only [List.append_assoc]
      rw [happend, behindWord, skipBlanks_parens hb'' hp, precision?_eq_some_iff.2 ⟨p, hp, rfl⟩]
      rfl

/-! ## What is rewritten -/

/-- A default clause for the current time gets its one spelling, and `behind` says what is left of
what follows it. -/
def nowRule (behind : Bool → Text → Text) : Rule := fun prev t => do
  guard (wordStart prev)
  let (quoted, digits, rest) ← nowDefault? t
  return ("DEFAULT ".toList ++ canonicalTimestamp digits, behind quoted rest)

/-- What follows a default: of a quote that was opened what closes it belongs to the default. -/
def behindDefault (quoted : Bool) (r : Text) : Text :=
  if quoted then (literal ['\x27'] (skipBlanks r)).getD r else r

/-- A default clause for the current time gets its one spelling, and all else stays. -/
def spareRule : Rule := nowRule behindDefault

theorem unquoted_skipBlanks (t : Text) : unquoted (skipBlanks t) = unquoted t := by
  obtain ⟨b, hb, ht⟩ := exists_skipBlanks t
  have hskip : skipBlanks t = skipBlanks (skipBlanks t) := by
    conv_lhs => rw [ht, skipBlanks_append hb]
  unfold unquoted
  rw [← hskip]

theorem timestampTail_eq (u : Text) :
    timestampTail u = ((behindWord u).1, unquoted (behindWord u).2) := by
  have htail : timestampTail u = (((precision? (skipBlanks u)).getD ([], skipBlanks u)).1,
      unquoted ((precision? (skipBlanks u)).getD ([], skipBlanks u)).2) := rfl
  rw [htail, behindWord]
  cases precision? (skipBlanks u) with
  | none => exact congrArg _ (unquoted_skipBlanks u)
  | some x => rfl

/-- The rule of the normalization leaves what is behind blanks and a quote. -/
theorem canonicalDefault_eq : canonicalDefault = nowRule fun _ => unquoted := by
  funext prev t
  unfold canonicalDefault nowRule nowDefault?
  simp only [timestampTail_eq, Option.bind_eq_bind, Option.bind_assoc]
  rfl

/-- Where the rule applies does not depend on what it leaves. -/
theorem nowRule_eq_some_iff {behind : Bool → Text → Text} {prev : Option Char} {t new rest : Text} :
    nowRule behind prev t = some (new, rest) ↔ wordStart prev = true ∧
      ∃ quoted ds r, nowDefault? t = some (quoted, ds, r) ∧
        new = "DEFAULT ".toList ++ canonicalTimestamp ds ∧ rest = behind quoted r := by
  unfold nowRule
  constructor
  · intro h
    obtain ⟨_, hguard, h⟩ := Option.bind_eq_some_iff.1 h
    obtain ⟨⟨quoted, ds, r⟩, hfound, h⟩ := Option.bind_eq_some_iff.1 h
    cases h
    exact ⟨(Option.guard_eq_some' _).1 hguard, quoted, ds, r, hfound, rfl, rfl⟩
  · rintro ⟨hstart, quoted, ds, r, hfound, rfl, rfl⟩
    show (guard (wordStart prev = true) : Option Unit).bind _ = _
    rw [guard, if_pos hstart]
    show (nowDefault? t).bind _ = _
    rw [hfound]
    rfl

theorem nowRule_eq_none_iff {behind : Bool → Text → Text} {prev : Option Char} {t : Text} :
    nowRule behind prev t = none ↔ wordStart prev = true → nowDefault? t = none := by
  rw [Option.eq_none_iff_forall_ne_some]
  constructor
  · intro h hstart
    rw [Option.eq_none_iff_forall_ne_some]
    rintro ⟨quoted, ds, r⟩ hfound
    exact h _ (nowRule_eq_some_iff.2 ⟨hstart, quoted, ds, r, hfound, rfl, rfl⟩)
  · rintro h ⟨new, rest⟩ hsome
    obtain ⟨hstart, quoted, ds, r, hfound, -, -⟩ := nowRule_eq_some_iff.1 hsome
    rw [h hstart] at hfound
    cases hfound

/-! ## No default inside another -/

/-- A character that no default starts with. -/
def opensNone (c : Char) : Bool := !sameLetter 'D' c

theorem opensNone_of {p : Char → Bool} (hp : p 'd' = false ∧ p 'D' = false) {c : Char}
    (hc : p c = true) : opensNone c = true := by
  unfold opensNone
  rw [Bool.not_eq_true', ← Bool.not_eq_true]
  intro hsame
  have hlower : c.toLower = 'd' := (sameLetter_iff (by decide) (by decide)).1 hsame
  have hd : c = 'd' ∨ c = 'D' := by
    by_cases hupper : c.isUpper = true
    · have hcode := toNat_toLower_of_isUpper hupper
      rw [hlower] at hcode
      exact Or.inr (Char.toNat_inj.1 (Nat.add_right_cancel hcode.symm))
    · exact Or.inl ((toLower_of_not_isUpper hupper).symm.trans hlower)
  rcases hd with rfl | rfl
  · rw [hp.1] at hc
    cases hc
  · rw [hp.2] at hc
    cases hc

theorem nowDefault?_of_opensNone {c : Char} (hc : opensNone c = true) (r : Text) :
    nowDefault? (c :: r) = none := by
  have hletter : ¬sameLetter 'D' c = true := by
    unfold opensNone at hc
    simpa using hc
  have hkeyword : keyword "DEFAULT" (c :: r) = none := if_neg hletter
  unfold nowDefault?
  rw [hkeyword]
  rfl

theorem all_opensNone_blanks {b : Text} (hb : Blanks b) : b.all opensNone = true :=
  List.all_eq_true.2 fun c hc => opensNone_of (p := isBlank) (by decide) (hb c hc)

theorem all_opensNone_inAnyCase {k w : Text}
    (hk : k.all (fun d => !sameLetter d 'd' && !sameLetter d 'D') = true) (h : InAnyCase k w) :
    w.all opensNone = true := by
  induction h with
  | nil => rfl
  | @cons d c k w hc _ ih =>
    obtain ⟨hd, hrest⟩ := (Bool.and_eq_true_iff ..).1 hk
    rw [List.all_cons, ih hrest, Bool.and_true]
    exact opensNone_of (p := sameLetter d) (by simpa using hd) hc

theorem all_opensNone_parens {ds p : Text} (hp : Parens ds p) : p.all opensNone = true := by
  obtain ⟨hb, hds, hb'⟩ := hp
  have hdigits : ds.all opensNone = true :=
    List.all_eq_true.2 fun c hc => opensNone_of (p := isDecimalDigit) (by decide) (hds c hc)
  have hopen : opensNone '(' = true := by decide
  have hclose : opensNone ')' = true := by decide
  simp only [List.all_cons, List.all_append, hopen, all_opensNone_blanks hb, hdigits,
    all_opensNone_blanks hb', hclose, List.all_nil, Bool.and_self]

theorem all_opensNone_mark (quoted : Bool) : (mark quoted).all opensNone = true := by
  cases quoted <;> decide

/-- Behind its first character a default has none that another could start with. -/
theorem NowDefault.exists_cons {quoted : Bool} {ds d r : Text} (h : NowDefault quoted ds d r) :
    ∃ c v, d = c :: v ∧ v.all opensNone = true := by
  have hkeyword : ∀ {k : Text}, InAnyCase "DEFAULT".toList k →
      ∃ c v, k = c :: v ∧ v.all opensNone = true := by
    intro k hk
    cases hk with
    | cons _ hk => exact ⟨_, _, rfl, all_opensNone_inAnyCase (by decide) hk⟩
  have hword : ∀ {w : Text}, InAnyCase "current_timestamp".toList w → w.all opensNone = true :=
    fun hw => all_opensNone_inAnyCase (by decide) hw
  cases h with
  | plain hk hb hb' hw hr =>
    obtain ⟨c, v, rfl, hv⟩ := hkeyword hk
    refine ⟨c, _, List.cons_append, ?_⟩
    simp only [List.all_append, hv, all_opensNone_blanks hb, all_opensNone_mark,
      all_opensNone_blanks hb', hword hw, Bool.and_self]
  | precise hk hb hb' hw hb'' hp =>
    obtain ⟨c, v, rfl, hv⟩ := hkeyword hk
    refine ⟨c, _, List.cons_append, ?_⟩
    simp only [List.all_append, hv, all_opensNone_blanks hb, all_opensNone_mark,
      all_opensNone_blanks hb', hword hw, all_opensNone_blanks hb'', all_opensNone_parens hp,
      Bool.and_self]

/-! ## What follows a default -/

/-- A text that begins with a quote behind blanks. -/
def Closes (r : Text) : Prop := ∃ b s, Blanks b ∧ r = b ++ '\x27' :: s

/-- Nothing that can be seen, or at once something that is no quote. -/
def IsSetOff (r : Text) : Prop :=
  r.isBlankOnly = true ∨ ∃ c s, r = c :: s ∧ isBlank c = false ∧ c ≠ '\x27'

/-- A default whose quote is closed behind it, or that has something behind it that is set off. -/
def Stays (quoted : Bool) (r : Text) : Prop := quoted = true ∧ Closes r ∨ IsSetOff r

/-- What the normalization takes behind a default: blanks, and a quote if there is one. -/
structure Taken (b : Text) (quoted : Bool) (r : Text) : Prop where
  blanks : Blanks b
  eq_append : r = b ++ mark quoted ++ unquoted r
  visible : quoted = false → ∀ c s, unquoted r = c :: s → isBlank c = false ∧ c ≠ '\x27'

theorem exists_taken (r : Text) : ∃ b quoted, Taken b quoted r := by
  obtain ⟨b, hb, hr⟩ := exists_skipBlanks r
  cases hskip : skipBlanks r with
  | nil =>
    have hrest : unquoted r = [] := by
      rw [unquoted, hskip]
      rfl
    refine ⟨b, false, hb, ?_, ?_⟩
    · rw [hrest, List.append_assoc]
      exact hr.trans (congrArg _ hskip)
    · rintro - c s h
      rw [hrest] at h
      cases h
  | cons c s =>
    by_cases hc : c = '\x27'
    · subst hc
      have hrest : unquoted r = s := by
        rw [unquoted, hskip]
        rfl
      refine ⟨b, true, hb, ?_, nofun⟩
      rw [hrest, List.append_assoc]
      exact hr.trans (congrArg _ hskip)
    · have hrest : unquoted r = c :: s := by rw [unquoted, hskip, optional_quote_of_ne hc]
      refine ⟨b, false, hb, ?_, ?_⟩
      · rw [hrest, List.append_assoc]
        exact hr.trans (congrArg _ hskip)
      · rintro - d u h
        rw [hrest] at h
        cases h
        have hblank := List.head?_dropWhile_not isBlank r
        have hfront : r.dropWhile isBlank = c :: s := hskip
        rw [hfront] at hblank
        exact ⟨hblank, hc⟩

namespace Taken

variable {b r : Text} {quoted : Bool}

theorem isBlankOnly (h : Taken b quoted r) : b.isBlankOnly = true := List.all_eq_true.2 h.blanks

/-- Before what is set off there is no gap, unless the gap is all that is left. -/
theorem of_isSetOff (h : Taken b quoted r) (hset : IsSetOff r) :
    b ++ mark quoted = [] ∨ (b ++ mark quoted).isBlankOnly = true ∧ unquoted r = [] := by
  rcases hset with hblank | ⟨c, s, hcons, hc, hquote⟩
  · obtain ⟨hgap, hend⟩ : (b ++ mark quoted).isBlankOnly = true ∧
        (unquoted r).isBlankOnly = true := by
      rw [h.eq_append] at hblank
      simpa only [Text.isBlankOnly, List.all_append, Bool.and_eq_true] using hblank
    have hquoted : quoted = false := by
      cases quoted with
      | false => rfl
      | true => exact absurd hgap (by simp [Text.isBlankOnly, mark, isBlank])
    refine Or.inr ⟨hgap, ?_⟩
    cases hrest : unquoted r with
    | nil => rfl
    | cons c s =>
      rw [hrest] at hend
      have hc := ((Bool.and_eq_true_iff ..).1 hend).1
      rw [(h.visible hquoted c s hrest).1] at hc
      cases hc
  · have hsame : unquoted r = r := by
      rw [hcons, unquoted, skipBlanks_of_not_isBlank hc, optional_quote_of_ne hquote]
    have hr := h.eq_append
    rw [hsame] at hr
    exact Or.inl (List.append_left_eq_self.1 hr.symm)

/-- Before what is not set off there is a quote, or there are blanks and something to be seen. -/
theorem of_not_isSetOff (h : Taken b quoted r) (hset : ¬IsSetOff r) :
    quoted = true ∨ b ≠ [] ∧ ∃ c s, unquoted r = c :: s ∧ isBlank c = false := by
  cases quoted with
  | true => exact Or.inl rfl
  | false =>
    have hr : r = b ++ unquoted r := by simpa [mark] using h.eq_append
    cases hrest : unquoted r with
    | nil =>
      rw [hrest, List.append_nil] at hr
      exact absurd (Or.inl (hr ▸ h.isBlankOnly)) hset
    | cons c s =>
      obtain ⟨hc, hquote⟩ := h.visible rfl c s hrest
      refine Or.inr ⟨?_, c, s, rfl, hc⟩
      rintro rfl
      exact hset (Or.inr ⟨c, s, hr.trans hrest, hc, hquote⟩)

end Taken

theorem behindDefault_of_closes {r : Text} (h : Closes r) : behindDefault true r = unquoted r := by
  obtain ⟨b, s, hb, rfl⟩ := h
  have hskip : skipBlanks (b ++ '\x27' :: s) = '\x27' :: s := by
    rw [skipBlanks_append hb, skipBlanks_of_not_isBlank rfl]
  unfold behindDefault unquoted
  rw [hskip]
  rfl

theorem behindDefault_of_not_closes {quoted : Bool} {r : Text}
    (h : ¬(quoted = true ∧ Closes r)) : behindDefault quoted r = r := by
  unfold behindDefault
  cases quoted with
  | false => rfl
  | true =>
    cases hquote : literal ['\x27'] (skipBlanks r) with
    | none => rfl
    | some s =>
      obtain ⟨b, hb, hr⟩ := exists_skipBlanks r
      obtain ⟨-, rfl, hskip⟩ := (literal_of ['\x27'] _ s).1 hquote
      exact absurd ⟨rfl, b, s, hb, hr.trans (congrArg _ hskip)⟩ h

/-! ## Two results -/

/-- Every default that starts in the text stays with what follows it. -/
def Fits (prev : Option Char) (t : Text) : Prop :=
  ∀ a b, t = a ++ b → wordStart (a.getLast?.or prev) = true →
    ∀ quoted ds r, nowDefault? b = some (quoted, ds, r) → Stays quoted r

theorem fits_nil (prev : Option Char) : Fits prev [] := by
  intro a b hab _ quoted ds r hfound
  rw [(List.append_eq_nil_iff.1 hab.symm).2] at hfound
  cases hfound

theorem fits_cons_iff {prev : Option Char} {c : Char} {t : Text} :
    Fits prev (c :: t) ↔ (wordStart prev = true → ∀ quoted ds r,
      nowDefault? (c :: t) = some (quoted, ds, r) → Stays quoted r) ∧ Fits (some c) t := by
  constructor
  · intro h
    refine ⟨h [] (c :: t) rfl, ?_⟩
    rintro a b rfl hstart
    exact h (c :: a) b rfl (by rwa [getLast?_cons_or])
  · rintro ⟨hhere, h⟩ a b hab hstart
    cases a with
    | nil =>
      obtain rfl : c :: t = b := hab
      exact hhere hstart
    | cons d a =>
      obtain ⟨rfl, rfl⟩ := List.cons.inj hab
      rw [getLast?_cons_or] at hstart
      exact h a b rfl hstart

/-- Characters that no default starts with make no difference. -/
theorem fits_append_iff {prev : Option Char} {x : Text} (hx : x.all opensNone = true) (t : Text) :
    Fits prev (x ++ t) ↔ Fits (x.getLast?.or prev) t := by
  induction x generalizing prev with
  | nil => rfl
  | cons c x ih =>
    obtain ⟨hc, hrest⟩ := (Bool.and_eq_true_iff ..).1 hx
    rw [List.cons_append, fits_cons_iff, ih hrest, getLast?_cons_or]
    refine and_iff_right fun _ quoted ds r hfound => ?_
    rw [nowDefault?_of_opensNone hc] at hfound
    cases hfound

/-- Two results that begin alike, and have the same words or else the first is the poorer one. -/
structure Agree (fits : Prop) (t u : Text) : Prop where
  head : t.head? = u.head?
  same_words : fits → words t = words u
  poorer : ¬fits → Poorer t u

namespace Agree

variable {P Q : Prop} {t u : Text}

theorem append (h : Agree P t u) (hPQ : Q ↔ P) (x : Text) : Agree Q (x ++ t) (x ++ u) where
  head := head?_append_congr h.head x
  same_words hQ := words_append_congr h.head (h.same_words (hPQ.1 hQ)) x
  poorer hQ := (h.poorer fun hP => hQ (hPQ.2 hP)).append h.head x

theorem visible_le (h : Agree P t u) : (visible t).length ≤ (visible u).length := by
  by_cases hP : P
  · rw [← flatten_words, ← flatten_words, h.same_words hP]
  · rcases h.poorer hP with hlt | ⟨heq, -⟩ <;> omega

/-- A gap behind a character that can be seen is missed: the quote in it, or its blanks where a word
follows. -/
theorem poorer_of_gap (h : Agree P t u) {e : Char} (he : isBlank e = false) {b : Text}
    (hb : b.isBlankOnly = true) {quoted : Bool}
    (hgap : quoted = true ∨ b ≠ [] ∧ ∃ c, u.head? = some c ∧ isBlank c = false) (x : Text) :
    Poorer (x ++ e :: t) (x ++ e :: (b ++ (mark quoted ++ u))) := by
  suffices hcons : Poorer (e :: t) (e :: (b ++ (mark quoted ++ u))) from
    hcons.append (by rfl) x
  have hle := h.visible_le
  have hseen : ∀ v : Text, (visible (e :: v)).length = (visible v).length + 1 := by
    intro v
    rw [visible, List.filter_cons_of_pos (by simp [he])]
    rfl
  unfold Poorer
  rw [hseen, hseen, visible_append, visible_of_isBlankOnly hb, visible_append, List.nil_append,
    List.length_append]
  cases quoted with
  | true =>
    have hmark : (visible (mark true)).length = 1 := by decide
    exact Or.inl (by omega)
  | false =>
    have hmark : (visible (mark false)).length = 0 := by decide
    obtain ⟨hne, c, hc, hblank⟩ := hgap.resolve_left Bool.false_ne_true
    have hfront : (b ++ (mark false ++ u)).head?.all isBlank = true := by
      cases b with
      | nil => exact absurd rfl hne
      | cons d b => exact ((Bool.and_eq_true_iff ..).1 hb).1
    have hbehind : t.head?.all isBlank = false := by rw [h.head, hc]; exact hblank
    have hwords : words (b ++ (mark false ++ u)) = words u := words_isBlankOnly_append hb u
    rw [length_words_cons, length_words_cons, hfront, hbehind, hwords, he]
    by_cases hP : P
    · have hsame := h.same_words hP
      refine Or.inr ⟨?_, ?_⟩
      · rw [hmark, ← flatten_words, ← flatten_words, hsame, Nat.zero_add]
      · rw [hsame]
        exact Nat.lt_succ_self _
    · rcases h.poorer hP with hlt | ⟨heq, hlt⟩
      · exact Or.inl (by omega)
      · exact Or.inr ⟨by omega, Nat.lt_succ_of_lt hlt⟩

end Agree

/-! ### Step by step -/

theorem exists_concat_canonicalTimestamp (ds : Text) : ∃ x e, isBlank e = false ∧
    "DEFAULT ".toList ++ canonicalTimestamp ds = x ++ [e] := by
  unfold canonicalTimestamp
  split
  · exact ⟨"DEFAULT CURRENT_TIMESTAM".toList, 'P', by decide, by decide⟩
  · exact ⟨"DEFAULT ".toList ++ ("CURRENT_TIMESTAMP(".toList ++ ds), ')', by decide, by simp⟩

/-- The result begins with something that can be seen where the text does. -/
theorem head?_substituteFrom (prev : Option Char) {c : Char} (hc : isBlank c = false) (r : Text) :
    ∃ e, (substituteFrom spareRule 0 prev (c :: r)).head? = some e ∧ isBlank e = false := by
  cases hmatch : spareRule prev (c :: r) with
  | none => exact ⟨c, by rw [substituteFrom_of_none hmatch]; rfl, hc⟩
  | some x =>
    obtain ⟨new, rest⟩ := x
    obtain ⟨-, quoted, ds, s, -, rfl, -⟩ := nowRule_eq_some_iff.1 hmatch
    refine ⟨'D', ?_, by decide⟩
    rw [substituteFrom, hmatch]
    rfl

theorem substituteFrom_of_opensNone {x : Text} (hx : x.all opensNone = true)
    (prev : Option Char) (r : Text) : substituteFrom spareRule 0 prev (x ++ r) =
      x ++ substituteFrom spareRule 0 (x.getLast?.or prev) r := by
  induction x generalizing prev with
  | nil => rfl
  | cons c x ih =>
    obtain ⟨hc, hrest⟩ := (Bool.and_eq_true_iff ..).1 hx
    have hnone : spareRule prev (c :: (x ++ r)) = none :=
      nowRule_eq_none_iff.2 fun _ => nowDefault?_of_opensNone hc _
    rw [List.cons_append, substituteFrom_of_none hnone, ih hrest, getLast?_cons_or, List.cons_append]

section Default

variable {prev : Option Char} {quoted : Bool} {ds d g r rest : Text}
  (hstart : wordStart prev = true) (hd : NowDefault quoted ds d r) (hg : g.all opensNone = true)
  (hr : r = g ++ rest)
include hstart hd hg hr

/-- A default and a gap behind it are one place of the text, and the next ones are behind them. -/
theorem fits_default_iff :
    Fits prev (d ++ r) ↔ Stays quoted r ∧ Fits ((d ++ g).getLast?.or prev) rest := by
  have hfound := nowDefault?_eq_some_iff.2 ⟨d, hd, rfl⟩
  obtain ⟨c, v, rfl, hv⟩ := hd.exists_cons
  have hinert : (v ++ g).all opensNone = true := by rw [List.all_append, hv, hg]; rfl
  have hsplit : v ++ r = v ++ g ++ rest := by rw [hr, List.append_assoc]
  rw [List.cons_append] at hfound ⊢
  rw [fits_cons_iff, hfound, hsplit, fits_append_iff hinert, List.cons_append, getLast?_cons_or]
  refine and_congr_left fun _ => ⟨fun h => h hstart quoted ds r rfl, ?_⟩
  rintro h - _ _ _ heq
  cases heq
  exact h

/-- Where no quote is closed, the default alone is rewritten. -/
theorem substituteFrom_default (hopen : ¬(quoted = true ∧ Closes r)) :
    substituteFrom spareRule 0 prev (d ++ r) = "DEFAULT ".toList ++ canonicalTimestamp ds ++
      (g ++ substituteFrom spareRule 0 ((d ++ g).getLast?.or prev) rest) := by
  have hfound := nowDefault?_eq_some_iff.2 ⟨d, hd, rfl⟩
  have hmatch : spareRule prev (d ++ r) =
      some ("DEFAULT ".toList ++ canonicalTimestamp ds, r) :=
    nowRule_eq_some_iff.2
      ⟨hstart, quoted, ds, r, hfound, rfl, (behindDefault_of_not_closes hopen).symm⟩
  obtain ⟨c, v, hcons, -⟩ := hd.exists_cons
  rw [substituteFrom_of_some (by rw [hcons]; exact List.cons_ne_nil c v) hmatch]
  conv_lhs => rw [hr, substituteFrom_of_opensNone hg]
  rw [getLast?_append_or]

omit hg in
/-- Where a quote is closed, what closes it goes with the default. -/
theorem substituteFrom_closed (hclosed : quoted = true ∧ Closes r) (hrest : rest = unquoted r) :
    substituteFrom spareRule 0 prev (d ++ r) = "DEFAULT ".toList ++ canonicalTimestamp ds ++
      substituteFrom spareRule 0 ((d ++ g).getLast?.or prev) rest := by
  have hfound := nowDefault?_eq_some_iff.2 ⟨d, hd, rfl⟩
  have hbehind : behindDefault quoted r = rest := by
    rw [hclosed.1, hrest]
    exact behindDefault_of_closes hclosed.2
  have hmatch : spareRule prev (d ++ r) =
      some ("DEFAULT ".toList ++ canonicalTimestamp ds, rest) :=
    nowRule_eq_some_iff.2 ⟨hstart, quoted, ds, r, hfound, rfl, hbehind.symm⟩
  obtain ⟨c, v, hcons, -⟩ := hd.exists_cons
  have hsplit : d ++ r = d ++ g ++ rest := by rw [hr, List.append_assoc]
  rw [hsplit] at hmatch ⊢
  exact substituteFrom_of_some (by rw [hcons]; exact List.cons_ne_nil c _) hmatch

end Default

/-- Where no quote is closed behind a default, it depends on what follows whether the gap that the
normalization takes away is missed. -/
theorem Agree.default_open {P Q : Prop} {u v b r : Text} {quoted q : Bool} (h : Agree P u v)
    (hQ : Q ↔ Stays quoted r ∧ P) (hopen : ¬(quoted = true ∧ Closes r)) (hgap : Taken b q r)
    (hnil : unquoted r = [] → P ∧ u = [] ∧ v = [])
    (hcons : ∀ c s, unquoted r = c :: s → isBlank c = false →
      ∃ e, v.head? = some e ∧ isBlank e = false) (ds : Text) :
    Agree Q ("DEFAULT ".toList ++ canonicalTimestamp ds ++ u)
      ("DEFAULT ".toList ++ canonicalTimestamp ds ++ (b ++ mark q ++ v)) := by
  obtain ⟨x, e, he, hend⟩ := exists_concat_canonicalTimestamp ds
  by_cases hset : IsSetOff r
  · have hPQ : Q ↔ P := hQ.trans (and_iff_right (Or.inr hset))
    rcases hgap.of_isSetOff hset with hnone | ⟨hblank, hrest⟩
    · rw [hnone]
      exact h.append hPQ _
    · obtain ⟨hP, rfl, rfl⟩ := hnil hrest
      refine ⟨?_, fun _ => ?_, fun hno => absurd (hPQ.2 hP) hno⟩
      · rw [hend]
        cases x <;> rfl
      · rw [List.append_nil, List.append_nil, words_append_of_isBlankOnly hblank]
  · have hno : ¬Q := fun h => (hQ.1 h).1.elim hopen hset
    refine ⟨?_, fun hyes => absurd hyes hno, fun _ => ?_⟩
    · rw [hend]
      cases x <;> rfl
    · have hmissed : q = true ∨ b ≠ [] ∧ ∃ c, v.head? = some c ∧ isBlank c = false :=
        (hgap.of_not_isSetOff hset).imp_right fun ⟨hne, c, s, hrest, hc⟩ => ⟨hne, hcons c s hrest hc⟩
      have hpoorer := h.poorer_of_gap he hgap.isBlankOnly hmissed x
      rw [hend, List.append_assoc, List.append_assoc, List.append_assoc]
      exact hpoorer

theorem sweep_nil {rule : Rule} {prev : Option Char} {u : Text} (h : Sweep rule prev [] u) :
    u = [] := by
  generalize ht : ([] : Text) = t at h
  cases h with
  | nil => rfl
  | keep => cases ht
  | change hne => exact absurd (List.append_eq_nil_iff.1 ht.symm).1 hne

/-- What the normalization makes of a text agrees with the text in which the defaults alone are
rewritten as far as these fit. -/
theorem agree_of_sweep {prev : Option Char} {t u : Text} (h : Sweep canonicalDefault prev t u) :
    Agree (Fits prev t) u (substituteFrom spareRule 0 prev t) := by
  induction h with
  | nil prev => exact ⟨rfl, fun _ => rfl, fun h => absurd (fits_nil prev) h⟩
  | @keep prev c r u hnone _ ih =>
    rw [canonicalDefault_eq, nowRule_eq_none_iff] at hnone
    have hspare : spareRule prev (c :: r) = none := nowRule_eq_none_iff.2 hnone
    rw [substituteFrom_of_none hspare]
    refine ih.append ?_ [c]
    rw [fits_cons_iff]
    refine and_iff_right fun hstart quoted ds r hfound => ?_
    rw [hnone hstart] at hfound
    cases hfound
  | @change prev old new rest u hne hmatch hsweep ih =>
    rw [canonicalDefault_eq] at hmatch
    obtain ⟨hstart, quoted, ds, r, hfound, rfl, hrest⟩ := nowRule_eq_some_iff.1 hmatch
    obtain ⟨d, hd, hsplit⟩ := nowDefault?_eq_some_iff.1 hfound
    obtain ⟨b, q, hgap⟩ := exists_taken r
    have hg : (b ++ mark q).all opensNone = true := by
      rw [List.all_append, all_opensNone_blanks hgap.blanks, all_opensNone_mark]
      rfl
    have hr := hgap.eq_append
    rw [← hrest] at hr
    obtain rfl : old = d ++ (b ++ mark q) := by
      rw [hr, ← List.append_assoc] at hsplit
      exact List.append_cancel_right hsplit
    have hfits := fits_default_iff hstart hd hg hr
    rw [hsplit]
    by_cases hclosed : quoted = true ∧ Closes r
    · rw [substituteFrom_closed hstart hd hr hclosed hrest]
      exact ih.append (hfits.trans (and_iff_right (Or.inl hclosed))) _
    · rw [substituteFrom_default hstart hd hg hr hclosed]
      refine ih.default_open hfits hclosed hgap ?_ ?_ ds
      · rw [← hrest]
        rintro rfl
        exact ⟨fits_nil _, sweep_nil hsweep, rfl⟩
      · rw [← hrest]
        rintro c s rfl hc
        exact head?_substituteFrom _ hc s

/-! ## The normalization -/

theorem canonicalDefault_replaces : canonicalDefault.Replaces fun _ _ => True := by
  intro prev t new rest h
  rw [canonicalDefault_eq] at h
  obtain ⟨-, quoted, ds, r, hfound, -, hrest⟩ := nowRule_eq_some_iff.1 h
  obtain ⟨d, hd, ht⟩ := nowDefault?_eq_some_iff.1 hfound
  obtain ⟨b, q, hgap⟩ := exists_taken r
  obtain ⟨c, v, rfl, -⟩ := hd.exists_cons
  refine ⟨c :: v ++ (b ++ mark q), List.cons_ne_nil c _, ?_, trivial⟩
  rw [ht, hrest, List.append_assoc, ← hgap.eq_append]

theorem fits_none_iff {t : Text} : Fits none t ↔ ∀ a d ds r quoted, t = a ++ (d ++ r) →
    wordStart a.getLast? = true → NowDefault quoted ds d r → Stays quoted r := by
  unfold Fits
  simp only [Option.or_none]
  constructor
  · intro h a d ds r quoted ht hstart hd
    exact h a (d ++ r) ht hstart quoted ds r (nowDefault?_eq_some_iff.2 ⟨d, hd, rfl⟩)
  · intro h a b ht hstart quoted ds r hfound
    obtain ⟨d, hd, rfl⟩ := nowDefault?_eq_some_iff.1 hfound
    exact h a d ds r quoted ht hstart hd

/-- A default without a quote does not stay where blanks and something else follow. -/
theorem not_stays_of_blanks {b s : Text} {c : Char} (hb : Blanks b) (hne : b ≠ [])
    (hc : isBlank c = false) : ¬Stays false (b ++ c :: s) := by
  rintro (⟨hquoted, -⟩ | hblank | ⟨d, u, hcons, hd, -⟩)
  · cases hquoted
  · have hmem : c ∈ b ++ c :: s := List.mem_append_right b List.mem_cons_self
    rw [List.all_eq_true.1 hblank c hmem] at hc
    cases hc
  · cases b with
    | nil => exact hne rfl
    | cons e b =>
      obtain ⟨rfl, -⟩ := List.cons.inj hcons
      rw [hb e List.mem_cons_self] at hd
      cases hd

/-- **The words around the defaults.** A text keeps the words around its defaults for the current
time exactly if each of these is closed by the quote that it was opened with, or is at the end but
for blanks, or has something behind it at once that is no quote. So no text keeps them in which a
default without a quote has blanks and a word behind it. -/
theorem words_kept_iff (t : Text) :
    (words (normalizeTimestamp t) = words (t.substitute spareRule) ↔
      ∀ a d ds r quoted, t = a ++ (d ++ r) → wordStart a.getLast? = true →
        NowDefault quoted ds d r → Stays quoted r) ∧
      ∀ a d ds b c s, t = a ++ (d ++ (b ++ c :: s)) → wordStart a.getLast? = true →
        NowDefault false ds d (b ++ c :: s) → Blanks b → b ≠ [] → isBlank c = false →
          words (normalizeTimestamp t) ≠ words (t.substitute spareRule) := by
  have hagree := agree_of_sweep (sweep_substituteFrom canonicalDefault_replaces none t)
  have hkept : words (normalizeTimestamp t) = words (t.substitute spareRule) ↔ Fits none t := by
    refine ⟨fun h => ?_, hagree.same_words⟩
    by_contra hno
    exact (hagree.poorer hno).words_ne h
  rw [fits_none_iff] at hkept
  refine ⟨hkept, fun a d ds b c s ht hstart hd hb hne hc h => ?_⟩
  exact not_stays_of_blanks hb hne hc (hkept.1 h a d ds _ false ht hstart hd)

/-- A column whose default is closed by a quote. -/
def quotedColumn : Text :=
  "`updated` DATETIME DEFAULT 'current_timestamp()' ON UPDATE current_timestamp()".toList

theorem quotedColumn_stays : ∀ a d ds r quoted, quotedColumn = a ++ (d ++ r) →
    wordStart a.getLast? = true → NowDefault quoted ds d r → Stays quoted r :=
  (words_kept_iff quotedColumn).1.1 (by decide)

/-- A column whose default has no quote and a word behind it. -/
def updatedColumn : Text :=
  "`updated` DATETIME DEFAULT current_timestamp() ON UPDATE current_timestamp()".toList

/-- The word behind the default is joined to it. -/
theorem updatedColumn_joined :
    normalizeTimestamp updatedColumn =
        "`updated` DATETIME DEFAULT CURRENT_TIMESTAMPON UPDATE current_timestamp()".toList ∧
      words (normalizeTimestamp updatedColumn) ≠ words (updatedColumn.substitute spareRule) := by
  decide

end SchemaInstaller.Sql
