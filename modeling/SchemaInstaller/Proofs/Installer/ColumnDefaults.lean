import Mathlib.Data.List.TakeWhile
import SchemaInstaller.Installer.Statement
import SchemaInstaller.Proofs.Sql.Values
import SchemaInstaller.Proofs.Text.Edits

/-!
# Defaults of columns

A default that spells the current time (`MeansNow`) becomes the keyword for it, whatever the type of
its column is. The scans for this spelling are greedy: each takes as many blanks, or digits, as
there are. No part of the spelling can start with what the part before it is made of, so they find
it wherever it is (`currentTimestamp?_isSome_iff`). Every other default is quoted, and a server
reads it back as it was (`default_kept_iff`).
-/

namespace SchemaInstaller

open Scan Text

namespace Sql

/-! ## The spelling -/

/-- A quote, if there is one. -/
def MaybeQuote (t : Text) : Prop := t = [] ∨ t = ['\x27']

/-- One of the words for the current time. -/
def NowWord (w : Text) : Prop :=
  InAnyCase "current_timestamp".toList w ∨ InAnyCase "localtimestamp".toList w ∨
    InAnyCase "now".toList w

/-- Parentheses with digits between blanks, or nothing. The digits may be missing. -/
inductive Precision : Text → Prop
  | none : Precision []
  | parens {b ds b' : Text} (hb : Blanks b) (hds : ∀ c ∈ ds, isDecimalDigit c = true)
      (hb' : Blanks b') : Precision ('(' :: (b ++ (ds ++ (b' ++ [')']))))

/-- What may follow the word. -/
inductive NowTail : Text → Prop
  | mk {b p b' q b'' : Text} (hb : Blanks b) (hp : Precision p) (hb' : Blanks b')
      (hq : MaybeQuote q) (hb'' : Blanks b'') : NowTail (b ++ (p ++ (b' ++ (q ++ b''))))

/-- A spelling of the current time: a word for it, a precision and quotes, with blanks between them.
Either quote may be missing. -/
inductive MeansNow : Text → Prop
  | mk {b q b' w t : Text} (hb : Blanks b) (hq : MaybeQuote q) (hb' : Blanks b') (hw : NowWord w)
      (ht : NowTail t) : MeansNow (b ++ (q ++ (b' ++ (w ++ t))))

/-! ## Blanks and quotes -/

theorem exists_optional_quote (t : Text) :
    ∃ q, MaybeQuote q ∧ t = q ++ Scan.optional (literal ['\x27']) t := by
  unfold Scan.optional
  cases h : literal ['\x27'] t with
  | none => exact ⟨[], Or.inl rfl, rfl⟩
  | some r =>
    obtain ⟨w, rfl, rfl⟩ := (literal_of ['\x27'] t r).1 h
    exact ⟨['\x27'], Or.inr rfl, rfl⟩

theorem optional_quote_of_ne {c : Char} (h : c ≠ '\x27') (t : Text) :
    Scan.optional (literal ['\x27']) (c :: t) = c :: t := by
  unfold Scan.optional
  rw [literal_cons_of_ne (Ne.symm h)]
  rfl

theorem openingQuote_append {b q b' t : Text} {c : Char} (hb : Blanks b) (hq : MaybeQuote q)
    (hb' : Blanks b') (hblank : isBlank c = false) (hc : c ≠ '\x27') :
    openingQuote (b ++ (q ++ (b' ++ c :: t))) = c :: t := by
  unfold openingQuote
  rw [skipBlanks_append hb]
  rcases hq with rfl | rfl
  · rw [List.nil_append, skipBlanks_append hb', skipBlanks_of_not_isBlank hblank,
      optional_quote_of_ne hc, skipBlanks_of_not_isBlank hblank]
  · rw [List.singleton_append, skipBlanks_of_not_isBlank rfl]
    show skipBlanks (b' ++ c :: t) = c :: t
    rw [skipBlanks_append hb', skipBlanks_of_not_isBlank hblank]

theorem exists_openingQuote (t : Text) :
    ∃ b q b', Blanks b ∧ MaybeQuote q ∧ Blanks b' ∧ t = b ++ (q ++ (b' ++ openingQuote t)) := by
  obtain ⟨b, hb, ht⟩ := exists_skipBlanks t
  obtain ⟨q, hq, hskip⟩ := exists_optional_quote (skipBlanks t)
  obtain ⟨b', hb', hrest⟩ := exists_skipBlanks (Scan.optional (literal ['\x27']) (skipBlanks t))
  refine ⟨b, q, b', hb, hq, hb', ?_⟩
  calc t = b ++ skipBlanks t := ht
    _ = b ++ (q ++ Scan.optional (literal ['\x27']) (skipBlanks t)) := by rw [← hskip]
    _ = _ := by rw [hrest]; rfl

/-! ## The word -/

/-- A word that starts with another letter is not there. -/
theorem letters_eq_none {k l : Char} {u v w : Text} (h : InAnyCase (l :: v) w)
    (hk : k.toLower ≠ 's' ∧ k.toLower ≠ 'k') (hl : l.toLower ≠ 's' ∧ l.toLower ≠ 'k')
    (hne : k.toLower ≠ l.toLower) (r : Text) : letters (k :: u) (w ++ r) = none := by
  cases h with
  | cons hc =>
    refine if_neg fun h => hne ?_
    rw [← (sameLetter_iff hk.1 hk.2).1 h, (sameLetter_iff hl.1 hl.2).1 hc]

/-- The three words start with different letters. -/
theorem timestampWord_of : timestampWord.Of NowWord := by
  have hc : 'c'.toLower ≠ 's' ∧ 'c'.toLower ≠ 'k' := by decide
  have hl : 'l'.toLower ≠ 's' ∧ 'l'.toLower ≠ 'k' := by decide
  have hn : 'n'.toLower ≠ 's' ∧ 'n'.toLower ≠ 'k' := by decide
  refine (letters_inAnyCase _).orElse ((letters_inAnyCase _).orElse (letters_inAnyCase _) ?_) ?_
  · exact fun w r hw => letters_eq_none hw hl hn (by decide) r
  · rintro w r (hw | hw)
    · exact letters_eq_none hw hc hl (by decide) r
    · exact letters_eq_none hw hc hn (by decide) r

theorem NowWord.exists_cons {w : Text} (h : NowWord w) :
    ∃ c v, w = c :: v ∧ isBlank c = false ∧ c ≠ '\x27' := by
  have hcons : ∀ {k : Char} {u : Text}, k.isLower = true → InAnyCase (k :: u) w →
      ∃ c v, w = c :: v ∧ isBlank c = false ∧ c ≠ '\x27' := by
    intro k u hk h
    cases h with
    | @cons _ c _ v hc =>
      refine ⟨c, v, rfl, ?_, ?_⟩
      · rcases isAlphanum_of_sameLetter hk hc with halpha | rfl | rfl
        · exact isBlank_of_isAlphanum halpha
        · rfl
        · rfl
      · rintro rfl
        rcases isAlphanum_of_sameLetter hk hc with h | h | h <;> cases h
  rcases h with h | h | h
  · exact hcons (k := 'c') rfl h
  · exact hcons (k := 'l') rfl h
  · exact hcons (k := 'n') rfl h

/-! ## The tail -/

theorem isDecimalDigit_of_isBlank {c : Char} (h : isBlank c = true) : isDecimalDigit c = false :=
  eq_false_of_isBlank (by decide +kernel) h

/-- Behind blanks, the scan for digits finds all of them and stops. -/
theorem exists_skipBlanks_digits {b ds b' : Text} (hb : Blanks b)
    (hds : ∀ c ∈ ds, isDecimalDigit c = true) (hb' : Blanks b') (r : Text) :
    ∃ x, skipBlanks (b ++ (ds ++ (b' ++ ')' :: r))) = ds ++ x ∧ skipBlanks x = ')' :: r ∧
      ∃ c s, x = c :: s ∧ isDecimalDigit c = false := by
  have hclose : skipBlanks (b' ++ ')' :: r) = ')' :: r := by
    rw [skipBlanks_append hb', skipBlanks_of_not_isBlank rfl]
  rw [skipBlanks_append hb]
  cases ds with
  | nil => exact ⟨')' :: r, hclose, skipBlanks_of_not_isBlank rfl r, ')', r, rfl, by decide⟩
  | cons d ds =>
    have hd : isBlank d = false := by
      rw [← Bool.not_eq_true]
      intro hblank
      have hdigit := hds d List.mem_cons_self
      rw [isDecimalDigit_of_isBlank hblank] at hdigit
      cases hdigit
    refine ⟨b' ++ ')' :: r, skipBlanks_of_not_isBlank hd _, hclose, ?_⟩
    cases b' with
    | nil => exact ⟨')', r, rfl, by decide⟩
    | cons c b' => exact ⟨c, _, rfl, isDecimalDigit_of_isBlank (hb' c List.mem_cons_self)⟩

theorem precision?_parens {b ds b' : Text} (hb : Blanks b)
    (hds : ∀ c ∈ ds, isDecimalDigit c = true) (hb' : Blanks b') (r : Text) :
    precision? ('(' :: (b ++ (ds ++ (b' ++ ')' :: r)))) = some (ds, r) := by
  have hopen : literal ['('] ('(' :: (b ++ (ds ++ (b' ++ ')' :: r)))) =
      some (b ++ (ds ++ (b' ++ ')' :: r))) := rfl
  have hclose : literal [')'] (')' :: r) = some r := rfl
  obtain ⟨x, hskip, hbehind, c, s, rfl, hc⟩ := exists_skipBlanks_digits hb hds hb' r
  have htake : (ds ++ c :: s).takeWhile isDecimalDigit = ds := by
    rw [List.takeWhile_append_of_pos hds, List.takeWhile_cons_of_neg (by simp [hc]), List.append_nil]
  have hdrop : (ds ++ c :: s).dropWhile isDecimalDigit = c :: s := by
    rw [List.dropWhile_append_of_pos hds, List.dropWhile_cons_of_neg (by simp [hc])]
  unfold precision?
  simp only [hopen, Option.bind_eq_bind, Option.bind_some, hskip, hdrop, hbehind, hclose, htake]
  rfl

/-- What the scan finds are parentheses with digits between blanks. -/
theorem eq_append_of_precision? {t ds r : Text} (h : precision? t = some (ds, r)) :
    ∃ b b', Blanks b ∧ (∀ c ∈ ds, isDecimalDigit c = true) ∧ Blanks b' ∧
      t = '(' :: (b ++ (ds ++ (b' ++ ')' :: r))) := by
  obtain ⟨u, hu, h⟩ := Option.bind_eq_some_iff.1 h
  obtain ⟨v, hv, h⟩ := Option.bind_eq_some_iff.1 h
  cases h
  obtain ⟨-, rfl, rfl⟩ := (literal_of ['('] t u).1 hu
  obtain ⟨-, rfl, hclose⟩ := (literal_of [')'] _ r).1 hv
  obtain ⟨b, hb, hopen⟩ := exists_skipBlanks u
  obtain ⟨b', hb', hdigits⟩ := exists_skipBlanks ((skipBlanks u).dropWhile isDecimalDigit)
  refine ⟨b, b', hb, fun c hc => List.mem_takeWhile_imp hc, hb', ?_⟩
  calc ['('] ++ u = '(' :: (b ++ skipBlanks u) := by rw [← hopen]; rfl
    _ = '(' :: (b ++ ((skipBlanks u).takeWhile isDecimalDigit ++
          (skipBlanks u).dropWhile isDecimalDigit)) := by rw [List.takeWhile_append_dropWhile]
    _ = '(' :: (b ++ ((skipBlanks u).takeWhile isDecimalDigit ++ (b' ++ ')' :: r))) := by
      rw [hdigits, hclose]
      rfl

/-- What follows a precision, if there is one. -/
def behindPrecision (t : Text) : Text := ((precision? t).getD ([], t)).2

theorem behindPrecision_parens {b ds b' : Text} (hb : Blanks b)
    (hds : ∀ c ∈ ds, isDecimalDigit c = true) (hb' : Blanks b') (r : Text) :
    behindPrecision ('(' :: (b ++ (ds ++ (b' ++ ')' :: r)))) = r := by
  rw [behindPrecision, precision?_parens hb hds hb']
  rfl

theorem behindPrecision_cons {c : Char} (hc : c ≠ '(') (r : Text) :
    behindPrecision (c :: r) = c :: r := by
  unfold behindPrecision precision?
  rw [literal_cons_of_ne (Ne.symm hc)]
  rfl

theorem exists_precision (t : Text) : ∃ p, Precision p ∧ t = p ++ behindPrecision t := by
  unfold behindPrecision
  cases h : precision? t with
  | none => exact ⟨[], .none, rfl⟩
  | some x =>
    obtain ⟨b, b', hb, hds, hb', ht⟩ := eq_append_of_precision? h
    refine ⟨_, .parens hb hds hb', ht.trans ?_⟩
    simp

/-- What is behind blanks, without a quote. -/
def unquoted (t : Text) : Text := Scan.optional (literal ['\x27']) (skipBlanks t)

theorem unquoted_append {b q b' : Text} (hb : Blanks b) (hq : MaybeQuote q) (hb' : Blanks b') :
    Blanks (unquoted (b ++ (q ++ b'))) := by
  unfold unquoted
  rw [skipBlanks_append hb]
  rcases hq with rfl | rfl
  · rw [List.nil_append, skipBlanks_blanks hb']
    exact fun c hc => by cases hc
  · rw [List.singleton_append, skipBlanks_of_not_isBlank rfl]
    exact hb'

theorem timestampTail_snd (t : Text) :
    (timestampTail t).2 = unquoted (behindPrecision (skipBlanks t)) := rfl

theorem blanks_timestampTail_iff {t : Text} : Blanks (timestampTail t).2 ↔ NowTail t := by
  rw [timestampTail_snd]
  constructor
  · intro h
    obtain ⟨b, hb, ht⟩ := exists_skipBlanks t
    obtain ⟨p, hp, hskip⟩ := exists_precision (skipBlanks t)
    obtain ⟨b', hb', hbehind⟩ := exists_skipBlanks (behindPrecision (skipBlanks t))
    obtain ⟨q, hq, hrest⟩ := exists_optional_quote (skipBlanks (behindPrecision (skipBlanks t)))
    have htail := NowTail.mk hb hp hb' hq h
    have hsplit : t = b ++ (p ++ (b' ++ (q ++ unquoted (behindPrecision (skipBlanks t))))) := by
      unfold unquoted
      rw [← hrest, ← hbehind, ← hskip, ← ht]
    rw [hsplit]
    exact htail
  · rintro ⟨hb, hp, hb', hq, hb''⟩
    rw [skipBlanks_append hb]
    cases hp with
    | parens hc hds hc' =>
      rw [List.cons_append, skipBlanks_of_not_isBlank rfl]
      simp only [List.append_assoc, List.singleton_append]
      rw [behindPrecision_parens hc hds hc']
      exact unquoted_append hb' hq hb''
    | none =>
      rw [List.nil_append, skipBlanks_append hb']
      rcases hq with rfl | rfl
      · rw [List.nil_append, skipBlanks_blanks hb'']
        exact fun c hc => by cases hc
      · rw [List.singleton_append, skipBlanks_of_not_isBlank rfl, behindPrecision_cons (by decide)]
        exact hb''

theorem currentTimestamp?_eq (t : Text) :
    currentTimestamp? t = (timestampWord (openingQuote t)).bind fun r =>
      if (timestampTail r).2.isBlankOnly then some (canonicalTimestamp (timestampTail r).1)
      else none := by
  unfold currentTimestamp?
  refine congrArg (Option.bind _) (funext fun r => ?_)
  show (guard ((timestampTail r).2.isBlankOnly = true) : Option Unit).bind _ = _
  by_cases h : (timestampTail r).2.isBlankOnly = true
  · rw [if_pos h, guard, if_pos h]
    rfl
  · rw [if_neg h, guard, if_neg h]
    rfl

/-- The scan finds the current time in just the texts that spell it. -/
theorem currentTimestamp?_isSome_iff {t : Text} :
    (currentTimestamp? t).isSome = true ↔ MeansNow t := by
  have htail : ∀ {r : Text}, (timestampTail r).2.isBlankOnly = true ↔ NowTail r := by
    intro r
    rw [← blanks_timestampTail_iff]
    exact List.all_eq_true
  rw [currentTimestamp?_eq]
  constructor
  · intro h
    obtain ⟨u, hu⟩ := Option.isSome_iff_exists.1 h
    obtain ⟨r, hr, hu⟩ := Option.bind_eq_some_iff.1 hu
    obtain ⟨b, q, b', hb, hq, hb', ht⟩ := exists_openingQuote t
    obtain ⟨w, hw, hword⟩ := (timestampWord_of _ r).1 hr
    by_cases hblank : (timestampTail r).2.isBlankOnly = true
    · rw [ht, hword]
      exact .mk hb hq hb' hw (htail.1 hblank)
    · rw [if_neg hblank] at hu
      cases hu
  · rintro ⟨hb, hq, hb', hw, ht⟩
    obtain ⟨c, v, rfl, hblank, hc⟩ := hw.exists_cons
    rw [List.cons_append, openingQuote_append hb hq hb' hblank hc, ← List.cons_append,
      timestampWord_of.eq_some hw, Option.bind_some, if_pos (htail.2 ht)]
    rfl

end Sql

/-! ## Default clauses -/

namespace Statement

open Sql

variable {c : Column} {d : String}

theorem exists_canonicalTimestamp (ds : Text) :
    ∃ u, canonicalTimestamp ds = 'C' :: u := by
  unfold canonicalTimestamp
  split
  · exact ⟨_, String.toList_ofList⟩
  · rw [show "CURRENT_TIMESTAMP(".toList = 'C' :: "URRENT_TIMESTAMP(".toList by rfl]
    exact ⟨_, rfl⟩

/-- A default that spells the current time becomes a keyword. -/
theorem defaultClause_of_meansNow (hd : c.default? = some d) (h : MeansNow d.toList) :
    ∃ u, defaultClause c = " DEFAULT ".toList ++ 'C' :: u := by
  obtain ⟨t, ht⟩ := Option.isSome_iff_exists.1 (currentTimestamp?_isSome_iff.2 h)
  have hcanonical : ∃ u, t = 'C' :: u := by
    rw [currentTimestamp?_eq] at ht
    obtain ⟨r, -, hr⟩ := Option.bind_eq_some_iff.1 ht
    split at hr
    · cases hr
      exact exists_canonicalTimestamp _
    · cases hr
  obtain ⟨u, rfl⟩ := hcanonical
  refine ⟨u, ?_⟩
  unfold defaultClause
  rw [hd]
  simp only [ht]

/-- Any other default is quoted, but for the keyword NULL of a nullable column. -/
theorem defaultClause_of_not_meansNow (hd : c.default? = some d) (h : ¬MeansNow d.toList)
    (hnull : ¬(c.nullable = true ∧ sameName d "NULL" = true)) :
    defaultClause c = " DEFAULT ".toList ++ quoteLiteral d.toList := by
  have hnone : currentTimestamp? d.toList = none := by
    rw [← Option.not_isSome_iff_eq_none, currentTimestamp?_isSome_iff]
    exact h
  unfold defaultClause
  rw [hd]
  simp only [hnone]
  rw [if_neg (by simpa using hnull)]

/-- The default clause is the last one. -/
theorem columnClause_eq (c : Column) :
    columnClause c = columnClause { c with default? := none } ++ defaultClause c := by
  have hnone : defaultClause { c with default? := none } = [] := rfl
  unfold columnClause
  rw [hnone, List.append_nil]

/-- **Defaults are kept, but for the spellings of the current time.** Whatever the type of the
column, the default clause is a literal in which a server reads the default, unless the default is
one of these spellings. -/
theorem default_kept_iff (hd : c.default? = some d)
    (hnull : ¬(c.nullable = true ∧ sameName d "NULL" = true)) :
    (∃ l, columnClause c =
        columnClause { c with default? := none } ++ (" DEFAULT ".toList ++ '\x27' :: l) ∧
      readString .plain l = some (d.toList, [])) ↔ ¬MeansNow d.toList := by
  rw [columnClause_eq]
  constructor
  · rintro ⟨l, hl, -⟩ hnow
    obtain ⟨u, hu⟩ := defaultClause_of_meansNow hd hnow
    rw [hu] at hl
    have hhead := List.append_cancel_left (List.append_cancel_left hl)
    cases hhead
  · intro hnow
    refine ⟨escapeLiteral d.toList ++ ['\x27'], ?_, readString_escapeLiteral d.toList (by simp)⟩
    rw [defaultClause_of_not_meansNow hd hnow hnull]
    rfl

/-- A column of text with a default. -/
def textColumn (default : String) : Column :=
  ⟨"state", "varchar(20)", true, false, false, some default, none⟩

/-- A quote is kept, and so is the word where it is not alone. -/
theorem textColumn_default_kept :
    ∃ l, columnClause (textColumn "it's now") =
        columnClause { textColumn "it's now" with default? := none } ++
          (" DEFAULT ".toList ++ '\x27' :: l) ∧
      readString .plain l = some ("it's now".toList, []) := by
  refine (default_kept_iff rfl (by decide)).2 ?_
  rw [← currentTimestamp?_isSome_iff]
  decide

/-- The word alone becomes the keyword for the current time, which no column of text can have. -/
theorem textColumn_default_changed :
    ¬∃ l, columnClause (textColumn "now") =
        columnClause { textColumn "now" with default? := none } ++
          (" DEFAULT ".toList ++ '\x27' :: l) ∧
      readString .plain l = some ("now".toList, []) := by
  have hnow : MeansNow "now".toList := currentTimestamp?_isSome_iff.1 (by decide)
  obtain ⟨u, hu⟩ := defaultClause_of_meansNow (c := textColumn "now") rfl hnow
  rintro ⟨l, hl, -⟩
  rw [columnClause_eq, hu] at hl
  cases List.append_cancel_left (List.append_cancel_left hl)

end Statement

end SchemaInstaller
