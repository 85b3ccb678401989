import Mathlib.Tactic.Common
import SchemaInstaller.Json.Printer
import SchemaInstaller.Json.Reader

/-!
# Numbers and strings are read back as they were written

The reader takes a written number or string and leaves what stands behind it. Behind a number that
must not go on with the number (`EndsNumber`).
-/

namespace SchemaInstaller.Json

/-! ## Numbers -/

/-- A text that does not go on with a number. -/
def EndsNumber (t : Text) : Prop :=
  ∀ c, t.head? = some c → c.isDigit = false ∧ c ≠ '.' ∧ c ≠ 'e' ∧ c ≠ 'E'

theorem endsNumber_cons {c : Char} (r : Text)
    (h : c.isDigit = false ∧ c ≠ '.' ∧ c ≠ 'e' ∧ c ≠ 'E') : EndsNumber (c :: r) := by
  intro d hd
  obtain rfl : c = d := by simpa using hd
  exact h

theorem startsWithDigit_eq_false {t : Text} (h : EndsNumber t) : startsWithDigit t = false := by
  cases t with
  | nil => rfl
  | cons c r => exact (h c rfl).1

theorem le_ofDigitChars (ds : Text) (n : Nat) : n ≤ Nat.ofDigitChars 10 ds n := by
  induction ds generalizing n with
  | nil => exact Nat.le_of_eq Nat.ofDigitChars_nil.symm
  | cons c r ih =>
    rw [Nat.ofDigitChars_cons]
    have := ih (10 * n + (c.toNat - '0'.toNat))
    omega

/-- Digits are all taken if their value fits 64 bits. -/
theorem takeDigits_append {ds t : Text} (hds : ∀ c ∈ ds, c.isDigit = true) (ht : EndsNumber t)
    (n taken : Nat) (hfits : Nat.ofDigitChars 10 ds n < 18446744073709551616) :
    takeDigits n taken (ds ++ t) = (Nat.ofDigitChars 10 ds n, taken + ds.length, t) := by
  induction ds generalizing n taken with
  | nil =>
    cases t with
    | nil => rfl
    | cons c r =>
      have hc := (ht c rfl).1
      simp [takeDigits, hc]
  | cons c r ih =>
    have hvalue : 10 * n + (c.toNat - '0'.toNat) = n * 10 + (c.toNat - 48) := by
      show 10 * n + (c.toNat - 48) = n * 10 + (c.toNat - 48)
      omega
    rw [Nat.ofDigitChars_cons, hvalue] at hfits ⊢
    have hnext := Nat.lt_of_le_of_lt (le_ofDigitChars r _) hfits
    have hc := hds c List.mem_cons_self
    rw [List.cons_append, takeDigits]
    simp only [hc, hnext, decide_true, Bool.and_self, if_true]
    rw [ih (fun d hd => hds d (List.mem_cons_of_mem c hd)) _ _ hfits, List.length_cons]
    simp only [Nat.add_comm, Nat.add_left_comm]

/-- The digits of a positive number do not start with a zero. -/
theorem head_toDigits {n : Nat} (h : 0 < n) :
    ∃ c r, Nat.toDigits 10 n = c :: r ∧ c ≠ '0' ∧ c.isDigit = true := by
  induction n using Nat.strongRecOn with
  | ind n ih =>
    rw [Nat.toDigits_eq_if (by decide)]
    by_cases hn : n < 10
    · rw [if_pos hn]
      refine ⟨n.digitChar, [], rfl, ?_⟩
      have hall : ∀ k < 10, 0 < k → k.digitChar ≠ '0' ∧ k.digitChar.isDigit = true := by decide
      exact hall n hn h
    · rw [if_neg hn]
      obtain ⟨c, r, hr, hc⟩ := ih (n / 10) (by omega) (by omega)
      exact ⟨c, r ++ [(n % 10).digitChar], by rw [hr]; rfl, hc⟩

theorem afterWhole_of_ends {t : Text} (h : EndsNumber t) (negative : Bool) (n : Nat) :
    afterWhole negative n t = wholeNumber negative n t := by
  unfold afterWhole
  cases t with
  | nil => simp
  | cons c r =>
    obtain ⟨hdigit, hpoint, he, hE⟩ := h c rfl
    simp only [List.takeWhile_cons, List.dropWhile_cons, hdigit, Bool.false_eq_true, if_false]
    split
    · next heq => exact absurd (List.cons.inj heq).1 hpoint
    · simp [he, hE]

/-- The digits of a number that fits 64 bits are read as that number. -/
theorem readNumber_toDigits {n : Nat} (hn : n < 18446744073709551616) {t : Text}
    (ht : EndsNumber t) (negative : Bool) :
    readNumber negative (Nat.toDigits 10 n ++ t) = wholeNumber negative n t := by
  rcases Nat.eq_zero_or_pos n with rfl | hpos
  · rw [Nat.toDigits_zero, List.singleton_append, readNumber, if_pos (by decide),
      startsWithDigit_eq_false ht, afterWhole_of_ends ht]
    rfl
  · obtain ⟨c, r, hr, hzero, hdigit⟩ := head_toDigits hpos
    have hds : ∀ d ∈ Nat.toDigits 10 n, d.isDigit = true := fun d hd =>
      Nat.isDigit_of_mem_toDigits (by decide) (by decide) hd
    have hvalue : Nat.ofDigitChars 10 (Nat.toDigits 10 n) 0 = n := Nat.ofDigitChars_ten_toDigits
    have htake := takeDigits_append hds ht 0 0 (by rw [hvalue]; exact hn)
    rw [hvalue, hr, List.cons_append] at htake
    have hne : (c == '0') = false := beq_eq_false_iff_ne.2 hzero
    rw [hr, List.cons_append, readNumber, hne, hdigit, htake]
    exact afterWhole_of_ends ht negative n

theorem ne_of_isDigit {c d : Char} (hc : c.isDigit = true) (hd : d.isDigit = false) : c ≠ d := by
  rintro rfl
  rw [hd] at hc
  cases hc

theorem skipSpacing_cons {c : Char} (h : isSpacing c = false) (r : Text) :
    skipSpacing (c :: r) = c :: r := by
  unfold skipSpacing
  rw [List.dropWhile_cons, h]
  rfl

theorem isSpacing_of_isDigit {c : Char} (h : c.isDigit = true) : isSpacing c = false := by
  simp [isSpacing, ne_of_isDigit h (d := ' ') rfl, ne_of_isDigit h (d := '\n') rfl,
    ne_of_isDigit h (d := '\t') rfl, ne_of_isDigit h (d := '\r') rfl]

theorem value_of_isDigit {c : Char} (h : c.isDigit = true) (fuel depth : Nat) (r : Text) :
    value fuel depth (c :: r) =
      (readNumber false (c :: r)).map fun (n, rest) => (number n, rest) := by
  unfold value
  simp [skipSpacing_cons (isSpacing_of_isDigit h), h, ne_of_isDigit h (d := 'n') rfl,
    ne_of_isDigit h (d := 't') rfl, ne_of_isDigit h (d := 'f') rfl, ne_of_isDigit h (d := '-') rfl]

theorem value_of_minus (fuel depth : Nat) (r : Text) :
    value fuel depth ('-' :: r) =
      (readNumber true r).map fun (n, rest) => (number n, rest) := by
  unfold value
  rw [skipSpacing_cons rfl]
  rfl

/-- The text of a number that is not negative. -/
theorem toText_ofNat (k : Nat) (h : fitsInteger (Int.ofNat k) = true) :
    (Number.integer ⟨Int.ofNat k, h⟩).toText = Nat.toDigits 10 k := Nat.toList_repr

/-- The text of a negative number. -/
theorem toText_negSucc (k : Nat) (h : fitsInteger (Int.negSucc k) = true) :
    (Number.integer ⟨Int.negSucc k, h⟩).toText = '-' :: Nat.toDigits 10 (k + 1) := by
  have htext : toString (Int.negSucc k) = "-" ++ (k + 1).repr := rfl
  show (toString (Int.negSucc k)).toList = _
  rw [htext, String.toList_append, String.toList_ofList, Nat.toList_repr]
  rfl

/-- A number starts with a digit or a minus. -/
theorem toText_integer_cons (i : Integer) :
    ∃ c r, (Number.integer i).toText = c :: r ∧ (c.isDigit = true ∨ c = '-') := by
  obtain ⟨n, hn⟩ := i
  cases n with
  | ofNat k =>
    obtain ⟨c, r, hr⟩ := List.exists_cons_of_ne_nil (Nat.toDigits_ne_nil (n := k) (b := 10))
    have hc : c.isDigit = true :=
      Nat.isDigit_of_mem_toDigits (b := 10) (n := k) (by decide) (by decide) (by simp [hr])
    exact ⟨c, r, (toText_ofNat k hn).trans hr, .inl hc⟩
  | negSucc k => exact ⟨'-', _, toText_negSucc k hn, .inr rfl⟩

theorem wholeNumber_ofNat (k : Nat) (h : fitsInteger (Int.ofNat k) = true) (t : Text) :
    wholeNumber false k t = .ok (.integer ⟨Int.ofNat k, h⟩, t) := by
  have hof : Integer.ofInt? (k : Int) = some ⟨Int.ofNat k, h⟩ := dif_pos h
  unfold wholeNumber
  simp only [hof, Bool.not_false, if_true]

theorem wholeNumber_negSucc (k : Nat) (h : fitsInteger (Int.negSucc k) = true) (t : Text) :
    wholeNumber true (k + 1) t = .ok (.integer ⟨Int.negSucc k, h⟩, t) := by
  have hof : Integer.ofInt? (Int.negSucc k) = some ⟨Int.negSucc k, h⟩ := dif_pos h
  have hneg : (-((k + 1 : Nat) : Int)) = Int.negSucc k := (Int.negSucc_eq k).symm
  have hk : k + 1 ≤ 9223372036854775808 := by
    have hlow : -9223372036854775808 ≤ Int.negSucc k := by
      simp only [fitsInteger, Bool.and_eq_true, decide_eq_true_eq] at h
      exact h.1
    omega
  unfold wholeNumber
  simp only [hneg, hof, hk, Nat.succ_pos, decide_true, Bool.and_self, Bool.not_true,
    Bool.false_eq_true, if_false, if_true]

/-- A whole number in range is read as itself. -/
theorem value_number (i : Integer) (fuel depth : Nat) {t : Text} (ht : EndsNumber t) :
    value fuel depth ((Number.integer i).toText ++ t) = .ok (number (.integer i), t) := by
  obtain ⟨n, hn⟩ := i
  have hrange : -9223372036854775808 ≤ n ∧ n < 18446744073709551616 := by
    simpa only [fitsInteger, Bool.and_eq_true, decide_eq_true_eq] using hn
  cases n with
  | ofNat k =>
    have hk : k < 18446744073709551616 := by
      have htop : (k : Int) < 18446744073709551616 := hrange.2
      omega
    obtain ⟨c, r, hr⟩ := List.exists_cons_of_ne_nil (Nat.toDigits_ne_nil (n := k) (b := 10))
    have hc : c.isDigit = true :=
      Nat.isDigit_of_mem_toDigits (b := 10) (n := k) (by decide) (by decide) (by simp [hr])
    rw [toText_ofNat, hr, List.cons_append, value_of_isDigit hc, ← List.cons_append, ← hr,
      readNumber_toDigits hk ht, wholeNumber_ofNat k hn]
    rfl
  | negSucc k =>
    have hk : k + 1 < 18446744073709551616 := by
      have := hrange.1
      omega
    rw [toText_negSucc, List.cons_append, value_of_minus, readNumber_toDigits hk ht,
      wholeNumber_negSucc k hn]
    rfl

/-! ## Strings -/

/-- The value of a byte's two hexadecimal digits, for the characters that need them. -/
theorem hexFour?_hexByte {n : Nat} (h : n < 32) (t : Text) :
    hexFour? ('0' :: '0' :: hexByte n ++ t) = some (n, t) := by
  have hhigh : hexValue? (Nat.digitChar (n / 16)) = some (n / 16) := by
    have hall : ∀ k < 2, hexValue? (Nat.digitChar k) = some k := by decide
    exact hall (n / 16) (by omega)
  have hlow : hexValue? (Nat.digitChar (n % 16)) = some (n % 16) := by
    have hall : ∀ k < 16, hexValue? (Nat.digitChar k) = some k := by decide
    exact hall (n % 16) (by omega)
  have hzero : hexValue? '0' = some 0 := by decide
  have hvalue : ((0 * 16 + 0) * 16 + n / 16) * 16 + n % 16 = n := by omega
  unfold hexByte
  simp only [List.cons_append, List.nil_append, hexFour?, hzero, hhigh, hlow, Option.bind_eq_bind,
    Option.bind_some, hvalue]
  rfl

/-- A character is written as itself, as a letter behind a backslash, or as its number. -/
theorem escapeChar_cases (c : Char) :
    (∃ e, escapeChar c = ['\\', e] ∧ e ≠ 'u' ∧ simpleEscape? e = some c) ∨
    (escapeChar c = '\\' :: 'u' :: '0' :: '0' :: hexByte c.toNat ∧ c.toNat < 32) ∨
    (escapeChar c = [c] ∧ c ≠ '\x22' ∧ c ≠ '\\' ∧ ¬c.toNat < 32) := by
  by_cases hsimple : c ∈ ['\x22', '\\', '\n', '\r', '\t', '\x08', '\x0c']
  · left
    simp only [List.mem_cons, List.not_mem_nil, or_false] at hsimple
    rcases hsimple with rfl | rfl | rfl | rfl | rfl | rfl | rfl <;>
      exact ⟨_, rfl, by decide, rfl⟩
  · right
    simp only [List.mem_cons, List.not_mem_nil, or_false, not_or] at hsimple
    obtain ⟨hquote, hbackslash, hn, hr, ht, hb, hf⟩ := hsimple
    unfold escapeChar
    simp only [beq_iff_eq, hquote, hbackslash, hn, hr, ht, hb, hf, if_false]
    by_cases hcontrol : c.toNat < 32
    · exact .inl ⟨if_pos hcontrol, hcontrol⟩
    · exact .inr ⟨if_neg hcontrol, hquote, hbackslash, hcontrol⟩

/-- The number of a character is read as that character. -/
theorem numericEscape_hexByte {c : Char} (h : c.toNat < 32) (t : Text) :
    numericEscape ('0' :: '0' :: hexByte c.toNat ++ t) = .ok (c, t) := by
  have hhex : hexEscape ('0' :: '0' :: hexByte c.toNat ++ t) = .ok (c.toNat, t) := by
    rw [hexEscape, hexFour?_hexByte h]
  have hsurrogate : ¬(0xDC00 ≤ c.toNat && c.toNat ≤ 0xDFFF) = true := by
    simp only [Bool.and_eq_true, decide_eq_true_eq]
    omega
  have hplain : (c.toNat < 0xD800 || c.toNat > 0xDBFF) = true := by
    simp only [Bool.or_eq_true, decide_eq_true_eq]
    omega
  rw [numericEscape, hhex]
  show (if _ then _ else _) = _
  rw [if_neg hsurrogate, if_pos hplain, Char.ofNat_toNat]
  rfl

/-- A backslash and what belongs to it are one step of reading a string. -/
theorem stringBody_backslash {c : Char} {r t : Text} (h : escape r = .ok (c, t)) (fuel : Nat)
    (done : Text) : stringBody (fuel + 1) done ('\\' :: r) = stringBody fuel (c :: done) t := by
  rw [stringBody, if_neg (by decide), if_pos (by decide), h]
  rfl

/-- An escaped character is one step of reading a string. -/
theorem stringBody_escapeChar (c : Char) (fuel : Nat) (done t : Text) :
    stringBody (fuel + 1) done (escapeChar c ++ t) = stringBody fuel (c :: done) t := by
  obtain ⟨e, hc, hu, he⟩ | ⟨hc, hcontrol⟩ | ⟨hc, hquote, hbackslash, hcontrol⟩ :=
    escapeChar_cases c
  · have hescape : escape (e :: t) = .ok (c, t) := by
      rw [escape, if_neg (by simpa using hu), he]
    rw [hc]
    exact stringBody_backslash hescape fuel done
  · have hescape : escape ('u' :: '0' :: '0' :: hexByte c.toNat ++ t) = .ok (c, t) :=
      numericEscape_hexByte hcontrol t
    rw [hc]
    exact stringBody_backslash hescape fuel done
  · rw [hc, List.singleton_append, stringBody, if_neg (by simpa using hquote),
      if_neg (by simpa using hbackslash), if_neg hcontrol]

/-- A quoted string is read as itself. -/
theorem stringBody_quote {u : Text} {fuel : Nat} (h : u.length < fuel) (done t : Text) :
    stringBody fuel done (u.flatMap escapeChar ++ '\x22' :: t) =
      .ok (String.ofList (done.reverse ++ u), t) := by
  induction u generalizing fuel done with
  | nil =>
    obtain ⟨n, rfl⟩ : ∃ n, fuel = n + 1 := ⟨fuel - 1, by simp at h; omega⟩
    rw [List.append_nil]
    rfl
  | cons c r ih =>
    rw [List.length_cons] at h
    obtain ⟨n, rfl⟩ : ∃ n, fuel = n + 1 := ⟨fuel - 1, by omega⟩
    rw [List.flatMap_cons, List.append_assoc, stringBody_escapeChar, ih (by omega),
      List.reverse_cons, List.append_assoc]
    rfl

end SchemaInstaller.Json
