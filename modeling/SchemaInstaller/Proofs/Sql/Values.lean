import Mathlib.Data.List.TakeWhile
import SchemaInstaller.Installer.Statement
import SchemaInstaller.Proofs.Text.Replacement

/-!
# Values as a server reads them

A value in a statement is NULL or a string between single quotes, in which a quote is written twice
and a backslash makes an escape. `readString` reads a string behind its opening quote and gives back
its text and what follows it; `readValues` reads values with commas between them up to a closing
parenthesis. Quoted texts come back as they were (`readString_escapeLiteral`), and so do lists of
values (`readValues_commaList`).
-/

namespace SchemaInstaller.Sql

open Scan Text

/-! ## Blanks -/

/-- Nothing but blanks. -/
def Blanks (t : Text) : Prop := ∀ c ∈ t, isBlank c = true

theorem blanks_nil : Blanks [] := List.forall_mem_nil _

theorem skipBlanks_append {b : Text} (hb : Blanks b) (t : Text) :
    skipBlanks (b ++ t) = skipBlanks t := List.dropWhile_append_of_pos hb

theorem exists_skipBlanks (t : Text) : ∃ b, Blanks b ∧ t = b ++ skipBlanks t :=
  ⟨t.takeWhile isBlank, fun _ => List.mem_takeWhile_imp, List.takeWhile_append_dropWhile.symm⟩

theorem skipBlanks_blanks {b : Text} (hb : Blanks b) : skipBlanks b = [] :=
  List.dropWhile_eq_nil_iff.2 hb

theorem literal_cons_of_ne {d c : Char} (h : d ≠ c) (t : Text) : literal [d] (c :: t) = none := by
  unfold literal
  simp [List.isPrefixOf?, h]

/-! ## Strings -/

/-- What a character behind a backslash stands for, the backslash included: it stays in front of the
two wildcards. -/
def unescaped (c : Char) : Text :=
  if c = '0' then ['\x00']
  else if c = 'b' then ['\x08']
  else if c = 'n' then ['\n']
  else if c = 'r' then ['\r']
  else if c = 't' then ['\t']
  else if c = 'Z' then ['\x1a']
  else if c = '%' ∨ c = '_' then ['\\', c]
  else [c]

/-- What is under way in a string: nothing, an escape, or a quote that ends it unless another one
follows. -/
inductive InString
  | plain
  | escape
  | quote

/-- A string from a place in it: its text from there on, and what follows its closing quote. -/
def readString : InString → Text → Option (Text × Text)
  | .plain, [] => none
  | .plain, c :: r =>
    if c = '\\' then readString .escape r
    else if c = '\x27' then readString .quote r
    else (readString .plain r).map fun x => (c :: x.1, x.2)
  | .escape, [] => none
  | .escape, c :: r => (readString .plain r).map fun x => (unescaped c ++ x.1, x.2)
  | .quote, [] => some ([], [])
  | .quote, c :: r =>
    if c = '\x27' then (readString .plain r).map fun x => (c :: x.1, x.2) else some ([], c :: r)

/-- A quote that is not followed by another one. -/
theorem readString_quote {r : Text} (hr : r.head? ≠ some '\x27') :
    readString .plain ('\x27' :: r) = some ([], r) := by
  show readString .quote r = _
  cases r with
  | nil => rfl
  | cons c r => exact if_neg fun hc : c = '\x27' => hr (hc ▸ rfl)

theorem readString_cons {c : Char} (hb : c ≠ '\\') (hq : c ≠ '\x27') (r : Text) :
    readString .plain (c :: r) = (readString .plain r).map fun x => (c :: x.1, x.2) := by
  rw [readString, if_neg hb, if_neg hq]

/-- What follows a string is part of what was read. -/
theorem length_of_readString {i : InString} {t u r : Text} (h : readString i t = some (u, r)) :
    r.length ≤ t.length := by
  fun_induction readString i t generalizing u with
  | case1 => cases h
  | case2 r' ih => exact Nat.le_succ_of_le (ih h)
  | case3 r' _ ih => exact Nat.le_succ_of_le (ih h)
  | case4 c r' _ _ ih =>
    obtain ⟨x, hx, heq⟩ := Option.map_eq_some_iff.1 h
    cases heq
    exact Nat.le_succ_of_le (ih hx)
  | case5 => cases h
  | case6 c r' ih =>
    obtain ⟨x, hx, heq⟩ := Option.map_eq_some_iff.1 h
    cases heq
    exact Nat.le_succ_of_le (ih hx)
  | case7 =>
    cases h
    exact Nat.le_refl _
  | case8 r' ih =>
    obtain ⟨x, hx, heq⟩ := Option.map_eq_some_iff.1 h
    cases heq
    exact Nat.le_succ_of_le (ih hx)
  | case9 c r' _ =>
    cases h
    exact Nat.le_refl _

/-- Whether a literal writes a character twice. -/
def isDoubled (c : Char) : Bool := c == '\x27' || c == '\\'

theorem escapeLiteral_eq_doubled (t : Text) : escapeLiteral t = doubled isDoubled t := by
  unfold escapeLiteral replaceChar doubled
  rw [List.flatMap_assoc]
  refine List.flatMap_congr fun c _ => ?_
  by_cases hb : c = '\\'
  · subst hb
    rfl
  · by_cases hq : c = '\x27'
    · subst hq
      rfl
    · simp [isDoubled, hb, hq]

/-- A text that was escaped comes back from between its quotes. -/
theorem readString_escapeLiteral (t : Text) {r : Text} (hr : r.head? ≠ some '\x27') :
    readString .plain (escapeLiteral t ++ '\x27' :: r) = some (t, r) := by
  rw [escapeLiteral_eq_doubled]
  induction t with
  | nil => exact readString_quote hr
  | cons c t ih =>
    cases hc : isDoubled c with
    | false =>
      simp only [isDoubled, Bool.or_eq_false_iff, beq_eq_false_iff_ne] at hc
      rw [doubled_cons_of_false (by simp [isDoubled, hc]), List.cons_append,
        readString_cons hc.2 hc.1, ih]
      rfl
    | true =>
      rw [doubled_cons_of_true hc]
      simp only [isDoubled, Bool.or_eq_true, beq_iff_eq] at hc
      have hstep : ∀ x, readString .plain (c :: c :: x) =
          (readString .plain x).map fun y => (c :: y.1, y.2) := by
        intro x
        rcases hc with rfl | rfl <;> rfl
      rw [List.cons_append, List.cons_append, hstep, ih]
      rfl

/-! ## Lists of values -/

/-- A value, null if it is none, and what follows it. -/
def readValue (t : Text) : Option (Option Text × Text) :=
  match t with
  | '\x27' :: r => (readString .plain r).map fun x => (some x.1, x.2)
  | t => (keyword "NULL" t).map (none, ·)

theorem length_of_readValue {t r : Text} {v : Option Text} (h : readValue t = some (v, r)) :
    r.length < t.length := by
  unfold readValue at h
  split at h
  · obtain ⟨x, hx, heq⟩ := Option.map_eq_some_iff.1 h
    cases heq
    have := length_of_readString hx
    rw [List.length_cons]
    omega
  · obtain ⟨r', hr, heq⟩ := Option.map_eq_some_iff.1 h
    cases heq
    have hnull : (keyword "NULL").Of fun w => lowerAscii w = lowerAscii "NULL".toList :=
      letters_of (by decide)
    obtain ⟨w, hw, rfl⟩ := (hnull _ _).1 hr
    have hlen := congrArg List.length hw
    rw [length_lowerAscii] at hlen
    have hfour : (lowerAscii "NULL".toList).length = 4 := by decide
    rw [List.length_append]
    omega

/-- Values with commas between them, up to a closing parenthesis, and what follows it. -/
def readValues (t : Text) : Option (List (Option Text) × Text) :=
  match _h : readValue t with
  | some (v, ')' :: r) => some ([v], r)
  | some (v, ',' :: r) => (readValues (skipBlanks r)).map fun x => (v :: x.1, x.2)
  | _ => none
termination_by t.length
decreasing_by
  have hvalue := length_of_readValue _h
  have hblanks : (skipBlanks r).length ≤ r.length := (List.dropWhile_sublist _).length_le
  rw [List.length_cons] at hvalue
  omega

theorem readValues_last {t r : Text} {v : Option Text} (h : readValue t = some (v, ')' :: r)) :
    readValues t = some ([v], r) := by
  rw [readValues]
  split
  · next hvalue =>
    rw [h] at hvalue
    cases hvalue
    rfl
  · next hvalue =>
    rw [h] at hvalue
    cases hvalue
  · next hlast _ => exact absurd h (hlast v r)

theorem readValues_more {t r : Text} {v : Option Text} (h : readValue t = some (v, ',' :: r)) :
    readValues t = (readValues (skipBlanks r)).map fun x => (v :: x.1, x.2) := by
  rw [readValues]
  split
  · next hvalue =>
    rw [h] at hvalue
    cases hvalue
  · next hvalue =>
    rw [h] at hvalue
    cases hvalue
    rfl
  · next hmore => exact absurd h (hmore v r)

/-- How a value is written. -/
def valueText : Option Text → Text
  | none => "NULL".toList
  | some t => quoteLiteral t

/-- A value in front of something that is no quote. -/
theorem readValue_valueText (v : Option Text) {r : Text} (hr : r.head? ≠ some '\x27') :
    readValue (valueText v ++ r) = some (v, r) := by
  cases v with
  | none =>
    have hnull : valueText none = ['N', 'U', 'L', 'L'] := String.toList_ofList
    rw [hnull]
    rfl
  | some t =>
    have hquoted : valueText (some t) ++ r = '\x27' :: (escapeLiteral t ++ '\x27' :: r) := by
      simp [valueText, quoteLiteral]
    rw [hquoted]
    show (readString .plain (escapeLiteral t ++ '\x27' :: r)).map _ = _
    rw [readString_escapeLiteral t hr]
    rfl

theorem head_valueText (v : Option Text) : ∃ c r, valueText v = c :: r ∧ isBlank c = false := by
  cases v with
  | none => exact ⟨'N', _, String.toList_ofList, by decide⟩
  | some t => exact ⟨'\x27', _, rfl, by decide⟩

/-- A list of values comes back as it was written. -/
theorem readValues_commaList {values : List (Option Text)} (hne : values ≠ []) (r : Text) :
    readValues (Statement.commaList (values.map valueText) ++ ')' :: r) = some (values, r) := by
  unfold Statement.commaList
  induction values with
  | nil => exact absurd rfl hne
  | cons v vs ih =>
    cases vs with
    | nil =>
      rw [List.map_singleton, List.intercalate_singleton]
      exact readValues_last (readValue_valueText v (by simp))
    | cons w vs =>
      obtain ⟨c, u, hc, hblank⟩ := head_valueText w
      have hrest : ∃ x, [',', ' '].intercalate ((w :: vs).map valueText) ++ ')' :: r = c :: x := by
        cases vs <;> simp [hc]
      obtain ⟨x, hx⟩ := hrest
      have hvalue := readValue_valueText v (r := ',' :: ' ' :: c :: x) (by simp)
      have ih := ih (List.cons_ne_nil w vs)
      rw [hx] at ih
      have hlist : [',', ' '].intercalate ((v :: w :: vs).map valueText) ++ ')' :: r =
          valueText v ++ ',' :: ' ' :: c :: x := by
        rw [← hx]
        simp
      rw [hlist, readValues_more hvalue, skipBlanks_space hblank, ih]
      rfl

end SchemaInstaller.Sql
