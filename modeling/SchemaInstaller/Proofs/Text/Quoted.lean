import Mathlib.Data.List.Basic
import SchemaInstaller.Text.Quoted

/-!
# Quoted names can be told apart

Every character has a spelling of its own between double quotes, and no spelling begins another one
(`spell_append_inj`). So a quoted name can be read off the front of a message whatever follows it
(`quoted_append_inj`), and messages about different names differ.
-/

namespace SchemaInstaller.Text

/-! ## Hexadecimal digits -/

theorem digitChar_inj {a b : Nat} (ha : a < 16) (hb : b < 16) (h : a.digitChar = b.digitChar) :
    a = b := by
  have hall : ∀ a < 16, ∀ b < 16, a.digitChar = b.digitChar → a = b := by decide
  exact hall a ha b hb h

theorem hexDigits_of_lt {n : Nat} (h : n < 16) : hexDigits n = [n.digitChar] :=
  Nat.toDigits_of_lt_base h

theorem hexDigits_of_le {n : Nat} (h : 16 ≤ n) :
    hexDigits n = hexDigits (n / 16) ++ [(n % 16).digitChar] :=
  Nat.toDigits_of_base_le (by decide) h

theorem hexDigits_ne_nil (n : Nat) : hexDigits n ≠ [] := Nat.toDigits_ne_nil

theorem hexDigits_inj {a b : Nat} (h : hexDigits a = hexDigits b) : a = b := by
  induction a using Nat.strongRecOn generalizing b with
  | ind a ih =>
    rcases Nat.lt_or_ge a 16 with ha | ha <;> rcases Nat.lt_or_ge b 16 with hb | hb
    · rw [hexDigits_of_lt ha, hexDigits_of_lt hb] at h
      exact digitChar_inj ha hb (List.cons.inj h).1
    · rw [hexDigits_of_lt ha, hexDigits_of_le hb] at h
      have hsplit : [] ++ [a.digitChar] = hexDigits (b / 16) ++ [(b % 16).digitChar] := h
      exact absurd (List.append_inj' hsplit rfl).1.symm (hexDigits_ne_nil _)
    · rw [hexDigits_of_le ha, hexDigits_of_lt hb] at h
      have hsplit : hexDigits (a / 16) ++ [(a % 16).digitChar] = [] ++ [b.digitChar] := h
      exact absurd (List.append_inj' hsplit rfl).1 (hexDigits_ne_nil _)
    · rw [hexDigits_of_le ha, hexDigits_of_le hb] at h
      obtain ⟨hinit, hlast⟩ := List.append_inj' h rfl
      have hquot := ih (a / 16) (by omega) hinit
      have hrem := digitChar_inj (Nat.mod_lt a (by decide)) (Nat.mod_lt b (by decide))
        (List.cons.inj hlast).1
      omega

theorem brace_notMem_hexDigits (n : Nat) : '\x7d' ∉ hexDigits n := by
  induction n using Nat.strongRecOn with
  | ind n ih =>
    have hdigit : ∀ a < 16, '\x7d' ≠ a.digitChar := by decide
    rcases Nat.lt_or_ge n 16 with hn | hn
    · rw [hexDigits_of_lt hn, List.mem_singleton]
      exact hdigit n hn
    · rw [hexDigits_of_le hn, List.mem_append, List.mem_singleton, not_or]
      exact ⟨ih (n / 16) (by omega), hdigit _ (Nat.mod_lt n (by decide))⟩

/-- Where a number ends is told by the brace behind it. -/
theorem hexDigits_append_inj {a b : Nat} {r s : Text}
    (h : hexDigits a ++ '\x7d' :: r = hexDigits b ++ '\x7d' :: s) : a = b ∧ r = s := by
  have hdigits : ∀ n t, (hexDigits n ++ '\x7d' :: t).takeWhile (· != '\x7d') = hexDigits n := by
    intro n t
    rw [List.takeWhile_append_of_pos, List.takeWhile_cons_of_neg (by decide), List.append_nil]
    intro c hc
    simpa using fun hbrace : c = '\x7d' => brace_notMem_hexDigits n (hbrace ▸ hc)
  have hsame : hexDigits a = hexDigits b := by rw [← hdigits a r, h, hdigits b s]
  rw [hsame] at h
  exact ⟨hexDigits_inj hsame, (List.cons.inj (List.append_cancel_left h)).2⟩

/-! ## Spellings -/

/-- The letters that stand for single characters behind a backslash. -/
def shortSpellings : List (Char × Char) :=
  [('0', '\x00'), ('t', '\t'), ('r', '\r'), ('n', '\n'), ('\\', '\\'), ('\x22', '\x22')]

/-- A character is spelled by itself, by a letter behind a backslash, or by its number. -/
theorem spell_cases (c : Char) :
    (c ≠ '\\' ∧ c ≠ '\x22' ∧ spell c = [c]) ∨
      (∃ k, (k, c) ∈ shortSpellings ∧ spell c = ['\\', k]) ∨
        spell c = '\\' :: 'u' :: '\x7b' :: (hexDigits c.toNat ++ ['\x7d']) := by
  by_cases hshort : ∃ k, (k, c) ∈ shortSpellings
  · obtain ⟨k, hk⟩ := hshort
    refine .inr (.inl ⟨k, hk, ?_⟩)
    simp only [shortSpellings, List.mem_cons, Prod.mk.injEq, List.not_mem_nil, or_false] at hk
    rcases hk with ⟨rfl, rfl⟩ | ⟨rfl, rfl⟩ | ⟨rfl, rfl⟩ | ⟨rfl, rfl⟩ | ⟨rfl, rfl⟩ | ⟨rfl, rfl⟩ <;> rfl
  · have hne : ∀ k d, (k, d) ∈ shortSpellings → c ≠ d := fun k d hd hcd => hshort ⟨k, hcd ▸ hd⟩
    have hbackslash := hne '\\' '\\' (by decide)
    have hquote := hne '\x22' '\x22' (by decide)
    have hspell : spell c = if isExtending c || isHidden c then
        ['\\', 'u', '\x7b'] ++ hexDigits c.toNat ++ ['\x7d'] else [c] := by
      simp [spell, hne '0' '\x00' (by decide), hne 't' '\t' (by decide), hne 'r' '\r' (by decide),
        hne 'n' '\n' (by decide), hbackslash, hquote]
    rw [hspell]
    split
    · exact .inr (.inr rfl)
    · exact .inl ⟨hbackslash, hquote, rfl⟩

/-- No spelling begins another one. -/
theorem spell_append_inj {c d : Char} {r s : Text} (h : spell c ++ r = spell d ++ s) :
    c = d ∧ r = s := by
  have hletters : ∀ x ∈ shortSpellings, x.1 ≠ 'u' ∧ ∀ y ∈ shortSpellings, x.1 = y.1 → x.2 = y.2 := by
    decide
  rcases spell_cases c with ⟨hc, -, hcs⟩ | ⟨k, hk, hcs⟩ | hcs <;>
    rcases spell_cases d with ⟨hd, -, hds⟩ | ⟨l, hl, hds⟩ | hds <;>
    rw [hcs, hds] at h <;> obtain ⟨hfirst, h⟩ := List.cons.inj h
  · exact ⟨hfirst, h⟩
  · exact absurd hfirst hc
  · exact absurd hfirst hc
  · exact absurd hfirst.symm hd
  · obtain ⟨hletter, hrest⟩ := List.cons.inj h
    exact ⟨(hletters _ hk).2 _ hl hletter, hrest⟩
  · exact absurd (List.cons.inj h).1 (hletters _ hk).1
  · exact absurd hfirst.symm hd
  · exact absurd (List.cons.inj h).1.symm (hletters _ hl).1
  · have hnumber : hexDigits c.toNat ++ '\x7d' :: r = hexDigits d.toNat ++ '\x7d' :: s := by
      simpa using (List.cons.inj (List.cons.inj h).2).2
    obtain ⟨hcode, hrest⟩ := hexDigits_append_inj hnumber
    exact ⟨Char.toNat_inj.1 hcode, hrest⟩

/-- No spelling begins with the quote that ends a name. -/
theorem spell_append_ne_quote (c : Char) (r s : Text) : spell c ++ r ≠ '\x22' :: s := by
  rcases spell_cases c with ⟨-, hc, hcs⟩ | ⟨k, -, hcs⟩ | hcs <;> rw [hcs] <;> intro h
  · exact hc (List.cons.inj h).1
  · exact absurd (List.cons.inj h).1 (by decide)
  · exact absurd (List.cons.inj h).1 (by decide)

/-! ## Names -/

theorem spellings_append_inj {a b r s : Text}
    (h : a.flatMap spell ++ '\x22' :: r = b.flatMap spell ++ '\x22' :: s) : a = b ∧ r = s := by
  induction a generalizing b with
  | nil =>
    cases b with
    | nil => exact ⟨rfl, (List.cons.inj h).2⟩
    | cons d b =>
      rw [List.flatMap_cons, List.append_assoc] at h
      exact absurd h.symm (spell_append_ne_quote d _ _)
  | cons c a ih =>
    cases b with
    | nil =>
      rw [List.flatMap_cons, List.append_assoc] at h
      exact absurd h (spell_append_ne_quote c _ _)
    | cons d b =>
      rw [List.flatMap_cons, List.flatMap_cons, List.append_assoc, List.append_assoc] at h
      obtain ⟨rfl, hrest⟩ := spell_append_inj h
      obtain ⟨rfl, hr⟩ := ih hrest
      exact ⟨rfl, hr⟩

/-- A quoted name can be read off the front of a text. -/
theorem quoted_append_inj {a b r s : Text} (h : quoted a ++ r = quoted b ++ s) :
    a = b ∧ r = s := by
  unfold quoted at h
  rw [List.cons_append, List.cons_append, List.append_assoc, List.append_assoc] at h
  exact spellings_append_inj (List.cons.inj h).2

end SchemaInstaller.Text

namespace SchemaInstaller

theorem toList_quoteName (s : String) : (quoteName s).toList = Text.quoted s.toList :=
  String.toList_ofList

theorem quoteName_append_inj {a b : String} {r s : Text}
    (h : (quoteName a).toList ++ r = (quoteName b).toList ++ s) : a = b ∧ r = s := by
  rw [toList_quoteName, toList_quoteName] at h
  obtain ⟨hname, hrest⟩ := Text.quoted_append_inj h
  exact ⟨String.toList_inj.1 hname, hrest⟩

end SchemaInstaller
