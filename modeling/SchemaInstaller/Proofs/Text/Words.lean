import SchemaInstaller.Proofs.Text.Edits

/-!
# Words

A text is made of words with blanks between them. Two texts that begin alike still have the same
words, or still do not, when the same characters are put in front of both (`words_append_congr`,
`Poorer.append`): so a text that has lost a character that can be seen, or a gap between two words,
never gets it back.
-/

namespace SchemaInstaller

open Text

/-! ## Words -/

/-- A word: at least one character, and no blank. -/
def IsWord (w : Text) : Prop := w ≠ [] ∧ ∀ c ∈ w, isBlank c = false

instance (w : Text) : Decidable (IsWord w) :=
  decidable_of_iff (w ≠ [] ∧ w.all fun c => !isBlank c) (by simp [IsWord])

theorem IsWord.of_cons {c d : Char} {w : Text} (h : IsWord (c :: d :: w)) : IsWord (d :: w) :=
  ⟨List.cons_ne_nil d w, fun e he => h.2 e (List.mem_cons_of_mem c he)⟩

namespace Text

theorem words_blank {c : Char} (h : isBlank c = true) (r : Text) : words (c :: r) = words r := by
  rw [words.eq_def]
  exact if_pos h

/-- A character that is not blank starts a word, or belongs to the one behind it. -/
theorem words_cons {c d : Char} (hc : isBlank c = false) (r : Text) :
    words (c :: d :: r) =
      if isBlank d then [c] :: words (d :: r)
      else match words (d :: r) with
        | [] => [[c]]
        | w :: ws => (c :: w) :: ws := by
  rw [words.eq_def]
  exact if_neg (by simp [hc])

theorem words_word {w : Text} (h : IsWord w) : words w = [w] := by
  induction w with
  | nil => exact absurd rfl h.1
  | cons c w ih =>
    have hc := h.2 c List.mem_cons_self
    cases w with
    | nil =>
      rw [words.eq_def]
      exact if_neg (by simp [hc])
    | cons d w =>
      rw [words_cons hc, if_neg (by simp [h.of_cons.2 d List.mem_cons_self]), ih h.of_cons]

theorem words_append_blank {w : Text} (h : IsWord w) {b : Char} (hb : isBlank b = true)
    (r : Text) : words (w ++ b :: r) = w :: words r := by
  induction w with
  | nil => exact absurd rfl h.1
  | cons c w ih =>
    have hc := h.2 c List.mem_cons_self
    cases w with
    | nil =>
      show words (c :: b :: r) = _
      rw [words_cons hc, if_pos hb, words_blank hb]
    | cons d w =>
      have hrest := ih h.of_cons
      rw [List.cons_append] at hrest
      rw [List.cons_append, List.cons_append, words_cons hc,
        if_neg (by simp [h.of_cons.2 d List.mem_cons_self]), hrest]

theorem words_intercalate {ws : List Text} (h : ∀ w ∈ ws, IsWord w) :
    words ([' '].intercalate ws) = ws := by
  induction ws with
  | nil => rfl
  | cons w ws ih =>
    have hw := h w List.mem_cons_self
    have hrest := ih fun v hv => h v (List.mem_cons_of_mem w hv)
    cases ws with
    | nil =>
      rw [List.intercalate_singleton]
      exact words_word hw
    | cons v ws =>
      rw [List.intercalate_cons_cons, List.append_assoc]
      show words (w ++ ' ' :: [' '].intercalate (v :: ws)) = _
      rw [words_append_blank hw rfl, hrest]

end Text

namespace Text

/-! ## What words are made of -/

/-- A character that can be seen in front of another one joins its word. -/
theorem words_join {c d : Char} (hc : isBlank c = false) (hd : isBlank d = false) (r : Text) :
    ∃ w ws, words (d :: r) = w :: ws ∧ words (c :: d :: r) = (c :: w) :: ws := by
  have hstart : ∃ w ws, words (d :: r) = w :: ws := by
    cases r with
    | nil => exact ⟨[d], [], words_word ⟨List.cons_ne_nil d [], by simpa using hd⟩⟩
    | cons e r =>
      rw [words_cons hd]
      split
      · exact ⟨_, _, rfl⟩
      · split <;> exact ⟨_, _, rfl⟩
  obtain ⟨w, ws, hwords⟩ := hstart
  refine ⟨w, ws, hwords, ?_⟩
  rw [words_cons hc, if_neg (by simp [hd]), hwords]

/-- A character that can be seen makes a word of its own where none starts behind it. -/
theorem words_apart {c : Char} (hc : isBlank c = false) {t : Text}
    (ht : t.head?.all isBlank = true) : words (c :: t) = [c] :: words t := by
  cases t with
  | nil => exact words_word ⟨List.cons_ne_nil c [], by simpa using hc⟩
  | cons d r =>
    rw [words_cons hc]
    exact if_pos ht

theorem flatten_words (t : Text) : (words t).flatten = visible t := by
  induction t with
  | nil => rfl
  | cons c r ih =>
    cases hc : isBlank c with
    | true =>
      rw [words_blank hc, ih, visible, visible, List.filter_cons_of_neg (by simp [hc])]
    | false =>
      have hvisible : visible (c :: r) = c :: visible r := List.filter_cons_of_pos (by simp [hc])
      cases hr : r.head?.all isBlank with
      | true => rw [words_apart hc hr, hvisible, ← ih]; rfl
      | false =>
        cases r with
        | nil => cases hr
        | cons d r =>
          obtain ⟨w, ws, hwords, hjoined⟩ := words_join hc hr r
          rw [hjoined, hvisible, ← ih, hwords]
          rfl

theorem length_words_cons (c : Char) (t : Text) : (words (c :: t)).length =
    (words t).length + if !isBlank c && t.head?.all isBlank then 1 else 0 := by
  cases hc : isBlank c with
  | true => rw [words_blank hc]; rfl
  | false =>
    cases ht : t.head?.all isBlank with
    | true => rw [words_apart hc ht]; rfl
    | false =>
      cases t with
      | nil => cases ht
      | cons d r =>
        obtain ⟨w, ws, hwords, hjoined⟩ := words_join hc ht r
        rw [hjoined, hwords]
        rfl

/-- Blanks at the start belong to no word. -/
theorem words_isBlankOnly_append {b : Text} (hb : b.isBlankOnly = true) (t : Text) :
    words (b ++ t) = words t := by
  induction b with
  | nil => rfl
  | cons c b ih =>
    obtain ⟨hc, hrest⟩ := (Bool.and_eq_true_iff ..).1 hb
    rw [List.cons_append, words_blank hc, ih hrest]

/-- Blanks at the end belong to no word. -/
theorem words_append_of_isBlankOnly {b : Text} (hb : b.isBlankOnly = true) (t : Text) :
    words (t ++ b) = words t := by
  have hnone : words b = [] := by
    rw [← List.append_nil b, words_isBlankOnly_append hb]
    rfl
  induction t with
  | nil => exact hnone
  | cons c t ih =>
    cases hc : isBlank c with
    | true => rw [List.cons_append, words_blank hc, words_blank hc, ih]
    | false =>
      cases t with
      | nil =>
        have hhead : b.head?.all isBlank = true := by
          cases b with
          | nil => rfl
          | cons d b => exact ((Bool.and_eq_true_iff ..).1 hb).1
        rw [List.singleton_append, words_apart hc hhead, words_apart hc rfl, hnone]
        rfl
      | cons d t =>
        rw [List.cons_append] at ih
        rw [List.cons_append, List.cons_append, words_cons hc, words_cons hc, ih]

/-! ## Texts that begin alike -/

variable {t u : Text}

theorem words_cons_congr (hhead : t.head? = u.head?) (h : words t = words u) (c : Char) :
    words (c :: t) = words (c :: u) := by
  cases hc : isBlank c with
  | true => rw [words_blank hc, words_blank hc, h]
  | false =>
    cases t with
    | nil =>
      obtain rfl := List.head?_eq_none_iff.1 hhead.symm
      rfl
    | cons d t =>
      cases u with
      | nil => cases hhead
      | cons e u =>
        obtain rfl := Option.some.inj hhead
        rw [words_cons hc, words_cons hc, h]

theorem head?_append_congr (hhead : t.head? = u.head?) (x : Text) :
    (x ++ t).head? = (x ++ u).head? := by
  rw [List.head?_append, List.head?_append, hhead]

theorem words_append_congr (hhead : t.head? = u.head?) (h : words t = words u) (x : Text) :
    words (x ++ t) = words (x ++ u) := by
  induction x with
  | nil => exact h
  | cons c x ih => exact words_cons_congr (head?_append_congr hhead x) ih c

/-- A text shows less than another, or as much in fewer words. -/
def Poorer (t u : Text) : Prop :=
  (visible t).length < (visible u).length ∨
    (visible t).length = (visible u).length ∧ (words t).length < (words u).length

namespace Poorer

theorem words_ne (h : Poorer t u) : words t ≠ words u := by
  intro heq
  rcases h with h | ⟨-, h⟩
  · rw [← flatten_words, ← flatten_words, heq] at h
    exact Nat.lt_irrefl _ h
  · rw [heq] at h
    exact Nat.lt_irrefl _ h

theorem cons (hhead : t.head? = u.head?) (h : Poorer t u) (c : Char) :
    Poorer (c :: t) (c :: u) := by
  have hvisible : ∀ t : Text, (visible (c :: t)).length =
      (visible [c]).length + (visible t).length := by
    intro t
    rw [← List.length_append, ← visible_append]
    rfl
  unfold Poorer
  rw [hvisible t, hvisible u, length_words_cons, length_words_cons, hhead]
  rcases h with h | ⟨hseen, h⟩
  · exact Or.inl (Nat.add_lt_add_left h _)
  · exact Or.inr ⟨congrArg _ hseen, Nat.add_lt_add_right h _⟩

theorem append (hhead : t.head? = u.head?) (h : Poorer t u) (x : Text) :
    Poorer (x ++ t) (x ++ u) := by
  induction x with
  | nil => exact h
  | cons c x ih => exact ih.cons (head?_append_congr hhead x) c

end Poorer

end Text

end SchemaInstaller
