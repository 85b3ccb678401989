import Mathlib.Data.List.Chain
import Mathlib.Tactic.Common
import SchemaInstaller.Proofs.Php.Reader

/-!
# Escaped texts as PHP reads them

Each way to escape a text keeps it inside the place where it is put, and PHP finds the text there
again: between single quotes as it is (`read_singleQuoted`), between double quotes without carriage
returns and with the expressions for the prefix live (`read_doubleQuoted`), on a line of a heredoc
with its line breaks as spaces (`adds_heredoc`), and in a comment as its escaped form
(`read_lineComment`, `read_blockComment`).
-/

namespace SchemaInstaller.Php

open Sql

/-! ## Single quotes -/

/-- A character between single quotes. -/
def singleQuotedChar (c : Char) : Text :=
  if c = '\\' then ['\\', '\\'] else if c = '\x27' then ['\\', '\x27'] else [c]

theorem singleQuoted_eq_flatMap (t : Text) : singleQuoted t = t.flatMap singleQuotedChar := by
  unfold singleQuoted Text.replaceChar
  rw [List.flatMap_assoc]
  congr 1
  funext c
  unfold singleQuotedChar
  by_cases hb : c = '\\'
  · subst hb; rfl
  · by_cases hq : c = '\x27'
    · subst hq; rfl
    · simp [hb, hq]

theorem read_singleQuotedChar (c : Char) :
    read (.single false) (singleQuotedChar c) = some (.single false, [.text c]) := by
  unfold singleQuotedChar
  by_cases hb : c = '\\'
  · subst hb; rfl
  · by_cases hq : c = '\x27'
    · subst hq; rfl
    · simp [hb, hq, read, State.step, singleStep]

/-- Between single quotes PHP finds the text that was escaped. -/
theorem read_singleQuoted (t : Text) :
    read (.single false) (singleQuoted t) = some (.single false, t.map .text) := by
  rw [singleQuoted_eq_flatMap]
  induction t with
  | nil => rfl
  | cons c r ih =>
    rw [List.flatMap_cons, List.map_cons]
    exact read_append_of_read (read_singleQuotedChar c) ih

/-! ## Texts with expressions -/

/-- The expression for the prefix, character by character. -/
theorem prefixExpression_eq : prefixExpression =
    ['\x7b', '$', 't', 'h', 'i', 's', '-', '>', 'p', 'r', 'e', 'f', 'i', 'x', '\x7d'] :=
  String.toList_ofList

theorem prefixExpression_ne_nil : prefixExpression ≠ [] := by
  rw [prefixExpression_eq]
  exact List.cons_ne_nil _ _

theorem return_notMem_prefixExpression : '\r' ∉ prefixExpression := by
  rw [prefixExpression_eq]
  decide

theorem backtick_notMem_prefixExpression : '\x60' ∉ prefixExpression := by
  rw [prefixExpression_eq]
  decide

theorem eq_brace_of_expression {c : Char} {r : Text} (h : prefixExpression <+: c :: r) :
    c = '\x7b' := by
  rw [prefixExpression_eq] at h
  exact (List.cons_prefix_cons.1 h).1.symm

/-- The characters of a text, and `none` where the expression for the prefix stands. -/
def atoms (t : Text) : List (Option Char) :=
  [none].intercalate ((Text.splitOn prefixExpression t).map (·.map some))

/-- How a character or the expression for the prefix is written. -/
def spellAtom (escape : Char → Text) : Option Char → Text
  | none => prefixExpression
  | some c => escape c

/-- What PHP finds for a character or the expression for the prefix. -/
def foundAtom (clean : Char → Text) : Option Char → List Event
  | none => [.live prefixExpression]
  | some c => (clean c).map .text

/-- What PHP finds for a text in which the expressions for the prefix are live. -/
def spliced (clean : Char → Text) (t : Text) : List Event := (atoms t).flatMap (foundAtom clean)

theorem intercalate_flatMap (escape : Char → Text) (pieces : List Text) :
    prefixExpression.intercalate (pieces.map (·.flatMap escape)) =
      ([none].intercalate (pieces.map (·.map some))).flatMap (spellAtom escape) := by
  have piece : ∀ t : Text, (t.map some).flatMap (spellAtom escape) = t.flatMap escape := fun t => by
    rw [List.flatMap_map]
    rfl
  induction pieces with
  | nil => rfl
  | cons t r ih =>
    cases r with
    | nil => simp [piece]
    | cons u r =>
      simp only [List.map_cons, List.intercalate_cons_cons] at ih ⊢
      rw [List.flatMap_append, List.flatMap_append, piece, ← ih]
      rfl

theorem aroundPrefix_eq_flatMap (escape : Char → Text) (t : Text) :
    aroundPrefix (·.flatMap escape) t = (atoms t).flatMap (spellAtom escape) :=
  intercalate_flatMap escape _

/-- Cutting a text at a separator and joining the pieces with it gives the text back. -/
theorem intercalate_splitFrom {sep : Text} (hsep : sep ≠ []) (skip : Nat) (piece t : Text) :
    sep.intercalate (Text.splitFrom sep skip piece t) = piece.reverse ++ t.drop skip := by
  have hcons : ∀ (a : Text) (n : Nat) (b u : Text),
      sep.intercalate (a :: Text.splitFrom sep n b u) =
        a ++ sep ++ sep.intercalate (Text.splitFrom sep n b u) := fun a n b u =>
    List.intercalate_cons_of_ne_nil (by fun_induction Text.splitFrom sep n b u <;> simp_all)
  fun_induction Text.splitFrom sep skip piece t with
  | case1 => simp
  | case2 piece n c r ih => simpa using ih
  | case3 piece c r hp ih =>
    obtain ⟨u, hu⟩ := List.isPrefixOf_iff_prefix.1 hp
    have hdrop : c :: r = sep ++ r.drop (sep.length - 1) := by
      obtain ⟨d, sep', rfl⟩ := List.exists_cons_of_ne_nil hsep
      obtain ⟨rfl, rfl⟩ := List.cons_eq_cons.1 hu
      simp
    rw [hcons, ih, List.drop_zero, hdrop]
    simp
  | case4 piece c r hp ih => rw [ih]; simp

/-- Written as they are, the characters and expressions of a text make it up. -/
theorem flatMap_atoms (t : Text) : (atoms t).flatMap (spellAtom fun c => [c]) = t := by
  have h := intercalate_flatMap (fun c => [c]) (Text.splitOn prefixExpression t)
  have hid : (Text.splitOn prefixExpression t).map (·.flatMap fun c => [c]) =
      Text.splitOn prefixExpression t := by simp
  rw [hid] at h
  rw [atoms, ← h]
  exact intercalate_splitFrom prefixExpression_ne_nil 0 [] t

/-- Between two characters of a text with expressions, perhaps behind an opening brace. -/
def between (label? : Option Text) (braced : Bool) : State :=
  .inside label? (if braced then .brace else .plain)

/-- What is found as soon as the brace turns out to begin no expression. -/
def pending (braced : Bool) : List Event := if braced then [.text '\x7b'] else []

/-- A character that begins no expression settles what an opening brace before it was. -/
theorem step_between {c : Char} (h : c ≠ '$') (label? : Option Text) (braced : Bool) :
    (between label? braced).step c = (plainStep label? c).after (pending braced) := by
  cases braced with
  | false => exact (Step.after_nil _).symm
  | true => simp [between, State.step, insideStep, h, pending]

/-- Wherever a text stands in a text with expressions, it stays inside and `es` is found. -/
def Adds (label? : Option Text) (t : Text) (es : List Event) : Prop :=
  ∀ b, ∃ b' found, read (between label? b) t = some (between label? b', found) ∧
    found ++ pending b' = pending b ++ es

section Adds

variable {label? : Option Text}

theorem Adds.nil : Adds label? [] [] := fun b => ⟨b, [], rfl, by simp⟩

theorem Adds.append {t u : Text} {es fs : List Event} (ht : Adds label? t es)
    (hu : Adds label? u fs) : Adds label? (t ++ u) (es ++ fs) := by
  intro b
  obtain ⟨b₁, e₁, h₁, p₁⟩ := ht b
  obtain ⟨b₂, e₂, h₂, p₂⟩ := hu b₁
  refine ⟨b₂, e₁ ++ e₂, read_append_of_read h₁ h₂, ?_⟩
  rw [List.append_assoc, p₂, ← List.append_assoc, p₁, List.append_assoc]

theorem Adds.flatMap {α : Type} {write : α → Text} {found : α → List Event}
    (h : ∀ a, Adds label? (write a) (found a)) (l : List α) :
    Adds label? (l.flatMap write) (l.flatMap found) := by
  induction l with
  | nil => exact Adds.nil
  | cons a r ih => exact (h a).append ih

/-- A character that means nothing special adds itself. -/
theorem adds_char {c : Char} (hc : c ≠ '$')
    (h : plainStep label? c = some (between label? false, [.text c])) :
    Adds label? [c] [.text c] := by
  intro b
  refine ⟨false, pending b ++ [.text c], ?_, by simp [pending]⟩
  rw [read, step_between hc, h]
  simp

/-- An opening brace adds itself as soon as another character follows. -/
theorem adds_brace : Adds label? ['\x7b'] [.text '\x7b'] := by
  intro b
  refine ⟨true, pending b, ?_, by simp [pending]⟩
  rw [read, step_between (by decide)]
  simp [plainStep, between]

/-- An escape adds the character that it stands for. -/
theorem adds_escape {c d : Char}
    (h : escapeStep label? c = some (between label? false, [.text d])) :
    Adds label? ['\\', c] [.text d] := by
  intro b
  refine ⟨false, pending b ++ [.text d], ?_, by simp [pending]⟩
  rw [read, step_between (by decide)]
  have hstep : (State.inside label? .escape).step c = escapeStep label? c := rfl
  simp [plainStep, read, hstep, h]

/-- The expression for the prefix is live. -/
theorem adds_prefixExpression : Adds label? prefixExpression [.live prefixExpression] := by
  intro b
  refine ⟨false, pending b ++ [.live prefixExpression], ?_, by simp [pending]⟩
  have hopen : plainStep label? '\x7b' = some (.inside label? .brace, []) := rfl
  have hrest : read (.inside label? .brace)
      ['$', 't', 'h', 'i', 's', '-', '>', 'p', 'r', 'e', 'f', 'i', 'x', '\x7d'] =
        some (between label? false, [.live prefixExpression]) := by
    rw [prefixExpression_eq]
    rfl
  conv_lhs => rw [prefixExpression_eq, read, step_between (by decide), hopen]
  simp [hrest]

/-- A text whose characters are escaped so that each adds what is left of it. -/
theorem adds_aroundPrefix {escape clean : Char → Text}
    (h : ∀ c, Adds label? (escape c) ((clean c).map .text)) (t : Text) :
    Adds label? (aroundPrefix (·.flatMap escape) t) (spliced clean t) := by
  rw [aroundPrefix_eq_flatMap]
  refine Adds.flatMap (fun a => ?_) (atoms t)
  cases a with
  | none => exact adds_prefixExpression
  | some c => exact h c

/-- Behind a text that stays inside, reading goes on with any character that begins no expression as
if nothing had been under way. -/
theorem Adds.read_append_cons {t : Text} {es : List Event} (h : Adds label? t es) {c : Char}
    (hc : c ≠ '$') (r : Text) :
    read (between label? false) (t ++ c :: r) =
      (read (between label? false) (c :: r)).after es := by
  obtain ⟨b, found, hread, hfound⟩ := h false
  have hsame : (between label? b).step c = ((between label? false).step c).after (pending b) := by
    rw [step_between hc, step_between hc]
    exact congrArg _ (Step.after_nil _).symm
  rw [read_append_eq_after _ hread, read_cons_of_step_eq_after r hsame, Step.after_after, hfound]
  rfl

end Adds

/-! ## Double quotes -/

/-- A character as it comes out between double quotes. -/
def withoutReturn (c : Char) : Text := if c = '\r' then [] else [c]

theorem flatMap_withoutReturn {t : Text} (h : '\r' ∉ t) : t.flatMap withoutReturn = t := by
  refine (List.flatMap_congr fun c hc => ?_).trans (List.flatMap_singleton' t)
  exact if_neg fun hcr : c = '\r' => h (hcr ▸ hc)

theorem adds_doubleQuotedChar (c : Char) :
    Adds none (doubleQuotedChar c) ((withoutReturn c).map .text) := by
  unfold doubleQuotedChar withoutReturn
  by_cases hb : c = '\\'
  · subst hb; exact adds_escape rfl
  by_cases hq : c = '\x22'
  · subst hq; exact adds_escape rfl
  by_cases hd : c = '$'
  · subst hd; exact adds_escape rfl
  by_cases hn : c = '\n'
  · subst hn; exact adds_escape rfl
  by_cases ht : c = '\t'
  · subst ht; exact adds_escape rfl
  by_cases hr : c = '\r'
  · subst hr; exact Adds.nil
  simp only [beq_iff_eq, hb, hq, hd, hn, ht, hr, if_false]
  by_cases ho : c = '\x7b'
  · subst ho; exact adds_brace
  · exact adds_char hd (by simp [plainStep, hb, hd, hq, ho, between])

/-- Between double quotes PHP finds the text without carriage returns, in which the expressions for
the prefix are live. -/
theorem read_doubleQuoted (t : Text) :
    read (.inside none .plain) (doubleQuoted t ++ ['\x22']) =
      some (.code, spliced withoutReturn t ++ [.closes]) :=
  (adds_aroundPrefix adds_doubleQuotedChar t).read_append_cons (by decide) []

/-! ## Heredocs -/

/-- A character as it comes out on a line of a heredoc. -/
def onOneLine (c : Char) : Text := [if isLineBreak c then ' ' else c]

theorem adds_heredocChar (label : Text) (c : Char) :
    Adds (some label) (heredocChar c) ((onOneLine c).map .text) := by
  unfold heredocChar onOneLine
  by_cases hb : c = '\\'
  · subst hb; exact adds_escape rfl
  by_cases hd : c = '$'
  · subst hd; exact adds_escape rfl
  by_cases hl : isLineBreak c = true
  · have hbreak : (c == '\n' || c == '\r') = true := hl
    simp only [beq_iff_eq, hb, hd, if_false, hbreak, hl, if_true]
    exact adds_char (by decide) rfl
  have hbreak : (c == '\n' || c == '\r') = false := Bool.eq_false_iff.2 hl
  simp only [beq_iff_eq, hb, hd, if_false, hbreak, hl, Bool.false_eq_true]
  by_cases ho : c = '\x7b'
  · subst ho; exact adds_brace
  · exact adds_char hd (by simp [plainStep, hb, hd, ho, hl, between])

/-- On a line of a heredoc PHP finds the text with spaces for its line breaks, in which the
expressions for the prefix are live. -/
theorem adds_heredoc (label t : Text) : Adds (some label) (heredoc t) (spliced onOneLine t) :=
  adds_aroundPrefix (adds_heredocChar label) t

/-- At the start of a line, a character that is no blank and no start of the label leaves the
heredoc open. -/
theorem read_lineStart {label held : Text} {c d : Char} {l : Text} (hlabel : label = d :: l)
    (hd : c ≠ d) (hs : c ≠ ' ') (ht : c ≠ '\t') (r : Text) :
    read (.inside (some label) (.lineStart held label)) (c :: r) =
      (read (between (some label) false) (c :: r)).after (held.map .text) := by
  refine read_cons_of_step_eq_after r ?_
  subst hlabel
  simp [State.step, insideStep, lineStartStep, between, hd, hs, ht]

/-! ## Comments -/

/-- A text in which the second character never follows the first. -/
def Avoids (a b : Char) (t : Text) : Prop := t.IsChain fun x y => ¬(x = a ∧ y = b)

/-- A space put between two characters wherever the second follows the first. -/
def part (a b : Char) : Text → Text
  | [] => []
  | [c] => [c]
  | c :: d :: r => if c = a ∧ d = b then a :: ' ' :: b :: part a b r else c :: part a b (d :: r)

theorem replace_eq_part (a b : Char) (t : Text) :
    Text.replace [a, b] [a, ' ', b] t = part a b t := by
  have key : ∀ prev,
      Text.substituteFrom (Text.literalRule [a, b] [a, ' ', b]) 0 prev t = part a b t := by
    fun_induction part a b t with
    | case1 => intro prev; rfl
    | case2 c =>
      intro prev
      simp [Text.substituteFrom, Text.literalRule, Scan.literal, List.isPrefixOf?]
    | case3 c d r h ih =>
      obtain ⟨rfl, rfl⟩ := h
      intro prev
      simp [Text.substituteFrom, Text.literalRule, Scan.literal, List.isPrefixOf?, ih]
    | case4 c d r h ih =>
      intro prev
      have hno : Text.literalRule [a, b] [a, ' ', b] prev (c :: d :: r) = none := by
        simp only [Text.literalRule, Scan.literal, List.isPrefixOf?]
        by_cases hc : a = c
        · have hd : b ≠ d := fun e => h ⟨hc.symm, e.symm⟩
          simp [hd]
        · simp [hc]
      rw [Text.substituteFrom, hno, ih]
  exact key none

theorem mem_of_mem_part {a b x : Char} {t : Text} (h : x ∈ part a b t) : x ∈ t ∨ x = ' ' := by
  fun_induction part a b t with
  | case1 => simp at h
  | case2 => exact Or.inl h
  | case3 c d r hcd ih =>
    obtain ⟨rfl, rfl⟩ := hcd
    simp only [List.mem_cons] at h ⊢
    rcases h with h | h | h | h
    · exact Or.inl (Or.inl h)
    · exact Or.inr h
    · exact Or.inl (Or.inr (Or.inl h))
    · exact (ih h).imp_left fun h => Or.inr (Or.inr h)
  | case4 c d r hn ih =>
    rcases List.mem_cons.1 h with h | h
    · exact Or.inl (h ▸ List.mem_cons_self)
    · exact (ih h).imp_left (List.mem_cons_of_mem c)

theorem head?_part (a b : Char) (t : Text) : (part a b t).head? = t.head? := by
  fun_cases part a b t with
  | case1 => rfl
  | case2 => rfl
  | case3 c d r h => rw [h.1]; rfl
  | case4 => rfl

theorem avoids_part {a b : Char} (hab : a ≠ b) (ha : a ≠ ' ') (hb : b ≠ ' ') (t : Text) :
    Avoids a b (part a b t) := by
  unfold Avoids
  fun_induction part a b t with
  | case1 => exact List.IsChain.nil
  | case2 c => exact List.IsChain.singleton c
  | case3 c d r h ih =>
    have hspaced := (ih.cons fun y _ e => hab e.1.symm).cons fun y hy e => ha e.1.symm
    refine hspaced.cons fun y hy e => ?_
    obtain rfl : ' ' = y := by simpa using hy
    exact hb e.2.symm
  | case4 c d r h ih =>
    refine ih.cons fun y hy e => ?_
    rw [head?_part] at hy
    obtain rfl : d = y := by simpa using hy
    exact h e

/-- Putting spaces between two characters does not bring two others together. -/
theorem Avoids.part {a b x y : Char} {t : Text} (h : Avoids x y t) (hx : x ≠ ' ') (hy : y ≠ ' ') :
    Avoids x y (part a b t) := by
  unfold Avoids at h ⊢
  fun_induction Php.part a b t with
  | case1 => exact List.IsChain.nil
  | case2 c => exact List.IsChain.singleton c
  | case3 c d r hcd ih =>
    obtain ⟨rfl, rfl⟩ := hcd
    have hr := List.isChain_cons.1 (List.isChain_cons.1 h).2
    have hd : List.IsChain (fun u v => ¬(u = x ∧ v = y)) (d :: Php.part c d r) :=
      (ih hr.2).cons fun z hz => hr.1 z (by rwa [head?_part] at hz)
    refine (hd.cons fun z hz e => hx e.1.symm).cons fun z hz e => ?_
    obtain rfl : ' ' = z := by simpa using hz
    exact hy e.2.symm
  | case4 c d r hcd ih =>
    have hr := List.isChain_cons.1 h
    exact (ih hr.2).cons fun z hz => hr.1 z (by rwa [head?_part] at hz)

theorem comment_eq_part (t : Text) : comment t =
    part '*' '/' (part '?' '>' (t.map fun c => if isLineBreak c then ' ' else c)) := by
  rw [← replace_eq_part, ← replace_eq_part]
  unfold comment isLineBreak
  simp only [Bool.or_comm]
  rfl

/-- The escaped text stands on one line. -/
theorem isLineBreak_of_mem_comment {c : Char} {t : Text} (h : c ∈ comment t) :
    isLineBreak c = false := by
  have hmap : ∀ x ∈ t.map (fun c => if isLineBreak c then ' ' else c), isLineBreak x = false := by
    intro x hx
    obtain ⟨y, -, rfl⟩ := List.mem_map.1 hx
    by_cases hy : isLineBreak y = true
    · rw [if_pos hy]; rfl
    · rw [if_neg hy]; exact Bool.eq_false_iff.2 hy
  rw [comment_eq_part] at h
  rcases mem_of_mem_part h with h | rfl
  · rcases mem_of_mem_part h with h | rfl
    · exact hmap c h
    · rfl
  · rfl

/-- The escaped text holds no closing tag. -/
theorem comment_avoids_tag (t : Text) : Avoids '?' '>' (comment t) := by
  rw [comment_eq_part]
  exact (avoids_part (by decide) (by decide) (by decide) _).part (by decide) (by decide)

/-- The escaped text holds no mark that closes a comment. -/
theorem comment_avoids_mark (t : Text) : Avoids '*' '/' (comment t) := by
  rw [comment_eq_part]
  exact avoids_part (by decide) (by decide) (by decide) _

/-- A text that holds no closing tag stays inside a comment that the line ends. -/
theorem read_lineComment_of_avoids {t : Text} (hbreak : ∀ c ∈ t, isLineBreak c = false)
    (htag : Avoids '?' '>' t) (asked : Bool) (h : asked = true → t.head? ≠ some '>') :
    ∃ asked', read (.lineComment asked) t = some (.lineComment asked', t.map .text) := by
  induction t generalizing asked with
  | nil => exact ⟨asked, rfl⟩
  | cons c r ih =>
    obtain ⟨hhead, hrest⟩ := List.isChain_cons.1 htag
    obtain ⟨asked', hr⟩ := ih (fun d hd => hbreak d (List.mem_cons_of_mem c hd)) hrest (c == '?')
      fun hc hr => hhead '>' hr ⟨by simpa using hc, rfl⟩
    have hnot : (asked && c == '>') = false := by
      by_contra hc
      obtain ⟨ha, hc⟩ := Bool.and_eq_true_iff.1 (Bool.not_eq_false _ ▸ hc)
      exact h ha (by simpa using hc)
    have hstep : (State.lineComment asked).step c = some (.lineComment (c == '?'), [.text c]) := by
      simp [State.step, lineCommentStep, hbreak c List.mem_cons_self, hnot]
    exact ⟨asked', by rw [read_cons_of_step r hstep, hr]; rfl⟩

/-- A text that holds no closing mark stays inside a comment between marks. -/
theorem read_blockComment_of_avoids {t : Text} (hmark : Avoids '*' '/' t) (starred : Bool)
    (h : starred = true → t.head? ≠ some '/') :
    ∃ starred', read (.blockComment starred) t = some (.blockComment starred', t.map .text) := by
  induction t generalizing starred with
  | nil => exact ⟨starred, rfl⟩
  | cons c r ih =>
    obtain ⟨hhead, hrest⟩ := List.isChain_cons.1 hmark
    obtain ⟨starred', hr⟩ := ih hrest (c == '*')
      fun hc hr => hhead '/' hr ⟨by simpa using hc, rfl⟩
    have hnot : (starred && c == '/') = false := by
      by_contra hc
      obtain ⟨ha, hc⟩ := Bool.and_eq_true_iff.1 (Bool.not_eq_false _ ▸ hc)
      exact h ha (by simpa using hc)
    have hstep : (State.blockComment starred).step c =
        some (.blockComment (c == '*'), [.text c]) := by
      simp [State.step, blockCommentStep, hnot]
    exact ⟨starred', by rw [read_cons_of_step r hstep, hr]; rfl⟩

/-- Behind an escaped text in a comment that the line ends, reading goes on as if the text had not
been there. -/
theorem read_lineComment (t : Text) {c : Char} (hc : c ≠ '>') (r : Text) :
    read (.lineComment false) (comment t ++ c :: r) =
      (read (.lineComment false) (c :: r)).after ((comment t).map .text) := by
  obtain ⟨asked, hread⟩ := read_lineComment_of_avoids
    (fun _ h => isLineBreak_of_mem_comment h) (comment_avoids_tag t) false (by simp)
  have hsame : (State.lineComment asked).step c = (State.lineComment false).step c := by
    simp [State.step, lineCommentStep, hc]
  rw [read_append_eq_after _ hread, read, read, hsame]

/-- Behind an escaped text in a comment between marks, reading goes on as if the text had not been
there. -/
theorem read_blockComment (t : Text) {c : Char} (hc : c ≠ '/') (r : Text) :
    read (.blockComment false) (comment t ++ c :: r) =
      (read (.blockComment false) (c :: r)).after ((comment t).map .text) := by
  obtain ⟨starred, hread⟩ := read_blockComment_of_avoids (comment_avoids_mark t) false (by simp)
  have hsame : (State.blockComment starred).step c = (State.blockComment false).step c := by
    simp [State.step, blockCommentStep, hc]
  rw [read_append_eq_after _ hread, read, read, hsame]

end SchemaInstaller.Php
