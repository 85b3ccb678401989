import SchemaInstaller.Proofs.Sql.Quoting
import SchemaInstaller.Proofs.Sql.ViewHeader
import SchemaInstaller.Proofs.Text.Occurrences

/-!
# Taking the qualifiers of a database out

A text mentions tables and columns by their full names (`Mention.qualified`), and the name of the
database with its point is to be taken out of each (`Mention.bare`). Of qualifiers that do not
overlap each makes the text shorter by at least its own length
(`length_substitute_schemaQualifier`), so there may be none but these: what is left of a mention must
not hold a qualifier (`HoldsQualifier`). That is enough as well, unless the name of the database has
a point in it; then a qualifier can begin in one mention and end in the next (`ReachesOver`). For
names without backticks it comes to this, that a table of which a column is mentioned is not named
like the database (`holdsQualifier_bare_iff`).
-/

namespace SchemaInstaller.Sql

open Scan Text

variable {d t : Text}

/-! ## Qualifiers -/

/-- A qualifier up to its point. -/
def qualifier (d w : Text) : Text := quoteIdentifier d ++ (w ++ ['.'])

theorem schemaQualifier_eq_some_iff {r : Text} : schemaQualifier d t = some r ↔
    ∃ w u, Blanks w ∧ t = qualifier d w ++ u ∧ r = skipBlanks u := by
  have hname := literal_of (quoteIdentifier d)
  have hpoint := literal_of ['.']
  constructor
  · intro h
    obtain ⟨a, ha, hrest⟩ := Option.bind_eq_some_iff.1 h
    obtain ⟨u, hu, hend⟩ := Option.bind_eq_some_iff.1 hrest
    obtain ⟨-, rfl, rfl⟩ := (hname t a).1 ha
    obtain ⟨-, rfl, hskip⟩ := (hpoint _ u).1 hu
    obtain ⟨w, hw, hsplit⟩ := exists_skipBlanks a
    refine ⟨w, u, hw, ?_, (Option.some.inj hend).symm⟩
    rw [qualifier, List.append_assoc, List.append_assoc, ← hskip, ← hsplit]
  · rintro ⟨w, u, hw, rfl, rfl⟩
    have hskip : skipBlanks (w ++ (['.'] ++ u)) = ['.'] ++ u :=
      (skipBlanks_append hw _).trans (skipBlanks_of_not_isBlank rfl u)
    unfold schemaQualifier
    rw [qualifier, List.append_assoc, hname.eq_some rfl, Option.bind_eq_bind, Option.bind_some,
      List.append_assoc, hskip, hpoint.eq_some rfl]
    rfl

theorem schemaQualifier_takes (d : Text) : (schemaQualifier d).Takes := by
  intro t r h
  obtain ⟨w, u, -, rfl, rfl⟩ := schemaQualifier_eq_some_iff.1 h
  obtain ⟨b, -, hb⟩ := exists_skipBlanks u
  refine ⟨qualifier d w ++ b, ?_, ?_⟩
  · simp [qualifier]
  · rw [List.append_assoc, ← hb]

theorem schemaQualifier_eq_none_iff :
    schemaQualifier d t = none ↔ ∀ w, Blanks w → ¬qualifier d w <+: t := by
  constructor
  · rintro hnone w hw ⟨u, hu⟩
    rw [schemaQualifier_eq_some_iff.2 ⟨w, u, hw, hu.symm, rfl⟩] at hnone
    cases hnone
  · intro h
    cases hscan : schemaQualifier d t with
    | none => rfl
    | some r =>
      obtain ⟨w, u, hw, hu, -⟩ := schemaQualifier_eq_some_iff.1 hscan
      exact absurd ⟨u, hu.symm⟩ (h w hw)

theorem stripSchema_eq_substitute (hd : d ≠ []) (t : Text) :
    stripSchema d t = t.substitute ((schemaQualifier d).rule []) := by
  obtain ⟨c, d, rfl⟩ := List.exists_cons_of_ne_nil hd
  rfl

/-! ## What qualifiers take away -/

/-- A text with `n` qualifiers, none of which overlaps another. -/
inductive Qualifiers (d : Text) : Nat → Text → Prop
  | none (t : Text) : Qualifiers d 0 t
  | more {n : Nat} (a : Text) {w r : Text} (hw : Blanks w) (h : Qualifiers d n r) :
    Qualifiers d (n + 1) (a ++ (qualifier d w ++ r))

namespace Qualifiers

variable {n : Nat}

theorem append_left (h : Qualifiers d n t) (a : Text) : Qualifiers d n (a ++ t) := by
  cases h with
  | none => exact .none _
  | more b hw h =>
    rw [← List.append_assoc]
    exact .more (a ++ b) hw h

theorem of_suffix {r : Text} (h : Qualifiers d n r) (hr : r <:+ t) : Qualifiers d n t := by
  obtain ⟨a, rfl⟩ := hr
  exact h.append_left a

/-- Where no qualifier begins at the first character, all of them are behind it. -/
theorem of_cons {c : Char} {r : Text} (hc : ∀ w, Blanks w → ¬qualifier d w <+: c :: r)
    (h : Qualifiers d n (c :: r)) : Qualifiers d n r := by
  generalize ht : c :: r = t at h
  cases h with
  | none => exact .none r
  | @more n a w u hw h =>
    rcases List.append_eq_cons_iff.1 ht.symm with ⟨rfl, hstart⟩ | ⟨a', -, rfl⟩
    · exact absurd ⟨u, hstart⟩ (hc w hw)
    · exact .more a' hw h

/-- Blanks at the start have no part in a qualifier. -/
theorem of_blanks {b r : Text} (hb : Blanks b) (h : Qualifiers d n (b ++ r)) : Qualifiers d n r := by
  induction b with
  | nil => exact h
  | cons c b ih =>
    have hc : isBlank c = true := hb c List.mem_cons_self
    refine ih (fun e he => hb e (List.mem_cons_of_mem c he)) (h.of_cons fun w _ hprefix => ?_)
    obtain rfl : '\x60' = c := (List.cons_prefix_cons.1 hprefix).1
    cases hc

/-- Of two qualifiers in a text, one of them at its start, the other ends no earlier. -/
theorem suffix_of_append_eq {a w w' r r' : Text} (hw : Blanks w)
    (h : a ++ (qualifier d w' ++ r') = qualifier d w ++ r) : r' <:+ r := by
  have hlong : r' <:+ qualifier d w ++ r := ⟨a ++ qualifier d w', by rw [← h, List.append_assoc]⟩
  rcases List.suffix_or_suffix_of_suffix hlong (List.suffix_append _ r) with hr | ⟨z, rfl⟩
  · exact hr
  rcases List.eq_nil_or_concat z with rfl | ⟨z, c, rfl⟩
  · exact List.suffix_refl r
  -- otherwise the point of the other is among the blanks of the first
  have hin : w' ++ '.' :: z <:+ w := by
    simp only [qualifier, List.append_assoc, List.concat_eq_append] at h
    have hsplit : (a ++ (quoteIdentifier d ++ (w' ++ '.' :: z))) ++ (c :: r) =
        (quoteIdentifier d ++ w) ++ ('.' :: r) := by
      simpa only [List.append_assoc, List.cons_append, List.nil_append] using h
    have heq := (List.append_inj' hsplit rfl).1
    have hlen := congrArg List.length heq
    simp only [List.length_append] at hlen
    have hend : w' ++ '.' :: z <:+ quoteIdentifier d ++ w :=
      ⟨a ++ quoteIdentifier d, by rw [← heq, List.append_assoc]⟩
    refine List.suffix_of_suffix_length_le hend (List.suffix_append _ w) ?_
    rw [List.length_append]
    omega
  have hpoint : '.' ∈ w := hin.subset (by simp)
  cases hw '.' hpoint

/-- A qualifier at the start can be counted. -/
theorem of_append {w r : Text} (hw : Blanks w) (h : Qualifiers d (n + 1) (qualifier d w ++ r)) :
    Qualifiers d n r := by
  generalize ht : qualifier d w ++ r = t at h
  cases h with
  | @more _ a w' r' hw' h => exact h.of_suffix (suffix_of_append_eq hw ht.symm)

end Qualifiers

/-- Each qualifier takes its name and its point away. -/
theorem length_substitute_schemaQualifier {n : Nat} (h : Qualifiers d n t) :
    (t.substitute ((schemaQualifier d).rule [])).length + n * ((quoteIdentifier d).length + 1) ≤
      t.length := by
  have hs := schemaQualifier_takes d
  induction t using hs.induction generalizing n with
  | nil =>
    cases n with
    | zero => simp [substitute, substituteFrom]
    | succ n =>
      exfalso
      generalize ht : ([] : Text) = t at h
      cases h with
      | more a hw h => simp [qualifier] at ht
  | found t r hscan ih =>
    rw [substitute_of_some hs hscan, List.nil_append]
    obtain ⟨w, u, hw, rfl, rfl⟩ := schemaQualifier_eq_some_iff.1 hscan
    obtain ⟨b, hb, hu⟩ := exists_skipBlanks u
    have hle : (skipBlanks u).length ≤ u.length := by
      nth_rewrite 2 [hu]
      rw [List.length_append]
      omega
    cases n with
    | zero =>
      have := ih (.none _)
      rw [List.length_append]
      omega
    | succ n =>
      have hrest : Qualifiers d n (skipBlanks u) := (hu ▸ h.of_append hw).of_blanks hb
      have := ih hrest
      rw [Nat.succ_mul, qualifier]
      simp only [List.length_append, List.length_singleton]
      omega
  | skip c r hscan ih =>
    rw [substitute_of_none hscan, List.length_cons, List.length_cons]
    have := ih (h.of_cons (schemaQualifier_eq_none_iff.1 hscan))
    omega

/-! ## Mentions -/

/-- A table or one of its columns, and what stands behind it up to the next mention. -/
structure Mention where
  table : Text
  column : Option Text
  behind : Text
  clear : '\x60' ∉ behind

/-- The mention without the name of the database. -/
def Mention.bare (m : Mention) : Text :=
  quoteIdentifier m.table
    ++ ((m.column.elim [] fun c => '.' :: quoteIdentifier c) ++ m.behind)

/-- The mention by its full name. -/
def Mention.qualified (d : Text) (m : Mention) : Text := quoteIdentifier d ++ '.' :: m.bare

/-- A text that holds a qualifier. -/
def HoldsQualifier (d t : Text) : Prop := ∃ w, Blanks w ∧ qualifier d w <:+: t

/-- At the end of the text a quoted name can begin that goes on in the next, and the point behind it
stands in that one. -/
def ReachesOver (d t : Text) : Prop := ∃ y x w z, y ≠ [] ∧ y <:+ t ∧ Blanks w ∧
  quoteIdentifier d = y ++ x ∧ quoteIdentifier d = x ++ (w ++ '.' :: z)

theorem flatMap_qualified_cons (d : Text) (m : Mention) (ms : List Mention) :
    (m :: ms).flatMap (Mention.qualified d) =
      qualifier d [] ++ (m.bare ++ ms.flatMap (Mention.qualified d)) := by
  simp [Mention.qualified, qualifier]

/-- There are as many qualifiers as mentions. -/
theorem qualifiers_flatMap (d : Text) (ms : List Mention) :
    Qualifiers d ms.length (ms.flatMap (Mention.qualified d)) := by
  induction ms with
  | nil => exact .none _
  | cons m ms ih =>
    rw [flatMap_qualified_cons]
    exact .more [] blanks_nil (ih.append_left m.bare)

/-- There are more if one of them is still in a mention without the name of the database. -/
theorem qualifiers_flatMap_of_holdsQualifier {m : Mention} {ms : List Mention} (hm : m ∈ ms)
    (h : HoldsQualifier d m.bare) :
    Qualifiers d (ms.length + 1) (ms.flatMap (Mention.qualified d)) := by
  induction ms with
  | nil => cases hm
  | cons m' ms ih =>
    rw [flatMap_qualified_cons]
    refine .more [] blanks_nil ?_
    rcases List.mem_cons.1 hm with rfl | hm
    · obtain ⟨w, hw, a, r, hbare⟩ := h
      rw [← hbare, List.append_assoc, List.append_assoc]
      exact .more a hw ((qualifiers_flatMap d ms).append_left r)
    · exact (ih hm).append_left m'.bare

theorem length_flatMap_qualified (d : Text) (ms : List Mention) :
    (ms.flatMap (Mention.qualified d)).length =
      (ms.flatMap Mention.bare).length + ms.length * ((quoteIdentifier d).length + 1) := by
  induction ms with
  | nil => simp
  | cons m ms ih =>
    rw [List.flatMap_cons, List.flatMap_cons, List.length_append, List.length_append, ih,
      Mention.qualified, List.length_append, List.length_cons, List.length_cons, Nat.succ_mul]
    omega

/-- If only the names of the database are gone, then no mention without it holds a qualifier. -/
theorem not_holdsQualifier_of_eq (hd : d ≠ []) {front : Text} {ms : List Mention}
    (h : stripSchema d (front ++ ms.flatMap (Mention.qualified d)) =
      front ++ ms.flatMap Mention.bare) {m : Mention} (hm : m ∈ ms) :
    ¬HoldsQualifier d m.bare := by
  intro hholds
  have hcount := (qualifiers_flatMap_of_holdsQualifier hm hholds).append_left front
  have hle := length_substitute_schemaQualifier hcount
  rw [← stripSchema_eq_substitute hd, h, List.length_append, List.length_append,
    length_flatMap_qualified, Nat.succ_mul] at hle
  omega

/-! ## Mentions that stay -/

theorem backtick_notMem {w : Text} (hw : Blanks w) : '\x60' ∉ w ++ ['.'] := by
  intro hmem
  rcases List.mem_append.1 hmem with hmem | hmem
  · cases hw _ hmem
  · cases List.mem_singleton.1 hmem

/-- In front of a qualifier, or at the end, a text stays that holds no qualifier and that none
reaches over from. -/
theorem keeps_of_not_holdsQualifier {k rest : Text} (hholds : ¬HoldsQualifier d k)
    (hover : ¬ReachesOver d k) (hrest : rest = [] ∨ ∃ r, rest = quoteIdentifier d ++ '.' :: r) :
    (schemaQualifier d).Keeps k rest := by
  rintro v y rfl hy
  refine schemaQualifier_eq_none_iff.2 fun w hw hprefix => ?_
  have hbacktick := backtick_notMem hw
  rcases List.prefix_or_prefix_of_prefix hprefix (List.prefix_append y rest) with hin | ⟨u, hu⟩
  · exact hholds ⟨w, hw, hin.isInfix.trans (List.suffix_append v y).isInfix⟩
  rw [← hu] at hprefix
  have hu' : u <+: rest := (List.prefix_append_right_inj y).1 hprefix
  rcases eq_or_ne u [] with rfl | hune
  · refine hholds ⟨w, hw, ?_⟩
    rw [← hu, List.append_nil]
    exact (List.suffix_append v y).isInfix
  rcases hrest with rfl | ⟨r, rfl⟩
  · exact hune (List.prefix_nil.1 hu')
  rcases List.append_eq_append_iff.1 hu with ⟨x, hname, rfl⟩ | ⟨x, -, hx⟩
  · rcases List.prefix_or_prefix_of_prefix hu' (List.prefix_append _ _) with ⟨z, hz⟩ | ⟨z, hz⟩
    · refine hover ⟨y, x, w, z, hy, List.suffix_append v y, hw, hname, ?_⟩
      rw [← hz]
      simp
    -- the blanks would hold the closing backtick
    · have hlast : quoteIdentifier d = ('\x60' :: escapeIdentifier d) ++ ['\x60'] := rfl
      have hlen := congrArg List.length hname
      have hpos := List.length_pos_iff.2 hy
      rw [hlast, List.append_assoc] at hz
      have hclose : ['\x60'] ++ z <:+ w ++ ['.'] := by
        refine List.suffix_of_suffix_length_le ⟨_, hz⟩ (List.suffix_append x _) ?_
        have := congrArg List.length hz
        simp only [hlast, List.length_append, List.length_cons, List.length_nil] at hlen this ⊢
        omega
      exact hbacktick (hclose.subset List.mem_cons_self)
  -- or the opening one
  · obtain ⟨c, u, rfl⟩ := List.exists_cons_of_ne_nil hune
    obtain rfl : c = '\x60' := (List.cons_prefix_cons.1 hu').1
    exact hbacktick (hx ▸ List.mem_append_right x List.mem_cons_self)

/-- In a text without backticks there is nothing to take out. -/
theorem keeps_of_backtick_notMem {front : Text} (h : '\x60' ∉ front) (rest : Text) :
    (schemaQualifier d).Keeps front rest := by
  rintro v y rfl hy
  refine schemaQualifier_eq_none_iff.2 fun w _ hprefix => ?_
  obtain ⟨c, y, rfl⟩ := List.exists_cons_of_ne_nil hy
  obtain rfl : '\x60' = c := (List.cons_prefix_cons.1 hprefix).1
  exact h (List.mem_append_right v List.mem_cons_self)

theorem substitute_flatMap_qualified {ms : List Mention}
    (hholds : ∀ m ∈ ms, ¬HoldsQualifier d m.bare) (hover : ∀ m ∈ ms, ¬ReachesOver d m.bare) :
    substitute ((schemaQualifier d).rule []) (ms.flatMap (Mention.qualified d)) =
      ms.flatMap Mention.bare := by
  induction ms with
  | nil => rfl
  | cons m ms ih =>
    have hfound : schemaQualifier d
        (qualifier d [] ++ (m.bare ++ ms.flatMap (Mention.qualified d))) =
        some (m.bare ++ ms.flatMap (Mention.qualified d)) :=
      schemaQualifier_eq_some_iff.2 ⟨[], _, blanks_nil, rfl,
        (skipBlanks_of_not_isBlank (c := '\x60') rfl _).symm⟩
    have hrest : ms.flatMap (Mention.qualified d) = [] ∨
        ∃ r, ms.flatMap (Mention.qualified d) = quoteIdentifier d ++ '.' :: r := by
      cases ms with
      | nil => exact Or.inl rfl
      | cons m' ms =>
        rw [flatMap_qualified_cons, qualifier, List.append_assoc]
        exact Or.inr ⟨_, rfl⟩
    have hkeeps := keeps_of_not_holdsQualifier (hholds m List.mem_cons_self)
      (hover m List.mem_cons_self) hrest
    rw [flatMap_qualified_cons, substitute_of_some (schemaQualifier_takes d) hfound,
      List.nil_append, substitute_append hkeeps,
      ih (fun k hk => hholds k (List.mem_cons_of_mem m hk))
        (fun k hk => hover k (List.mem_cons_of_mem m hk)), List.flatMap_cons]

/-- No qualifier reaches over if the name of the database has no point. -/
theorem not_reachesOver (hd : '.' ∉ d) (t : Text) : ¬ReachesOver d t := by
  rintro ⟨y, x, w, z, -, -, -, -, hpoint⟩
  have hmem : '.' ∈ quoteIdentifier d := by
    rw [hpoint]
    simp
  rw [quoteIdentifier, escapeIdentifier_eq_doubled] at hmem
  have hname : '.' ∈ doubled (· == '\x60') d := by simpa using hmem
  obtain ⟨c, hc, hdouble⟩ := List.mem_flatMap.1 hname
  have heq : '.' = c := by
    split at hdouble <;> simpa using hdouble
  exact hd (heq ▸ hc)

theorem stripSchema_mentions_of_not (hd : d ≠ []) {front : Text} (hfront : '\x60' ∉ front)
    {ms : List Mention} (hholds : ∀ m ∈ ms, ¬HoldsQualifier d m.bare)
    (hover : '.' ∈ d → ∀ m ∈ ms, ¬ReachesOver d m.bare) :
    stripSchema d (front ++ ms.flatMap (Mention.qualified d)) =
      front ++ ms.flatMap Mention.bare := by
  have hover' : ∀ m ∈ ms, ¬ReachesOver d m.bare := by
    intro m hm
    by_cases hpoint : '.' ∈ d
    · exact hover hpoint m hm
    · exact not_reachesOver hpoint m.bare
  rw [stripSchema_eq_substitute hd, substitute_append (keeps_of_backtick_notMem hfront _),
    substitute_flatMap_qualified hholds hover']

/-! ## Plain names -/

/-- A name without backticks at the start of a text: it is the name of the database and a point
follows, or a qualifier begins at its closing backtick or behind it. -/
theorem holdsQualifier_name_iff (hd : '\x60' ∉ d) {n r : Text} (hn : '\x60' ∉ n) :
    HoldsQualifier d ('\x60' :: (n ++ '\x60' :: r)) ↔
      (n = d ∧ ∃ w, Blanks w ∧ w ++ ['.'] <+: r) ∨ HoldsQualifier d ('\x60' :: r) := by
  have hqualifier : ∀ w, qualifier d w = '\x60' :: (d ++ '\x60' :: (w ++ ['.'])) := by
    intro w
    rw [qualifier, quoteIdentifier, escapeIdentifier_of_notMem hd]
    simp
  -- no qualifier begins in the name
  have hskip : ∀ w, qualifier d w <:+: n ++ '\x60' :: r → qualifier d w <:+: '\x60' :: r := by
    intro w hin
    induction n with
    | nil => exact hin
    | cons c n ih =>
      rcases List.infix_cons_iff.1 hin with hprefix | hin
      · rw [hqualifier] at hprefix
        obtain rfl : '\x60' = c := (List.cons_prefix_cons.1 hprefix).1
        exact absurd List.mem_cons_self hn
      · exact ih (fun h => hn (List.mem_cons_of_mem c h)) hin
  constructor
  · rintro ⟨w, hw, hin⟩
    rcases List.infix_cons_iff.1 hin with hprefix | hin
    · rw [hqualifier] at hprefix
      obtain ⟨u, hu⟩ := (List.cons_prefix_cons.1 hprefix).2
      rw [List.append_assoc, List.cons_append] at hu
      have hlong : d <+: n := prefix_of_prefix_append_cons hd ⟨_, hu⟩
      have hshort : n <+: d := prefix_of_prefix_append_cons hn ⟨_, hu.symm⟩
      obtain rfl : d = n := hlong.eq_of_length_le hshort.length_le
      exact Or.inl ⟨rfl, w, hw, u, (List.cons.inj (List.append_cancel_left hu)).2⟩
    · exact Or.inr ⟨w, hw, hskip w hin⟩
  · rintro (⟨rfl, w, hw, u, rfl⟩ | ⟨w, hw, hin⟩)
    · refine ⟨w, hw, List.IsPrefix.isInfix ⟨u, ?_⟩⟩
      rw [hqualifier]
      simp
    · exact ⟨w, hw, hin.trans (List.suffix_append ('\x60' :: n) _).isInfix⟩

/-- Behind the last backtick of a text there is no qualifier. -/
theorem not_holdsQualifier_backtick {r : Text} (hr : '\x60' ∉ r) :
    ¬HoldsQualifier d ('\x60' :: r) := by
  rintro ⟨w, -, hin⟩
  have hqualifier : qualifier d w = '\x60' :: (escapeIdentifier d ++ '\x60' :: (w ++ ['.'])) := by
    simp [qualifier, quoteIdentifier]
  rw [hqualifier] at hin
  rcases List.infix_cons_iff.1 hin with hprefix | hin
  · exact hr ((List.cons_prefix_cons.1 hprefix).2.subset (by simp))
  · exact hr (hin.subset List.mem_cons_self)

/-- Where names have no backticks and no mention goes on with a point, a qualifier is left in a
mention of a column whose table is named like the database, and nowhere else. -/
theorem holdsQualifier_bare_iff (hd : '\x60' ∉ d) (hpoint : '.' ∉ d) {m : Mention}
    (htable : '\x60' ∉ m.table) (hcolumn : ∀ c ∈ m.column, '\x60' ∉ c)
    (hbehind : (skipBlanks m.behind).head? ≠ some '.') :
    HoldsQualifier d m.bare ↔ m.table = d ∧ m.column.isSome := by
  have hend : ¬∃ w, Blanks w ∧ w ++ ['.'] <+: m.behind := by
    rintro ⟨w, hw, u, hu⟩
    rw [← hu, List.append_assoc, skipBlanks_append hw] at hbehind
    exact hbehind rfl
  have hlast := not_holdsQualifier_backtick (d := d) m.clear
  have hbare : m.bare = '\x60' :: (m.table ++ '\x60' ::
      ((m.column.elim [] fun c => '.' :: quoteIdentifier c) ++ m.behind)) := by
    simp [Mention.bare, quoteIdentifier, escapeIdentifier_of_notMem htable]
  rw [hbare, holdsQualifier_name_iff hd htable]
  cases hcase : m.column with
  | none => simp [hend, hlast]
  | some c =>
    have hc := hcolumn c hcase
    have hname : '.' :: quoteIdentifier c ++ m.behind =
        ['.'] ++ '\x60' :: (c ++ '\x60' :: m.behind) := by
      simp [quoteIdentifier, escapeIdentifier_of_notMem hc]
    have hself : ['.'] ≠ d := by
      rintro rfl
      exact hpoint List.mem_cons_self
    have hfirst : ∃ w, Blanks w ∧ w ++ ['.'] <+: ['.'] ++ '\x60' :: (c ++ '\x60' :: m.behind) :=
      ⟨[], blanks_nil, List.prefix_append _ _⟩
    have hrest : ¬HoldsQualifier d ('\x60' :: (['.'] ++ '\x60' :: (c ++ '\x60' :: m.behind))) := by
      rw [holdsQualifier_name_iff hd (by decide), holdsQualifier_name_iff hd hc]
      simp [hself, hend, hlast]
    simp only [Option.elim_some, hname, hfirst, hrest, and_true, or_false, Option.isSome_some]

/-! ## Taking them out -/

/-- Names without backticks, and mentions that do not go on with a point: just the names of the
database are taken out if no column is mentioned of a table that is named like it. -/
theorem stripSchema_mentions_iff (hne : d ≠ []) (hd : '\x60' ∉ d) (hpoint : '.' ∉ d) {front : Text}
    (hfront : '\x60' ∉ front) {ms : List Mention} (htable : ∀ m ∈ ms, '\x60' ∉ m.table)
    (hcolumn : ∀ m ∈ ms, ∀ c ∈ m.column, '\x60' ∉ c)
    (hbehind : ∀ m ∈ ms, (skipBlanks m.behind).head? ≠ some '.') :
    stripSchema d (front ++ ms.flatMap (Mention.qualified d)) = front ++ ms.flatMap Mention.bare ↔
      ∀ m ∈ ms, m.table = d → m.column = none := by
  have hiff : ∀ m ∈ ms, ¬HoldsQualifier d m.bare ↔ (m.table = d → m.column = none) := by
    intro m hm
    rw [holdsQualifier_bare_iff hd hpoint (htable m hm) (hcolumn m hm) (hbehind m hm), not_and,
      Bool.not_eq_true, Option.isSome_eq_false_iff, Option.isNone_iff_eq_none]
  constructor
  · exact fun h m hm => (hiff m hm).1 (not_holdsQualifier_of_eq hne h hm)
  · intro h
    exact stripSchema_mentions_of_not hne hfront (fun m hm => (hiff m hm).2 (h m hm))
      fun hmem => absurd hmem hpoint

/-- In a text of mentions with backtick-free text before and between them, taking out the qualifiers
of a database takes out just the name of the database from each only if none of them holds a
qualifier without it. It does if moreover none can reach over from one to the next, which takes a
point in the name of the database. -/
theorem stripSchema_mentions (hd : d ≠ []) {front : Text} (hfront : '\x60' ∉ front)
    (ms : List Mention) :
    (stripSchema d (front ++ ms.flatMap (Mention.qualified d)) = front ++ ms.flatMap Mention.bare →
        ∀ m ∈ ms, ¬HoldsQualifier d m.bare) ∧
      ((∀ m ∈ ms, ¬HoldsQualifier d m.bare) → ('.' ∈ d → ∀ m ∈ ms, ¬ReachesOver d m.bare) →
        stripSchema d (front ++ ms.flatMap (Mention.qualified d)) =
          front ++ ms.flatMap Mention.bare) :=
  ⟨fun h _ hm => not_holdsQualifier_of_eq hd h hm, stripSchema_mentions_of_not hd hfront⟩

theorem stripSchema_orders :
    stripSchema "shop".toList "select `shop`.`wp_orders`.`id` from `shop`.`wp_orders`".toList =
      "select `wp_orders`.`id` from `wp_orders`".toList := by
  let ms : List Mention :=
    [⟨"wp_orders".toList, some "id".toList, " from ".toList, by decide⟩,
      ⟨"wp_orders".toList, none, [], by decide⟩]
  have hfront : '\x60' ∉ "select ".toList := by decide
  have hstays : ∀ m ∈ ms, ¬HoldsQualifier "shop".toList m.bare := by
    intro m hm
    rcases List.mem_pair.1 hm with rfl | rfl
    · rw [holdsQualifier_bare_iff (by decide) (by decide) (by decide) (by decide) (by decide)]
      decide
    · rw [holdsQualifier_bare_iff (by decide) (by decide) (by decide) (by decide) (by decide)]
      decide
  exact (stripSchema_mentions (d := "shop".toList) (by decide) hfront ms).2 hstays
    fun hpoint => absurd hpoint (by decide)

/-- A table that is named like the database loses its name where a column of it is mentioned. -/
theorem stripSchema_shop :
    stripSchema "shop".toList "select `shop`.`shop`.`id`".toList = "select `id`".toList := by
  decide +kernel

end SchemaInstaller.Sql
