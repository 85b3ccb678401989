import SchemaInstaller.Proofs.Php.Values
import SchemaInstaller.Proofs.Sql.Quoting

/-!
# The header of a procedure

A definition may hold a header anywhere: the words, a schema between backticks, and the name, which
may stand without quotes and hold the expression for the prefix (`ProcedureHeader`). The search goes
from left to right and finds a first header where nothing in front of it reads like one
(`IsFirstHeader`). It takes all of the header exactly if it sees where the schema and the name end
(`IsClear`): a backtick in the schema ends the schema for it, and a name without quotes goes on for
it up to a blank, a parenthesis or a backtick.
-/

namespace SchemaInstaller.Sql

open Scan Text

/-! ## Words -/

/-- Blanks, one at least. -/
def Gap (t : Text) : Prop := t ≠ [] ∧ Blanks t

/-- The words in front of the name of a procedure, in any case. -/
structure HeaderWords where
  create : Text
  gap : Text
  procedure : Text
  gap' : Text
  hcreate : InAnyCase "CREATE".toList create
  hgap : Gap gap
  hprocedure : InAnyCase "PROCEDURE".toList procedure
  hgap' : Gap gap'

def HeaderWords.text (w : HeaderWords) : Text := w.create ++ (w.gap ++ (w.procedure ++ w.gap'))

/-- The search for the words. -/
def procedureWords : Scan := fun t => do
  let t ← keyword "CREATE" t
  let t ← blanks1 t
  let t ← keyword "PROCEDURE" t
  blanks1 t

theorem many1_append {p : Char → Bool} {u r : Text} (hne : u ≠ []) (hu : ∀ c ∈ u, p c = true) :
    many1 p (u ++ r) = some (r.dropWhile p) := by
  obtain ⟨c, u, rfl⟩ := List.exists_cons_of_ne_nil hne
  have hrest : (u ++ r).dropWhile p = r.dropWhile p :=
    List.dropWhile_append_of_pos fun d hd => hu d (List.mem_cons_of_mem c hd)
  rw [List.cons_append, many1, if_pos (hu c List.mem_cons_self), hrest]

theorem Gap.blanks1 {b r : Text} (hb : Gap b) (hr : skipBlanks r = r) :
    blanks1 (b ++ r) = some r :=
  (many1_append hb.1 hb.2).trans (congrArg some hr)

theorem exists_of_many1 {p : Char → Bool} {t r : Text} (h : many1 p t = some r) :
    ∃ u, u ≠ [] ∧ (∀ c ∈ u, p c = true) ∧ t = u ++ r := by
  cases t with
  | nil => cases h
  | cons c t =>
    rw [many1] at h
    by_cases hc : p c = true
    · rw [if_pos hc] at h
      cases h
      refine ⟨c :: t.takeWhile p, List.cons_ne_nil _ _, ?_, ?_⟩
      · exact List.forall_mem_cons.2 ⟨hc, fun d => List.mem_takeWhile_imp⟩
      · rw [List.cons_append, List.takeWhile_append_dropWhile]
    · rw [if_neg hc] at h
      cases h

theorem exists_gap {t r : Text} (h : blanks1 t = some r) : ∃ b, Gap b ∧ t = b ++ r := by
  obtain ⟨b, hne, hb, rfl⟩ := exists_of_many1 h
  exact ⟨b, ⟨hne, hb⟩, rfl⟩

/-- A word that starts with a letter does not start with a blank. -/
theorem exists_cons_of_inAnyCase {k : Char} {u w : Text} (hk : k.toLower.isLower = true)
    (hlower : k.toLower.toLower = k.toLower) (h : InAnyCase (k :: u) w) :
    ∃ c v, w = c :: v ∧ isBlank c = false := by
  cases h with
  | @cons _ c _ v hc =>
    refine ⟨c, v, rfl, ?_⟩
    have hletter : sameLetter k.toLower c = true := by
      unfold sameLetter at hc ⊢
      rw [hlower]
      exact hc
    rcases isAlphanum_of_sameLetter hk hletter with halpha | rfl | rfl
    · exact isBlank_of_isAlphanum halpha
    · rfl
    · rfl

theorem procedureWords_append (w : HeaderWords) {r : Text} (hr : skipBlanks r = r) :
    procedureWords (w.text ++ r) = some r := by
  have htext : w.text ++ r = w.create ++ (w.gap ++ (w.procedure ++ (w.gap' ++ r))) := by
    simp [HeaderWords.text]
  have hcreate := (letters_inAnyCase _).eq_some w.hcreate (w.gap ++ (w.procedure ++ (w.gap' ++ r)))
  have hprocedure := (letters_inAnyCase _).eq_some w.hprocedure (w.gap' ++ r)
  have hskip : skipBlanks (w.procedure ++ (w.gap' ++ r)) = w.procedure ++ (w.gap' ++ r) := by
    obtain ⟨c, v, hword, hc⟩ := exists_cons_of_inAnyCase (k := 'P') rfl rfl w.hprocedure
    rw [hword]
    exact skipBlanks_of_not_isBlank hc _
  unfold procedureWords keyword
  rw [htext]
  simp only [hcreate, hprocedure, w.hgap.blanks1 hskip, w.hgap'.blanks1 hr, Option.bind_eq_bind,
    Option.bind_some]

theorem exists_procedureWords {t r : Text} (h : procedureWords t = some r) :
    ∃ w : HeaderWords, t = w.text ++ r := by
  obtain ⟨t₁, h₁, h⟩ := Option.bind_eq_some_iff.1 h
  obtain ⟨t₂, h₂, h⟩ := Option.bind_eq_some_iff.1 h
  obtain ⟨t₃, h₃, h₄⟩ := Option.bind_eq_some_iff.1 h
  obtain ⟨create, hcreate, rfl⟩ := (letters_inAnyCase _ _ _).1 h₁
  obtain ⟨gap, hgap, rfl⟩ := exists_gap h₂
  obtain ⟨procedure, hprocedure, rfl⟩ := (letters_inAnyCase _ _ _).1 h₃
  obtain ⟨gap', hgap', rfl⟩ := exists_gap h₄
  exact ⟨⟨create, gap, procedure, gap', hcreate, hgap, hprocedure, hgap'⟩,
    by simp [HeaderWords.text]⟩

/-! ## Names -/

/-- A character of a name that needs no quotes: a letter, a digit, a dollar sign, an underscore, or
any character beyond ASCII that is no blank. -/
def isPlainNameChar (c : Char) : Bool :=
  c.isAlphanum || c == '$' || c == '_' || (128 ≤ c.toNat && !isBlank c)

/-- A part of a name without quotes: one character, or the expression for the prefix. -/
def NamePart (w : Text) : Prop := w = prefixExpression ∨ ∃ c, isPlainNameChar c = true ∧ w = [c]

/-- The name of a procedure as it is written. -/
inductive RoutineName
  | quoted (t : Text) (ht : '\x60' ∉ t)
  | plain (parts : List Text) (hne : parts ≠ []) (hparts : ∀ w ∈ parts, NamePart w)

namespace RoutineName

def text : RoutineName → Text
  | quoted t _ => '\x60' :: (t ++ ['\x60'])
  | plain parts _ _ => parts.flatten

/-- Whether a name ends where the text goes on: it would be longer if the text went on with another
backtick, or with another part of a name without quotes. -/
def EndsAt : RoutineName → Text → Prop
  | quoted _ _, r => r.head? ≠ some '\x60'
  | plain _ _ _, r => ∀ w, NamePart w → ¬w <+: r

/-- Whether the search sees where a name ends. -/
def IsClear : RoutineName → Text → Prop
  | quoted _ _, _ => True
  | plain _ _ _, r => ∀ c, r.head? = some c → isBareNameChar c = false

/-- What the search takes for the text behind a name. -/
def behind : RoutineName → Text → Text
  | quoted _ _, r => r
  | plain _ _ _, r => r.dropWhile isBareNameChar

end RoutineName

theorem isBareNameChar_of_isPlainNameChar {c : Char} (h : isPlainNameChar c = true) :
    isBareNameChar c = true := by
  unfold isPlainNameChar at h
  simp only [Bool.or_eq_true, Bool.and_eq_true, beq_iff_eq, decide_eq_true_eq,
    Bool.not_eq_true'] at h
  rcases h with ((h | rfl) | rfl) | ⟨hcode, hblank⟩
  · have hparen : c ≠ '(' := by rintro rfl; cases h
    have hbacktick : c ≠ '\x60' := by rintro rfl; cases h
    simp [isBareNameChar, isBlank_of_isAlphanum h, hparen, hbacktick]
  · rfl
  · rfl
  · have hparen : c ≠ '(' := by rintro rfl; exact absurd hcode (by decide)
    have hbacktick : c ≠ '\x60' := by rintro rfl; exact absurd hcode (by decide)
    simp [isBareNameChar, hblank, hparen, hbacktick]

theorem isBareNameChar_prefixExpression : ∀ c ∈ prefixExpression, isBareNameChar c = true := by
  have hall : prefixExpression.all isBareNameChar = true := by
    rw [Php.prefixExpression_eq]
    decide
  exact List.all_eq_true.1 hall

theorem NamePart.ne_nil {w : Text} (h : NamePart w) : w ≠ [] := by
  rcases h with rfl | ⟨c, -, rfl⟩
  · exact Php.prefixExpression_ne_nil
  · exact List.cons_ne_nil _ _

theorem NamePart.isBareNameChar {w : Text} (h : NamePart w) : ∀ c ∈ w, isBareNameChar c = true := by
  rcases h with rfl | ⟨c, hc, rfl⟩
  · exact isBareNameChar_prefixExpression
  · exact List.forall_mem_singleton.2 (isBareNameChar_of_isPlainNameChar hc)

theorem flatten_ne_nil {parts : List Text} (hne : parts ≠ []) (hparts : ∀ w ∈ parts, NamePart w) :
    parts.flatten ≠ [] := by
  obtain ⟨w, parts, rfl⟩ := List.exists_cons_of_ne_nil hne
  have hw := (hparts w List.mem_cons_self).ne_nil
  simp [hw]

theorem isBareNameChar_flatten {parts : List Text} (hparts : ∀ w ∈ parts, NamePart w) :
    ∀ c ∈ parts.flatten, isBareNameChar c = true := by
  intro c hc
  obtain ⟨w, hw, hcw⟩ := List.mem_flatten.1 hc
  exact (hparts w hw).isBareNameChar c hcw

/-- A text that starts with a character of a name, or a backtick, does not start with a blank. -/
theorem RoutineName.skipBlanks_text (n : RoutineName) (r : Text) :
    skipBlanks (n.text ++ r) = n.text ++ r := by
  cases n with
  | quoted t ht => exact skipBlanks_of_not_isBlank rfl _
  | plain parts hne hparts =>
    obtain ⟨c, u, hcons⟩ := List.exists_cons_of_ne_nil (flatten_ne_nil hne hparts)
    have hc : isBareNameChar c = true :=
      isBareNameChar_flatten hparts c (hcons ▸ List.mem_cons_self)
    have hblank : isBlank c = false := by
      unfold isBareNameChar at hc
      simp only [Bool.and_eq_true, Bool.not_eq_true'] at hc
      exact hc.1.1
    rw [RoutineName.text, hcons]
    exact skipBlanks_of_not_isBlank hblank _

theorem quotedBy_of_isBareNameChar {c : Char} (hc : isBareNameChar c = true) (r : Text) :
    quotedBy '\x60' (c :: r) = none := by
  refine quotedBy_of_ne ?_ r
  rintro rfl
  cases hc

theorem routineName_text (n : RoutineName) (r : Text) :
    routineName (n.text ++ r) = some (n.behind r) := by
  unfold routineName orElse
  cases n with
  | quoted t ht =>
    have htext : (RoutineName.quoted t ht).text ++ r = '\x60' :: (t ++ '\x60' :: r) := by
      simp [RoutineName.text]
    rw [htext, quotedBy_append ht, Option.some_or]
    rfl
  | plain parts hne hparts =>
    have hnil := flatten_ne_nil hne hparts
    have hchars := isBareNameChar_flatten hparts
    have hquoted : quotedBy '\x60' (parts.flatten ++ r) = none := by
      obtain ⟨c, u, hcons⟩ := List.exists_cons_of_ne_nil hnil
      rw [hcons]
      exact quotedBy_of_isBareNameChar (hchars c (hcons ▸ List.mem_cons_self)) _
    rw [RoutineName.text, hquoted, Option.none_or, many1_append hnil hchars]
    rfl

theorem RoutineName.IsClear.behind_eq {n : RoutineName} {r : Text} (h : n.IsClear r) :
    n.behind r = r := by
  cases n with
  | quoted t ht => rfl
  | plain parts hne hparts =>
    cases r with
    | nil => rfl
    | cons c r =>
      have hc : isBareNameChar c = false := h c rfl
      exact List.dropWhile_cons_of_neg (by simp [hc])

/-! ## Headers -/

/-- A schema between backticks and the point behind it, with blanks around the point. -/
structure RoutineQualifier where
  schema : Text
  before : Text
  behind : Text
  hbefore : Blanks before
  hbehind : Blanks behind

def RoutineQualifier.text (q : RoutineQualifier) : Text :=
  quoteIdentifier q.schema ++ (q.before ++ '.' :: q.behind)

/-- The header of a procedure as it is written. -/
structure ProcedureHeader where
  words : HeaderWords
  qualifier? : Option RoutineQualifier
  name : RoutineName

namespace ProcedureHeader

/-- What stands behind the words. -/
def qualifiedName (h : ProcedureHeader) : Text :=
  match h.qualifier? with
  | none => h.name.text
  | some q => q.text ++ h.name.text

def text (h : ProcedureHeader) : Text := h.words.text ++ h.qualifiedName

/-- Whether a header ends where the text goes on. A name in front of a point is not the name of the
procedure. -/
structure EndsAt (h : ProcedureHeader) (r : Text) : Prop where
  name : h.name.EndsAt r
  point : h.qualifier? = none → (skipBlanks r).head? ≠ some '.'

/-- Whether the search sees where the schema and the name end. -/
structure IsClear (h : ProcedureHeader) (r : Text) : Prop where
  schema : ∀ q, h.qualifier? = some q → '\x60' ∉ q.schema
  name : h.name.IsClear r

end ProcedureHeader

/-- The search for a name behind the words. -/
def qualifiedName : Scan := orElse (fun t => routineQualifier t >>= routineName) routineName

theorem qualifiedName_eq (t : Text) :
    qualifiedName t = ((routineQualifier t).bind routineName).or (routineName t) := by rfl

theorem procedureHeader_eq {prev : Option Char} (hprev : wordStart prev = true) (t : Text) :
    procedureHeader prev t = (procedureWords t).bind qualifiedName := by
  unfold procedureHeader procedureWords
  rw [hprev]
  simp only [guard_true, Option.pure_def, Option.bind_eq_bind, Option.bind_some, Option.bind_assoc]
  rfl

theorem routineQualifier_text (q : RoutineQualifier) (hq : '\x60' ∉ q.schema) (n : RoutineName)
    (r : Text) : routineQualifier (q.text ++ (n.text ++ r)) = some (n.text ++ r) := by
  have htext : q.text ++ (n.text ++ r) =
      '\x60' :: (q.schema ++ '\x60' :: (q.before ++ '.' :: (q.behind ++ (n.text ++ r)))) := by
    simp [RoutineQualifier.text, quoteIdentifier, escapeIdentifier_of_notMem hq]
  have hpoint : skipBlanks (q.before ++ '.' :: (q.behind ++ (n.text ++ r))) =
      '.' :: (q.behind ++ (n.text ++ r)) := by
    rw [skipBlanks_append q.hbefore, skipBlanks_of_not_isBlank rfl]
  have hliteral : literal ['.'] ('.' :: (q.behind ++ (n.text ++ r))) =
      some (q.behind ++ (n.text ++ r)) := rfl
  unfold routineQualifier
  rw [htext]
  simp only [quotedBy_append hq, hpoint, hliteral, Option.bind_eq_bind, Option.bind_some,
    Option.pure_def]
  rw [skipBlanks_append q.hbehind, n.skipBlanks_text]

/-- A schema with a backtick ends too early for the search, which then takes what it has for the
name. -/
theorem qualifiedName_of_backtick (q : RoutineQualifier) (hq : '\x60' ∈ q.schema) (t : Text) :
    ∃ u, qualifiedName (q.text ++ t) = some ('\x60' :: (u ++ t)) := by
  obtain ⟨s, s', hschema, hs⟩ := List.eq_append_cons_of_mem hq
  let u := escapeIdentifier s' ++ '\x60' :: (q.before ++ '.' :: q.behind)
  have htext : q.text ++ t = '\x60' :: (s ++ '\x60' :: '\x60' :: (u ++ t)) := by
    unfold RoutineQualifier.text quoteIdentifier
    rw [hschema, escapeIdentifier_append, escapeIdentifier_of_notMem hs, escapeIdentifier_backtick]
    simp [u]
  have hquoted : quotedBy '\x60' ('\x60' :: (s ++ '\x60' :: '\x60' :: (u ++ t))) =
      some ('\x60' :: (u ++ t)) := quotedBy_append hs _
  have hqualifier : routineQualifier ('\x60' :: (s ++ '\x60' :: '\x60' :: (u ++ t))) = none := by
    unfold routineQualifier
    rw [hquoted]
    rfl
  refine ⟨u, ?_⟩
  rw [htext, qualifiedName_eq, hqualifier]
  unfold routineName orElse
  rw [hquoted]
  rfl

/-- Without a qualifier, a name in front of no point is all there is. -/
theorem qualifiedName_of_name (n : RoutineName) {r : Text} (hr : (skipBlanks r).head? ≠ some '.') :
    qualifiedName (n.text ++ r) = some (n.behind r) := by
  have hqualifier : routineQualifier (n.text ++ r) = none := by
    unfold routineQualifier
    cases n with
    | quoted t ht =>
      have htext : (RoutineName.quoted t ht).text ++ r = '\x60' :: (t ++ '\x60' :: r) := by
        simp [RoutineName.text]
      have hpoint : literal ['.'] (skipBlanks r) = none := by
        cases hskip : skipBlanks r with
        | nil => rfl
        | cons c u =>
          refine literal_cons_of_ne (fun hc => ?_) u
          rw [hskip, ← hc] at hr
          exact hr rfl
      rw [htext, quotedBy_append ht]
      show (literal ['.'] (skipBlanks r)).bind _ = none
      rw [hpoint]
      rfl
    | plain parts hne hparts =>
      obtain ⟨c, u, hcons⟩ := List.exists_cons_of_ne_nil (flatten_ne_nil hne hparts)
      have hc : isBareNameChar c = true :=
        isBareNameChar_flatten hparts c (hcons ▸ List.mem_cons_self)
      rw [RoutineName.text, hcons, List.cons_append, quotedBy_of_isBareNameChar hc]
      rfl
  rw [qualifiedName_eq, hqualifier, routineName_text]
  rfl

/-- With a schema that the search reads to its end, the name behind it is all there is. -/
theorem qualifiedName_of_qualifier (q : RoutineQualifier) (hq : '\x60' ∉ q.schema) (n : RoutineName)
    (r : Text) : qualifiedName (q.text ++ (n.text ++ r)) = some (n.behind r) := by
  rw [qualifiedName_eq, routineQualifier_text q hq, Option.bind_some, routineName_text,
    Option.some_or]

namespace ProcedureHeader

variable {prev : Option Char} {r : Text}

/-- A header starts with a letter. -/
theorem exists_text_cons (h : ProcedureHeader) : ∃ c u, h.text = c :: u ∧ isBlank c = false := by
  obtain ⟨c, v, hword, hc⟩ := exists_cons_of_inAnyCase (k := 'C') rfl rfl h.words.hcreate
  have htext : h.text = h.words.create ++
      (h.words.gap ++ (h.words.procedure ++ h.words.gap') ++ h.qualifiedName) := by
    simp [text, HeaderWords.text]
  rw [hword] at htext
  exact ⟨c, _, htext, hc⟩

theorem skipBlanks_qualifiedName (h : ProcedureHeader) (r : Text) :
    skipBlanks (h.qualifiedName ++ r) = h.qualifiedName ++ r := by
  unfold qualifiedName
  cases h.qualifier? with
  | none => exact h.name.skipBlanks_text r
  | some q => exact skipBlanks_of_not_isBlank rfl _

theorem procedureHeader_text (hprev : wordStart prev = true) (h : ProcedureHeader) (r : Text) :
    procedureHeader prev (h.text ++ r) = Sql.qualifiedName (h.qualifiedName ++ r) := by
  unfold text
  rw [procedureHeader_eq hprev, List.append_assoc,
    procedureWords_append _ (h.skipBlanks_qualifiedName r), Option.bind_some]

/-- A header whose schema the search reads to its end is found, with what the search takes for the
name. -/
theorem procedureHeader_of_schema (hprev : wordStart prev = true) {h : ProcedureHeader}
    (hends : h.EndsAt r) (hschema : ∀ q, h.qualifier? = some q → '\x60' ∉ q.schema) :
    procedureHeader prev (h.text ++ r) = some (h.name.behind r) := by
  rw [procedureHeader_text hprev]
  unfold qualifiedName
  cases hq : h.qualifier? with
  | none => exact qualifiedName_of_name h.name (hends.point hq)
  | some q =>
    rw [List.append_assoc]
    exact qualifiedName_of_qualifier q (hschema q hq) h.name r

/-- Of a header with a backtick in its schema, the search leaves the end and more than one
backtick. -/
theorem procedureHeader_of_backtick (hprev : wordStart prev = true) {h : ProcedureHeader}
    {q : RoutineQualifier} (hq : h.qualifier? = some q) (hschema : '\x60' ∈ q.schema) :
    ∃ u, procedureHeader prev (h.text ++ r) = some ('\x60' :: (u ++ r)) := by
  obtain ⟨u, hu⟩ := qualifiedName_of_backtick q hschema (h.name.text ++ r)
  rw [procedureHeader_text hprev]
  unfold qualifiedName
  rw [hq, List.append_assoc, hu]
  exact ⟨u ++ h.name.text, by simp⟩

/-- Any header is found. -/
theorem exists_procedureHeader (hprev : wordStart prev = true) {h : ProcedureHeader}
    (hends : h.EndsAt r) : ∃ r', procedureHeader prev (h.text ++ r) = some r' := by
  by_cases hschema : ∀ q, h.qualifier? = some q → '\x60' ∉ q.schema
  · exact ⟨_, procedureHeader_of_schema hprev hends hschema⟩
  · push Not at hschema
    obtain ⟨q, hq, hin⟩ := hschema
    obtain ⟨u, hu⟩ := procedureHeader_of_backtick (r := r) hprev hq hin
    exact ⟨_, hu⟩

end ProcedureHeader

/-! ## The first header -/

/-- A text that reads like a header at its start: the words, and either a name between backticks or
a character that a name without quotes can start with. -/
def BeginsHeader (t : Text) : Prop :=
  ∃ (w : HeaderWords) (u : Text), w.text ++ u <+: t ∧
    ((∃ n, '\x60' ∉ n ∧ u = '\x60' :: (n ++ ['\x60'])) ∨ ∃ c, isBareNameChar c = true ∧ u = [c])

theorem exists_of_quotedBy {q : Char} {t r : Text} (h : quotedBy q t = some r) :
    ∃ u, q ∉ u ∧ t = q :: (u ++ q :: r) := by
  cases t with
  | nil => cases h
  | cons c t =>
    by_cases hc : c = q
    · rw [quotedBy, if_pos (by simpa using hc)] at h
      obtain ⟨d, hdrop, hd⟩ := eq_cons_of_one h
      refine ⟨t.takeWhile (· != q), fun hin => ?_, ?_⟩
      · simpa using List.mem_takeWhile_imp hin
      · rw [eq_of_beq hd] at hdrop
        rw [← hdrop, List.takeWhile_append_dropWhile, hc]
    · rw [quotedBy_of_ne hc] at h
      cases h

/-- Whatever the search finds reads like a header. -/
theorem beginsHeader_of_procedureHeader {prev : Option Char} {t r : Text}
    (h : procedureHeader prev t = some r) : wordStart prev = true ∧ BeginsHeader t := by
  have hprev : wordStart prev = true := by
    obtain ⟨_, hguard, -⟩ := Option.bind_eq_some_iff.1 h
    simpa [guard] using hguard
  rw [procedureHeader_eq hprev] at h
  obtain ⟨t', hwords, hname⟩ := Option.bind_eq_some_iff.1 h
  obtain ⟨w, rfl⟩ := exists_procedureWords hwords
  have hquoted : ∀ {r}, quotedBy '\x60' t' = some r → BeginsHeader (w.text ++ t') := by
    intro r hr
    obtain ⟨n, hn, rfl⟩ := exists_of_quotedBy hr
    exact ⟨w, _, ⟨r, by simp⟩, Or.inl ⟨n, hn, rfl⟩⟩
  refine ⟨hprev, ?_⟩
  rw [qualifiedName_eq] at hname
  rcases Option.or_eq_some_iff.1 hname with hname | ⟨-, hname⟩
  · obtain ⟨_, hqualifier, -⟩ := Option.bind_eq_some_iff.1 hname
    obtain ⟨_, hr, -⟩ := Option.bind_eq_some_iff.1 hqualifier
    exact hquoted hr
  · rcases Option.or_eq_some_iff.1 hname with hr | ⟨-, hr⟩
    · exact hquoted hr
    · obtain ⟨c, u, rfl, hc⟩ := eq_cons_of_many1 hr
      exact ⟨w, [c], ⟨u ++ r, by simp⟩, Or.inr ⟨c, hc, rfl⟩⟩

/-- A header in a text with nothing in front of it that reads like one. -/
structure IsFirstHeader (t a : Text) (h : ProcedureHeader) (r : Text) : Prop where
  split : t = a ++ (h.text ++ r)
  start : wordStart a.getLast? = true
  ends : h.EndsAt r
  first : ∀ b c, a = b ++ c → c ≠ [] → wordStart b.getLast? = true →
    ¬BeginsHeader (c ++ (h.text ++ r))

/-- The first place where a rule applies is where it applies nowhere before. -/
theorem firstMatch_of_forall {rule : Rule} {a t new rest : Text} (ht : t ≠ []) (prev : Option Char)
    (hmatch : rule (a.getLast?.or prev) t = some (new, rest))
    (hnone : ∀ b c, a = b ++ c → c ≠ [] → rule (b.getLast?.or prev) (c ++ t) = none) :
    firstMatch rule prev (a ++ t) = some (a, new, rest) := by
  induction a generalizing prev with
  | nil =>
    obtain ⟨c, t, rfl⟩ := List.exists_cons_of_ne_nil ht
    rw [List.getLast?_nil, Option.none_or] at hmatch
    rw [List.nil_append, firstMatch, hmatch]
  | cons c a ih =>
    have hhead := hnone [] (c :: a) rfl (List.cons_ne_nil c a)
    rw [List.getLast?_nil, Option.none_or, List.cons_append] at hhead
    have htail : ∀ b d, a = b ++ d → d ≠ [] → rule (b.getLast?.or (some c)) (d ++ t) = none := by
      rintro b d rfl hd
      rw [← getLast?_cons_or c b prev]
      exact hnone (c :: b) d rfl hd
    rw [getLast?_cons_or] at hmatch
    rw [List.cons_append, firstMatch, hhead, ih (some c) hmatch htail]
    rfl

namespace IsFirstHeader

variable {t a r r' : Text} {h : ProcedureHeader}

theorem not_isBlankOnly (hfirst : IsFirstHeader t a h r) : ¬t.isBlankOnly = true := by
  intro hblank
  obtain ⟨c, u, htext, hc⟩ := h.exists_text_cons
  have hall := List.all_eq_true.1 hblank c (by simp [hfirst.split, htext])
  rw [hc] at hall
  cases hall

theorem forceHeader_eq (hfirst : IsFirstHeader t a h r)
    (hfound : procedureHeader a.getLast? (h.text ++ r) = some r') (header : Text) :
    forceHeader header t = a ++ (header ++ r') := by
  have hne : h.text ++ r ≠ [] := by
    obtain ⟨c, u, htext, -⟩ := h.exists_text_cons
    simp [htext]
  have hmatch : firstMatch (fun prev t => (procedureHeader prev t).map (header, ·)) none
      (a ++ (h.text ++ r)) = some (a, header, r') := by
    refine firstMatch_of_forall hne none ?_ fun b c hab hc => ?_
    · rw [Option.or_none, hfound]
      rfl
    · rw [Option.or_none]
      cases hscan : procedureHeader b.getLast? (c ++ (h.text ++ r)) with
      | none => rfl
      | some x =>
        obtain ⟨hstart, hbegins⟩ := beginsHeader_of_procedureHeader hscan
        exact absurd hbegins (hfirst.first b c hab hc hstart)
  unfold forceHeader substituteFirst
  rw [hfirst.split, hmatch]
  exact List.append_assoc a header r'

end IsFirstHeader

end SchemaInstaller.Sql
