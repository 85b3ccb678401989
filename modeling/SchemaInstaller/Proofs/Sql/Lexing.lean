import SchemaInstaller.Proofs.Sql.Quoting
import SchemaInstaller.Proofs.Sql.Renaming

/-!
# Comments and strings as a server reads them

A server reads a statement from left to right and knows at each place whether it is in code, in a
string or a quoted name, or in a comment (`Lexical`). Two dashes only begin a comment if a blank or
a control character follows, so what the last characters begin is a part of the state. An ordinary
character completes it (`Lexical.settled`), and so does the expression for the prefix: a text reads
as it did when expressions give way to a word (`lexed_substitute`). A quoted name leads from code
back to code, whatever the name is (`lexed_quoteIdentifier`).
-/

namespace SchemaInstaller.Sql

open Scan Text

/-! ## States -/

/-- What opens and closes a string or a quoted name. -/
inductive Quote
  | single
  | double
  | backtick
  deriving DecidableEq

def Quote.mark : Quote → Char
  | single => '\x27'
  | double => '\x22'
  | backtick => '\x60'

/-- The quote that a character is. -/
def quote? (c : Char) : Option Quote :=
  if c = '\x27' then some .single
  else if c = '\x22' then some .double
  else if c = '\x60' then some .backtick
  else none

/-- Where a server is in a statement. In code, the last characters may begin a comment: one dash,
two or more, or a slash. In a string, the last character may escape the next one, and in a comment
between slashes and stars, it may be the star that ends it. -/
inductive Lexical
  | code
  | dash
  | dashes
  | slash
  | quoted (q : Quote)
  | escaped (q : Quote)
  | lineComment
  | blockComment
  | star
  deriving DecidableEq

/-- A character in code. -/
def codeStep (c : Char) : Lexical :=
  match quote? c with
  | some q => .quoted q
  | none =>
    if c = '-' then .dash
    else if c = '/' then .slash
    else if c = '#' then .lineComment
    else .code

/-- A blank or a control character of ASCII. -/
def isSpaceOrControl (c : Char) : Bool := c.toNat ≤ 32 || c.toNat == 127

/-- One more character. A backslash escapes nothing in a name between backticks. -/
def Lexical.step : Lexical → Char → Lexical
  | code, c => codeStep c
  | dash, c => if c = '-' then dashes else codeStep c
  | dashes, c =>
    if c = '-' then dashes
    else if c = '\n' then code
    else if isSpaceOrControl c then lineComment
    else codeStep c
  | slash, c => if c = '*' then blockComment else codeStep c
  | quoted q, c =>
    if c = q.mark then code
    else if c = '\\' ∧ q ≠ .backtick then escaped q
    else quoted q
  | escaped q, _ => quoted q
  | lineComment, c => if c = '\n' then code else lineComment
  | blockComment, c => if c = '*' then star else blockComment
  | star, c => if c = '/' then code else if c = '*' then star else blockComment

/-- Where a server is behind a text. -/
def lexed (s : Lexical) (t : Text) : Lexical := t.foldl Lexical.step s

theorem lexed_cons (s : Lexical) (c : Char) (t : Text) :
    lexed s (c :: t) = lexed (s.step c) t := by rfl

theorem lexed_append (s : Lexical) (t u : Text) : lexed s (t ++ u) = lexed (lexed s t) u :=
  List.foldl_append

namespace Lexical

/-- In no string, quoted name, or comment between slashes and stars. -/
def IsClosed : Lexical → Prop
  | quoted _ => False
  | escaped _ => False
  | blockComment => False
  | star => False
  | _ => True

instance : DecidablePred IsClosed
  | quoted _ | escaped _ | blockComment | star => instDecidableFalse
  | code | dash | dashes | slash | lineComment => instDecidableTrue

/-- The state when the last character begins or ends nothing. -/
def settled : Lexical → Lexical
  | code => code
  | dash => code
  | dashes => code
  | slash => code
  | quoted q => quoted q
  | escaped q => quoted q
  | lineComment => lineComment
  | blockComment => blockComment
  | star => blockComment

theorem settled_settled (s : Lexical) : s.settled.settled = s.settled := by cases s <;> rfl

/-- In code, the last character may have begun a comment, and the next one decides. -/
theorem settled_eq_code_iff (s : Lexical) : s.settled = code ↔ s.IsClosed ∧ s ≠ lineComment := by
  cases s <;> simp [settled, IsClosed]

end Lexical

/-! ## Ordinary characters -/

/-- A character that begins, ends and escapes nothing. -/
def isOrdinary (c : Char) : Bool :=
  !isSpaceOrControl c && (quote? c).isNone && c != '-' && c != '/' && c != '#' && c != '*'
    && c != '\\'

theorem quote?_mark (q : Quote) : quote? q.mark = some q := by cases q <;> rfl

/-- An ordinary character completes the state. -/
theorem Lexical.step_of_isOrdinary {c : Char} (hc : isOrdinary c = true) (s : Lexical) :
    s.step c = s.settled := by
  simp only [isOrdinary, Bool.and_eq_true, Bool.not_eq_true', bne_iff_ne,
    Option.isNone_iff_eq_none] at hc
  obtain ⟨⟨⟨⟨⟨⟨hspace, hquote⟩, hdash⟩, hslash⟩, hhash⟩, hstar⟩, hbackslash⟩ := hc
  have hcode : codeStep c = code := by
    unfold codeStep
    simp [hquote, hdash, hslash, hhash]
  have hmark : ∀ q : Quote, c ≠ q.mark := by
    rintro q rfl
    rw [quote?_mark] at hquote
    cases hquote
  have hline : c ≠ '\n' := by
    rintro rfl
    cases hspace
  cases s <;> simp [step, settled, hcode, hmark, hline, hspace, hdash, hslash, hstar, hbackslash]

/-- A text that completes the state, whatever it is. -/
def Settles (w : Text) : Prop := ∀ s, lexed s w = s.settled

theorem settles_of_isOrdinary {w : Text} (hne : w ≠ []) (hw : ∀ c ∈ w, isOrdinary c = true) :
    Settles w := by
  obtain ⟨c, w, rfl⟩ := List.exists_cons_of_ne_nil hne
  induction w generalizing c with
  | nil => exact fun s => Lexical.step_of_isOrdinary (hw c List.mem_cons_self) s
  | cons d w ih =>
    intro s
    rw [lexed_cons, Lexical.step_of_isOrdinary (hw c List.mem_cons_self),
      ih d (List.cons_ne_nil d w) fun e he => hw e (List.mem_cons_of_mem c he),
      Lexical.settled_settled]

/-- The dash in the expression is followed by something else. -/
theorem settles_prefixExpression : Settles prefixExpression := by
  have hsplit : prefixExpression = "\x7b$this".toList ++ '-' :: ">prefix\x7d".toList := by
    decide +kernel
  have hbefore : Settles "\x7b$this".toList :=
    settles_of_isOrdinary (by decide) (List.all_eq_true.1 (by decide +kernel))
  have hbehind : Settles ">prefix\x7d".toList :=
    settles_of_isOrdinary (by decide) (List.all_eq_true.1 (by decide +kernel))
  intro s
  rw [hsplit, lexed_append, lexed_cons, hbefore, hbehind]
  cases s with
  | quoted q => cases q <;> rfl
  | escaped q => cases q <;> rfl
  | _ => rfl

theorem isOrdinary_of_isAlphanum {c : Char} (h : c.isAlphanum = true) : isOrdinary c = true := by
  have hrange := isAlphanum_iff.1 h
  rw [isUpper_iff, isLower_iff] at hrange
  have hspace : isSpaceOrControl c = false := by
    simp only [isSpaceOrControl, Bool.or_eq_false_iff, decide_eq_false_iff_not, beq_eq_false_iff_ne]
    omega
  have hother : ∀ d : Char, d.isAlphanum = false → c ≠ d := by
    rintro d hd rfl
    rw [h] at hd
    cases hd
  simp [isOrdinary, hspace, quote?, hother]

theorem settles_of_isToken {w : Text} (hw : IsToken w) : Settles w := by
  refine settles_of_isOrdinary (fun hnil => not_isToken_nil (hnil ▸ hw)) fun c hc => ?_
  have hlower : c.toLower ∈ ['\x7b', 'w', 'p', '_', '\x7d'] := hw ▸ List.mem_map_of_mem hc
  by_cases hupper : c.isUpper = true
  · exact isOrdinary_of_isAlphanum (isAlphanum_iff.2 (Or.inl (Or.inl hupper)))
  · rw [toLower_of_not_isUpper hupper] at hlower
    exact List.all_eq_true.1 (by decide +kernel) c hlower

/-- A text reads as it did when words that complete the state give way to another one that does. -/
theorem lexed_substitute {s : Scan} {W : Text → Prop} (h : s.Of W) (hnil : ¬W [])
    (hword : ∀ w, W w → Settles w) {new : Text} (hnew : Settles new) (l : Lexical) (t : Text) :
    lexed l (t.substitute (s.rule new)) = lexed l t := by
  have hs := h.takes hnil
  induction t using hs.induction generalizing l with
  | nil => rfl
  | found t r hscan ih =>
    obtain ⟨w, hw, rfl⟩ := (h t r).1 hscan
    rw [substitute_of_some hs hscan, lexed_append, lexed_append, hnew, hword w hw, ih]
  | skip c r hscan ih =>
    rw [substitute_of_none hscan, lexed_cons, lexed_cons, ih]

/-! ## Quoted names -/

theorem lexed_escapeIdentifier (n : Text) :
    lexed (.quoted .backtick) (escapeIdentifier n) = .quoted .backtick := by
  rw [escapeIdentifier_eq_doubled]
  induction n with
  | nil => rfl
  | cons c n ih =>
    by_cases hc : c = '\x60'
    · rw [hc, doubled_cons_of_true rfl]
      exact ih
    · have hstep : Lexical.step (.quoted .backtick) c = .quoted .backtick := by
        have hmark : c ≠ Quote.backtick.mark := hc
        simp [Lexical.step, hmark]
      rw [doubled_cons_of_false (by simpa using hc), lexed_cons, hstep, ih]

/-- A quoted name leads from code to code. -/
theorem lexed_quoteIdentifier (n : Text) : lexed .code (quoteIdentifier n) = .code := by
  unfold quoteIdentifier
  rw [lexed_append, lexed_cons]
  show lexed (lexed (.quoted .backtick) (escapeIdentifier n)) ['\x60'] = .code
  rw [lexed_escapeIdentifier]
  rfl

end SchemaInstaller.Sql
