import SchemaInstaller.Text.Classes

/-!
# Patterns at the start of a text

A scan takes a pattern off the front of a text and gives back what is left. Keywords are matched in
any case, where two further characters fold to ASCII letters: the long s and the Kelvin sign.
-/

namespace SchemaInstaller

/-- A pattern: what is left of a text that starts with it. -/
abbrev Scan := Text → Option Text

/-- Whether `c` is the ASCII letter `k` in some case. -/
def sameLetter (k c : Char) : Bool :=
  k.toLower == c.toLower
    || (k.toLower == 's' && c == '\u017f') || (k.toLower == 'k' && c == '\u212a')

namespace Scan

/-- Exactly this text. -/
def literal (w : Text) : Scan := fun t => w.isPrefixOf? t

/-- One character of a class. -/
def one (p : Char → Bool) : Scan
  | [] => none
  | c :: r => if p c then some r else none

/-- One or more characters of a class, as many as there are. -/
def many1 (p : Char → Bool) : Scan
  | [] => none
  | c :: r => if p c then some (r.dropWhile p) else none

/-- One or more blanks, as many as there are. -/
def blanks1 : Scan := many1 isBlank

/-- The letters of a keyword, in any case. -/
def letters : Text → Scan
  | [], t => some t
  | _ :: _, [] => none
  | k :: ks, c :: r => if sameLetter k c then letters ks r else none

/-- A keyword in any case. -/
def keyword (w : String) : Scan := letters w.toList

/-- A quoted part: everything up to the next `q`, which must come. -/
def quotedBy (q : Char) : Scan
  | [] => none
  | c :: r => if c == q then one (· == q) (r.dropWhile (· != q)) else none

/-- The pattern if it is there. -/
def optional (s : Scan) : Text → Text := fun t => (s t).getD t

/-- The first pattern, or else the second. -/
def orElse (a b : Scan) : Scan := fun t => (a t).or (b t)

/-- Nothing, at the end of a word that is complete. -/
def wordEnd : Scan := fun t => if (t.head?.map isWordChar).getD false then none else some t

/-- Whether a word can begin after `before`. -/
def wordStart (before : Option Char) : Bool := !((before.map isWordChar).getD false)

end Scan

namespace Text

/-- The blanks at the start of the text dropped, as a pattern between others does. -/
abbrev skipBlanks (t : Text) : Text := trimStart t

/-- What stands before `rest`, a text that `t` ends with. -/
def before (t rest : Text) : Text := t.take (t.length - rest.length)

end Text

end SchemaInstaller
