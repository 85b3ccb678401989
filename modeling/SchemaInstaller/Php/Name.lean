import SchemaInstaller.Text.Classes

/-!
# Names in PHP and names of files

A class name starts with an ASCII letter, an underscore or any character beyond ASCII; digits may
follow. The files of a plugin take their names from the class name: words in lower case with hyphens
between them.
-/

namespace SchemaInstaller.Php

/-- A character that a name may start with. -/
def isNameStart (c : Char) : Bool := c.isAlpha || c == '_' || c.toNat ≥ 0x80

/-- A character that a name may go on with. -/
def isNameChar (c : Char) : Bool := isNameStart c || c.isDigit

/-- Whether a text is a name. -/
def isName : Text → Bool
  | [] => false
  | c :: r => isNameStart c && r.all isNameChar

/-- Whether a name can name a class. -/
def isClassName (s : String) : Bool := isName s.toList

/-- What one character of a class name adds to the slug: a capital a hyphen and its lower-case form,
an underscore nothing. -/
def slugPart (first : Bool) (c : Char) : Text :=
  if isUpperCase c then if first then lowerChar c else '-' :: lowerChar c
  else if c == '_' then []
  else [c]

/-- Every run of hyphens as one hyphen. -/
def collapseHyphens : Text → Text
  | [] => []
  | c :: r =>
    if c == '-' && r.head? == some '-' then collapseHyphens r else c :: collapseHyphens r

/-- The text without hyphens at either end. -/
def trimHyphens (t : Text) : Text :=
  ((t.dropWhile (· == '-')).reverse.dropWhile (· == '-')).reverse

/-- The slug of a class name. -/
def slugText : Text → Text
  | [] => []
  | c :: r => trimHyphens (collapseHyphens (slugPart true c ++ r.flatMap (slugPart false)))

/-- The slug of a class name. -/
def slug (className : String) : String := String.ofList (slugText className.toList)

end SchemaInstaller.Php
