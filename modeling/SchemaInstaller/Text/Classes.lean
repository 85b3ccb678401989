import SchemaInstaller.Text.Basic
import SchemaInstaller.Text.WordTable
import SchemaInstaller.Text.DigitTable
import SchemaInstaller.Text.CasedTable
import SchemaInstaller.Text.CaseIgnorableTable
import SchemaInstaller.Text.CaseTable
import SchemaInstaller.Text.HiddenTable
import SchemaInstaller.Text.ExtendTable

/-!
# Character classes and lower case

The classes are properties of Unicode, looked up in tables of runs. Lower case of a text knows one
rule that a single character cannot: a capital sigma at the end of a word has a form of its own.
-/

namespace SchemaInstaller

/-- Membership in a table of runs. -/
def inRanges (ranges : List (Nat × Nat)) (c : Char) : Bool :=
  ranges.any fun r => r.1 ≤ c.toNat && c.toNat ≤ r.2

/-- Membership in a run whose members lie `step` apart. -/
def inRun (first last step : Nat) (c : Char) : Bool :=
  first ≤ c.toNat && c.toNat ≤ last && (c.toNat - first) % step == 0

/-- A part of a word. -/
def isWordChar (c : Char) : Bool :=
  if c.toNat < 128 then c.isAlphanum || c == '_' else inRanges wordRanges c

/-- A decimal digit of any script. -/
def isDecimalDigit (c : Char) : Bool :=
  if c.toNat < 128 then c.isDigit else inRanges digitRanges c

/-- An upper-case letter of any script. -/
def isUpperCase (c : Char) : Bool :=
  if c.toNat < 128 then c.isUpper else upperRuns.any fun (a, b, s) => inRun a b s c

/-- A character that has a case. -/
def isCased (c : Char) : Bool := inRanges casedRanges c

/-- A character that the rules for case pass over. -/
def isCaseIgnorable (c : Char) : Bool := inRanges caseIgnorableRanges c

/-- A character that a quoted message spells out because it has no shape of its own. -/
def isHidden (c : Char) : Bool :=
  if c.toNat < 128 then c.toNat < 32 || c.toNat == 127 else inRanges hiddenRanges c

/-- A character that joins the one before it. -/
def isExtending (c : Char) : Bool := c.toNat ≥ 128 && inRanges extendRanges c

/-- The lower-case form of one character. Only the dotted capital i has one of two characters. -/
def lowerChar (c : Char) : Text :=
  if c.toNat < 128 then [c.toLower]
  else if c == '\u0130' then ['i', '\u0307']
  else match lowerRuns.find? fun (a, b, s, _) => inRun a b s c with
    | some (_, _, _, d) => [Char.ofNat (Int.toNat (c.toNat + d))]
    | none => [c]

namespace Text

/-- Whether the first character that case rules do not pass over has a case. -/
def meetsCased (t : Text) : Bool := ((t.dropWhile isCaseIgnorable).head?.map isCased).getD false

/-- Lower case of what follows `before`, the earlier characters in reverse order. -/
def lowerAfter : Text → Text → Text
  | _, [] => []
  | before, c :: r =>
    let low :=
      if c == '\u03a3' then
        if meetsCased before && !meetsCased r then ['\u03c2'] else ['\u03c3']
      else lowerChar c
    low ++ lowerAfter (c :: before) r

/-- Lower case of a text. -/
def lower (t : Text) : Text := lowerAfter [] t

end Text

/-- Lower case of a name. -/
def lowerCase (s : String) : String := String.ofList (Text.lower s.toList)

end SchemaInstaller
