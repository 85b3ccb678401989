/-!
# Texts under analysis

Documents and files hold a `String`. Everything that looks inside a text works on its characters,
so that a scan is a recursion on a list. Here are the blank characters and what depends on them
alone: trimming and splitting into words.
-/

namespace SchemaInstaller

/-- The characters of a text. -/
abbrev Text := List Char

/-- The blank characters: the property White_Space of Unicode. -/
def isBlank (c : Char) : Bool :=
  let n := c.toNat
  (9 ≤ n && n ≤ 13) || n == 0x20 || n == 0x85 || n == 0xA0 || n == 0x1680
    || (0x2000 ≤ n && n ≤ 0x200A) || n == 0x2028 || n == 0x2029 || n == 0x202F
    || n == 0x205F || n == 0x3000

namespace Text

/-- The text without the blanks at its start. -/
def trimStart (t : Text) : Text := t.dropWhile isBlank

/-- The text without the blanks at its end. -/
def trimEnd (t : Text) : Text := (t.reverse.dropWhile isBlank).reverse

/-- The text without the blanks at either end. -/
def trim (t : Text) : Text := trimEnd (trimStart t)

/-- A text with no character that can be seen. -/
def isBlankOnly (t : Text) : Bool := t.all isBlank

/-- The maximal runs of characters that are not blank. -/
def words : Text → List Text
  | [] => []
  | c :: r =>
    if isBlank c then words r
    else match r with
      | [] => [[c]]
      | d :: _ =>
        if isBlank d then [c] :: words r
        else match words r with
          | [] => [[c]]
          | w :: ws => (c :: w) :: ws

/-- The number of bytes of the text in UTF-8. -/
def byteLength (t : Text) : Nat := t.foldl (fun n c => n + c.utf8Size) 0

/-- ASCII letters in lower case, everything else as it is. -/
def lowerAscii (t : Text) : Text := t.map Char.toLower

/-- ASCII letters in upper case, everything else as it is. -/
def upperAscii (t : Text) : Text := t.map Char.toUpper

end Text

/-- Two names that differ at most in the case of ASCII letters. -/
def sameName (a b : String) : Bool := Text.lowerAscii a.toList == Text.lowerAscii b.toList

end SchemaInstaller
