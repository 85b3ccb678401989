import SchemaInstaller.Text.Basic

/-!
# Places in a YAML text

A cursor holds what is left of a text and where that starts: the number of characters before it, its
line and its column. A carriage return with a line feed behind it is one line break.
-/

namespace SchemaInstaller.Yaml

/-- A character that a text may hold at all. -/
def isAllowed (c : Char) : Bool :=
  let n := c.toNat
  n == 0x09 || n == 0x0A || n == 0x0D || (0x20 ≤ n && n ≤ 0x7E) || n == 0x85
    || (0xA0 ≤ n && n ≤ 0xD7FF) || (0xE000 ≤ n && n ≤ 0xFFFD) || 0x10000 ≤ n

/-- A line break. -/
def isBreak (c : Char) : Bool :=
  c == '\n' || c == '\r' || c == '\u0085' || c == '\u2028' || c == '\u2029'

/-- A space or a tab. -/
def isPadding (c : Char) : Bool := c == ' ' || c == '\t'

/-- A character of a name: an ASCII letter, a digit, a hyphen or an underscore. -/
def isNameChar (c : Char) : Bool := c.isAlphanum || c == '_' || c == '-'

/-- A character that ends a word: padding or a line break. -/
def isGap (c : Char) : Bool := isPadding c || isBreak c

/-- What is left of a text, and where it starts. -/
structure Cursor where
  rest : Text
  index : Nat
  line : Nat
  column : Nat
  deriving Repr, DecidableEq

namespace Cursor

/-- The start of a text. -/
def start (t : Text) : Cursor := ⟨t, 0, 0, 0⟩

/-- The next character. -/
def head? (c : Cursor) : Option Char := c.rest.head?

/-- The `n`-th character from here. -/
def get? (c : Cursor) (n : Nat) : Option Char := c.rest[n]?

/-- Whether the next character is this one. -/
def startsWith (c : Cursor) (k : Char) : Bool := c.head? == some k

/-- Whether the next character is of a class. -/
def on (c : Cursor) (p : Char → Bool) : Bool := (c.head?.map p).getD false

/-- Whether there is a gap or the end of the text at the `n`-th character from here. -/
def gapAt (c : Cursor) (n : Nat) : Bool := ((c.get? n).map isGap).getD true

/-- Whether there is a line break or the end of the text here. -/
def lineEnds (c : Cursor) : Bool := (c.head?.map isBreak).getD true

/-- The place behind the next character of a line. -/
def skip (c : Cursor) : Cursor := ⟨c.rest.tail, c.index + 1, c.line, c.column + 1⟩

/-- The place `n` characters further on the same line. -/
def skipMany (c : Cursor) (n : Nat) : Cursor := ⟨c.rest.drop n, c.index + n, c.line, c.column + n⟩

/-- The longest run of characters of a class, on one line, and the place behind it. -/
def takeWhile (c : Cursor) (p : Char → Bool) : Text × Cursor :=
  let run := c.rest.takeWhile p
  (run, c.skipMany run.length)

/-- The place behind the longest run of characters of a class. -/
def skipWhile (c : Cursor) (p : Char → Bool) : Cursor := (c.takeWhile p).2

/-- The place behind a line break, and the break as it is kept: a line feed, or one of the two
separators of Unicode. -/
def readBreak (c : Cursor) : Text × Cursor :=
  match c.rest with
  | '\r' :: '\n' :: r => (['\n'], ⟨r, c.index + 2, c.line + 1, 0⟩)
  | k :: r =>
    (if k == '\u2028' || k == '\u2029' then [k] else ['\n'], ⟨r, c.index + 1, c.line + 1, 0⟩)
  | [] => ([], c)

/-- The place behind a line break. -/
def skipBreak (c : Cursor) : Cursor := c.readBreak.2

/-- Whether a line starts here with three of a character and a gap. -/
def marks (c : Cursor) (k : Char) : Bool :=
  c.column == 0 && c.rest.take 3 == [k, k, k] && c.gapAt 3

/-- Whether the start or the end of a document is marked here. -/
def marksDocument (c : Cursor) : Bool := c.marks '-' || c.marks '.'

end Cursor

end SchemaInstaller.Yaml
