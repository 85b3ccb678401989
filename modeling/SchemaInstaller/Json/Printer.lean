import SchemaInstaller.Json.Basic

/-!
# Writing documents

A document is written on one line without spaces, or on many lines with two spaces for each level.
-/

namespace SchemaInstaller.Json

/-- Two lower-case hexadecimal digits. -/
def hexByte (n : Nat) : Text := [Nat.digitChar (n / 16), Nat.digitChar (n % 16)]

/-- A character inside a string. -/
def escapeChar (c : Char) : Text :=
  if c == '\x22' then ['\\', '\x22']
  else if c == '\\' then ['\\', '\\']
  else if c == '\n' then ['\\', 'n']
  else if c == '\r' then ['\\', 'r']
  else if c == '\t' then ['\\', 't']
  else if c == '\x08' then ['\\', 'b']
  else if c == '\x0c' then ['\\', 'f']
  else if c.toNat < 32 then ['\\', 'u', '0', '0'] ++ hexByte c.toNat
  else [c]

/-- A string between double quotes. -/
def quote (s : String) : Text := '\x22' :: s.toList.flatMap escapeChar ++ ['\x22']

/-- How a document is spread over lines: what stands before each member and before the closing
bracket of a bracket at a depth, and what stands behind a colon. -/
structure Layout where
  beforeMember : Nat → Text
  beforeClose : Nat → Text
  afterColon : Text

/-- Everything on one line. -/
def Layout.compact : Layout := ⟨fun _ => [], fun _ => [], []⟩

/-- A line break and the spaces of a level. -/
def newLine (depth : Nat) : Text := '\n' :: List.replicate (2 * depth) ' '

/-- One member a line. -/
def Layout.pretty : Layout := ⟨fun d => newLine (d + 1), newLine, [' ']⟩

mutual

/-- A value at a depth. -/
def write (l : Layout) (depth : Nat) : Json → Text
  | null => "null".toList
  | bool b => if b then "true".toList else "false".toList
  | number n => n.toText
  | string s => quote s
  | array [] => "[]".toList
  | array (v :: r) =>
    '[' :: l.beforeMember depth ++ write l (depth + 1) v ++ writeItems l depth r
      ++ l.beforeClose depth ++ [']']
  | object [] => "\x7b\x7d".toList
  | object (f :: r) =>
    '\x7b' :: l.beforeMember depth ++ writeField l depth f ++ writeFields l depth r
      ++ l.beforeClose depth ++ ['\x7d']

/-- The items behind the first one. -/
def writeItems (l : Layout) (depth : Nat) : List Json → Text
  | [] => []
  | v :: r => ',' :: l.beforeMember depth ++ write l (depth + 1) v ++ writeItems l depth r

/-- A key and its value. -/
def writeField (l : Layout) (depth : Nat) : String × Json → Text
  | (k, v) => quote k ++ ':' :: l.afterColon ++ write l (depth + 1) v

/-- The fields behind the first one. -/
def writeFields (l : Layout) (depth : Nat) : List (String × Json) → Text
  | [] => []
  | f :: r => ',' :: l.beforeMember depth ++ writeField l depth f ++ writeFields l depth r

end

/-- The document on one line. -/
def compact (j : Json) : String := String.ofList (write .compact 0 j)

/-- The document over many lines. -/
def pretty (j : Json) : String := String.ofList (write .pretty 0 j)

end SchemaInstaller.Json
