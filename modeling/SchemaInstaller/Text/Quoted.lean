import SchemaInstaller.Text.Classes

/-!
# Quoted names in messages

A name that appears in a message is put between double quotes, with everything that would hide or
end it spelled out.
-/

namespace SchemaInstaller.Text

/-- Lower-case hexadecimal digits without leading zeros. -/
def hexDigits (n : Nat) : Text := Nat.toDigits 16 n

/-- The spelling of one character between double quotes. -/
def spell (c : Char) : Text :=
  if c == '\x00' then ['\\', '0']
  else if c == '\t' then ['\\', 't']
  else if c == '\r' then ['\\', 'r']
  else if c == '\n' then ['\\', 'n']
  else if c == '\\' then ['\\', '\\']
  else if c == '\x22' then ['\\', '\x22']
  else if isExtending c || isHidden c then
    ['\\', 'u', '\x7b'] ++ hexDigits c.toNat ++ ['\x7d']
  else [c]

/-- A text between double quotes, as messages show it. -/
def quoted (t : Text) : Text := '\x22' :: t.flatMap spell ++ ['\x22']

end SchemaInstaller.Text

namespace SchemaInstaller

/-- A name between double quotes, as messages show it. -/
def quoteName (s : String) : String := String.ofList (Text.quoted s.toList)

end SchemaInstaller
