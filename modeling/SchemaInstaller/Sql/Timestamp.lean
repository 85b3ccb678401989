import SchemaInstaller.Text.Substitution

/-!
# Defaults that mean the current time

Servers report the default "the current time" in several spellings: with or without parentheses, a
precision, quotes.
-/

namespace SchemaInstaller.Sql

open Scan

/-- Parentheses that may hold a precision: its digits and what follows. -/
def precision? (t : Text) : Option (Text × Text) := do
  let t ← literal ['('] t
  let t := Text.skipBlanks t
  let digits := t.takeWhile isDecimalDigit
  let rest ← literal [')'] (Text.skipBlanks (t.dropWhile isDecimalDigit))
  return (digits, rest)

/-- What may follow the words: blanks, a precision, blanks and one quote. Gives the digits of the
precision and what follows. -/
def timestampTail (t : Text) : Text × Text :=
  let t := Text.skipBlanks t
  let (digits, t) := (precision? t).getD ([], t)
  (digits, optional (literal ['\x27']) (Text.skipBlanks t))

/-- The one spelling of the current time. -/
def canonicalTimestamp (digits : Text) : Text :=
  if digits.isEmpty then "CURRENT_TIMESTAMP".toList
  else "CURRENT_TIMESTAMP(".toList ++ digits ++ [')']

/-- Blanks and one quote, each if it is there. -/
def openingQuote (t : Text) : Text :=
  Text.skipBlanks (optional (literal ['\x27']) (Text.skipBlanks t))

/-- A default clause for the current time gets its one spelling. -/
def canonicalDefault : Rule := fun prev t => do
  guard (wordStart prev)
  let t ← keyword "DEFAULT" t
  let t ← keyword "current_timestamp" (openingQuote t)
  let (digits, rest) := timestampTail t
  return ("DEFAULT ".toList ++ canonicalTimestamp digits, rest)

/-- Every default clause for the current time in its one spelling. -/
def normalizeTimestamp (t : Text) : Text := t.substitute canonicalDefault

/-- The words for the current time. -/
def timestampWord : Scan :=
  orElse (keyword "current_timestamp") (orElse (keyword "localtimestamp") (keyword "now"))

/-- The one spelling of a default that means the current time, and nothing for any other default. -/
def currentTimestamp? (t : Text) : Option Text := do
  let t ← timestampWord (openingQuote t)
  let (digits, rest) := timestampTail t
  guard rest.isBlankOnly
  return canonicalTimestamp digits

end SchemaInstaller.Sql
