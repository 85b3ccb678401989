import SchemaInstaller.Text.Substitution

/-!
# Headers of routines

Where the name of a procedure stands in its definition, where its parameters start, and whether a
body is already a block.
-/

namespace SchemaInstaller.Sql

open Scan

/-- A character of a name without quotes. -/
def isBareNameChar (c : Char) : Bool := !isBlank c && c != '(' && c != '\x60'

/-- A name between backticks, or without quotes up to a blank, a parenthesis or a backtick. -/
def routineName : Scan := orElse (quotedBy '\x60') (many1 isBareNameChar)

/-- A quoted schema name and the point behind it, with blanks around the point. -/
def routineQualifier : Scan := fun t => do
  let t ← quotedBy '\x60' t
  let t ← literal ['.'] (Text.skipBlanks t)
  return Text.skipBlanks t

/-- The words `CREATE PROCEDURE` and the name behind them, qualified or not. -/
def procedureHeader (prev : Option Char) : Scan := fun t => do
  guard (wordStart prev)
  let t ← keyword "CREATE" t
  let t ← blanks1 t
  let t ← keyword "PROCEDURE" t
  let t ← blanks1 t
  orElse (fun t => routineQualifier t >>= routineName) routineName t

/-- The definition with its first header replaced. -/
def forceHeader (header t : Text) : Text :=
  t.substituteFirst fun prev t => (procedureHeader prev t).map (header, ·)

/-- Whether a body starts with the word `BEGIN`. -/
def startsWithBegin (t : Text) : Bool := ((keyword "BEGIN" (Text.skipBlanks t)).bind wordEnd).isSome

/-! ## The parameter list -/

/-- An opening parenthesis behind blanks. -/
def opening (t : Text) : Option Text := literal ['('] (Text.skipBlanks t)

/-- A point between names, with blanks around it. -/
def point (t : Text) : Option Text := (literal ['.'] (Text.skipBlanks t)).map Text.skipBlanks

/-- A name without quotes that ends in a point, which then separates it from another name. -/
def nameWithPoint (t : Text) : Option Text :=
  let name := t.takeWhile isBareNameChar
  if name.length ≥ 2 && name.getLast? == some '.' then
    some (Text.skipBlanks (t.dropWhile isBareNameChar))
  else none

/-- The opening parenthesis behind a name that may be qualified. The point of the qualifier may
stand between blanks or directly behind the first name; a name without quotes may hold points
itself. -/
def openingBehindName (t : Text) : Option Text :=
  let behind := (routineName t).bind fun t =>
    (((point t).bind routineName).bind opening).or (opening t)
  behind.or (((nameWithPoint t).bind routineName).bind opening)

/-- The word `PROCEDURE`, a name, and the opening parenthesis of its parameters. -/
def procedureOpening (prev : Option Char) : Scan := fun t => do
  guard (wordStart prev)
  let t ← keyword "PROCEDURE" t
  let t ← blanks1 t
  openingBehindName t

/-- What follows the parenthesis that opens the parameter list: the one behind the name of the
procedure, or the first one if there is no such header. -/
def behindOpening (t : Text) : Option Text :=
  match Text.firstMatch (fun prev t => (procedureOpening prev t).map ([], ·)) none t with
  | some (_, _, rest) => some rest
  | none => one (· == '(') (t.dropWhile (· != '('))

end SchemaInstaller.Sql
