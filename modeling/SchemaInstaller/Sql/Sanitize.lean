import SchemaInstaller.Text.Substitution

/-!
# Definitions that can travel

A definition read from a server names the account that owns it and carries comments that only some
server versions read. Neither may reach another database. Three sanitizers take such parts out: one
for any definition, one for procedures and triggers, one for views. Each repeats its pass until the
text no longer changes, so nothing is left that a removal has brought together.
-/

namespace SchemaInstaller.Sql

open Scan

/-! ## Versioned comments -/

/-- The text up to the first place where only blanks stand before the end of a comment, and what
follows that end. -/
def splitAtCommentEnd : Text → Option (Text × Text)
  | [] => none
  | c :: r =>
    match literal "*/".toList (Text.skipBlanks (c :: r)) with
    | some rest => some ([], rest)
    | none => (splitAtCommentEnd r).map fun (body, rest) => (c :: body, rest)

/-- A comment that servers from a five-digit version on read as code is replaced by its content. -/
def versionedComment : Rule := fun _ t => do
  let t ← literal "/*!".toList t
  let t ← one isDecimalDigit t
  let t ← one isDecimalDigit t
  let t ← one isDecimalDigit t
  let t ← one isDecimalDigit t
  let t ← one isDecimalDigit t
  splitAtCommentEnd (Text.skipBlanks t)

/-! ## The owner -/

/-- A character of an account name that needs no quotes. -/
def isAccountChar (c : Char) : Bool :=
  c.isAlphanum || "_.$%:-".toList.contains c || sameLetter 's' c || sameLetter 'k' c

/-- The user or the host of an account, quoted in one of three ways or not at all. -/
def accountPart : Scan :=
  orElse (quotedBy '\x60')
    (orElse (quotedBy '\x27') (orElse (quotedBy '\x22') (many1 isAccountChar)))

/-- The current user, with or without parentheses. -/
def currentUser : Scan := fun t => do
  let t ← keyword "CURRENT_USER" t
  return optional (fun t => do
    let t ← literal ['('] (Text.skipBlanks t)
    literal [')'] (Text.skipBlanks t)) t

/-- An account, `user@host`. -/
def account : Scan := fun t => do
  let t ← accountPart t
  let t ← literal ['@'] (Text.skipBlanks t)
  accountPart (Text.skipBlanks t)

/-- The clause that names the owner of a definition, with the blanks behind it. -/
def definerClause (prev : Option Char) : Scan := fun t => do
  guard (wordStart prev)
  let t ← keyword "DEFINER" t
  let t ← literal ['='] (Text.skipBlanks t)
  let t ← orElse currentUser account (Text.skipBlanks t)
  return Text.skipBlanks t

/-- The owner is left out. -/
def dropDefiner : Rule := fun prev t => (definerClause prev t).map ([], ·)

/-! ## Spaces -/

/-- A space or a tab. -/
def isSpace (c : Char) : Bool := c == ' ' || c == '\t'

/-- Two or more spaces and tabs become one space. -/
def collapseSpaces : Rule := fun _ t => do
  let t ← one isSpace t
  let t ← many1 isSpace t
  return ([' '], t)

/-! ## Procedures and triggers -/

/-- The characteristic that a routine runs with its owner's rights is the default and goes. -/
def dropDefinerRights : Rule := fun prev t => do
  guard (wordStart prev)
  let t ← keyword "SQL" t
  let t ← blanks1 t
  let t ← keyword "SECURITY" t
  let t ← blanks1 t
  let t ← keyword "DEFINER" t
  let t ← wordEnd t
  return ([], t.dropWhile isSpace)

/-- The kinds of definition whose header is normalized. -/
def routineKinds : List String := ["PROCEDURE", "FUNCTION", "TRIGGER", "EVENT"]

/-- The header of a routine is written in upper case with one space. -/
def normalizeHeader : Rule := fun prev t => do
  guard (wordStart prev)
  let t ← keyword "CREATE" t
  let t ← blanks1 t
  routineKinds.findSome? fun kind => do
    let t ← keyword kind t
    let t ← wordEnd t
    return (("CREATE " ++ kind).toList, t)

/-- A line that only tells a client how statements end goes, with its line break. -/
def dropDelimiterLine : Rule := fun prev t => do
  guard (prev.isNone || prev == some '\n')
  let t ← keyword "DELIMITER" (t.dropWhile isSpace)
  let t ← many1 isSpace t
  return ([], optional (one (· == '\n')) (t.dropWhile (· != '\n')))

/-! ## Views -/

/-- The words `OR REPLACE` and the blanks behind them. -/
def orReplace : Scan := fun t => do
  let t ← keyword "OR" t
  let t ← blanks1 t
  let t ← keyword "REPLACE" t
  blanks1 t

/-- The choice of an algorithm and the blanks behind it. -/
def algorithmClause : Scan := fun t => do
  let t ← keyword "ALGORITHM" t
  let t ← literal ['='] (Text.skipBlanks t)
  let t ← many1 isWordChar (Text.skipBlanks t)
  blanks1 t

/-- The choice of whose rights count and the blanks behind it. -/
def securityClause : Scan := fun t => do
  let t ← keyword "SQL" t
  let t ← blanks1 t
  let t ← keyword "SECURITY" t
  let t ← blanks1 t
  let t ← orElse (keyword "DEFINER") (keyword "INVOKER") t
  blanks1 t

/-- The header of a view keeps only whether it replaces another. -/
def plainViewHeader : Rule := fun prev t => do
  guard (wordStart prev)
  let t ← keyword "CREATE" t
  let t ← blanks1 t
  let header := if (orReplace t).isSome then "CREATE OR REPLACE VIEW" else "CREATE VIEW"
  let t := optional securityClause (optional algorithmClause (optional orReplace t))
  let t ← keyword "VIEW" t
  let t ← wordEnd t
  return (header.toList, t)

/-! ## The three passes -/

/-- Comments unwrapped, owners removed, spaces collapsed. -/
def definerPass (t : Text) : Text :=
  ((t.substitute versionedComment).substitute dropDefiner |>.substitute collapseSpaces).trim

/-- What a procedure or a trigger needs besides. -/
def routinePass (t : Text) : Text :=
  let t := (t.substitute versionedComment).substitute dropDefiner
  let t := (t.substitute dropDefinerRights).substitute normalizeHeader
  ((t.substitute dropDelimiterLine).substitute collapseSpaces).trim

/-- What a view needs besides. -/
def viewPass (t : Text) : Text := (definerPass t).substitute plainViewHeader

/-- A pass repeated until it changes nothing; a blank text is left as it is. Every pass that
changes the text makes it shorter or turns some of its characters into capitals and spaces, so twice
as many passes as there are characters are enough. -/
def settle (pass : Text → Text) (t : Text) : Text :=
  if t.isBlankOnly then t else Text.iterate pass (2 * t.length + 1) t

/-- Any definition without its owner. -/
def removeDefiner (t : Text) : Text := settle definerPass t

/-- The definition of a procedure or of a trigger, fit to travel. -/
def sanitizeRoutine (t : Text) : Text := settle routinePass t

/-- The definition of a view, fit to travel. -/
def sanitizeView (t : Text) : Text := settle viewPass t

end SchemaInstaller.Sql
