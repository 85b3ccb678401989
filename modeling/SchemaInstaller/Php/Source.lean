import SchemaInstaller.Sql.TablePrefix

/-!
# Generated PHP

A source file is a list of lines, and a line is made of fragments: fixed code, and text from outside
that is escaped for the place where it stands. In double quotes and in heredocs the expression for
the site's prefix stays live; everything else is made inert.
-/

namespace SchemaInstaller.Php

/-! ## Escaping -/

/-- Each piece between the expressions for the prefix escaped, the expressions kept. -/
def aroundPrefix (escape : Text → Text) (t : Text) : Text :=
  Sql.prefixExpression.intercalate ((Text.splitOn Sql.prefixExpression t).map escape)

/-- A character between double quotes. Carriage returns are dropped. -/
def doubleQuotedChar (c : Char) : Text :=
  if c == '\\' then ['\\', '\\']
  else if c == '\x22' then ['\\', '\x22']
  else if c == '$' then ['\\', '$']
  else if c == '\n' then ['\\', 'n']
  else if c == '\t' then ['\\', 't']
  else if c == '\r' then []
  else [c]

/-- The content of a string between double quotes. -/
def doubleQuoted (t : Text) : Text := aroundPrefix (·.flatMap doubleQuotedChar) t

/-- A character on a line of a heredoc. Line breaks become spaces, so that no line can end the
heredoc. -/
def heredocChar (c : Char) : Text :=
  if c == '\\' then ['\\', '\\']
  else if c == '$' then ['\\', '$']
  else if c == '\n' || c == '\r' then [' ']
  else [c]

/-- A line of a heredoc. -/
def heredoc (t : Text) : Text := aroundPrefix (·.flatMap heredocChar) t

/-- The content of a string between single quotes. -/
def singleQuoted (t : Text) : Text :=
  Text.replaceChar '\x27' ['\\', '\x27'] (Text.replaceChar '\\' ['\\', '\\'] t)

/-- A text on one line of a comment, unable to end the comment or the code. -/
def comment (t : Text) : Text :=
  let line := t.map fun c => if c == '\r' || c == '\n' then ' ' else c
  Text.replace "*/".toList "* /".toList (Text.replace "?>".toList "? >".toList line)

/-! ## Lines -/

/-- A part of a line: fixed code, a name that stands in the code as it is, or an escaped text. -/
inductive Fragment
  | code (text : String)
  | name (text : String)
  | doubleQuoted (text : Text)
  | singleQuoted (text : Text)
  | heredoc (text : Text)
  | comment (text : Text)
  deriving Repr, DecidableEq

/-- The source text of a fragment, quotes included. -/
def Fragment.render : Fragment → Text
  | code s => s.toList
  | name s => s.toList
  | doubleQuoted t => '\x22' :: Php.doubleQuoted t ++ ['\x22']
  | singleQuoted t => '\x27' :: Php.singleQuoted t ++ ['\x27']
  | heredoc t => Php.heredoc t
  | comment t => Php.comment t

/-- A line: its level of indentation and its fragments. -/
structure Line where
  depth : Nat
  fragments : List Fragment
  deriving Repr, DecidableEq

namespace Line

/-- A line without content. -/
def blank : Line := ⟨0, []⟩

/-- A line of fixed code. -/
def code (depth : Nat) (text : String) : Line := ⟨depth, [.code text]⟩

/-- The call that runs a statement. -/
def runSql (depth : Nat) (statement : Text) : Line :=
  ⟨depth, [.code "$this->run_sql( ", .doubleQuoted statement, .code " );"]⟩

/-- The source text of a line with its line break. -/
def render (l : Line) : Text :=
  List.replicate (4 * l.depth) ' ' ++ l.fragments.flatMap Fragment.render ++ ['\n']

end Line

/-- The text of a source file. -/
def render (lines : List Line) : String := String.ofList (lines.flatMap Line.render)

end SchemaInstaller.Php
