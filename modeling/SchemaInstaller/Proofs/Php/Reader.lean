import SchemaInstaller.Php.Source
import SchemaInstaller.Php.Name

/-!
# Reading PHP

What a source file says to PHP, character by character: which characters are code, where strings,
heredocs and comments open and close, what text they hold, and which expressions in them PHP
evaluates. The reader takes one character at a time, so that reading two texts one after the other
is reading the second from where the first stopped (`read_append`).

It refuses what generated files have no use for: a closing tag, commands between backticks, numeric
escapes, and expressions of more than names and arrows.
-/

namespace SchemaInstaller.Php

/-! ## What is found -/

/-- What holds text in a source file. -/
inductive Place
  | singleQuoted
  | doubleQuoted
  | heredoc
  | lineComment
  | blockComment
  deriving Repr, DecidableEq

/-- What reading finds: a character of code, a place that opens, a character of its text, an
expression in it that PHP evaluates, and its end. -/
inductive Event
  | code (c : Char)
  | opens (p : Place)
  | text (c : Char)
  | live (expression : Text)
  | closes
  deriving Repr, DecidableEq

/-! ## States -/

/-- What is under way in a text with expressions: nothing, an escape, what may become an expression,
an expression, or the line that may end a heredoc, as far as it has been read and what is left of
the label. -/
inductive Inside
  | plain
  | escape
  | brace
  | dollar
  | variable (source : Text)
  | expression (source : Text)
  | lineStart (held rest : Text)
  deriving Repr, DecidableEq

/-- Where the reader is. A text with expressions has the label of its heredoc, or none between
double quotes. A comment remembers whether its last character may begin what ends it. -/
inductive State
  | tag (rest : Text)
  | code
  | slash
  | question
  | angles (count : Nat)
  | label (name : Text)
  | lineComment (asked : Bool)
  | blockComment (starred : Bool)
  | single (escaped : Bool)
  | inside (label? : Option Text) (i : Inside)
  deriving Repr, DecidableEq

/-- Before a file. -/
def State.start : State := .tag "<?php".toList

/-- A step of the reader: where it is then, and what it has found. -/
abbrev Step := Option (State × List Event)

/-- What is found put behind something found before. -/
def Step.after (found : List Event) (s : Step) : Step := s.map fun r => (r.1, found ++ r.2)

@[simp] theorem Step.after_some (found : List Event) (x : State × List Event) :
    Step.after found (some x) = some (x.1, found ++ x.2) := rfl

@[simp] theorem Step.after_nil (s : Step) : s.after [] = s := by
  cases s <;> rfl

theorem Step.after_after (a b : List Event) (s : Step) :
    (s.after b).after a = s.after (a ++ b) := by
  cases s with
  | none => rfl
  | some x => simp only [after, Option.map_some, List.append_assoc]

/-! ## Steps -/

/-- Line breaks in comments and heredocs. -/
def isLineBreak (c : Char) : Bool := c == '\n' || c == '\r'

/-- A character of code. -/
def codeStep (c : Char) : Step :=
  if c == '\x27' then some (.single false, [.opens .singleQuoted])
  else if c == '\x22' then some (.inside none .plain, [.opens .doubleQuoted])
  else if c == '/' then some (.slash, [])
  else if c == '?' then some (.question, [])
  else if c == '<' then some (.angles 1, [])
  else if c == '#' || c == '\x60' then none
  else some (.code, [.code c])

/-- A character behind the three signs that announce a heredoc. -/
def labelStep (name : Text) (c : Char) : Step :=
  if isNameStart c || (!name.isEmpty && c.isDigit) then some (.label (name ++ [c]), [])
  else if c == '\n' && !name.isEmpty then
    some (.inside (some name) (.lineStart [] name), [.opens .heredoc])
  else none

/-- A character of a comment that the line ends. A closing tag would end it, too. -/
def lineCommentStep (asked : Bool) (c : Char) : Step :=
  if isLineBreak c then some (.code, [.closes, .code c])
  else if asked && c == '>' then none
  else some (.lineComment (c == '?'), [.text c])

/-- A character of a comment between marks; the star of the closing mark counts as text. -/
def blockCommentStep (starred : Bool) (c : Char) : Step :=
  if starred && c == '/' then some (.code, [.closes])
  else some (.blockComment (c == '*'), [.text c])

/-- A character between single quotes. -/
def singleStep (escaped : Bool) (c : Char) : Step :=
  if escaped then
    if c == '\\' || c == '\x27' then some (.single false, [.text c])
    else some (.single false, [.text '\\', .text c])
  else if c == '\\' then some (.single true, [])
  else if c == '\x27' then some (.code, [.closes])
  else some (.single false, [.text c])

/-- A character of a text with expressions when nothing is under way. -/
def plainStep (label? : Option Text) (c : Char) : Step :=
  if c == '\\' then some (.inside label? .escape, [])
  else if c == '\x7b' then some (.inside label? .brace, [])
  else if c == '$' then some (.inside label? .dollar, [])
  else match label? with
    | none => if c == '\x22' then some (.code, [.closes]) else some (.inside none .plain, [.text c])
    | some label =>
      if isLineBreak c then some (.inside (some label) (.lineStart [c] label), [])
      else some (.inside (some label) .plain, [.text c])

/-- The character that a letter behind a backslash stands for. -/
def escaped? (c : Char) : Option Char :=
  if c == 'n' then some '\n'
  else if c == 't' then some '\t'
  else if c == 'r' then some '\r'
  else if c == 'v' then some '\x0b'
  else if c == 'e' then some '\x1b'
  else if c == 'f' then some '\x0c'
  else if c == '\\' || c == '$' then some c
  else none

/-- A character behind a backslash. Where it makes no escape, both stay, and a line break still
begins a line. -/
def escapeStep (label? : Option Text) (c : Char) : Step :=
  match escaped? c with
  | some d => some (.inside label? .plain, [.text d])
  | none =>
    if c == 'x' || c == 'u' || (c.isDigit && c.toNat < '8'.toNat) then none
    else if c == '\x22' && label?.isNone then some (.inside label? .plain, [.text c])
    else if isLineBreak c && label?.isSome then (plainStep label? c).after [.text '\\']
    else some (.inside label? .plain, [.text '\\', .text c])

/-- A character behind the dollar sign and the name of a variable. -/
def variableStep (label? : Option Text) (source : Text) (c : Char) : Step :=
  if isNameChar c then some (.inside label? (.variable (source ++ [c])), [])
  else if c == '[' || c == '-' || c == '?' then none
  else (plainStep label? c).after [.live source]

/-- A character of an expression in braces. -/
def expressionStep (label? : Option Text) (source : Text) (c : Char) : Step :=
  if c == '\x7d' then some (.inside label? .plain, [.live (source ++ [c])])
  else if isNameChar c || c == '-' || c == '>' then
    some (.inside label? (.expression (source ++ [c])), [])
  else none

/-- A character of a line that may end a heredoc. It does if nothing but blanks stand before the
label and no name goes on behind it; a label that is indented would take its blanks off all
lines. -/
def lineStartStep (label held rest : Text) (c : Char) : Step :=
  match rest with
  | [] =>
    if isNameChar c then (plainStep (some label) c).after (held.map .text)
    else if held.any fun c => c == ' ' || c == '\t' then none
    else (codeStep c).after [.closes]
  | d :: r =>
    if c == d then some (.inside (some label) (.lineStart (held ++ [c]) r), [])
    else if rest = label && (c == ' ' || c == '\t') then
      some (.inside (some label) (.lineStart (held ++ [c]) rest), [])
    else (plainStep (some label) c).after (held.map .text)

/-- A character of a text with expressions. -/
def insideStep (label? : Option Text) (i : Inside) (c : Char) : Step :=
  match i with
  | .plain => plainStep label? c
  | .escape => escapeStep label? c
  | .brace =>
    if c == '$' then some (.inside label? (.expression ['\x7b', c]), [])
    else (plainStep label? c).after [.text '\x7b']
  | .dollar =>
    if isNameStart c then some (.inside label? (.variable ['$', c]), [])
    else if c == '\x7b' then none
    else (plainStep label? c).after [.text '$']
  | .variable source => variableStep label? source c
  | .expression source => expressionStep label? source c
  | .lineStart held rest =>
    match label? with
    | some label => lineStartStep label held rest c
    | none => none

/-- A character of a file. -/
def State.step : State → Char → Step
  | tag (d :: r), c => if c == d then some (tag r, [.code c]) else none
  | tag [], c => if c == ' ' || c == '\t' || c == '\n' then some (code, [.code c]) else none
  | code, c => codeStep c
  | slash, c =>
    if c == '/' then some (lineComment false, [.opens .lineComment])
    else if c == '*' then some (blockComment false, [.opens .blockComment])
    else (codeStep c).after [.code '/']
  | question, c => if c == '>' then none else (codeStep c).after [.code '?']
  | angles count, c =>
    if c == '<' then some (if count = 2 then label [] else angles (count + 1), [])
    else (codeStep c).after (List.replicate count (.code '<'))
  | label name, c => labelStep name c
  | lineComment asked, c => lineCommentStep asked c
  | blockComment starred, c => blockCommentStep starred c
  | single escaped, c => singleStep escaped c
  | inside label? i, c => insideStep label? i c

/-! ## Reading -/

/-- A text read from a state. -/
def read : State → Text → Step
  | s, [] => some (s, [])
  | s, c :: r => (s.step c).bind fun x => (read x.1 r).after x.2

@[simp] theorem read_nil (s : State) : read s [] = some (s, []) := rfl

/-- Reading goes on behind a character from the state that it leads to. -/
theorem read_cons_of_step {s s' : State} {c : Char} {es : List Event} (r : Text)
    (h : s.step c = some (s', es)) : read s (c :: r) = (read s' r).after es := by
  rw [read, h]
  rfl

theorem read_append (s : State) (a b : Text) :
    read s (a ++ b) = (read s a).bind fun x => (read x.1 b).after x.2 := by
  induction a generalizing s with
  | nil => simp
  | cons c r ih =>
    rw [List.cons_append, read, read]
    cases hc : s.step c with
    | none => rfl
    | some x =>
      simp only [Option.bind_some, ih]
      cases hr : read x.1 r with
      | none => rfl
      | some y => simp only [Option.bind_some, Step.after_some, Step.after_after]

/-- Reading goes on behind a text from the state that it leads to. -/
theorem read_append_eq_after {s s' : State} {a : Text} {es : List Event} (r : Text)
    (h : read s a = some (s', es)) : read s (a ++ r) = (read s' r).after es := by
  rw [read_append, h]
  rfl

/-- Texts read one after the other. -/
theorem read_append_of_read {s s' s'' : State} {a b : Text} {ea eb : List Event}
    (ha : read s a = some (s', ea)) (hb : read s' b = some (s'', eb)) :
    read s (a ++ b) = some (s'', ea ++ eb) := by
  rw [read_append, ha, Option.bind_some, hb, Step.after_some]

/-- Two states that treat a character alike, up to what is found, treat a text with it alike. -/
theorem read_cons_of_step_eq_after {s s' : State} {c : Char} {es : List Event} (r : Text)
    (h : s.step c = (s'.step c).after es) : read s (c :: r) = (read s' (c :: r)).after es := by
  rw [read, read, h]
  cases s'.step c with
  | none => rfl
  | some x => simp only [Step.after_some, Option.bind_some, Step.after_after]

end SchemaInstaller.Php
