import SchemaInstaller.Sql.Routine
import SchemaInstaller.Manifest.Basic

/-!
# Parameters of a procedure

The parameter list ends at the parenthesis that matches its opening one, and its declarations are
separated by commas outside of all parentheses and quotes. A declaration is a direction, a name and
a type, where the direction may be missing.
-/

namespace SchemaInstaller.Sql

/-- A character that opens and closes quoted text. -/
def isQuote (c : Char) : Bool := c == '\x27' || c == '\x22' || c == '\x60'

/-- The quote that is open behind a character, given the one that is open before it. -/
def quoteBehind (quote : Option Char) (c : Char) : Option Char :=
  match quote with
  | some q => if c == q then none else some q
  | none => if isQuote c then some c else none

/-- The text up to the parenthesis that closes a list, inside `depth` further ones, outside of
quotes. -/
def untilClosing : Nat → Option Char → Text → Option Text
  | _, _, [] => none
  | depth, quote, c :: r =>
    let go (depth : Nat) := (untilClosing depth (quoteBehind quote c) r).map (c :: ·)
    if quote.isSome then go depth
    else if c == '(' then go (depth + 1)
    else if c == ')' then
      match depth with
      | 0 => some []
      | depth + 1 => go depth
    else go depth

/-- The text between the parentheses of the parameter list. -/
def parameterList (definition : Text) : Option Text :=
  (behindOpening definition).bind (untilClosing 0 none)

/-- The pieces between the commas outside of parentheses and quotes. -/
def splitTopLevel : Nat → Option Char → Text → List Text
  | _, _, [] => [[]]
  | depth, quote, c :: r =>
    let go (depth : Nat) :=
      match splitTopLevel depth (quoteBehind quote c) r with
      | [] => [[c]]
      | piece :: pieces => (c :: piece) :: pieces
    if quote.isSome then go depth
    else if c == '(' then go (depth + 1)
    else if c == ')' then go (depth - 1)
    else if c == ',' && depth == 0 then [] :: splitTopLevel depth quote r
    else go depth

/-- A name without the backticks around it. -/
def trimBackticks (t : Text) : Text :=
  ((t.dropWhile (· == '\x60')).reverse.dropWhile (· == '\x60')).reverse

/-- A parameter from its name and the words of its type. -/
def parameterOf (mode : ParameterMode) (name : Text) (type : List Text) : Parameter :=
  ⟨mode, String.ofList (trimBackticks name), String.ofList ([' '].intercalate type)⟩

/-- A declaration. The first word is a direction only if a name and a type follow it. -/
def parameter? (declaration : Text) : Option Parameter :=
  match Text.words declaration with
  | first :: second :: type =>
    match ParameterMode.ofWord? first, type with
    | some mode, _ :: _ => some (parameterOf mode second type)
    | _, _ => some (parameterOf .input first (second :: type))
  | _ => none

/-- The parameters of a procedure. -/
def parameters (definition : Text) : List Parameter :=
  match parameterList definition with
  | some list => (splitTopLevel 0 none list).filterMap parameter?
  | none => []

end SchemaInstaller.Sql
