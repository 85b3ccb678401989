import SchemaInstaller.Text.Scan

/-!
# Substituting every occurrence

A rule looks at a place in a text and may put something else where a pattern stands. Substitution
goes from left to right, tries the rule at every place, and goes on behind what the rule replaced.
-/

namespace SchemaInstaller

/-- What to do at a place, given the character before it and the text from it on: nothing, or the
replacement and what is left behind the replaced part. -/
abbrev Rule := Option Char → Text → Option (Text × Text)

namespace Text

/-- Substitution from a place where the next `skip` characters have already been replaced. -/
def substituteFrom (rule : Rule) : Nat → Option Char → Text → Text
  | _, _, [] => []
  | skip + 1, _, c :: r => substituteFrom rule skip (some c) r
  | 0, prev, c :: r =>
    match rule prev (c :: r) with
    | some (new, rest) => new ++ substituteFrom rule (r.length - rest.length) (some c) r
    | none => c :: substituteFrom rule 0 (some c) r

/-- Every occurrence of the rule's pattern replaced, from left to right. -/
def substitute (rule : Rule) (t : Text) : Text := substituteFrom rule 0 none t

/-- The first place, from left to right, at which a rule applies: what stands before it, the
replacement, and what is left behind it. -/
def firstMatch (rule : Rule) : Option Char → Text → Option (Text × Text × Text)
  | _, [] => none
  | prev, c :: r =>
    match rule prev (c :: r) with
    | some (new, rest) => some ([], new, rest)
    | none => (firstMatch rule (some c) r).map fun (b, m) => (c :: b, m)

/-- The first occurrence of the rule's pattern replaced. -/
def substituteFirst (rule : Rule) (t : Text) : Text :=
  match firstMatch rule none t with
  | some (b, new, rest) => b ++ new ++ rest
  | none => t

/-- The rule that replaces exactly one text by another. -/
def literalRule (old new : Text) : Rule := fun _ t => (Scan.literal old t).map (new, ·)

/-- Every occurrence of `old`, a text that is not empty, replaced by `new`. -/
def replace (old new t : Text) : Text := substitute (literalRule old new) t

/-- Whether a text, not an empty one, occurs in `t`. -/
def holds (sub t : Text) : Bool := (firstMatch (literalRule sub []) none t).isSome

/-- Every occurrence of one character replaced by a text. -/
def replaceChar (c : Char) (new t : Text) : Text := t.flatMap fun d => if d == c then new else [d]

/-- The pieces of a text between the occurrences of `sep`, where the next `skip` characters belong
to an occurrence. -/
def splitFrom (sep : Text) : Nat → Text → Text → List Text
  | _, piece, [] => [piece.reverse]
  | skip + 1, piece, _ :: r => splitFrom sep skip piece r
  | 0, piece, c :: r =>
    if sep.isPrefixOf (c :: r) then piece.reverse :: splitFrom sep (sep.length - 1) [] r
    else splitFrom sep 0 (c :: piece) r

/-- The pieces of a text between the occurrences of `sep`, a text that is not empty. -/
def splitOn (sep t : Text) : List Text := splitFrom sep 0 [] t

/-- A pass repeated until it changes nothing, at most `fuel` times. -/
def iterate (pass : Text → Text) : Nat → Text → Text
  | 0, t => t
  | fuel + 1, t =>
    let next := pass t
    if next = t then t else iterate pass fuel next

end Text

end SchemaInstaller
