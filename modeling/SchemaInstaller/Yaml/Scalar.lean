import SchemaInstaller.Yaml.Cursor

/-!
# Scalars

The five spellings of a scalar and the text that each stands for. Where a scalar goes on over lines,
a single line break becomes a space and further breaks are kept; a literal block keeps all.
-/

namespace SchemaInstaller.Yaml

/-- How a scalar is spelled. -/
inductive Style
  | plain
  | singleQuoted
  | doubleQuoted
  | literal
  | folded
  deriving Repr, DecidableEq

/-! ## Gaps inside a scalar -/

/-- What has been seen since the last character that is no gap: padding, or, behind a line break,
that break and further ones. -/
structure Gap where
  padding : Text
  broken : Bool
  firstBreak : Text
  moreBreaks : Text

namespace Gap

/-- Nothing. -/
def none : Gap := ⟨[], false, [], []⟩

/-- What a gap contributes to a scalar that goes on behind it. -/
def text (g : Gap) : Text :=
  if !g.broken then g.padding
  else if g.firstBreak != ['\n'] then g.firstBreak ++ g.moreBreaks
  else if g.moreBreaks.isEmpty then [' ']
  else g.moreBreaks

/-- The gap with one more line break, and the place behind that. -/
def addBreak (g : Gap) (c : Cursor) : Gap × Cursor :=
  let (b, next) := c.readBreak
  (if g.broken then { g with moreBreaks := g.moreBreaks ++ b }
    else ⟨[], true, b, g.moreBreaks⟩, next)

/-- All padding and line breaks from here on. No tab may stand before column `indent` of a line that
a break has led to. -/
def read (indent : Nat) : Nat → Gap → Cursor → Option (Gap × Cursor)
  | 0, _, _ => Option.none
  | fuel + 1, g, c =>
    match c.head? with
    | some k =>
      if isPadding k then
        if g.broken then
          if k == '\t' && c.column < indent then Option.none else read indent fuel g c.skip
        else read indent fuel { g with padding := g.padding ++ [k] } c.skip
      else if isBreak k then
        let (g, c) := g.addBreak c
        read indent fuel g c
      else some (g, c)
    | Option.none => some (g, c)

end Gap

/-! ## Plain scalars -/

/-- A bracket or comma that separates the members of a collection in brackets. -/
def isFlowMark (c : Char) : Bool := ",[]\x7b\x7d".toList.contains c

/-- The part of a plain scalar up to a gap or an indicator. Inside brackets a colon must not stand
before another indicator. -/
def plainPart (flow : Bool) : Nat → Text → Cursor → Option (Text × Cursor)
  | 0, _, _ => none
  | fuel + 1, part, c =>
    match c.head? with
    | none => some (part.reverse, c)
    | some k =>
      if isGap k then some (part.reverse, c)
      else if flow && k == ':' && ((c.get? 1).map fun n => isFlowMark n || n == '?').getD false then
        none
      else if k == ':' && c.gapAt 1 then some (part.reverse, c)
      else if flow && isFlowMark k then some (part.reverse, c)
      else plainPart flow fuel (k :: part) c.skip

/-- A plain scalar from a place inside it: its text, whether a line break stands behind it, and the
place behind it. Behind a line break it goes on only from column `indent` on. -/
def plainFrom (flow : Bool) (indent : Nat) :
    Nat → Gap → Text → Cursor → Option (Text × Bool × Cursor)
  | 0, _, _, _ => none
  | fuel + 1, gap, done, c => do
    if c.marksDocument || c.startsWith '#' then return (done, gap.broken, c)
    let (part, behind) ← plainPart flow (c.rest.length + 1) [] c
    let (done, gap) := if part.isEmpty then (done, gap) else (done ++ gap.text ++ part, Gap.none)
    if !behind.on isGap then return (done, gap.broken, behind)
    let (gap, next) ← gap.read indent (behind.rest.length + 1) behind
    if !flow && next.column < indent then return (done, gap.broken, next)
    plainFrom flow indent fuel gap done next

/-- A plain scalar. -/
def plain (flow : Bool) (indent : Nat) (c : Cursor) : Option (Text × Bool × Cursor) :=
  plainFrom flow indent (c.rest.length + 1) Gap.none [] c

/-! ## Quoted scalars -/

/-- A hexadecimal digit. -/
def hexDigit? (c : Char) : Option Nat :=
  if c.isDigit then some (c.toNat - 48)
  else if 'a' ≤ c && c ≤ 'f' then some (c.toNat - 87)
  else if 'A' ≤ c && c ≤ 'F' then some (c.toNat - 55)
  else none

/-- The number that `n` hexadecimal digits stand for. -/
def hexNumber? (n : Nat) (t : Text) : Option Nat :=
  let digits := t.take n
  if digits.length < n then none
  else digits.foldlM (fun a d => (hexDigit? d).map (16 * a + ·)) 0

/-- The character of a number, if there is one. -/
def charOf? (n : Nat) : Option Char :=
  if n < 0xD800 || (0xDFFF < n && n ≤ 0x10FFFF) then some (Char.ofNat n) else none

/-- The character that one letter behind a backslash stands for. -/
def escaped? (c : Char) : Option Char :=
  match c with
  | '0' => some '\x00'
  | 'a' => some '\x07'
  | 'b' => some '\x08'
  | 't' => some '\t'
  | '\t' => some '\t'
  | 'n' => some '\n'
  | 'v' => some '\x0b'
  | 'f' => some '\x0c'
  | 'r' => some '\r'
  | 'e' => some '\x1b'
  | ' ' => some ' '
  | '\x22' => some '\x22'
  | '/' => some '/'
  | '\\' => some '\\'
  | 'N' => some '\u0085'
  | '_' => some '\u00a0'
  | 'L' => some '\u2028'
  | 'P' => some '\u2029'
  | _ => none

/-- The number of hexadecimal digits behind a letter. -/
def escapeWidth? (c : Char) : Option Nat :=
  match c with
  | 'x' => some 2
  | 'u' => some 4
  | 'U' => some 8
  | _ => none

/-- The character that an escape stands for, from behind its backslash. -/
def escape (c : Cursor) : Option (Char × Cursor) := do
  let k ← c.head?
  match escapeWidth? k with
  | some n =>
    let code ← hexNumber? n c.rest.tail
    return (← charOf? code, c.skipMany (n + 1))
  | none => return (← escaped? k, c.skip)

/-- The part of a quoted scalar up to a gap or its closing quote. An escaped line break ends it as
well; the flag says so. -/
def quotedPart (quote : Char) : Nat → Text → Cursor → Option (Text × Bool × Cursor)
  | 0, _, _ => none
  | fuel + 1, part, c =>
    match c.head? with
    | none => some (part.reverse, false, c)
    | some k =>
      if isGap k then some (part.reverse, false, c)
      else if quote == '\x27' && k == quote && c.get? 1 == some quote then
        quotedPart quote fuel (quote :: part) (c.skipMany 2)
      else if k == quote then some (part.reverse, false, c)
      else if quote == '\x22' && k == '\\' then
        if c.skip.on isBreak then some (part.reverse, true, c.skip.skipBreak)
        else (escape c.skip).bind fun (k, c) => quotedPart quote fuel (k :: part) c
      else quotedPart quote fuel (k :: part) c.skip

/-- A quoted scalar from a place inside it. -/
def quotedFrom (quote : Char) : Nat → Text → Cursor → Option (Text × Cursor)
  | 0, _, _ => none
  | fuel + 1, done, c => do
    if c.marksDocument || c.rest.isEmpty then none
    let (part, broken, c) ← quotedPart quote (c.rest.length + 1) [] c
    if c.startsWith quote then return (done ++ part, c.skip)
    let (gap, c) ← ({ Gap.none with broken } : Gap).read 0 (c.rest.length + 1) c
    quotedFrom quote fuel (done ++ part ++ gap.text) c

/-- A scalar between quotes, from its opening quote on. -/
def quoted (quote : Char) (c : Cursor) : Option (Text × Cursor) :=
  quotedFrom quote (c.rest.length + 1) [] c.skip

/-! ## Block scalars -/

/-- What becomes of the line breaks at the end of a block. -/
inductive Chomping
  | strip
  | clip
  | keep
  deriving Repr, DecidableEq

/-- A sign that says how to chomp. -/
def chomping? (c : Cursor) : Option Chomping :=
  if c.startsWith '+' then some .keep else if c.startsWith '-' then some .strip else none

/-- A digit that says how far a block is indented, if there is one; it must not be zero. -/
def increment? (c : Cursor) : Option (Option Nat) :=
  match c.head? with
  | some k => if k == '0' then none else if k.isDigit then some (some (k.toNat - 48)) else some none
  | none => some none

/-- Chomping and indentation behind the mark of a block, in either order. -/
def blockHeader (c : Cursor) : Option (Chomping × Option Nat × Cursor) :=
  match chomping? c with
  | some chomp => do
    let n ← increment? c.skip
    return (chomp, n, if n.isSome then c.skip.skip else c.skip)
  | none => do
    let n ← increment? c
    if n.isNone then return (.clip, none, c)
    let chomp := chomping? c.skip
    return (chomp.getD .clip, n, if chomp.isSome then c.skip.skip else c.skip)

/-- The rest of a line, which may hold nothing but padding and a comment, and its line break. -/
def endOfLine (c : Cursor) : Option Cursor :=
  let c := c.skipWhile isPadding
  let c := if c.startsWith '#' then c.skipWhile (!isBreak ·) else c
  if c.lineEnds then some c.skipBreak else none

/-- The blank lines before a line of a block, and the start of that line. As long as the indentation
is not known, the widest of these lines is looked for. -/
def blankLines (indent : Option Nat) :
    Nat → (widest : Nat) → Text → Cursor → Option (Nat × Text × Cursor)
  | 0, _, _, _ => none
  | fuel + 1, widest, breaks, c =>
    let missing := match indent with
      | some n => n - c.column
      | none => c.rest.length
    let spaces := ((c.rest.take missing).takeWhile (· == ' ')).length
    let c := c.skipMany spaces
    let widest := max widest c.column
    let short := (indent.map fun n => decide (c.column < n)).getD true
    if short && c.startsWith '\t' then none
    else if c.on isBreak then
      let (b, c) := c.readBreak
      blankLines indent fuel widest (breaks ++ b) c
    else some (widest, breaks, c)

/-- The lines of a block: its text, the last line break, the blank lines behind it, and the place
behind them. A folded block joins two lines unless one of them starts with padding. -/
def blockLines (folded : Bool) (indent : Nat) :
    Nat → (afterPadding : Bool) → Text → (lastBreak blank : Text) → Cursor →
      Option (Text × Text × Text × Cursor)
  | 0, _, _, _, _, _ => none
  | fuel + 1, afterPadding, done, lastBreak, blank, c =>
    if c.column != indent || c.rest.isEmpty then some (done, lastBreak, blank, c)
    else do
      let padded := c.on isPadding
      let fold := folded && lastBreak == ['\n'] && !afterPadding && !padded
      let joint := if fold then if blank.isEmpty then [' '] else [] else lastBreak
      let (line, c) := c.takeWhile (!isBreak ·)
      let (b, c) := c.readBreak
      let (_, breaks, c) ← blankLines (some indent) (c.rest.length + 1) 0 [] c
      blockLines folded indent fuel padded (done ++ joint ++ blank ++ line) b breaks c

/-- A block scalar from its mark on, inside a collection that is indented to `outer`. -/
def block (folded : Bool) (outer : Int) (c : Cursor) : Option (Text × Cursor) := do
  let (chomp, increment, c) ← blockHeader c.skip
  let c ← endOfLine c
  let given := increment.map fun n => (max outer 0).toNat + n
  let (widest, breaks, c) ← blankLines given (c.rest.length + 1) 0 [] c
  let indent := given.getD (max (max widest (outer + 1).toNat) 1)
  let (done, lastBreak, blank, c) ←
    blockLines folded indent (c.rest.length + 1) false [] [] breaks c
  return (match chomp with
    | .strip => done
    | .clip => done ++ lastBreak
    | .keep => done ++ lastBreak ++ blank, c)

end SchemaInstaller.Yaml
