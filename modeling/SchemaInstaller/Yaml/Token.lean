import SchemaInstaller.Yaml.Scalar

/-!
# Tokens

A YAML text is a sequence of tokens. Collections that are written by indentation get tokens for
their start and end, and a key that is only known as one by the colon behind it gets its token in
front of what has already been read.
-/

namespace SchemaInstaller.Yaml

/-- A token. -/
inductive Token
  | version (major minor : Nat)
  | tagDirective (handle stem : Text)
  | documentStart
  | documentEnd
  | blockSequenceStart
  | blockMappingStart
  | blockEnd
  | flowSequenceStart
  | flowSequenceEnd
  | flowMappingStart
  | flowMappingEnd
  | blockEntry
  | flowEntry
  | key
  | value
  | alias (name : Text)
  | anchor (name : Text)
  | tag (handle suffix : Text)
  | scalar (style : Style) (text : Text)
  deriving Repr, DecidableEq

/-! ## Tags, anchors and directives -/

/-- The handle of a tag: exclamation marks around a name, or a single one. In a directive the second
mark must come unless the handle is a single mark. -/
def tagHandle (directive : Bool) (c : Cursor) : Option (Text × Cursor) :=
  if !c.startsWith '!' then none
  else
    let (name, behind) := c.skip.takeWhile isNameChar
    if behind.startsWith '!' then some ('!' :: name ++ ['!'], behind.skip)
    else if directive && !name.isEmpty then none
    else some ('!' :: name, behind)

/-- A character of a tag. -/
def isTagChar (verbatim : Bool) (c : Char) : Bool :=
  isNameChar c || ";/?:@&=+$.!~*'()%".toList.contains c || (verbatim && ",[]".toList.contains c)

/-- The octet of an escape in a tag. -/
def tagOctet (c : Cursor) : Option (Nat × Cursor) := do
  if !c.startsWith '%' then none
  let n ← hexNumber? 2 c.rest.tail
  return (n, c.skipMany 3)

/-- The further octets of a character. -/
def moreOctets : Nat → Nat → Cursor → Option (Nat × Cursor)
  | 0, n, c => some (n, c)
  | count + 1, n, c => do
    let (octet, c) ← tagOctet c
    if octet / 64 != 2 then none
    moreOctets count (64 * n + octet % 64) c

/-- A character of a tag that is written as its octets. -/
def tagEscape (c : Cursor) : Option (Char × Cursor) := do
  let (octet, c) ← tagOctet c
  let (n, c) ←
    if octet < 0x80 then some (octet, c)
    else if octet / 32 == 6 then moreOctets 1 (octet % 32) c
    else if octet / 16 == 14 then moreOctets 2 (octet % 16) c
    else if octet / 8 == 30 then moreOctets 3 (octet % 8) c
    else none
  return ((charOf? n).getD '\ufffd', c)

/-- The characters of a tag. -/
def tagChars (verbatim : Bool) : Nat → Text → Cursor → Option (Text × Cursor)
  | 0, _, _ => none
  | fuel + 1, done, c =>
    match c.head? with
    | some k =>
      if !isTagChar verbatim k then some (done.reverse, c)
      else if k == '%' then (tagEscape c).bind fun (k, c) => tagChars verbatim fuel (k :: done) c
      else tagChars verbatim fuel (k :: done) c.skip
    | none => some (done.reverse, c)

/-- The characters of a tag; there must be some. -/
def tagText (verbatim : Bool) (c : Cursor) : Option (Text × Cursor) := do
  let (t, behind) ← tagChars verbatim (c.rest.length + 1) [] c
  if t.isEmpty then none else return (t, behind)

/-- A tag in angle brackets. -/
def verbatimTag (c : Cursor) : Option (Token × Cursor) := do
  let (t, c) ← tagText true (c.skipMany 2)
  if c.startsWith '>' then return (.tag [] t, c.skip) else none

/-- A tag made of a handle and a suffix. The single mark alone is a tag without a handle. -/
def shortTag (c : Cursor) : Option (Token × Cursor) := do
  let (handle, c) ← tagHandle false c
  if handle.length ≥ 2 && handle.getLast? == some '!' then
    let (suffix, c) ← tagText false c
    return (.tag handle suffix, c)
  else
    let (more, c) ← tagChars false (c.rest.length + 1) [] c
    let suffix := handle.tail ++ more
    return (if suffix.isEmpty then .tag [] ['!'] else .tag ['!'] suffix, c)

/-- A tag, which a gap must follow, or inside brackets a comma. -/
def tag (flow : Bool) (c : Cursor) : Option (Token × Cursor) := do
  let (t, c) ← if c.get? 1 == some '<' then verbatimTag c else shortTag c
  if c.gapAt 0 || (flow && c.startsWith ',') then return (t, c) else none

/-- The name behind the mark of an anchor or an alias. -/
def anchorName (c : Cursor) : Option (Text × Cursor) :=
  let (name, c) := c.skip.takeWhile isNameChar
  let ends := c.gapAt 0 || c.on ("?:,]\x7d%@`".toList.contains ·)
  if name.isEmpty || !ends then none else some (name, c)

/-- A number of a version, of at most nine digits. -/
def versionNumber (c : Cursor) : Option (Nat × Cursor) :=
  let (digits, c) := c.takeWhile Char.isDigit
  if digits.isEmpty || digits.length > 9 then none
  else some (digits.foldl (fun n d => 10 * n + (d.toNat - 48)) 0, c)

/-- The version that a directive names. -/
def versionDirective (c : Cursor) : Option (Token × Cursor) := do
  let (major, c) ← versionNumber (c.skipWhile isPadding)
  if !c.startsWith '.' then none
  let (minor, c) ← versionNumber c.skip
  return (.version major minor, c)

/-- The handle that a directive introduces, and what it stands for. -/
def handleDirective (c : Cursor) : Option (Token × Cursor) := do
  let (handle, c) ← tagHandle true (c.skipWhile isPadding)
  if !c.on isPadding then none
  let (stem, c) ← tagText true (c.skipWhile isPadding)
  if c.gapAt 0 then return (.tagDirective handle stem, c) else none

/-- A directive. -/
def directive (c : Cursor) : Option (Token × Cursor) := do
  let (name, c) := c.skip.takeWhile isNameChar
  if name.isEmpty || !c.gapAt 0 then none
  let (t, c) ←
    if name == "YAML".toList then versionDirective c
    else if name == "TAG".toList then handleDirective c
    else none
  return (t, ← endOfLine c)

/-! ## The scanner -/

/-- A place where a key may have started: where its token belongs, and whether it must be one. -/
structure PossibleKey where
  token : Nat
  required : Bool
  place : Cursor

/-- The state of a scan: the tokens so far, the indentation of the open collections, for each open
bracket and for what is outside of all a key that may have started, and whether one may start
here. -/
structure Scanner where
  cursor : Cursor
  tokens : Array Token
  indent : Int
  outer : List Int
  key : Option PossibleKey
  outerKeys : List (Option PossibleKey)
  keyAllowed : Bool

namespace Scanner

/-- The start of a scan. A byte order mark takes up a column. -/
def start (t : Text) : Scanner :=
  let c := Cursor.start t
  ⟨if c.startsWith '\ufeff' then c.skip else c, #[], -1, [], none, [], true⟩

/-- Whether a bracket is open. -/
def inFlow (s : Scanner) : Bool := !s.outerKeys.isEmpty

/-- The column of the next character. -/
def column (s : Scanner) : Int := s.cursor.column

/-- A token added at the end. -/
def push (s : Scanner) (t : Token) : Scanner := { s with tokens := s.tokens.push t }

/-- A token added in front of the `n`-th one. -/
def insert (s : Scanner) (n : Nat) (t : Token) : Scanner :=
  { s with tokens := (s.tokens.toList.insertIdx n t).toArray }

/-- Collections that are indented further than a column end. -/
def closeBlocks (column : Int) : List Int → Scanner → Scanner
  | [], s => s
  | i :: r, s =>
    if s.indent > column then
      closeBlocks column r { s.push .blockEnd with indent := i, outer := r }
    else s

/-- Collections that are indented further than a column end, outside of brackets. -/
def unindent (s : Scanner) (column : Int) : Scanner :=
  if s.inFlow then s else closeBlocks column s.outer s

/-- A collection starts if a column lies further than the indentation; its token goes in front of
the `n`-th one. -/
def indentTo (s : Scanner) (column : Int) (n : Nat) (t : Token) : Scanner :=
  if s.inFlow || s.indent ≥ column then s
  else { s.insert n t with indent := column, outer := s.indent :: s.outer }

/-- The key that may have started is none; that must not be one that is required. -/
def dropKey (s : Scanner) : Option Scanner :=
  match s.key with
  | some k => if k.required then none else some { s with key := none }
  | none => some s

/-- A key ends at a line break, and it is not longer than 1024 characters. -/
def isStale (c : Cursor) (k : PossibleKey) : Bool :=
  k.place.line < c.line || k.place.index + 1024 < c.index

/-- A key without those that can no longer be one. -/
def freshKey (c : Cursor) : Option PossibleKey → Option (Option PossibleKey)
  | some k => if isStale c k then if k.required then none else some none else some (some k)
  | none => some none

/-- The scan without the keys that can no longer be one. -/
def dropStaleKeys (s : Scanner) : Option Scanner := do
  let outerKeys ← s.outerKeys.mapM (freshKey s.cursor)
  return { s with key := ← freshKey s.cursor s.key, outerKeys }

/-- A key may start here. -/
def saveKey (s : Scanner) : Option Scanner := do
  if !s.keyAllowed then return s
  let required := !s.inFlow && s.indent == s.column
  let s ← s.dropKey
  return { s with key := some ⟨s.tokens.size, required, s.cursor⟩ }

/-- A token of `n` characters. -/
def mark (s : Scanner) (n : Nat) (t : Token) : Scanner :=
  { s.push t with cursor := s.cursor.skipMany n }

/-- Gaps and comments before a token. Outside of brackets a tab must not stand where a key may
start, and a line break lets one start. -/
def skipGaps : Nat → Scanner → Scanner
  | 0, s => s
  | fuel + 1, s =>
    let tabs := s.inFlow || !s.keyAllowed
    let c := s.cursor.skipWhile fun k => k == ' ' || (tabs && k == '\t')
    let c := if c.startsWith '#' then c.skipWhile (!isBreak ·) else c
    if c.on isBreak then
      skipGaps fuel { s with cursor := c.skipBreak, keyAllowed := s.keyAllowed || !s.inFlow }
    else { s with cursor := c }

/-- A directive, or a mark of a document: everything that is open ends. -/
def betweenDocuments (s : Scanner) : Option Scanner := do
  return { ← (s.unindent (-1)).dropKey with keyAllowed := false }

/-- A bracket opens. -/
def openFlow (s : Scanner) (t : Token) : Option Scanner := do
  let s ← s.saveKey
  return { s.mark 1 t with key := none, outerKeys := s.key :: s.outerKeys, keyAllowed := true }

/-- A bracket closes. -/
def closeFlow (s : Scanner) (t : Token) : Option Scanner := do
  let s ← s.dropKey
  let s := match s.outerKeys with
    | k :: r => { s with key := k, outerKeys := r }
    | [] => s
  return { s.mark 1 t with keyAllowed := false }

/-- The comma between members in brackets. -/
def flowEntry (s : Scanner) : Option Scanner := do
  return { (← s.dropKey).mark 1 .flowEntry with keyAllowed := true }

/-- A collection starts here if the column lies further than the indentation; here must be a place
where a key may start. -/
def enterBlock (s : Scanner) (t : Token) : Option Scanner :=
  if s.inFlow then some s
  else if s.keyAllowed then some (s.indentTo s.column s.tokens.size t)
  else none

/-- The hyphen before an item. -/
def blockEntry (s : Scanner) : Option Scanner := do
  let s ← (← s.enterBlock .blockSequenceStart).dropKey
  return { s.mark 1 .blockEntry with keyAllowed := true }

/-- The question mark before a key. -/
def explicitKey (s : Scanner) : Option Scanner := do
  let s ← (← s.enterBlock .blockMappingStart).dropKey
  return { s.mark 1 .key with keyAllowed := !s.inFlow }

/-- The colon before a value. If a key may have started, it did. -/
def value (s : Scanner) : Option Scanner :=
  match s.key with
  | some k =>
    let s := (s.insert k.token .key).indentTo k.place.column k.token .blockMappingStart
    some { s.mark 1 .value with key := none, keyAllowed := false }
  | none => do
    let s ← s.enterBlock .blockMappingStart
    return { s.mark 1 .value with keyAllowed := !s.inFlow }

/-- A token that a key may start with, and the place behind it. -/
def keyPart (s : Scanner) (read : Cursor → Option (Token × Cursor)) : Option Scanner := do
  let s ← s.saveKey
  let (t, c) ← read s.cursor
  return { s.push t with cursor := c, keyAllowed := false }

/-- A block scalar. -/
def blockScalar (s : Scanner) (style : Style) : Option Scanner := do
  let s ← s.dropKey
  let (t, c) ← block (style == .folded) s.indent s.cursor
  return { s.push (.scalar style t) with cursor := c, keyAllowed := true }

/-- A plain scalar. A key may start behind it if a line break does. -/
def plainScalar (s : Scanner) : Option Scanner := do
  let s ← s.saveKey
  let (t, broken, c) ← plain s.inFlow (s.indent + 1).toNat s.cursor
  return { s.push (.scalar .plain t) with cursor := c, keyAllowed := broken }

/-- Whether a plain scalar starts here. -/
def startsPlain (s : Scanner) (k : Char) : Bool :=
  !(isGap k || "-?:,[]\x7b\x7d#&*!|>'\x22%@`".toList.contains k)
    || (k == '-' && !((s.cursor.get? 1).map isPadding).getD false)
    || (!s.inFlow && (k == '?' || k == ':') && !s.cursor.gapAt 1)

/-- The next token of a scan, from its first character on. -/
def next (s : Scanner) (k : Char) : Option Scanner :=
  let c := s.cursor
  let indicates := s.inFlow || c.gapAt 1
  if c.column == 0 && k == '%' then do
    let s ← s.betweenDocuments
    let (t, c) ← directive s.cursor
    return { s.push t with cursor := c }
  else if c.marks '-' then do return (← s.betweenDocuments).mark 3 .documentStart
  else if c.marks '.' then do return (← s.betweenDocuments).mark 3 .documentEnd
  else if k == '[' then s.openFlow .flowSequenceStart
  else if k == '\x7b' then s.openFlow .flowMappingStart
  else if k == ']' then s.closeFlow .flowSequenceEnd
  else if k == '\x7d' then s.closeFlow .flowMappingEnd
  else if k == ',' then s.flowEntry
  else if k == '-' && c.gapAt 1 then s.blockEntry
  else if k == '?' && indicates then s.explicitKey
  else if k == ':' && indicates then s.value
  else if k == '*' then s.keyPart fun c => (anchorName c).map fun (n, c) => (.alias n, c)
  else if k == '&' then s.keyPart fun c => (anchorName c).map fun (n, c) => (.anchor n, c)
  else if k == '!' then s.keyPart (tag s.inFlow)
  else if k == '|' && !s.inFlow then s.blockScalar .literal
  else if k == '>' && !s.inFlow then s.blockScalar .folded
  else if k == '\x27' then
    s.keyPart fun c => (quoted k c).map fun (t, c) => (.scalar .singleQuoted t, c)
  else if k == '\x22' then
    s.keyPart fun c => (quoted k c).map fun (t, c) => (.scalar .doubleQuoted t, c)
  else if s.startsPlain k then s.plainScalar
  else none

/-- The tokens of what is left, taking at most `fuel` of them. -/
def run : Nat → Scanner → Option (Array Token)
  | 0, _ => none
  | fuel + 1, s => do
    let s ← (skipGaps (s.cursor.rest.length + 1) s).dropStaleKeys
    let s := s.unindent s.column
    match s.cursor.head? with
    | some k => run fuel (← s.next k)
    | none => return (← (s.unindent (-1)).dropKey).tokens

end Scanner

/-- The tokens of a text. -/
def tokens (t : Text) : Option (List Token) :=
  if t.all isAllowed then (Scanner.run (t.length + 2) (Scanner.start t)).map Array.toList else none

end SchemaInstaller.Yaml
