import SchemaInstaller.Yaml.Token

/-!
# Documents of YAML

A document is a tree of scalars, sequences and mappings. A node may carry a tag, and an anchor, to
which an alias elsewhere refers. Anchors are numbered by how many different names have been seen
before, and of the anchors with one number the last one counts.
-/

namespace SchemaInstaller.Yaml

/-- A node. -/
inductive Node
  | scalar (style : Style) (tag : Option Text) (text : Text)
  | sequence (tag : Option Text) (items : List Node)
  | mapping (tag : Option Text) (pairs : List (Node × Node))
  | alias (number : Nat)
  deriving Inhabited

/-- A node with an anchor: the number of the anchor, and how many anchors come before it. -/
structure Anchored where
  number : Nat
  order : Nat
  node : Node

/-- A document. -/
structure Document where
  root : Node
  anchored : List Anchored

/-- The node that an alias of a number refers to. -/
def Document.anchoredNode? (d : Document) (number : Nat) : Option Node :=
  let latest := (d.anchored.filter (·.number == number)).foldl (fun best a =>
    match best with
    | some b => if b.order ≤ a.order then some a else some b
    | none => some a) (none : Option Anchored)
  latest.map (·.node)

/-- The node itself, or what it refers to. -/
def Document.resolve (d : Document) (n : Node) : Node :=
  match n with
  | .alias number => (d.anchoredNode? number).getD n
  | n => n

/-- An empty scalar. -/
def Node.empty (tag : Option Text) : Node := .scalar .plain tag []

/-! ## From tokens to documents -/

/-- What handles of tags stand for. -/
abbrev Handles := List (Text × Text)

/-- The handles that every document knows. -/
def standardHandles : Handles := [(['!'], ['!']), (['!', '!'], "tag:yaml.org,2002:".toList)]

/-- A reading: the tokens that are left, the anchors seen by name and number, how many there were,
and those whose nodes are complete. -/
structure Reading where
  tokens : List Token
  numbers : List (Text × Nat)
  seen : Nat
  anchored : List Anchored

namespace Reading

/-- The reading without its first token. -/
def skip (r : Reading) : Reading := { r with tokens := r.tokens.tail }

/-- The next token. -/
def head? (r : Reading) : Option Token := r.tokens.head?

/-- Whether the next token is one of some, or there is none and `atEnd` is set. -/
def on (r : Reading) (ts : List Token) : Bool := (r.head?.map (ts.contains ·)).getD false

/-- The names with one of them numbered anew. -/
def renumber (name : Text) (number : Nat) : List (Text × Nat) → List (Text × Nat)
  | [] => [(name, number)]
  | (n, k) :: r => if n == name then (n, number) :: r else (n, k) :: renumber name number r

/-- An anchor is seen; its number comes first. -/
def see (r : Reading) (name : Text) : Nat × Reading :=
  let number := r.numbers.length
  (number, { r with numbers := renumber name number r.numbers, seen := r.seen + 1 })

/-- An anchor may be seen; its number and its place among all anchors come first. -/
def seeAny (r : Reading) : Option Text → Option (Nat × Nat) × Reading
  | some name =>
    let (number, next) := r.see name
    (some (number, r.seen), next)
  | none => (none, r)

/-- The node of an anchor is complete. -/
def complete (r : Reading) (anchor : Option (Nat × Nat)) (n : Node) : Node × Reading :=
  match anchor with
  | some (number, order) => (n, { r with anchored := ⟨number, order, n⟩ :: r.anchored })
  | none => (n, r)

end Reading

/-- The full text of a tag. -/
def fullTag (handles : Handles) (handle suffix : Text) : Option Text :=
  if handle.isEmpty then some suffix else (handles.lookup handle).map (· ++ suffix)

/-- The anchor and the tag in front of a node, in either order. -/
def properties (handles : Handles) (r : Reading) : Option (Option Text × Option Text × Reading) :=
  match r.tokens with
  | .anchor a :: .tag h s :: _ => (fullTag handles h s).map fun t => (some a, some t, r.skip.skip)
  | .tag h s :: .anchor a :: _ => (fullTag handles h s).map fun t => (some a, some t, r.skip.skip)
  | .anchor a :: _ => some (some a, none, r.skip)
  | .tag h s :: _ => (fullTag handles h s).map fun t => (none, some t, r.skip)
  | _ => some (none, none, r)

mutual

/-- A node. Where `block` is set, it may be a collection written by indentation; where `indentless`
is set, also a sequence whose items stand in the column of the key before it. -/
def node (handles : Handles) : Nat → (block indentless : Bool) → Reading → Option (Node × Reading)
  | 0, _, _, _ => none
  | fuel + 1, block, indentless, r =>
    match r.head? with
    | some (.alias name) => (r.numbers.lookup name).map fun number => (.alias number, r.skip)
    | _ => do
      let (anchor, tag, r) ← properties handles r
      let (number, r) := r.seeAny anchor
      let (n, r) ← content handles fuel block indentless tag (anchor.isSome || tag.isSome) r
      return r.complete number n

/-- A node behind its anchor and tag. It may be missing if there is one of these. -/
def content (handles : Handles) : Nat → (block indentless : Bool) → (tag : Option Text) →
    (mayBeEmpty : Bool) → Reading → Option (Node × Reading)
  | 0, _, _, _, _, _ => none
  | fuel + 1, block, indentless, tag, mayBeEmpty, r =>
    match r.head? with
    | some .blockEntry =>
      if indentless then do
        let (items, r) ← plainItems handles fuel [] r
        return (.sequence tag items, r)
      else if mayBeEmpty then some (.empty tag, r) else none
    | some (.scalar style t) => some (.scalar style tag t, r.skip)
    | some .flowSequenceStart => do
      let (items, r) ← flowItems handles fuel true [] r.skip
      return (.sequence tag items, r)
    | some .flowMappingStart => do
      let (pairs, r) ← flowPairs handles fuel true [] r.skip
      return (.mapping tag pairs, r)
    | some .blockSequenceStart =>
      if block then do
        let (items, r) ← blockItems handles fuel [] r.skip
        return (.sequence tag items, r)
      else if mayBeEmpty then some (.empty tag, r) else none
    | some .blockMappingStart =>
      if block then do
        let (pairs, r) ← blockPairs handles fuel [] r.skip
        return (.mapping tag pairs, r)
      else if mayBeEmpty then some (.empty tag, r) else none
    | _ => if mayBeEmpty then some (.empty tag, r) else none

/-- A node, or an empty scalar in front of one of some tokens. -/
def nodeUnless (handles : Handles) : Nat → (block indentless : Bool) → List Token → Reading →
    Option (Node × Reading)
  | 0, _, _, _, _ => none
  | fuel + 1, block, indentless, stops, r =>
    if r.on stops then some (.empty none, r) else node handles fuel block indentless r

/-- The items of a sequence that is written by indentation. -/
def blockItems (handles : Handles) : Nat → List Node → Reading → Option (List Node × Reading)
  | 0, _, _ => none
  | fuel + 1, items, r =>
    match r.head? with
    | some .blockEntry => do
      let (n, r) ← nodeUnless handles fuel true false [.blockEntry, .blockEnd] r.skip
      blockItems handles fuel (n :: items) r
    | some .blockEnd => some (items.reverse, r.skip)
    | _ => none

/-- The items of a sequence in the column of a key. -/
def plainItems (handles : Handles) : Nat → List Node → Reading → Option (List Node × Reading)
  | 0, _, _ => none
  | fuel + 1, items, r =>
    match r.head? with
    | some .blockEntry => do
      let (n, r) ← nodeUnless handles fuel true false [.blockEntry, .key, .value, .blockEnd] r.skip
      plainItems handles fuel (n :: items) r
    | _ => some (items.reverse, r)

/-- The pairs of a mapping that is written by indentation. -/
def blockPairs (handles : Handles) : Nat → List (Node × Node) → Reading →
    Option (List (Node × Node) × Reading)
  | 0, _, _ => none
  | fuel + 1, pairs, r =>
    match r.head? with
    | some .key => do
      let (k, r) ← nodeUnless handles fuel true true [.key, .value, .blockEnd] r.skip
      let (v, r) ←
        if r.on [.value] then
          nodeUnless handles fuel true true [.key, .value, .blockEnd] r.skip
        else some (.empty none, r)
      blockPairs handles fuel ((k, v) :: pairs) r
    | some .blockEnd => some (pairs.reverse, r.skip)
    | _ => none

/-- The items of a sequence in brackets. An item may be a single pair. -/
def flowItems (handles : Handles) : Nat → (first : Bool) → List Node → Reading →
    Option (List Node × Reading)
  | 0, _, _, _ => none
  | fuel + 1, first, items, r =>
    if r.on [.flowSequenceEnd] then some (items.reverse, r.skip)
    else if !first && !r.on [.flowEntry] then none
    else
      let r := if first then r else r.skip
      match r.head? with
      | some .key => do
        let (n, r) ← singlePair handles fuel r.skip
        flowItems handles fuel false (n :: items) r
      | some .flowSequenceEnd => some (items.reverse, r.skip)
      | _ => do
        let (n, r) ← node handles fuel false false r
        flowItems handles fuel false (n :: items) r

/-- A pair that is an item of a sequence in brackets. A key that is missing takes the token behind
it along. -/
def singlePair (handles : Handles) : Nat → Reading → Option (Node × Reading)
  | 0, _ => none
  | fuel + 1, r => do
    let (k, r) ←
      if r.on [.value, .flowEntry, .flowSequenceEnd] then some (.empty none, r.skip)
      else node handles fuel false false r
    let (v, r) ←
      if r.on [.value] then
        nodeUnless handles fuel false false [.flowEntry, .flowSequenceEnd] r.skip
      else some (.empty none, r)
    return (.mapping none [(k, v)], r)

/-- The pairs of a mapping in braces. A node on its own is a key without a value. -/
def flowPairs (handles : Handles) : Nat → (first : Bool) → List (Node × Node) → Reading →
    Option (List (Node × Node) × Reading)
  | 0, _, _, _ => none
  | fuel + 1, first, pairs, r =>
    if r.on [.flowMappingEnd] then some (pairs.reverse, r.skip)
    else if !first && !r.on [.flowEntry] then none
    else
      let r := if first then r else r.skip
      match r.head? with
      | some .key => do
        let (k, r) ←
          nodeUnless handles fuel false false [.value, .flowEntry, .flowMappingEnd] r.skip
        let (v, r) ←
          if r.on [.value] then
            nodeUnless handles fuel false false [.flowEntry, .flowMappingEnd] r.skip
          else some (.empty none, r)
        flowPairs handles fuel false ((k, v) :: pairs) r
      | some .flowMappingEnd => some (pairs.reverse, r.skip)
      | _ => do
        let (k, r) ← node handles fuel false false r
        flowPairs handles fuel false ((k, .empty none) :: pairs) r

end

/-! ## Streams -/

/-- The directives before a document: at most one version, which must be known, and no handle twice.
Gives the handles, whether there was any directive, and what is left. -/
def directives (versionSeen : Bool) (own : Handles) :
    List Token → Option (Handles × Bool × List Token)
  | .version major minor :: r =>
    if versionSeen || major != 1 || (minor != 1 && minor != 2) then none
    else directives true own r
  | .tagDirective handle stem :: r =>
    if (own.lookup handle).isSome then none else directives versionSeen ((handle, stem) :: own) r
  | ts => some (own, versionSeen || !own.isEmpty, ts)

/-- The root of a document and what is left behind it. -/
def rootNode (handles : Handles) (explicit : Bool) (ts : List Token) :
    Option (Document × List Token) :=
  let r : Reading := ⟨ts, [], 0, []⟩
  let ends := match ts with
    | [] => true
    | .version _ _ :: _ => true
    | .tagDirective _ _ :: _ => true
    | .documentStart :: _ => true
    | .documentEnd :: _ => true
    | _ => false
  if explicit && ends then some (⟨.empty none, []⟩, ts)
  else (node handles (4 * ts.length + 4) true false r).map fun (n, r) => (⟨n, r.anchored⟩, r.tokens)

/-- The only document of a stream, if there is one. A stream with two documents is refused. -/
def onlyDocument (ts : List Token) : Option (Option Document) :=
  if ts.isEmpty then some none
  else do
    let (own, any, ts) ← directives false [] ts
    let explicit := ts.head? == some .documentStart
    if any && !explicit then none
    let (d, rest) ← rootNode (own ++ standardHandles) explicit (if explicit then ts.tail else ts)
    if (rest.dropWhile (· == .documentEnd)).isEmpty then return some d else none

/-- The only document of a text, if there is one. -/
def read (t : Text) : Option (Option Document) := (tokens t).bind onlyDocument

end SchemaInstaller.Yaml
