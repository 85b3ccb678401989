import SchemaInstaller.Json.Basic

/-!
# Reading documents

The reader stops at the first fault and says where: the line, and the number of bytes of that line
which it has looked at. Nesting is limited. A number that is no 64-bit integer is read in two
roundings: its leading digits that fit 64 bits become a floating-point number, which is then scaled
by a power of ten. Strings, lists and objects are read with a fuel that any number above the length
of the text will do for.
-/

namespace SchemaInstaller.Json

/-! ## Faults -/

/-- What is wrong at the place where the reader stopped. -/
inductive Fault
  | endInList
  | endInObject
  | endInString
  | endInValue
  | expectedColon
  | expectedListCommaOrEnd
  | expectedObjectCommaOrEnd
  | expectedIdent
  | expectedValue
  | invalidEscape
  | invalidNumber
  | numberOutOfRange
  | controlCharacter
  | keyMustBeString
  | loneSurrogate
  | trailingComma
  | trailingCharacters
  | endOfHexEscape
  | tooDeep
  deriving Repr, DecidableEq

/-- The fault in words. -/
def Fault.message : Fault → String
  | endInList => "EOF while parsing a list"
  | endInObject => "EOF while parsing an object"
  | endInString => "EOF while parsing a string"
  | endInValue => "EOF while parsing a value"
  | expectedColon => "expected `:`"
  | expectedListCommaOrEnd => "expected `,` or `]`"
  | expectedObjectCommaOrEnd => "expected `,` or `\x7d`"
  | expectedIdent => "expected ident"
  | expectedValue => "expected value"
  | invalidEscape => "invalid escape"
  | invalidNumber => "invalid number"
  | numberOutOfRange => "number out of range"
  | controlCharacter => "control character (\\u0000-\\u001F) found while parsing a string"
  | keyMustBeString => "key must be a string"
  | loneSurrogate => "lone leading surrogate in hex escape"
  | trailingComma => "trailing comma"
  | trailingCharacters => "trailing characters"
  | endOfHexEscape => "unexpected end of hex escape"
  | tooDeep => "recursion limit exceeded"

/-- A fault with the text that was left and the number of its bytes that had been looked at. -/
structure Stop where
  fault : Fault
  rest : Text
  ahead : Nat

/-- A fault with its line, from one on, and its column in bytes. -/
structure SyntaxError where
  fault : Fault
  line : Nat
  column : Nat
  deriving Repr, DecidableEq

/-- The error in words. -/
def SyntaxError.message (e : SyntaxError) : String :=
  e.fault.message ++ " at line " ++ toString e.line ++ " column " ++ toString e.column

/-- The line and the column behind the first `bytes` bytes of a text. -/
def position (line column : Nat) : Nat → Text → Nat × Nat
  | _, [] => (line, column)
  | bytes, c :: r =>
    if bytes == 0 then (line, column)
    else if c == '\n' then position (line + 1) 0 (bytes - 1) r
    else if bytes ≤ c.utf8Size then (line, column + bytes)
    else position line (column + c.utf8Size) (bytes - c.utf8Size) r

/-- Where in the text a reader stopped. -/
def Stop.locate (s : Stop) (t : Text) : SyntaxError :=
  let (line, column) := position 1 0 (Text.byteLength t - Text.byteLength s.rest + s.ahead) t
  ⟨s.fault, line, column⟩

/-- What a step of the reader gives: a value, and the text that is left behind it. -/
abbrev Parsed (α : Type) := α × Text

/-- A fault at the character the reader is looking at. -/
def stopAt (fault : Fault) (t : Text) : Except Stop α :=
  .error ⟨fault, t, if t.isEmpty then 0 else 1⟩

/-- A fault behind `bytes` more bytes. -/
def stopBehind (fault : Fault) (t : Text) (bytes : Nat) : Except Stop α := .error ⟨fault, t, bytes⟩

/-- The four characters that may stand between the parts of a document. -/
def isSpacing (c : Char) : Bool := c == ' ' || c == '\n' || c == '\t' || c == '\r'

/-- The text without the spacing at its start. -/
def skipSpacing (t : Text) : Text := t.dropWhile isSpacing

/-! ## Numbers -/

/-- The value of `sign · significand · 10 ^ k`: the significand is rounded, then scaled by a power
of ten that is itself rounded. Powers beyond the range of the numbers are applied in two steps. -/
def scaleByTen : Nat → Binary64 → Int → Option Binary64
  | 0, _, _ => none
  | fuel + 1, x, k =>
    match if k.natAbs ≤ 308 then Binary64.ofDecimal false 1 1 k.natAbs else none with
    | some power => if k ≥ 0 then x.mul power else x.div power
    | none =>
      if x.isZero then some x
      else if k ≥ 0 then none
      else (Binary64.ofDecimal false 1 1 308).bind fun power =>
        (x.div power).bind fun y => scaleByTen fuel y (k + 308)

/-- The floating-point number of a significand and a power of ten, read up to `t`. -/
def realNumber (negative : Bool) (significand : Nat) (k : Int) (t : Text) :
    Except Stop (Parsed Number) :=
  match (Binary64.ofNat significand).bind fun x => scaleByTen 4 x k with
  | some x => .ok (.real (if negative then x.neg else x), t)
  | none => stopBehind .numberOutOfRange t 0

/-- Digits appended to a significand as long as it fits 64 bits: the new significand, the number of
digits taken and what is left, which starts with a digit only if that digit did not fit. -/
def takeDigits (significand taken : Nat) : Text → Nat × Nat × Text
  | [] => (significand, taken, [])
  | c :: r =>
    let next := significand * 10 + (c.toNat - 48)
    if c.isDigit && next < 18446744073709551616 then takeDigits next (taken + 1) r
    else (significand, taken, c :: r)

/-- Whether the text starts with a digit. -/
def startsWithDigit (t : Text) : Bool := (t.head?.map Char.isDigit).getD false

/-- The digits of an exponent, up to the range of a 32-bit number. `none` stands for a larger one;
then the digit that exceeded the range has been read. -/
def exponentDigits (e : Nat) : Text → Option Nat × Text
  | [] => (some e, [])
  | c :: r =>
    if c.isDigit then
      let next := e * 10 + (c.toNat - 48)
      if next > 2147483647 then (none, r) else exponentDigits next r
    else (some e, c :: r)

/-- The exponent behind its mark. -/
def exponentPart (negative : Bool) (significand : Nat) (k : Int) (t : Text) :
    Except Stop (Parsed Number) :=
  let (down, t) := match t with
    | '+' :: r => (false, r)
    | '-' :: r => (true, r)
    | _ => (false, t)
  match t with
  | [] => stopBehind .endInValue t 0
  | c :: _ =>
    if !c.isDigit then stopBehind .invalidNumber t 1
    else match exponentDigits 0 t with
      | (some e, rest) => realNumber negative significand (if down then k - e else k + e) rest
      | (none, rest) =>
        if significand != 0 && !down then stopBehind .numberOutOfRange rest 0
        else .ok (.real (.zero negative), rest.dropWhile Char.isDigit)

/-- What may follow the digits: an exponent, or the end of the number. -/
def afterDigits (negative : Bool) (significand : Nat) (k : Int) (t : Text) :
    Except Stop (Parsed Number) :=
  match t with
  | c :: r =>
    if c == 'e' || c == 'E' then exponentPart negative significand k r
    else realNumber negative significand k t
  | [] => realNumber negative significand k t

/-- The digits behind the point. -/
def fractionPart (negative : Bool) (significand : Nat) (k : Int) (t : Text) :
    Except Stop (Parsed Number) :=
  let (significand, taken, rest) := takeDigits significand 0 t
  if startsWithDigit rest then
    afterDigits negative significand (k - taken) (rest.dropWhile Char.isDigit)
  else if taken == 0 then
    if rest.isEmpty then stopAt .endInValue rest else stopAt .invalidNumber rest
  else afterDigits negative significand (k - taken) rest

/-- An integer whose digits have all been read. A minus before zero, and a number beyond the signed
range, make a floating-point number. -/
def wholeNumber (negative : Bool) (significand : Nat) (t : Text) : Except Stop (Parsed Number) :=
  if !negative then
    match Integer.ofInt? significand with
    | some n => .ok (.integer n, t)
    | none => stopBehind .numberOutOfRange t 0
  else if 0 < significand && significand ≤ 9223372036854775808 then
    match Integer.ofInt? (-significand) with
    | some n => .ok (.integer n, t)
    | none => stopBehind .numberOutOfRange t 0
  else realNumber true significand 0 t

/-- What follows the digits before the point. Digits that do not fit count for a power of ten. -/
def afterWhole (negative : Bool) (significand : Nat) (t : Text) : Except Stop (Parsed Number) :=
  let more := (t.takeWhile Char.isDigit).length
  match t.dropWhile Char.isDigit with
  | '.' :: r => fractionPart negative significand more r
  | rest =>
    match rest with
    | c :: r =>
      if c == 'e' || c == 'E' then exponentPart negative significand more r
      else if more == 0 then wholeNumber negative significand rest
      else realNumber negative significand more rest
    | [] =>
      if more == 0 then wholeNumber negative significand rest
      else realNumber negative significand more rest

/-- A number behind its sign. -/
def readNumber (negative : Bool) (t : Text) : Except Stop (Parsed Number) :=
  match t with
  | [] => stopBehind .endInValue t 0
  | c :: r =>
    if c == '0' then
      if startsWithDigit r then stopAt .invalidNumber r else afterWhole negative 0 r
    else if c.isDigit then
      let (significand, _, rest) := takeDigits 0 0 t
      afterWhole negative significand rest
    else stopBehind .invalidNumber t 1

/-! ## Strings -/

/-- The value of a hexadecimal digit. -/
def hexValue? (c : Char) : Option Nat :=
  if c.isDigit then some (c.toNat - 48)
  else if 'a' ≤ c && c ≤ 'f' then some (c.toNat - 87)
  else if 'A' ≤ c && c ≤ 'F' then some (c.toNat - 55)
  else none

/-- The value of four hexadecimal digits at the start of a text. -/
def hexFour? : Text → Option (Nat × Text)
  | a :: b :: c :: d :: r => do
    let a ← hexValue? a
    let b ← hexValue? b
    let c ← hexValue? c
    let d ← hexValue? d
    return (((a * 16 + b) * 16 + c) * 16 + d, r)
  | _ => none

/-- The four digits of a numeric escape. -/
def hexEscape (t : Text) : Except Stop (Parsed Nat) :=
  match hexFour? t with
  | some r => .ok r
  | none =>
    if Text.byteLength (t.take 4) < 4 then stopBehind .endInString [] 0
    else stopBehind .invalidEscape t 4

/-- One given character, in the middle of a surrogate pair. -/
def pairMark (c : Char) (t : Text) : Except Stop (Parsed Unit) :=
  match t with
  | [] => stopBehind .endInString t 0
  | d :: r => if d == c then .ok ((), r) else stopBehind .endOfHexEscape t 1

/-- A numeric escape, or two of them that name one character together. -/
def numericEscape (t : Text) : Except Stop (Parsed Char) := do
  let (n, t) ← hexEscape t
  if 0xDC00 ≤ n && n ≤ 0xDFFF then stopBehind .loneSurrogate t 0
  else if n < 0xD800 || n > 0xDBFF then return (Char.ofNat n, t)
  else
    let (_, t) ← pairMark '\\' t
    let (_, t) ← pairMark 'u' t
    let (low, t) ← hexEscape t
    if low < 0xDC00 || low > 0xDFFF then stopBehind .loneSurrogate t 0
    else return (Char.ofNat (0x10000 + (n - 0xD800) * 0x400 + (low - 0xDC00)), t)

/-- The character that one letter stands for behind a backslash. -/
def simpleEscape? (c : Char) : Option Char :=
  if c == '\x22' || c == '\\' || c == '/' then some c
  else if c == 'b' then some '\x08'
  else if c == 'f' then some '\x0c'
  else if c == 'n' then some '\n'
  else if c == 'r' then some '\r'
  else if c == 't' then some '\t'
  else none

/-- What follows a backslash. -/
def escape (t : Text) : Except Stop (Parsed Char) :=
  match t with
  | [] => stopBehind .endInString t 0
  | c :: r =>
    if c == 'u' then numericEscape r
    else match simpleEscape? c with
      | some d => .ok (d, r)
      | none => stopBehind .invalidEscape t 1

/-- A string behind its opening quote; `done` holds its characters so far, the last one first. -/
def stringBody : Nat → Text → Text → Except Stop (Parsed String)
  | 0, _, t => stopBehind .endInString t 0
  | _ + 1, _, [] => stopBehind .endInString [] 0
  | fuel + 1, done, c :: r =>
    if c == '\x22' then .ok (String.ofList done.reverse, r)
    else if c == '\\' then do
      let (d, rest) ← escape r
      stringBody fuel (d :: done) rest
    else if c.toNat < 32 then stopBehind .controlCharacter (c :: r) 1
    else stringBody fuel (c :: done) r

/-- A string behind its opening quote. -/
def readString (fuel : Nat) (t : Text) : Except Stop (Parsed String) := stringBody fuel [] t

/-! ## Values -/

/-- The rest of a word. -/
def word : Text → Text → Except Stop (Parsed Unit)
  | [], t => .ok ((), t)
  | _ :: _, [] => stopBehind .endInValue [] 0
  | w :: ws, c :: r => if c == w then word ws r else stopBehind .expectedIdent (c :: r) 1

/-- The items of a list behind its opening bracket, or behind an item when `later`; `done` holds the
items so far, the last one first. -/
def items (value : Text → Except Stop (Parsed Json)) :
    Nat → Bool → List Json → Text → Except Stop (Parsed (List Json))
  | 0, _, _, t => stopAt .endInList t
  | fuel + 1, later, done, t =>
    match skipSpacing t with
    | [] => stopAt .endInList []
    | c :: r =>
      if c == ']' then .ok (done.reverse, r)
      else if !later then do
        let (v, rest) ← value (c :: r)
        items value fuel true (v :: done) rest
      else if c == ',' then
        match skipSpacing r with
        | [] => stopAt .endInValue []
        | d :: r =>
          if d == ']' then stopAt .trailingComma (d :: r)
          else do
            let (v, rest) ← value (d :: r)
            items value fuel true (v :: done) rest
      else stopAt .expectedListCommaOrEnd (c :: r)

/-- A key and its value, from the key's opening quote on. -/
def field (value : Text → Except Stop (Parsed Json)) (fuel : Nat) (t : Text) :
    Except Stop (Parsed (String × Json)) :=
  match t with
  | [] => stopAt .endInValue []
  | c :: r =>
    if c != '\x22' then stopAt .keyMustBeString (c :: r)
    else do
      let (key, t) ← readString fuel r
      match skipSpacing t with
      | [] => stopAt .endInObject []
      | c :: r =>
        if c != ':' then stopAt .expectedColon (c :: r)
        else do
          let (v, rest) ← value r
          return ((key, v), rest)

/-- The fields of an object behind its opening brace, or behind a field when `later`. -/
def fields (value : Text → Except Stop (Parsed Json)) :
    Nat → Bool → Fields → Text → Except Stop (Parsed Fields)
  | 0, _, _, t => stopAt .endInObject t
  | fuel + 1, later, done, t =>
    match skipSpacing t with
    | [] => stopAt .endInObject []
    | c :: r =>
      if c == '\x7d' then .ok (done, r)
      else if !later then do
        let ((k, v), rest) ← field value fuel (c :: r)
        fields value fuel true (done.set k v) rest
      else if c == ',' then
        match skipSpacing r with
        | [] => stopAt .endInValue []
        | d :: r =>
          if d == '\x7d' then stopAt .trailingComma (d :: r)
          else do
            let ((k, v), rest) ← field value fuel (d :: r)
            fields value fuel true (done.set k v) rest
      else stopAt .expectedObjectCommaOrEnd (c :: r)

/-- A value in which lists and objects may still be nested `depth` levels deep. -/
def value (fuel depth : Nat) (t : Text) : Except Stop (Parsed Json) :=
  match skipSpacing t with
  | [] => stopAt .endInValue []
  | c :: r =>
    if c == 'n' then (word "ull".toList r).map fun (_, rest) => (null, rest)
    else if c == 't' then (word "rue".toList r).map fun (_, rest) => (bool true, rest)
    else if c == 'f' then (word "alse".toList r).map fun (_, rest) => (bool false, rest)
    else if c == '-' then (readNumber true r).map fun (n, rest) => (number n, rest)
    else if c.isDigit then (readNumber false (c :: r)).map fun (n, rest) => (number n, rest)
    else if c == '\x22' then (readString fuel r).map fun (s, rest) => (string s, rest)
    else if c == '[' then
      match depth with
      | 0 => stopAt .tooDeep (c :: r)
      | depth + 1 =>
        (items (value fuel depth) fuel false [] r).map fun (vs, rest) => (array vs, rest)
    else if c == '\x7b' then
      match depth with
      | 0 => stopAt .tooDeep (c :: r)
      | depth + 1 =>
        (fields (value fuel depth) fuel false [] r).map fun (fs, rest) => (object fs, rest)
    else stopAt .expectedValue (c :: r)

/-- How deep lists and objects may be nested. -/
def maxDepth : Nat := 127

/-- A whole text as one document. No string, list or object in it has more parts than it has
characters. -/
def readText (t : Text) : Except Stop Json := do
  let (v, rest) ← value (t.length + 1) maxDepth t
  let rest := skipSpacing rest
  if rest.isEmpty then return v else stopAt .trailingCharacters rest

/-- A whole text as one document. -/
def read (s : String) : Except SyntaxError Json :=
  (readText s.toList).mapError (·.locate s.toList)

end SchemaInstaller.Json
