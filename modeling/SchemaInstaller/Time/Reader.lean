import SchemaInstaller.Time.Instant

/-!
# Reading instants

A date, a letter T or one blank, a clock and an offset. Blanks may stand before every number and
every mark, numbers need no leading zeros, a signed year may have any number of digits, and the
offset may be written in several ways.
-/

namespace SchemaInstaller.Instant

/-- Why a text is no instant. -/
inductive ReadFault
  | outOfRange
  | invalid
  | tooShort
  | tooLong
  deriving Repr, DecidableEq

/-- The fault in words. -/
def ReadFault.message : ReadFault → String
  | outOfRange => "input is out of range"
  | invalid => "input contains invalid characters"
  | tooShort => "premature end of input"
  | tooLong => "trailing input"

/-- Up to `max` digits at the start of a text, at least one, as a signed 64-bit number. -/
def readDigits (max : Option Nat) (t : Text) : Except ReadFault (Nat × Text) :=
  match t with
  | [] => .error .tooShort
  | c :: _ =>
    if !c.isDigit then .error .invalid
    else
      let all := t.takeWhile Char.isDigit
      let digits := match max with
        | some n => all.take n
        | none => all
      let n := digits.foldl (fun n c => 10 * n + (c.toNat - 48)) 0
      if n > 9223372036854775807 then .error .outOfRange else .ok (n, t.drop digits.length)

/-- A number of one or two digits between `low` and `high`, behind blanks. -/
def readPart (low high : Nat) (t : Text) : Except ReadFault (Nat × Text) := do
  let (n, t) ← readDigits (some 2) (Text.trimStart t)
  if low ≤ n && n ≤ high then return (n, t) else throw .outOfRange

/-- A year: four digits at most, or a sign and any number of digits. -/
def readYear (t : Text) : Except ReadFault (Int × Text) := do
  let (y, t) ← match Text.trimStart t with
    | '-' :: r => (readDigits none r).map fun (n, r) => (-(n : Int), r)
    | '+' :: r => (readDigits none r).map fun (n, r) => ((n : Int), r)
    | t => (readDigits (some 4) t).map fun (n, r) => ((n : Int), r)
  if -2147483648 ≤ y && y ≤ 2147483647 then return (y, t) else throw .outOfRange

/-- A mark behind blanks. -/
def readMark (c : Char) (t : Text) : Except ReadFault Text :=
  match Text.trimStart t with
  | [] => .error .tooShort
  | d :: r => if d == c then .ok r else .error .invalid

/-- A fraction of a second in nanoseconds; digits behind the ninth do not count. -/
def readFraction (t : Text) : Except ReadFault (Nat × Text) :=
  match t with
  | '.' :: r => do
    let (_, _) ← readDigits (some 9) r
    let digits := (r.takeWhile Char.isDigit).take 9
    let n := digits.foldl (fun n c => 10 * n + (c.toNat - 48)) 0
    return (n * Nat.pow 10 (9 - digits.length), r.dropWhile Char.isDigit)
  | _ => .ok (0, t)

/-- The value of two digits. -/
def twoDigits (a b : Char) : Nat := 10 * (a.toNat - 48) + (b.toNat - 48)

/-- The minutes of an offset. A text that ends here has none, and one of two bytes or more must
start with them. -/
def readOffsetMinutes (t : Text) : Except ReadFault (Nat × Text) :=
  match t with
  | [] => .ok (0, [])
  | a :: r =>
    if Text.byteLength t < 2 then .error .tooShort
    else match r with
      | [] => .error .invalid
      | b :: r =>
        if !(a.isDigit && b.isDigit) then .error .invalid
        else if a.toNat ≥ '6'.toNat then .error .outOfRange
        else .ok (twoDigits a b, r)

/-- An offset from universal time in seconds: the letter Z, or a sign, two digits of hours and the
minutes, with a colon or blanks between them or nothing. -/
def readOffset (t : Text) : Except ReadFault (Int × Text) :=
  match t with
  | [] => .error .tooShort
  | c :: r =>
    if c == 'Z' || c == 'z' then .ok (0, r)
    else if !(c == '+' || c == '-' || c == '\u2212') then .error .invalid
    else if Text.byteLength r < 2 then .error .tooShort
    else match r with
      | a :: b :: r =>
        if !(a.isDigit && b.isDigit) then .error .invalid
        else do
          let (minutes, rest) ← readOffsetMinutes (r.dropWhile fun c => c == ':' || isBlank c)
          let seconds : Int := twoDigits a b * 3600 + minutes * 60
          return (if c == '+' then seconds else -seconds, rest)
      | _ => .error .invalid

/-- The letters UTC, or an offset, behind blanks. -/
def readZone (t : Text) : Except ReadFault (Int × Text) :=
  let t := Text.trimStart t
  if Text.upperAscii (t.take 3) == "UTC".toList then .ok (0, t.drop 3) else readOffset t

/-- The instant of a local date and clock at an offset. -/
def ofLocal (day : Int) (second nano : Nat) (offset : Int) : Instant :=
  let s := (second : Int) - offset
  ⟨day + s / 86400, (s % 86400).toNat, nano⟩

/-- The years that a date may have. -/
def yearInRange (y : Int) : Bool := -262143 ≤ y && y ≤ 262142

/-- A text as an instant. -/
def ofText (s : String) : Except ReadFault Instant := do
  let (year, t) ← readYear s.toList
  let t ← readMark '-' t
  let (month, t) ← readPart 1 12 t
  let t ← readMark '-' t
  let (day, t) ← readPart 1 31 t
  let t ← match t with
    | [] => throw .tooShort
    | c :: r => if c == 'T' || c == 't' || c == ' ' then pure r else throw .invalid
  let (hour, t) ← readPart 0 23 t
  let t ← readMark ':' t
  let (minute, t) ← readPart 0 59 t
  let t ← readMark ':' t
  let (second, t) ← readPart 0 60 t
  let (nano, t) ← readFraction t
  let (offset, t) ← readZone t
  if !(Text.trimStart t).isEmpty then throw .tooLong
  if !(yearInRange year && day ≤ monthLength year month) then throw .outOfRange
  if !(-86400 < offset && offset < 86400) then throw .outOfRange
  let (second, nano) := if second == 60 then (59, nano + 1000000000) else (second, nano)
  return ofLocal (dayOfDate year month day) (hour * 3600 + minute * 60 + second) nano offset

end SchemaInstaller.Instant
