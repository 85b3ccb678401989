import SchemaInstaller.Number.Shortest

/-!
# Numbers of documents and catalogs

A number is an integer that fits 64 bits, signed or not, or else a floating-point number. Here are
the two kinds, their text, and the readers for numbers that stand alone in a text.
-/

namespace SchemaInstaller

/-- The range of an integer: the signed and the unsigned 64-bit numbers together. -/
def fitsInteger (n : Int) : Bool := -9223372036854775808 ≤ n && n < 18446744073709551616

/-- An integer of 64 bits, signed or unsigned. -/
structure Integer where
  val : Int
  fits : fitsInteger val = true
  deriving Repr, DecidableEq

namespace Integer

instance : Inhabited Integer := ⟨0, by decide⟩

/-- The integer, if it is in range. -/
def ofInt? (n : Int) : Option Integer := if h : fitsInteger n = true then some ⟨n, h⟩ else none

/-- A signed 64-bit number. -/
def ofInt64 (n : Int64) : Integer := (ofInt? n.toInt).getD default

end Integer

/-- A number. -/
inductive Number
  | integer (n : Integer)
  | real (x : Binary64)
  deriving Repr, DecidableEq

namespace Number

/-- The text of a number. -/
def toText : Number → Text
  | integer n => (toString n.val).toList
  | real x => x.toText

/-- The value of decimal digits. -/
def digitsValue (t : Text) : Nat := t.foldl (fun n c => 10 * n + (c.toNat - 48)) 0

/-- Digits, at least one of them, as a natural number. -/
def natural? (t : Text) : Option Nat :=
  if !t.isEmpty && t.all Char.isDigit then some (digitsValue t) else none

/-- A sign, if there is one: whether it is a minus, and what follows. -/
def splitSign : Text → Bool × Text
  | '-' :: r => (true, r)
  | '+' :: r => (false, r)
  | t => (false, t)

/-- A signed integer in range. The unsigned range beyond the signed one takes no minus. -/
def readInteger? (t : Text) : Option Integer := do
  let (negative, digits) := splitSign t
  let n ← natural? digits
  Integer.ofInt? (if negative then -n else n)

/-- The digits after a point or an exponent mark. -/
def leadingDigits (t : Text) : Text × Text := (t.takeWhile Char.isDigit, t.dropWhile Char.isDigit)

/-- The exponent at the end of a number, zero if there is none. -/
def exponent? : Text → Option Int
  | [] => some 0
  | e :: r =>
    if e == 'e' || e == 'E' then do
      let (negative, digits) := splitSign r
      let n ← natural? digits
      return if negative then -n else n
    else none

/-- A number with an optional sign, point and exponent, rounded once. There is none for a text of
another form and none where the number is too large. -/
def readReal? (t : Text) : Option Binary64 := do
  let (negative, t) := splitSign t
  let (whole, t) := leadingDigits t
  let (fraction, t) := match t with
    | '.' :: r => leadingDigits r
    | _ => ([], t)
  guard (!(whole.isEmpty && fraction.isEmpty))
  let k ← exponent? t
  let digits := (whole ++ fraction).dropWhile (· == '0')
  Binary64.ofDecimal negative (digitsValue digits) digits.length (k - fraction.length)

end Number

end SchemaInstaller
