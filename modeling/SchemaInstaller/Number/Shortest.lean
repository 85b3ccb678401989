import SchemaInstaller.Number.Binary64

/-!
# The shortest decimal text of a floating-point number

Of all decimals that round to the number, the text has one with the fewest digits, and of those the
nearest to the number. For one digit, two digits and so on, the number's two neighbours on that
decimal grid are tried; the first grid with a hit decides.
-/

namespace SchemaInstaller.Binary64

/-- Whether `n / d` is at least ten to the `k`. -/
def reachesPowerOfTen (n d : Nat) (k : Int) : Bool :=
  if k ≥ 0 then d * tenTo k.toNat ≤ n else d ≤ n * tenTo (-k).toNat

/-- The decimal exponent of the first digit of a number that is not zero. -/
def firstDigitExponent (x : Binary64) : Int :=
  let (n, d) := x.ratio
  let guess := ((x.mantissa.log2 : Int) + x.exponent) * 30103 / 100000
  if reachesPowerOfTen n d (guess + 1) then guess + 1
  else if reachesPowerOfTen n d guess then guess
  else guess - 1

/-- Four times the number's mantissa and the ends of the interval that rounds to the number, in the
unit two to the `exponent - 2`. The lower neighbour of a power of two is only half as far away. -/
def interval (x : Binary64) : Nat × Nat × Nat :=
  let low := if x.mantissa == twoTo 52 && x.exponent > minExponent then 1 else 2
  (4 * x.mantissa, 4 * x.mantissa - low, 4 * x.mantissa + 2)

/-- `c` times ten to the `k` beside `v` units of two to the `e`: both as whole numbers on one
scale. -/
def commonScale (c : Nat) (k : Int) (v : Nat) (e : Int) : Nat × Nat :=
  let tens := tenTo k.natAbs
  let twos := twoTo e.natAbs
  let c := if k ≥ 0 then c * tens else c
  let v := if k ≥ 0 then v else v * tens
  if e ≥ 0 then (c, v * twos) else (c * twos, v)

/-- Whether `c` times ten to the `k` rounds to the number; the ends of the interval do so when the
mantissa is even. -/
def roundsTo (x : Binary64) (c : Nat) (k : Int) : Bool :=
  let (_, low, high) := x.interval
  let e := x.exponent - 2
  let (a, lo) := commonScale c k low e
  let (b, hi) := commonScale c k high e
  if x.mantissa % 2 == 0 then lo ≤ a && b ≤ hi else lo < a && b < hi

/-- The largest whole number of units ten to the `k` that is not above the number. -/
def unitsBelow (x : Binary64) (k : Int) : Nat :=
  let (n, d) := x.ratio
  if k ≥ 0 then n / (d * tenTo k.toNat) else n * tenTo (-k).toNat / d

/-- Whether `c + 1` units of ten to the `k` are nearer to the number than `c`; a tie goes to the
even one. -/
def aboveIsNearer (x : Binary64) (c : Nat) (k : Int) : Bool :=
  let (v, _, _) := x.interval
  let (middle, v) := commonScale (2 * c + 1) k (2 * v) (x.exponent - 2)
  middle < v || (middle == v && c % 2 == 1)

/-- The neighbour on the grid of ten to the `k` that rounds to the number, the nearer one if both
do. -/
def gridHit (x : Binary64) (k : Int) : Option Nat :=
  let c := x.unitsBelow k
  let below := x.roundsTo c k
  let above := x.roundsTo (c + 1) k
  if below && above then some (if x.aboveIsNearer c k then c + 1 else c)
  else if below then some c
  else if above then some (c + 1)
  else none

/-- The first grid with a hit, from the one of ten to the `k` on downwards. -/
def firstHit (x : Binary64) : Nat → Int → Nat × Int
  | 0, k => (x.unitsBelow k, k)
  | fuel + 1, k =>
    match x.gridHit k with
    | some c => (c, k)
    | none => firstHit x fuel (k - 1)

/-- Decimal digits of a natural number. -/
def decimalDigits (n : Nat) : Text := Nat.toDigits 10 n

/-- The significant digits of a number that is not zero, and the decimal exponent of the first. -/
def shortestDigits (x : Binary64) : Text × Int :=
  let (c, k) := x.firstHit 17 x.firstDigitExponent
  let digits := decimalDigits c
  ((digits.reverse.dropWhile (· == '0')).reverse, digits.length - 1 + k)

/-- `n` zeros. -/
def zeros (n : Nat) : Text := List.replicate n '0'

/-- Digits with a point: written out from a hundred-thousandth to below ten to the sixteenth, and
with an exponent and its sign elsewhere. -/
def placePoint (digits : Text) (exponent : Int) : Text :=
  if exponent < -5 || exponent > 15 then
    let mantissa := match digits with
      | [] => []
      | [d] => [d]
      | d :: more => d :: '.' :: more
    let sign := if exponent < 0 then ['-'] else ['+']
    mantissa ++ 'e' :: sign ++ decimalDigits exponent.natAbs
  else if exponent < 0 then "0.".toList ++ zeros (exponent.natAbs - 1) ++ digits
  else
    let whole := exponent.toNat + 1
    if digits.length ≤ whole then digits ++ zeros (whole - digits.length) ++ ".0".toList
    else digits.take whole ++ '.' :: digits.drop whole

/-- The text of a number, always recognizable as one with a fraction or an exponent. -/
def toText (x : Binary64) : Text :=
  let body := if x.isZero then "0.0".toList
    else let (digits, exponent) := x.shortestDigits
      placePoint digits exponent
  if x.negative then '-' :: body else body

end SchemaInstaller.Binary64
