import SchemaInstaller.Text.Basic

/-!
# Floating-point numbers, exactly

A finite binary64 number is a sign and a whole number of units in the last place, held as a mantissa
and an exponent. Arithmetic is exact on the ratio of two natural numbers and then rounded once, to
the nearest number, a tie to the even mantissa.
-/

namespace SchemaInstaller

/-- A finite binary64 number: the mantissa times two to the exponent, with its sign. The mantissa
has 53 bits, or fewer where the exponent is the smallest one. -/
structure Binary64 where
  negative : Bool
  mantissa : Nat
  exponent : Int
  deriving Repr, DecidableEq, Inhabited

namespace Binary64

/-- The exponent of the smallest numbers. -/
def minExponent : Int := -1074

/-- The exponent of the largest numbers. -/
def maxExponent : Int := 971

/-- Zero with a sign. -/
def zero (negative : Bool) : Binary64 := ⟨negative, 0, minExponent⟩

/-- Whether the number is zero, of either sign. -/
def isZero (x : Binary64) : Bool := x.mantissa == 0

/-- The same number with the other sign. -/
def neg (x : Binary64) : Binary64 := { x with negative := !x.negative }

/-- A quotient rounded to the nearest natural number, a tie to the even one. -/
def roundDiv (n d : Nat) : Nat :=
  let q := n / d
  let r := 2 * (n % d)
  if r > d || (r == d && q % 2 == 1) then q + 1 else q

/-- A power of two. -/
def twoTo (k : Nat) : Nat := Nat.pow 2 k

/-- A power of ten. -/
def tenTo (k : Nat) : Nat := Nat.pow 10 k

/-- The quotient of `n` and `d`, divided by two to the `k`, as a fraction. -/
def scale (n d : Nat) (k : Int) : Nat × Nat :=
  if k ≥ 0 then (n, d * twoTo k.toNat) else (n * twoTo (-k).toNat, d)

/-- The binary64 number nearest to `n / d`, unless it is too large. -/
def ofRatio (negative : Bool) (n d : Nat) : Option Binary64 :=
  if n == 0 then some (zero negative)
  else
    let k := (n.log2 : Int) - d.log2 - 52
    let (a, b) := scale n d k
    let k := if a / b < twoTo 52 then k - 1 else k
    let k := max k minExponent
    let (a, b) := scale n d k
    let m := roundDiv a b
    let (m, k) := if m == twoTo 53 then (twoTo 52, k + 1) else (m, k)
    if k > maxExponent then none
    else if m == 0 then some (zero negative)
    else some ⟨negative, m, k⟩

/-- The absolute value as a fraction. -/
def ratio (x : Binary64) : Nat × Nat :=
  if x.exponent ≥ 0 then (x.mantissa * twoTo x.exponent.toNat, 1)
  else (x.mantissa, twoTo (-x.exponent).toNat)

/-- A natural number, rounded. -/
def ofNat (n : Nat) : Option Binary64 := ofRatio false n 1

/-- The product, rounded, unless it is too large. -/
def mul (x y : Binary64) : Option Binary64 :=
  let (a, b) := x.ratio
  let (c, d) := y.ratio
  ofRatio (x.negative != y.negative) (a * c) (b * d)

/-- The quotient by a number that is not zero, rounded, unless it is too large. -/
def div (x y : Binary64) : Option Binary64 :=
  let (a, b) := x.ratio
  let (c, d) := y.ratio
  ofRatio (x.negative != y.negative) (a * d) (b * c)

/-- The number nearest to `n` times ten to the `k`, unless it is too large. `digits` is the number
of decimal digits of `n`, from which the extreme cases are told without a large power. -/
def ofDecimal (negative : Bool) (n digits : Nat) (k : Int) : Option Binary64 :=
  if n == 0 || digits + k < -330 then some (zero negative)
  else if digits + k > 310 then none
  else if k ≥ 0 then ofRatio negative (n * tenTo k.toNat) 1
  else ofRatio negative n (tenTo (-k).toNat)

end Binary64

end SchemaInstaller
