import SchemaInstaller.Text.Basic

/-!
# Instants

An instant is a day, counted from the first of January 1970, a second of that day in universal time,
and nanoseconds. A leap second is the last second of its minute with more than a billion
nanoseconds. Years may lie before year one and after year 9999; then their sign is written.
-/

namespace SchemaInstaller

/-- A moment in universal time. -/
structure Instant where
  day : Int
  second : Nat
  nano : Nat
  deriving Repr, DecidableEq, Inhabited

namespace Instant

/-- The first moment of 1970. -/
def epoch : Instant := ⟨0, 0, 0⟩

/-! ## The calendar -/

/-- Whether a year has a twenty-ninth of February. -/
def isLeapYear (y : Int) : Bool := y % 4 == 0 && (y % 100 != 0 || y % 400 == 0)

/-- The number of days of a month. -/
def monthLength (y : Int) (m : Nat) : Nat :=
  if m == 2 then if isLeapYear y then 29 else 28
  else if m == 4 || m == 6 || m == 9 || m == 11 then 30
  else 31

/-- The day of a date, counting months from March on so that a leap day is the last of its year. -/
def dayOfDate (y : Int) (m d : Nat) : Int :=
  let y := if m ≤ 2 then y - 1 else y
  let era := y / 400
  let yearOfEra := y % 400
  let dayOfYear : Int := (153 * ((m + 9) % 12) + 2) / 5 + d - 1
  era * 146097 + (yearOfEra * 365 + yearOfEra / 4 - yearOfEra / 100 + dayOfYear) - 719468

/-- The year, month and day of the month of a day. -/
def dateOfDay (day : Int) : Int × Nat × Nat :=
  let z := day + 719468
  let era := z / 146097
  let dayOfEra := (z % 146097).toNat
  let yearOfEra :=
    (dayOfEra - dayOfEra / 1460 + dayOfEra / 36524 - dayOfEra / 146096) / 365
  let dayOfYear := dayOfEra - (365 * yearOfEra + yearOfEra / 4 - yearOfEra / 100)
  let mp := (5 * dayOfYear + 2) / 153
  let d := dayOfYear - (153 * mp + 2) / 5 + 1
  let m := if mp < 10 then mp + 3 else mp - 9
  let y := (yearOfEra : Int) + era * 400
  (if m ≤ 2 then y + 1 else y, m, d)

/-! ## Text -/

/-- Decimal digits with zeros in front up to a width. -/
def padded (width n : Nat) : Text :=
  let digits := Nat.toDigits 10 n
  List.replicate (width - digits.length) '0' ++ digits

/-- A year of four digits, or with its sign if it is outside of that range. -/
def yearText (y : Int) : Text :=
  if 0 ≤ y && y ≤ 9999 then padded 4 y.toNat
  else (if y < 0 then '-' else '+') :: padded 4 y.natAbs

/-- Year, month and day. -/
def dateText (i : Instant) : Text :=
  let (y, m, d) := dateOfDay i.day
  yearText y ++ '-' :: padded 2 m ++ '-' :: padded 2 d

/-- Hour, minute and second, where a leap second is the sixtieth. -/
def clockText (i : Instant) : Text :=
  let leap := i.nano / 1000000000
  padded 2 (i.second / 3600) ++ ':' :: padded 2 (i.second / 60 % 60) ++ ':'
    :: padded 2 (i.second % 60 + leap)

/-- The fraction of the second in no, three, six or nine digits, as few as it takes. -/
def fractionText (i : Instant) : Text :=
  let n := i.nano % 1000000000
  if n == 0 then []
  else if n % 1000000 == 0 then '.' :: padded 3 (n / 1000000)
  else if n % 1000 == 0 then '.' :: padded 6 (n / 1000)
  else '.' :: padded 9 n

/-- The text of an instant in documents. -/
def toText (i : Instant) : String :=
  String.ofList (i.dateText ++ 'T' :: i.clockText ++ i.fractionText ++ ['Z'])

/-- The text of an instant for people, to the second. -/
def toHeading (i : Instant) : Text := i.dateText ++ ' ' :: i.clockText ++ " UTC".toList

end Instant

end SchemaInstaller
