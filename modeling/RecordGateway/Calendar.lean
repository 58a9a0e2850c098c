/-!
Moments as dates of the Gregorian calendar, in UTC. Days are counted in eras of 400 years, which
all have the same length, and years are taken to begin in March, so that a leap day ends its year.
-/

namespace RecordGateway.Calendar

/-- A day of the Gregorian calendar. -/
structure Date where
  year : Int
  month : Nat
  day : Nat
deriving DecidableEq, Repr

/-- The number of days in an era of 400 years. -/
def daysPerEra : Nat := 146097

/-- The days from the first of March of the year 0 to the first of January 1970. -/
def epochOffset : Int := 719468

/-- The date of a day counted from the first of January 1970. -/
def Date.ofDay (day : Int) : Date :=
  let shifted := day + epochOffset
  let era := shifted.fdiv daysPerEra
  let dayOfEra := (shifted.fmod daysPerEra).toNat
  let yearOfEra := (dayOfEra - dayOfEra / 1460 + dayOfEra / 36524 - dayOfEra / 146096) / 365
  let dayOfYear := dayOfEra - (365 * yearOfEra + yearOfEra / 4 - yearOfEra / 100)
  let monthFromMarch := (5 * dayOfYear + 2) / 153
  let day := dayOfYear - (153 * monthFromMarch + 2) / 5 + 1
  let month := if monthFromMarch < 10 then monthFromMarch + 3 else monthFromMarch - 9
  let year := era * 400 + yearOfEra + (if month ≤ 2 then 1 else 0)
  ⟨year, month, day⟩

/-- A number in at least `width` digits. -/
def padded (width n : Nat) : String :=
  let digits := Nat.toDigits 10 n
  String.ofList (List.replicate (width - digits.length) '0' ++ digits)

/-- A moment in seconds since 1970, written as date and time of day in UTC; `none` outside the
years 0 to 9999, which four digits cannot write. -/
def timestamp? (seconds : Int) : Option String :=
  let date := Date.ofDay (seconds.fdiv 86400)
  let second := (seconds.fmod 86400).toNat
  if 0 ≤ date.year ∧ date.year ≤ 9999 then
    some <| padded 4 date.year.toNat ++ "-" ++ padded 2 date.month ++ "-" ++ padded 2 date.day
      ++ "T" ++ padded 2 (second / 3600) ++ ":" ++ padded 2 (second / 60 % 60)
      ++ ":" ++ padded 2 (second % 60) ++ "Z"
  else
    none

end RecordGateway.Calendar
