import RuleTrader.Market.Basic

/-!
# Dates, and times in seconds

A date of the Gregorian calendar is counted in years that begin in March, so that a leap day is the last
day of its year, and in eras of 400 years, which are all equally long.

A database keeps times as binary64 numbers of seconds. They are ordered by their place among all
binary64 numbers, which is an integer, and shown in whole microseconds: the fraction of the second is
scaled to microseconds as a binary64 number, and then rounded, a half to the even neighbour. A time has
a date if it lies in one of the years that have dates; a time that is kept in a row can lie elsewhere.
-/

namespace RuleTrader

/-! ## Dates -/

namespace Calendar

/-- A date. -/
structure Date where
  year : Int
  month : Nat
  day : Nat
  deriving DecidableEq, Repr

def eraDays : Int := 146097

/-- The days from the beginning of the era that 1970 lies in to the beginning of 1970. -/
def epochDay : Int := 719468

/-- The year of an era that a day of it lies in. -/
def yearOfEra (day : Nat) : Nat :=
  (day - day / 1460 + day / 36524 - day / 146096) / 365

/-- The date of a day of an era, where the era begins in a year. -/
def dateInEra (firstYear : Int) (day : Nat) : Date :=
  let year := yearOfEra day
  let dayOfYear := day - (365 * year + year / 4 - year / 100)
  let march := (5 * dayOfYear + 2) / 153
  let month := if march < 10 then march + 3 else march - 9
  ⟨firstYear + year + (if month ≤ 2 then 1 else 0), month, dayOfYear - (153 * march + 2) / 5 + 1⟩

/-- The date of a day, counted from the first day of 1970. -/
def dateOfDay (day : Int) : Date :=
  let shifted := day + epochDay
  dateInEra (shifted / eraDays * 400) (shifted % eraDays).toNat

example : dateOfDay 19782 = ⟨2024, 2, 29⟩ := by decide

def dayMicros : Int := 86400000000

end Calendar

/-! ## Seconds -/

/-- A time in seconds from the beginning of 1970, or a span of time in seconds. -/
abbrev Seconds := Float

namespace Seconds

/-- The place of a number among all binary64 numbers. Both zeros have the place `0`; a greater number
has a greater place. -/
def rank (x : Seconds) : Int :=
  let bits := x.toBits.toNat
  if Binary64.signBit ≤ bits then (Binary64.signBit : Int) - bits else bits

/-- A number that is not negative, rounded to an integer. -/
def roundMagnitude (x : Float) : Nat :=
  match Binary64.read x with
  | .finite d =>
    if 0 ≤ d.exponent then d.significand * twoTo d.exponent.toNat
    else Binary64.roundQuotient d.significand (twoTo (-d.exponent).toNat)
  | _ => 0

/-- The microseconds of `significand / den` seconds. -/
def microsOf (significand den : Nat) : Nat :=
  significand / den * 1000000 +
    roundMagnitude (Binary64.nearest false (significand % den * 1000000) den)

/-- An exact time in whole microseconds. -/
def microsOfDyadic (d : Dyadic) : Micros :=
  let micros :=
    if 0 ≤ d.exponent then d.significand * twoTo d.exponent.toNat * 1000000
    else microsOf d.significand (twoTo (-d.exponent).toNat)
  if d.negative then -(micros : Int) else micros

/-- A time in whole microseconds; no time at all counts as the beginning of 1970. -/
def toMicros (x : Seconds) : Micros :=
  match Binary64.read x with
  | .finite d => microsOfDyadic d
  | _ => 0

def yearOf (t : Micros) : Int := (Calendar.dateOfDay (t / Calendar.dayMicros)).year

/-- Whether a calendar has a date for a year. -/
def hasDates (year : Int) : Bool := 1 ≤ year && year ≤ 9999

/-- The time that a clock shows: it must be known, and lie in a year that has dates. -/
def clock (x : Seconds) : Except NumberFault Micros := do
  let t := microsOfDyadic (← Number.exact x)
  if hasDates (yearOf t) then return t else throw .tooLarge

def ofMicros (t : Micros) : Seconds :=
  Binary64.nearest (t < 0) t.natAbs 1000000

/-! ## Times in rows -/

/-- Why the time of a row has no date. -/
inductive RowTimeFault where
  /-- The seconds do not fit a counter of 64 bits. -/
  | tooManySeconds
  /-- The year does not fit a counter of 32 bits. -/
  | tooManyYears
  | noDates (year : Int)
  deriving DecidableEq, Repr

def RowTimeFault.name : RowTimeFault → String
  | .tooManySeconds => "OverflowError"
  | .tooManyYears => "OSError"
  | .noDates _ => "ValueError"

def RowTimeFault.message : RowTimeFault → String
  | .tooManySeconds => "timestamp out of range for platform time_t"
  | .tooManyYears => "[Errno 75] Value too large for defined data type"
  | .noDates year => s!"year {year} is out of range"

/-- The first year of the calendar by which a counter of years counts. -/
def firstCountedYear : Int := 1900

/-- Whether a number fits a signed counter of so many bits. -/
def fitsBits (bits : Nat) (n : Int) : Bool :=
  -(twoTo (bits - 1) : Int) ≤ n && n < twoTo (bits - 1)

/-- The time of a row, if it has a date. -/
def rowTime (x : Seconds) : Except RowTimeFault Micros :=
  match Binary64.read x with
  | .finite d =>
    let t := microsOfDyadic d
    let year := yearOf t
    if !fitsBits 64 (t / 1000000) then .error .tooManySeconds
    else if !fitsBits 32 (year - firstCountedYear) then .error .tooManyYears
    else if hasDates year then .ok t
    else .error (.noDates year)
  | _ => .error .tooManySeconds

end Seconds

end RuleTrader
