import Mathlib.Tactic

/-!
The proleptic Gregorian calendar of Python's `datetime`.

Days count from 0001-01-01, which is day 0, and instants are microseconds from its midnight in UTC.

* `Date.ofDay`: the date of a day;
* `Datetime.month`: the text `%Y-%m` of an instant.
-/

namespace Python

structure Date where
  year : ℕ
  month : ℕ
  day : ℕ
  deriving DecidableEq, Repr

def isLeap (year : ℕ) : Bool := year % 4 = 0 && (year % 100 ≠ 0 || year % 400 = 0)

def monthLengths (leap : Bool) : List ℕ :=
  [31, if leap then 29 else 28, 31, 30, 31, 30, 31, 31, 30, 31, 30, 31]

/-- The year of a day, and the days of the year before it. -/
def yearOf (day : ℕ) : ℕ × ℕ :=
  let quadricentury := day / 146097
  let day := day % 146097
  let century := day / 36524
  let day := day % 36524
  let quadrennium := day / 1461
  let day := day % 1461
  let year := day / 365
  let years := 400 * quadricentury + 100 * century + 4 * quadrennium + year
  -- the last day of a leap year
  if year = 4 ∨ century = 4 then (years, 365) else (years + 1, day % 365)

/-- The month and the day of the month, from the lengths of the months to come. -/
def monthOf : List ℕ → ℕ → ℕ → ℕ × ℕ
  | [], month, day => (month, day + 1)
  | length :: lengths, month, day =>
      if day < length then (month, day + 1) else monthOf lengths (month + 1) (day - length)

/-- `date.fromordinal(day + 1)`. -/
def Date.ofDay (day : ℕ) : Date :=
  let (year, dayOfYear) := yearOf day
  let (month, day) := monthOf (monthLengths (isLeap year)) 1 dayOfYear
  ⟨year, month, day⟩


/-- An instant, in microseconds. -/
abbrev Datetime := ℕ

def microsecondsPerDay : ℕ := 86400000000

def Datetime.date (t : Datetime) : Date := Date.ofDay (t / microsecondsPerDay)

/-- `strftime("%Y-%m")`. -/
def Datetime.month (t : Datetime) : String :=
  let date := Datetime.date t
  toString date.year ++ "-" ++ (if date.month < 10 then "0" else "") ++ toString date.month

/-- `(stop - start).total_seconds()`. -/
def Datetime.secondsFrom (start stop : Datetime) : ℚ := ((stop : ℚ) - start) / 1000000

end Python
