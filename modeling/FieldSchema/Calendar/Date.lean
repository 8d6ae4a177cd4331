/-!
# Calendar dates

A date of the proleptic Gregorian calendar, years 1 to 9999. Validity is part of the type.
-/

namespace FieldSchema

def isLeapYear (year : Nat) : Bool := year % 4 = 0 && (year % 100 ≠ 0 || year % 400 = 0)

def daysInMonth (year month : Nat) : Nat :=
  if month = 2 then (if isLeapYear year then 29 else 28)
  else if month = 4 ∨ month = 6 ∨ month = 9 ∨ month = 11 then 30
  else 31

/-- Why numbers make no date or time. -/
inductive CalendarFault where
  | year (n : Int)
  | month
  | day
  | hour
  | minute
  | second
  deriving DecidableEq

def CalendarFault.message : CalendarFault → String
  | .year n => "year " ++ toString n ++ " is out of range"
  | .month => "month must be in 1..12"
  | .day => "day is out of range for month"
  | .hour => "hour must be in 0..23"
  | .minute => "minute must be in 0..59"
  | .second => "second must be in 0..59"

/-- A date. -/
structure Date where
  year : Nat
  month : Nat
  day : Nat
  year_bounds : 1 ≤ year ∧ year ≤ 9999
  month_bounds : 1 ≤ month ∧ month ≤ 12
  day_bounds : 1 ≤ day ∧ day ≤ daysInMonth year month
  deriving DecidableEq

namespace Date

/-- The date of three numbers, or the first of them that is out of range. -/
def ofParts (year month day : Nat) : Except CalendarFault Date :=
  if hy : 1 ≤ year ∧ year ≤ 9999 then
    if hm : 1 ≤ month ∧ month ≤ 12 then
      if hd : 1 ≤ day ∧ day ≤ daysInMonth year month then .ok ⟨year, month, day, hy, hm, hd⟩
      else .error .day
    else .error .month
  else .error (.year year)

def daysBeforeYear (year : Nat) : Nat :=
  let y := year - 1
  365 * y + y / 4 - y / 100 + y / 400

def daysBeforeMonth (year month : Nat) : Nat :=
  (List.range (month - 1)).foldl (fun days m => days + daysInMonth year (m + 1)) 0

/-- The number of a day, the first of January of year 1 being day 1. -/
def ordinal (year month day : Nat) : Nat :=
  daysBeforeYear year + daysBeforeMonth year month + day

def toOrdinal (d : Date) : Nat := ordinal d.year d.month d.day

def weekday (ordinal : Nat) : Nat := (ordinal + 6) % 7

/-- The month and day that a day of a year falls on, days counted from 0 and months from
`month`. -/
def monthAndDay (year : Nat) : (months month dayOfYear : Nat) → Nat × Nat
  | 0, month, n => (month, n + 1)
  | months + 1, month, n =>
    if n < daysInMonth year month then (month, n + 1)
    else monthAndDay year months (month + 1) (n - daysInMonth year month)

def partsOfOrdinal (ordinal : Nat) : Nat × Nat × Nat :=
  let guess := ordinal / 366 + 1
  let later := ((List.range 30).map (guess + ·)).takeWhile fun y => daysBeforeYear (y + 1) < ordinal
  let year := guess + later.length
  let (month, day) := monthAndDay year 11 1 (ordinal - 1 - daysBeforeYear year)
  (year, month, day)

/-- The number of the Monday that starts the first week of a year: the week with its first
Thursday. -/
def firstMonday (year : Nat) : Nat :=
  let first := ordinal year 1 1
  let day := weekday first
  if 3 < day then first + 7 - day else first - day

/-- How many weeks a year has: 53 if it starts on a Thursday, or on a Wednesday and is leap. -/
def weeksInYear (year : Nat) : Nat :=
  let day := weekday (ordinal year 1 1)
  if day = 3 ∨ (day = 2 ∧ isLeapYear year) then 53 else 52

/-- The year, month and day of a day of a numbered week, `none` where the year has no such day.
Year 0 counts 52 weeks; they lie before the calendar and have no month, which is written 0. -/
def partsOfWeek? (year week day : Nat) : Option (Nat × Nat × Nat) :=
  let weeks := if year = 0 then 52 else weeksInYear year
  if 1 ≤ week ∧ week ≤ weeks ∧ 1 ≤ day ∧ day ≤ 7 then
    if year = 0 then some (1, 0, day)
    else some (partsOfOrdinal (firstMonday year + 7 * (week - 1) + (day - 1)))
  else none

end Date

end FieldSchema
