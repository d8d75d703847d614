/-!
The proleptic Gregorian calendar: day numbers counted from 1970-01-01 and the dates they fall on.
A year is split at the end of February, so that the leap day is the last of its year.
-/

namespace LogRelay.Time

def isLeapYear (year : Int) : Bool :=
  year % 4 == 0 && (year % 100 != 0 || year % 400 == 0)

/-- Length of a month; `month` counts from 1. -/
def daysInMonth (year : Int) (month : Nat) : Nat :=
  if month = 2 then if isLeapYear year then 29 else 28
  else if month = 4 ∨ month = 6 ∨ month = 9 ∨ month = 11 then 30
  else 31

structure Date where
  year : Int
  month : Nat
  day : Nat
  deriving DecidableEq, Repr

namespace Date

/-- Month and day exist in that year. -/
def isValid (d : Date) : Bool :=
  1 ≤ d.month && d.month ≤ 12 && 1 ≤ d.day && d.day ≤ daysInMonth d.year d.month

def dayNumber (d : Date) : Int :=
  let y : Int := if d.month ≤ 2 then d.year - 1 else d.year
  let m : Nat := if d.month ≤ 2 then d.month + 9 else d.month - 3
  365 * y + y / 4 - y / 100 + y / 400 + (153 * m + 2) / 5 + d.day - 719469

/-- The date that many days after 1970-01-01. -/
def ofDayNumber (n : Int) : Date :=
  let z := n + 719468
  let era := z / 146097
  let doe := (z % 146097).toNat
  let yoe := (doe - doe / 1460 + doe / 36524 - doe / 146096) / 365
  let doy := doe - (365 * yoe + yoe / 4 - yoe / 100)
  let m := (5 * doy + 2) / 153
  let day := doy - (153 * m + 2) / 5 + 1
  let month := if m < 10 then m + 3 else m - 9
  let year := (yoe : Int) + era * 400
  ⟨if month ≤ 2 then year + 1 else year, month, day⟩

example : (Date.mk 1970 1 1).dayNumber = 0 := by decide
example : (Date.mk 2000 2 29).dayNumber = 11016 := by decide
example : ofDayNumber 11016 = ⟨2000, 2, 29⟩ := by decide
example : ofDayNumber (-719529) = ⟨-1, 12, 31⟩ := by decide

end Date

end LogRelay.Time
