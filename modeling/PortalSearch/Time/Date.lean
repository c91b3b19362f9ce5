import PortalSearch.Text.Basic

/-!
# Dates

Days of the calendar in use since 1582, carried back before it: a year is a leap year if
it is a multiple of four, unless it is a multiple of a hundred and not of four hundred.
Days are counted from the first of January 1970.
-/

namespace PortalSearch

/-- A day of the calendar. -/
structure Date where
  /-- the year, from 1 on -/
  year : Nat
  /-- the month, from 1 to 12 -/
  month : Nat
  /-- the day of the month, from 1 on -/
  day : Nat
  deriving DecidableEq

namespace Date

/-- Whether a year has 366 days. -/
def isLeapYear (year : Nat) : Bool :=
  year % 4 == 0 && (year % 100 != 0 || year % 400 == 0)

/-- How many days a month has. -/
def daysInMonth (year month : Nat) : Nat :=
  if month = 2 then (if isLeapYear year then 29 else 28)
  else if month = 4 ∨ month = 6 ∨ month = 9 ∨ month = 11 then 30
  else 31

/-- The days of a year before the first of a month. -/
def daysBeforeMonth (year month : Nat) : Nat :=
  (List.range (month - 1)).foldl (fun days i => days + daysInMonth year (i + 1)) 0

/-- The days before the first of January of a year, from that of the year 1 on. -/
def daysBeforeYear (year : Nat) : Nat :=
  let past := year - 1
  365 * past + past / 4 - past / 100 + past / 400

/-- The days from the first of January 1970 to a day, negative for earlier days. -/
def epochDay (d : Date) : Int :=
  (daysBeforeYear d.year + daysBeforeMonth d.year d.month + d.day : Nat) -
    (daysBeforeYear 1970 + 1 : Nat)

example : epochDay ⟨1970, 1, 1⟩ = 0 := rfl

/-- Year, month and day with dashes between them. -/
def text (d : Date) : Text :=
  Text.padZeros 4 (Text.ofNat d.year) ++ ['-'] ++ Text.padZeros 2 (Text.ofNat d.month) ++ ['-'] ++
    Text.padZeros 2 (Text.ofNat d.day)

end Date

end PortalSearch
