/-
  This file defines the proleptic Gregorian calendar: dates
  and their distance in days from 1970-01-01.

  Years are counted from March, so that the leap day is the
  last day of its year, and in cycles of 400 years, which
  have 146097 days each.

  Key definitions include:
    * `Calendar.Date`
    * `Calendar.Date.dayNumber`
    * `Calendar.Date.ofDayNumber`
    * `Calendar.Date.valid`
-/

------------------------------------------------------------
-- Dates
------------------------------------------------------------

namespace Reconciler

namespace Calendar

/- A calendar date. -/
structure Date where
  year : Int
  month : Nat
  day : Nat
deriving DecidableEq, Repr

namespace Date

/- Leap years. -/
def isLeap
    (year : Int) : Bool :=
  year % 4 = 0 && (year % 100 ≠ 0 || year % 400 = 0)

/- The number of days of a month. -/
def daysInMonth
    (year : Int)
    (month : Nat) : Nat :=
  if month = 2 then
    if isLeap year then 29 else 28
  else if month ∈ [4, 6, 9, 11] then
    30
  else
    31

/- Whether a date exists. -/
def valid
    (d : Date) : Bool :=
  1 ≤ d.month && d.month ≤ 12 && 1 ≤ d.day &&
    d.day ≤ daysInMonth d.year d.month

/- The days from 1970-01-01 to a date. -/
def dayNumber
    (d : Date) : Int :=
  let year := if d.month ≤ 2 then d.year - 1 else d.year
  let cycle := year / 400
  let yearOfCycle := year % 400
  let month : Int := ((d.month + 9) % 12 : Nat)
  let dayOfYear := (153 * month + 2) / 5 + d.day - 1
  let dayOfCycle :=
    yearOfCycle * 365 + yearOfCycle / 4
      - yearOfCycle / 100 + dayOfYear
  cycle * 146097 + dayOfCycle - 719468

/- The date that many days from 1970-01-01. -/
def ofDayNumber
    (n : Int) : Date :=
  let shifted := n + 719468
  let cycle := shifted / 146097
  let dayOfCycle := shifted % 146097
  let yearOfCycle :=
    (dayOfCycle - dayOfCycle / 1460 + dayOfCycle / 36524
      - dayOfCycle / 146096) / 365
  let dayOfYear :=
    dayOfCycle - (365 * yearOfCycle + yearOfCycle / 4
      - yearOfCycle / 100)
  let month := (5 * dayOfYear + 2) / 153
  let day := dayOfYear - (153 * month + 2) / 5 + 1
  let year := yearOfCycle + cycle * 400
  if month < 10 then
    ⟨year, (month + 3).toNat, day.toNat⟩
  else
    ⟨year + 1, (month - 9).toNat, day.toNat⟩

end Date

end Calendar

end Reconciler
