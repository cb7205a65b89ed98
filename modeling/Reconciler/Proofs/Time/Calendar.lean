import Mathlib.Tactic.Ring
import Reconciler.Time.Calendar

/-
  This file proves that days and dates correspond: every day
  has a date that exists, and the date tells the day.

  A year counted from March is placed in its cycle of 400
  years by its century, its group of four years and its
  place in the group.  Only the last year of a group can
  have the leap day, and of the last group of a century only
  the one that ends the cycle has it.

  Key definitions include:
    * `Calendar.daysBefore`
    * `Calendar.Date.ofYearDay`

  Key theorems include:
    * `Calendar.Date.ofDayNumber_valid`
    * `Calendar.Date.ofDayNumber_year`
    * `Calendar.Date.dayNumber_ofDayNumber`
-/

------------------------------------------------------------
-- Years from March
------------------------------------------------------------

namespace Reconciler

namespace Calendar

/- The days before a year, counted from March of year 0. -/
def daysBefore
    (year : Int) : Int :=
  365 * year + year / 4 - year / 100 + year / 400

/- Later years have more days before them. -/
theorem daysBefore_mono
    {year year' : Int}
    (hLe : year ≤ year') :
    daysBefore year ≤ daysBefore year' := by
  have hGroups : year / 4 ≤ year' / 4 := by omega
  have hCycles : year / 400 ≤ year' / 400 := by omega
  have hCenturies :
      year' / 100 ≤ year / 100 + (year' - year) := by
    omega
  unfold daysBefore
  omega

/- A day of a cycle, placed in century, group and year. -/
theorem exists_place
    {d : Int}
    (hStart : 0 ≤ d)
    (hEnd : d < 146097) :
    ∃ century group year day : Int,
      (0 ≤ century ∧ century ≤ 3) ∧
        (0 ≤ group ∧ group ≤ 24) ∧
        (0 ≤ year ∧ year ≤ 3) ∧
        (0 ≤ day ∧ day ≤ 365) ∧
        (day = 365 →
          year = 3 ∧ (group = 24 → century = 3)) ∧
        d = 36524 * century + 1461 * group + 365 * year +
          day := by
  have hCentury :
      ∃ century rest : Int,
        0 ≤ century ∧ century ≤ 3 ∧ 0 ≤ rest ∧
          rest ≤ 36524 ∧ (rest = 36524 → century = 3) ∧
          d = 36524 * century + rest :=
    ⟨min (d / 36524) 3, d - 36524 * min (d / 36524) 3,
      by omega⟩
  rcases hCentury with
    ⟨century, rest, hCenturyStart, hCenturyEnd, hRestStart,
      hRestEnd, hLast, hRest⟩
  have hYear :
      ∃ year day : Int,
        0 ≤ year ∧ year ≤ 3 ∧ 0 ≤ day ∧ day ≤ 365 ∧
          (day = 365 → year = 3) ∧
          rest % 1461 = 365 * year + day :=
    ⟨min (rest % 1461 / 365) 3,
      rest % 1461 - 365 * min (rest % 1461 / 365) 3,
      by omega⟩
  rcases hYear with ⟨year, day, hYear⟩
  exact ⟨century, rest / 1461, year, day, by omega⟩

/- The year of a day of a cycle. -/
theorem yearOfCycle_eq
    {d century group year day : Int}
    (hCentury : 0 ≤ century ∧ century ≤ 3)
    (hGroup : 0 ≤ group ∧ group ≤ 24)
    (hYear : 0 ≤ year ∧ year ≤ 3)
    (hDay : 0 ≤ day ∧ day ≤ 365)
    (hLeap :
      day = 365 → year = 3 ∧ (group = 24 → century = 3))
    (hPlace :
      d = 36524 * century + 1461 * group + 365 * year +
        day) :
    (d - d / 1460 + d / 36524 - d / 146096) / 365 =
      100 * century + 4 * group + year := by
  -- The two corrections cancel on the last day of a cycle.
  have hCenturies : d / 36524 - d / 146096 = century := by
    by_cases hLast : d = 146096
    · subst hLast
      omega
    · have hNone : d / 146096 = 0 := by omega
      have hSame : d / 36524 = century := by omega
      omega
  have hGroups :
      ∃ carry,
        d / 1460 = 25 * century + group + carry ∧
          (carry = 0 ∧
              24 * century + group + 365 * year + day <
                1460 ∨
            carry = 1 ∧
              1460 ≤
                24 * century + group + 365 * year + day) := by
    by_cases hCarry :
        24 * century + group + 365 * year + day < 1460
    · exact ⟨0, by omega, by omega⟩
    · exact ⟨1, by omega, by omega⟩
  rcases hGroups with ⟨carry, hGroups, hCarry⟩
  omega

/- The groups and centuries of a placed year. -/
theorem placed_div
    {group year : Int}
    (century : Int)
    (hGroup : 0 ≤ group ∧ group ≤ 24)
    (hYear : 0 ≤ year ∧ year ≤ 3) :
    (100 * century + 4 * group + year) / 4 =
        25 * century + group ∧
      (100 * century + 4 * group + year) / 100 =
        century := by
  omega

/- The days before a placed year of a cycle. -/
theorem daysBefore_placed
    {century group year : Int}
    (cycle : Int)
    (hCentury : 0 ≤ century ∧ century ≤ 3)
    (hGroup : 0 ≤ group ∧ group ≤ 24)
    (hYear : 0 ≤ year ∧ year ≤ 3) :
    daysBefore
        (100 * century + 4 * group + year + cycle * 400) =
      36524 * century + 1461 * group + 365 * year +
        146097 * cycle := by
  have hGroups :
      (100 * century + 4 * group + year + cycle * 400) / 4 =
        25 * century + group + 100 * cycle := by
    omega
  have hCenturies :
      (100 * century + 4 * group + year + cycle * 400) /
          100 =
        century + 4 * cycle := by
    omega
  have hCycles :
      (100 * century + 4 * group + year + cycle * 400) /
          400 =
        cycle := by
    omega
  unfold daysBefore
  omega

------------------------------------------------------------
-- Days of a Year
------------------------------------------------------------

namespace Date

/- The date of a day of a year counted from March. -/
def ofYearDay
    (year day : Int) : Date :=
  let month := (5 * day + 2) / 153
  let dayOfMonth := day - (153 * month + 2) / 5 + 1
  if month < 10 then
    ⟨year, (month + 3).toNat, dayOfMonth.toNat⟩
  else
    ⟨year + 1, (month - 9).toNat, dayOfMonth.toNat⟩

theorem isLeap_iff
    (year : Int) :
    isLeap year = true ↔
      year % 4 = 0 ∧ (year % 100 ≠ 0 ∨ year % 400 = 0) := by
  simp [isLeap]

theorem valid_iff
    (d : Date) :
    d.valid = true ↔
      (1 ≤ d.month ∧ d.month ≤ 12) ∧
        1 ≤ d.day ∧ d.day ≤ daysInMonth d.year d.month := by
  simp [valid, and_assoc]

/- A year that ends with the leap day is before a leap year. -/
theorem isLeap_placed
    {century group year : Int}
    (cycle : Int)
    (hGroup : 0 ≤ group ∧ group ≤ 24)
    (hLast : year = 3 ∧ (group = 24 → century = 3)) :
    isLeap
        (100 * century + 4 * group + year + cycle * 400 +
          1) =
      true := by
  rw [isLeap_iff]
  rcases hLast with ⟨hYear, hEnd⟩
  by_cases hLastGroup : group = 24
  · have hLastCentury := hEnd hLastGroup
    omega
  · omega

/- The day of its year of a placed day. -/
theorem placed_day
    {d century group year day : Int}
    (hGroup : 0 ≤ group ∧ group ≤ 24)
    (hYear : 0 ≤ year ∧ year ≤ 3)
    (hPlace :
      d = 36524 * century + 1461 * group + 365 * year +
        day) :
    d -
        (365 * (100 * century + 4 * group + year) +
          (100 * century + 4 * group + year) / 4 -
          (100 * century + 4 * group + year) / 100) =
      day := by
  rcases placed_div century hGroup hYear with
    ⟨hGroups, hCenturies⟩
  rw [hGroups, hCenturies, hPlace]
  ring

/- Every day is a day of a year, and has its date. -/
theorem exists_yearDay
    (n : Int) :
    ∃ year day : Int,
      0 ≤ day ∧ day ≤ 365 ∧
        (day = 365 → isLeap (year + 1) = true) ∧
        n + 719468 = daysBefore year + day ∧
        ofDayNumber n = ofYearDay year day := by
  have hStart : 0 ≤ (n + 719468) % 146097 :=
    Int.emod_nonneg _ (by decide)
  have hEnd : (n + 719468) % 146097 < 146097 :=
    Int.emod_lt_of_pos _ (by decide)
  have hSplit := Int.mul_ediv_add_emod (n + 719468) 146097
  unfold ofDayNumber
  dsimp only
  generalize (n + 719468) % 146097 = d at *
  generalize (n + 719468) / 146097 = cycle at *
  rcases exists_place hStart hEnd with
    ⟨century, group, year, day, hCentury, hGroup, hYear,
      hDay, hLeap, hPlace⟩
  have hYearOfCycle :=
    yearOfCycle_eq hCentury hGroup hYear hDay hLeap hPlace
  have hDayOfYear := placed_day hGroup hYear hPlace
  refine
    ⟨100 * century + 4 * group + year + cycle * 400, day,
      hDay.1, hDay.2, ?_, ?_, ?_⟩
  · intro hLast
    exact isLeap_placed cycle hGroup (hLeap hLast)
  · rw [daysBefore_placed cycle hCentury hGroup hYear,
      ← hSplit, hPlace]
    ring
  · unfold ofYearDay
    rw [hYearOfCycle, hDayOfYear]

/- The number of a date in a year counted from March. -/
theorem dayNumber_eq
    {d : Date}
    (year month : Int)
    (hYear :
      year = if d.month ≤ 2 then d.year - 1 else d.year)
    (hMonth : month = ((d.month + 9) % 12 : Nat)) :
    d.dayNumber =
      daysBefore year + (153 * month + 2) / 5 + d.day -
        719469 := by
  have hCycle :
      year / 400 * 146097 +
          (year % 400 * 365 + year % 400 / 4 -
            year % 400 / 100) =
        daysBefore year := by
    have hGroups :
        year % 400 / 4 = year / 4 - 100 * (year / 400) := by
      omega
    have hCenturies :
        year % 400 / 100 =
          year / 100 - 4 * (year / 400) := by
      omega
    unfold daysBefore
    omega
  unfold dayNumber
  dsimp only
  rw [← hYear, ← hMonth]
  omega

/- The date of a day of a year tells the day. -/
theorem dayNumber_ofYearDay
    {year day : Int}
    (hStart : 0 ≤ day)
    (hEnd : day ≤ 365) :
    (ofYearDay year day).dayNumber =
      daysBefore year + day - 719468 := by
  have hMonth :
      0 ≤ (5 * day + 2) / 153 ∧
        (5 * day + 2) / 153 ≤ 11 := by
    omega
  have hDay :
      1 ≤ day - (153 * ((5 * day + 2) / 153) + 2) / 5 +
        1 := by
    omega
  unfold ofYearDay
  dsimp only
  generalize (5 * day + 2) / 153 = month at *
  split
  · rw [dayNumber_eq year month]
    · dsimp only
      omega
    · dsimp only
      rw [if_neg (by omega)]
    · dsimp only
      omega
  · rw [dayNumber_eq year month]
    · dsimp only
      omega
    · dsimp only
      rw [if_pos (by omega)]
      omega
    · dsimp only
      omega

/- The months that end before the next one starts. -/
theorem daysInMonth_fromMarch :
    ∀ month < 11, ∀ year,
      daysInMonth year
            (if month < 10 then month + 3 else month - 9) +
          (153 * month + 2) / 5 =
        (153 * (month + 1) + 2) / 5 := by
  intro month hMonth year
  have hOther :
      (if month < 10 then month + 3 else month - 9) ≠ 2 := by
    split <;> omega
  unfold daysInMonth
  rw [if_neg hOther]
  revert month
  decide

/- The date of a day of a year exists. -/
theorem ofYearDay_valid
    {year day : Int}
    (hStart : 0 ≤ day)
    (hEnd : day ≤ 365)
    (hLeap : day = 365 → isLeap (year + 1) = true) :
    (ofYearDay year day).valid = true := by
  have hMonth :
      ∃ month : Nat,
        (5 * day + 2) / 153 = month ∧ month < 12 :=
    ⟨((5 * day + 2) / 153).toNat, by omega, by omega⟩
  rcases hMonth with ⟨month, hMonth, hTwelve⟩
  have hFirst :
      (153 * (month : Int) + 2) / 5 =
        ((153 * month + 2) / 5 : Nat) := by
    omega
  have hAfter : (153 * month + 2) / 5 ≤ day := by omega
  unfold ofYearDay
  dsimp only
  rw [hMonth, hFirst, valid_iff]
  by_cases hFebruary : month = 11
  · rw [hFebruary] at hAfter ⊢
    rw [if_neg (by decide)]
    dsimp only
    have hSame : (((11 : Nat) : Int) - 9).toNat = 2 := by
      decide
    rw [hSame]
    refine ⟨by decide, by omega, ?_⟩
    unfold daysInMonth
    rw [if_pos rfl]
    split
    · omega
    · next hCommon =>
        have hNotLast : day ≠ 365 :=
          fun hLast => hCommon (hLeap hLast)
        omega
  · have hLength :=
      daysInMonth_fromMarch month (by omega)
    have hBefore :
        day < ((153 * (month + 1) + 2) / 5 : Nat) := by
      omega
    split
    · next hEarly =>
        have hEarly : month < 10 := by omega
        have hSame : ((month : Int) + 3).toNat = month + 3 := by
          omega
        have hLength := hLength year
        rw [if_pos hEarly] at hLength
        dsimp only
        rw [hSame]
        exact ⟨by omega, by omega, by omega⟩
    · next hLate =>
        have hLate : ¬ month < 10 := by omega
        have hSame : ((month : Int) - 9).toNat = month - 9 := by
          omega
        have hLength := hLength (year + 1)
        rw [if_neg hLate] at hLength
        dsimp only
        rw [hSame]
        exact ⟨by omega, by omega, by omega⟩

/- Days of an interval have dates in its years. -/
theorem ofYearDay_year
    {year day : Int}
    (hStart : 0 ≤ day)
    (hEnd : day ≤ 365)
    (hFirst : -95745824 ≤ daysBefore year + day)
    (hLast : daysBefore year + day < 95745705) :
    -262143 ≤ (ofYearDay year day).year ∧
      (ofYearDay year day).year ≤ 262142 := by
  have hNotBefore : -262144 ≤ year := by
    by_contra hBefore
    have hEarlier : year ≤ -262145 := by omega
    have hBound := daysBefore_mono hEarlier
    have hValue : daysBefore (-262145) = -95746496 := by
      decide
    omega
  have hNotAfter : year ≤ 262142 := by
    by_contra hAfter
    have hLater : 262143 ≤ year := by omega
    have hBound := daysBefore_mono hLater
    have hValue : daysBefore 262143 = 95745764 := by
      decide
    omega
  have hFirstYear : daysBefore (-262144) = -95746130 := by
    decide
  have hLastYear : daysBefore 262142 = 95745399 := by
    decide
  unfold ofYearDay
  dsimp only
  split
  · next hEarly =>
      have hNe : year ≠ -262144 := by
        intro hSame
        rw [hSame] at hFirst
        omega
      dsimp only
      exact ⟨by omega, hNotAfter⟩
  · next hLate =>
      have hNe : year ≠ 262142 := by
        intro hSame
        rw [hSame] at hLast
        omega
      dsimp only
      exact ⟨by omega, by omega⟩

------------------------------------------------------------
-- Days and Dates
------------------------------------------------------------

/- The date of a day tells the day. -/
theorem dayNumber_ofDayNumber
    (n : Int) :
    (ofDayNumber n).dayNumber = n := by
  rcases exists_yearDay n with
    ⟨year, day, hStart, hEnd, _, hDay, hDate⟩
  rw [hDate, dayNumber_ofYearDay hStart hEnd]
  omega

/- The date of a day exists. -/
theorem ofDayNumber_valid
    (n : Int) :
    (ofDayNumber n).valid = true := by
  rcases exists_yearDay n with
    ⟨year, day, hStart, hEnd, hLeap, _, hDate⟩
  rw [hDate]
  exact ofYearDay_valid hStart hEnd hLeap

/- The days of instants have dates in the years of instants. -/
theorem ofDayNumber_year
    {n : Int}
    (hFirst : -96465292 ≤ n)
    (hLast : n < 95026237) :
    -262143 ≤ (ofDayNumber n).year ∧
      (ofDayNumber n).year ≤ 262142 := by
  rcases exists_yearDay n with
    ⟨year, day, hStart, hEnd, _, hDay, hDate⟩
  rw [hDate]
  apply ofYearDay_year hStart hEnd
  · rw [← hDay]
    omega
  · rw [← hDay]
    omega

end Date

end Calendar

end Reconciler
