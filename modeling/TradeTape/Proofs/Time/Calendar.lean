import Mathlib.Tactic.IntervalCases
import Mathlib.Tactic.Ring
import TradeTape.Time.Calendar

/-
  Days are numbered as the calendar has them.

  Counted from March, the days of a year lie between the start
  of the year and that of the next, and there is only one year
  to which a day can belong.  The same holds of the months of a
  year, whose lengths repeat every five months.  So days and
  dates determine each other, and the date of the next day is
  the next date.

  Key statements include:
    * `CivilDate.HasDay`
    * `CivilDate.valid_iff`
    * `CivilDate.valid_ofDay`
    * `CivilDate.toDay_ofDay`
    * `CivilDate.ofDay_toDay`
    * `CivilDate.ofDay_succ`
-/

namespace TradeTape

namespace CivilDate

------------------------------------------------------------
-- Years
------------------------------------------------------------

/- The days from 1 March of the year 0 to that of a year. -/
def yearStart (year : Int) : Int :=
  365 * year + year / 4 - year / 100 + year / 400

/- A year from March ends with the February of the next year. -/
theorem yearStart_add_one (year : Int) :
    yearStart (year + 1)
      = yearStart year + if IsLeap (year + 1) then 366 else 365 := by
  by_cases hLeap : IsLeap (year + 1)
  · rw [if_pos hLeap]
    unfold IsLeap at hLeap
    unfold yearStart
    omega
  · rw [if_neg hLeap]
    unfold IsLeap at hLeap
    unfold yearStart
    omega

theorem yearStart_le
    {year later : Int}
    (hLater : year ≤ later) :
    yearStart year ≤ yearStart later := by
  rcases Int.le_iff_eq_or_lt.mp hLater with rfl | hLater
  · exact Int.le_refl _
  · unfold yearStart
    omega

theorem yearStart_add_eras
    (year era : Int) :
    yearStart (year + era * 400) = yearStart year + era * 146097 := by
  unfold yearStart
  omega

/- The days of a year, both counted from March. -/
def HasDay (year day : Int) : Prop :=
  0 ≤ day ∧ yearStart year + day < yearStart (year + 1)

theorem HasDay.le
    {year day : Int}
    (hDay : HasDay year day) :
    day ≤ 365 := by
  have hEnd := hDay.2
  rw [yearStart_add_one] at hEnd
  split at hEnd <;> omega

/- A day belongs to one year only. -/
theorem HasDay.year_eq
    {year other day otherDay : Int}
    (hDay : HasDay year day)
    (hOther : HasDay other otherDay)
    (hSame : yearStart year + day = yearStart other + otherDay) :
    year = other := by
  unfold HasDay at hDay hOther
  rcases Int.lt_trichotomy year other with hLess | hEq | hMore
  · have hNext : yearStart (year + 1) ≤ yearStart other :=
      yearStart_le hLess
    omega
  · exact hEq
  · have hNext : yearStart (other + 1) ≤ yearStart year :=
      yearStart_le hMore
    omega

------------------------------------------------------------
-- Eras
------------------------------------------------------------

/- The year of an era to which a day of the era belongs. -/
def yearOfEra (day : Int) : Int :=
  (day - day / 1460 + day / 36524 - day / 146096) / 365

/-
  An era consists of four centuries, a century of cycles of
  four years.  All but the last century lack the last day of
  their last cycle.
-/
theorem exists_century_cycle
    {day : Int}
    (hStart : 0 ≤ day)
    (hEnd : day < 146096) :
    ∃ century cycle rest : Int,
      day = 36524 * century + (1461 * cycle + rest)
        ∧ (0 ≤ century ∧ century ≤ 3)
        ∧ (0 ≤ cycle ∧ cycle ≤ 24)
        ∧ (0 ≤ rest ∧ rest ≤ 1460)
        ∧ 1461 * cycle + rest < 36524 :=
  ⟨day / 36524, day % 36524 / 1461, day % 36524 % 1461, by omega⟩

/- The start of a year of a cycle. -/
theorem yearStart_cycle
    {century cycle year : Int}
    (hCentury : 0 ≤ century ∧ century ≤ 3)
    (hCycle : 0 ≤ cycle ∧ cycle ≤ 24)
    (hYear : 0 ≤ year ∧ year ≤ 3) :
    yearStart (100 * century + 4 * cycle + year)
      = 36524 * century + 1461 * cycle + 365 * year := by
  unfold yearStart
  omega

/- The fourth year of a cycle is the one with a leap day. -/
theorem isLeap_cycle
    {century cycle year : Int}
    (hCentury : 0 ≤ century ∧ century ≤ 3)
    (hCycle : 0 ≤ cycle ∧ cycle ≤ 24)
    (hYear : 0 ≤ year ∧ year ≤ 3) :
    IsLeap (100 * century + 4 * cycle + year + 1)
      ↔ year = 3 ∧ (cycle = 24 → century = 3) := by
  unfold IsLeap
  omega

theorem yearOfEra_eq
    {century cycle rest : Int}
    (hCentury : 0 ≤ century ∧ century ≤ 3)
    (hCycle : 0 ≤ cycle ∧ cycle ≤ 24)
    (hRest : 0 ≤ rest ∧ rest ≤ 1460)
    (hLess : 1461 * cycle + rest < 36524) :
    yearOfEra (36524 * century + (1461 * cycle + rest))
      = 100 * century + 4 * cycle + (rest - rest / 1460) / 365 := by
  have hEra :
      (36524 * century + (1461 * cycle + rest)) / 146096 = 0 := by
    omega
  have hWhole :
      (36524 * century + (1461 * cycle + rest)) / 36524 = century := by
    omega
  have hPassed :
      (36524 * century + (1461 * cycle + rest)) / 1460
        = 25 * century + cycle
          + (rest + (cycle + 24 * century)) / 1460 := by
    omega
  have hShift :
      0 ≤ cycle + 24 * century ∧ cycle + 24 * century ≤ 96 := by
    omega
  have hYear :
      (rest - (rest + (cycle + 24 * century)) / 1460) / 365
        = (rest - rest / 1460) / 365 := by
    generalize cycle + 24 * century = shift at hShift
    omega
  have hWholeYears :
      36524 * century + (1461 * cycle + rest)
          - (25 * century + cycle
            + (rest + (cycle + 24 * century)) / 1460)
          + century - 0
        = rest - (rest + (cycle + 24 * century)) / 1460
          + (100 * century + 4 * cycle) * 365 := by
    ring
  unfold yearOfEra
  rw [hEra, hWhole, hPassed, hWholeYears,
    Int.add_mul_ediv_right _ _ (by decide), hYear, Int.add_comm]

theorem hasDay_yearOfEra
    {day : Int}
    (hStart : 0 ≤ day)
    (hEnd : day < 146097) :
    HasDay (yearOfEra day) (day - yearStart (yearOfEra day)) := by
  unfold HasDay
  by_cases hLast : day = 146096
  · subst hLast
    decide
  rcases exists_century_cycle hStart (by omega) with
    ⟨century, cycle, rest, rfl, hCentury, hCycle, hRest, hLess⟩
  have hYear :
      0 ≤ (rest - rest / 1460) / 365
        ∧ (rest - rest / 1460) / 365 ≤ 3 := by
    omega
  rw [yearOfEra_eq hCentury hCycle hRest hLess, yearStart_add_one,
    yearStart_cycle hCentury hCycle hYear]
  simp only [isLeap_cycle hCentury hCycle hYear]
  split <;> omega

------------------------------------------------------------
-- Months
------------------------------------------------------------

/- The days from 1 March to a month that is counted from March. -/
def monthStart (fromMarch : Int) : Int :=
  (153 * fromMarch + 2) / 5

/- The month of the calendar that is counted from March. -/
def calendarMonth (fromMarch : Int) : Int :=
  if fromMarch < 10 then fromMarch + 3 else fromMarch - 9

/- The month, counted from March, to which a day belongs. -/
theorem eq_month_iff
    {day fromMarch : Int} :
    (5 * day + 2) / 153 = fromMarch
      ↔ monthStart fromMarch ≤ day ∧ day < monthStart (fromMarch + 1) := by
  unfold monthStart
  omega

------------------------------------------------------------
-- Dates counted from March
------------------------------------------------------------

/- The days from 1 March of the year 0 to 1970-01-01. -/
def epoch : Int := 719468

/- The year from March to which a date belongs. -/
def marchYear (d : CivilDate) : Int :=
  if d.month ≤ 2 then d.year - 1 else d.year

/- The month of a date, counted from March. -/
def marchMonth (d : CivilDate) : Int :=
  ((d.month + 9) % 12 : Nat)

/- The day of a date, counted from 1 March. -/
def marchDay (d : CivilDate) : Int :=
  monthStart d.marchMonth + d.day - 1

theorem toDay_eq (d : CivilDate) :
    d.toDay = yearStart d.marchYear + d.marchDay - epoch := by
  have hEras : d.marchYear.fdiv 400 = d.marchYear / 400 :=
    Int.fdiv_eq_ediv_of_nonneg _ (by decide)
  have hDay :
      d.toDay
        = d.marchYear.fdiv 400 * 146097
          + ((d.marchYear - d.marchYear.fdiv 400 * 400) * 365
            + (d.marchYear - d.marchYear.fdiv 400 * 400) / 4
            - (d.marchYear - d.marchYear.fdiv 400 * 400) / 100
            + d.marchDay)
          - epoch :=
    rfl
  rw [hDay, hEras]
  unfold yearStart
  omega

/-
  A month lasts until the next one from March starts, but
  February until its year from March ends.
-/
theorem day_le_monthLength_iff
    {d : CivilDate}
    (hMonth : 1 ≤ d.month ∧ d.month ≤ 12) :
    d.day ≤ monthLength d.year d.month
      ↔ d.marchDay < monthStart (d.marchMonth + 1)
        ∧ yearStart d.marchYear + d.marchDay
          < yearStart (d.marchYear + 1) := by
  rcases d with ⟨year, month, day⟩
  rcases hMonth with ⟨hFirst, hLast⟩
  rw [yearStart_add_one]
  unfold marchDay marchMonth marchYear monthStart monthLength
  dsimp only at hFirst hLast ⊢
  interval_cases month
  all_goals
    simp only [Nat.reduceLeDiff, if_true, if_false, Int.sub_add_cancel]
    split <;> omega

theorem month_bounds_of_pos
    {d : CivilDate}
    (hSome : 0 < monthLength d.year d.month) :
    1 ≤ d.month ∧ d.month ≤ 12 := by
  unfold monthLength at hSome
  split at hSome <;> omega

/- A date is valid if its month and its year have its day. -/
theorem valid_iff
    {d : CivilDate} :
    d.Valid
      ↔ (1 ≤ d.month ∧ d.month ≤ 12)
        ∧ (5 * d.marchDay + 2) / 153 = d.marchMonth
        ∧ HasDay d.marchYear d.marchDay := by
  have hFirst :
      1 ≤ d.day ↔ monthStart d.marchMonth ≤ d.marchDay := by
    unfold marchDay
    omega
  have hMarch : 0 ≤ monthStart d.marchMonth := by
    unfold monthStart marchMonth
    omega
  unfold Valid HasDay
  rw [eq_month_iff]
  constructor
  · rintro ⟨hDay, hLast⟩
    have hMonth := month_bounds_of_pos (Nat.lt_of_lt_of_le hDay hLast)
    have hStart := hFirst.mp hDay
    have hEnd := (day_le_monthLength_iff hMonth).mp hLast
    exact
      ⟨hMonth, ⟨hStart, hEnd.1⟩, le_trans hMarch hStart, hEnd.2⟩
  · rintro ⟨hMonth, ⟨hStart, hEnd⟩, -, hYear⟩
    exact
      ⟨hFirst.mpr hStart,
        (day_le_monthLength_iff hMonth).mpr ⟨hEnd, hYear⟩⟩

theorem Valid.month_bounds
    {d : CivilDate}
    (hValid : d.Valid) :
    1 ≤ d.month ∧ d.month ≤ 12 :=
  (valid_iff.mp hValid).1

theorem Valid.day_le
    {d : CivilDate}
    (hValid : d.Valid) :
    d.day ≤ 31 := by
  refine Nat.le_trans hValid.2 ?_
  unfold monthLength
  split
  case h_12 => split <;> decide
  all_goals decide

------------------------------------------------------------
-- The date of a day
------------------------------------------------------------

/- The date of a day of a year, both counted from March. -/
def ofMarch (year day : Int) : CivilDate :=
  let fromMarch := (5 * day + 2) / 153
  { year := if calendarMonth fromMarch ≤ 2 then year + 1 else year
    month := (calendarMonth fromMarch).toNat
    day := (day - monthStart fromMarch + 1).toNat }

section OfMarch

variable {year day : Int}

/- The months of a year are twelve, with a leap day or without. -/
theorem HasDay.month_bounds
    (hDay : HasDay year day) :
    0 ≤ (5 * day + 2) / 153 ∧ (5 * day + 2) / 153 ≤ 11 := by
  have hFirst := hDay.1
  have hLast := hDay.le
  omega

theorem HasDay.marchMonth_ofMarch
    (hDay : HasDay year day) :
    (ofMarch year day).marchMonth = (5 * day + 2) / 153 := by
  have hMonth := hDay.month_bounds
  unfold marchMonth ofMarch calendarMonth
  dsimp only
  split <;> omega

theorem HasDay.marchYear_ofMarch
    (hDay : HasDay year day) :
    (ofMarch year day).marchYear = year := by
  have hMonth := hDay.month_bounds
  unfold marchYear ofMarch calendarMonth
  dsimp only
  split <;> split <;> omega

theorem HasDay.marchDay_ofMarch
    (hDay : HasDay year day) :
    (ofMarch year day).marchDay = day := by
  have hStart := (eq_month_iff.mp (Eq.refl ((5 * day + 2) / 153))).1
  unfold marchDay
  rw [hDay.marchMonth_ofMarch]
  unfold ofMarch
  dsimp only
  omega

theorem HasDay.toDay_ofMarch
    (hDay : HasDay year day) :
    (ofMarch year day).toDay = yearStart year + day - epoch := by
  rw [toDay_eq, hDay.marchYear_ofMarch, hDay.marchDay_ofMarch]

theorem HasDay.valid_ofMarch
    (hDay : HasDay year day) :
    (ofMarch year day).Valid := by
  rw [valid_iff, hDay.marchYear_ofMarch, hDay.marchMonth_ofMarch,
    hDay.marchDay_ofMarch]
  refine ⟨?_, rfl, hDay⟩
  have hMonth := hDay.month_bounds
  unfold ofMarch calendarMonth
  dsimp only
  split <;> omega

end OfMarch

/- A date is the one of its own day of its own year. -/
theorem Valid.ofMarch_eq
    {d : CivilDate}
    (hValid : d.Valid) :
    ofMarch d.marchYear d.marchDay = d := by
  rcases valid_iff.mp hValid with ⟨hMonth, hMarch, -⟩
  have hSame : calendarMonth d.marchMonth = d.month := by
    unfold calendarMonth marchMonth
    split <;> omega
  rcases d with ⟨year, month, day⟩
  unfold ofMarch
  rw [hMarch]
  dsimp only at hSame ⊢
  rw [hSame]
  unfold marchYear marchDay
  congr 1
  · dsimp only
    split <;> omega
  · dsimp only
    omega

/- The day of its era of a day since 1 March of the year 0. -/
def dayOfEra (day : Int) : Int :=
  day - day.fdiv 146097 * 146097

/- The year from March to which a day since 1 March 0 belongs. -/
def yearOf (day : Int) : Int :=
  yearOfEra (dayOfEra day) + day.fdiv 146097 * 400

theorem dayOfEra_bounds (day : Int) :
    0 ≤ dayOfEra day ∧ dayOfEra day < 146097 := by
  unfold dayOfEra
  rw [Int.fdiv_eq_ediv_of_nonneg _ (by decide)]
  omega

theorem yearStart_yearOf (day : Int) :
    yearStart (yearOf day)
      = yearStart (yearOfEra (dayOfEra day))
        + day.fdiv 146097 * 146097 :=
  yearStart_add_eras _ _

theorem hasDay_yearOf (day : Int) :
    HasDay (yearOf day) (day - yearStart (yearOf day)) := by
  have hEra := dayOfEra_bounds day
  have hYear := hasDay_yearOfEra hEra.1 hEra.2
  have hNext :
      yearOf day + 1
        = yearOfEra (dayOfEra day) + 1 + day.fdiv 146097 * 400 := by
    unfold yearOf
    omega
  have hDay : day = dayOfEra day + day.fdiv 146097 * 146097 := by
    unfold dayOfEra
    omega
  unfold HasDay at *
  rw [yearStart_yearOf, hNext, yearStart_add_eras]
  omega

theorem yearOfEra_nonneg_lt
    {day : Int}
    (hFirst : 0 ≤ day)
    (hLast : day < 146097) :
    0 ≤ yearOfEra day ∧ yearOfEra day < 400 := by
  have hYear := hasDay_yearOfEra hFirst hLast
  unfold HasDay at hYear
  have hZero : yearStart 0 = 0 := by decide
  have hEra : yearStart 400 = 146097 := by decide
  constructor
  · by_contra hLess
    have hEarly : yearStart (yearOfEra day + 1) ≤ yearStart 0 :=
      yearStart_le (by omega)
    omega
  · by_contra hMore
    have hLate : yearStart 400 ≤ yearStart (yearOfEra day) :=
      yearStart_le (by omega)
    omega

/- Inside an era no year counts for the 400 years of eras. -/
theorem ofDay_eq (n : Int) :
    ofDay n
      = ofMarch (yearOf (n + epoch))
          (n + epoch - yearStart (yearOf (n + epoch))) := by
  have hShape :
      ofDay n
        = ofMarch (yearOf (n + epoch))
            (dayOfEra (n + epoch)
              - (365 * yearOfEra (dayOfEra (n + epoch))
                + yearOfEra (dayOfEra (n + epoch)) / 4
                - yearOfEra (dayOfEra (n + epoch)) / 100)) :=
    rfl
  have hEra := dayOfEra_bounds (n + epoch)
  have hYear := yearOfEra_nonneg_lt hEra.1 hEra.2
  rw [hShape, yearStart_yearOf]
  congr 1
  unfold yearStart dayOfEra at *
  omega

------------------------------------------------------------
-- Days and dates
------------------------------------------------------------

theorem valid_ofDay (n : Int) : (ofDay n).Valid := by
  rw [ofDay_eq]
  exact (hasDay_yearOf (n + epoch)).valid_ofMarch

theorem toDay_ofDay (n : Int) : (ofDay n).toDay = n := by
  rw [ofDay_eq, (hasDay_yearOf (n + epoch)).toDay_ofMarch]
  omega

theorem ofDay_toDay
    {d : CivilDate}
    (hValid : d.Valid) :
    ofDay d.toDay = d := by
  have hHasDay := (valid_iff.mp hValid).2.2
  have hDay : d.toDay + epoch = yearStart d.marchYear + d.marchDay := by
    rw [toDay_eq, Int.sub_add_cancel]
  have hYear : yearOf (d.toDay + epoch) = d.marchYear := by
    refine (hasDay_yearOf _).year_eq hHasDay ?_
    omega
  rw [ofDay_eq, hYear, hDay, add_sub_cancel_left]
  exact hValid.ofMarch_eq

------------------------------------------------------------
-- Succession
------------------------------------------------------------

/- The date after a date. -/
def next (d : CivilDate) : CivilDate :=
  if d.day < monthLength d.year d.month then
    { d with day := d.day + 1 }
  else if d.month < 12 then
    { year := d.year, month := d.month + 1, day := 1 }
  else
    { year := d.year + 1, month := 1, day := 1 }

theorem monthLength_pos
    (year : Int)
    {month : Nat}
    (hFirst : 1 ≤ month)
    (hLast : month ≤ 12) :
    1 ≤ monthLength year month := by
  unfold monthLength
  by_cases hLeap : IsLeap year
  all_goals interval_cases month <;> simp [hLeap]

/- Whatever comes before it, a next date is one of the calendar. -/
theorem valid_next (d : CivilDate) : d.next.Valid := by
  unfold next
  split
  · rename_i hMore
    exact ⟨Nat.succ_pos _, hMore⟩
  · split
    · rename_i hMore
      exact ⟨Nat.le_refl 1, monthLength_pos _ (Nat.succ_pos _) hMore⟩
    · exact
        ⟨Nat.le_refl 1,
          monthLength_pos _ (Nat.le_refl 1) (Nat.le_add_left 1 11)⟩

theorem toDay_next_day
    (year : Int)
    (month day : Nat) :
    toDay { year := year, month := month, day := day + 1 }
      = toDay { year := year, month := month, day := day } + 1 := by
  rw [toDay_eq, toDay_eq]
  unfold marchDay marchMonth marchYear
  dsimp only
  omega

/- February is the last month of a year from March. -/
theorem toDay_next_month
    (year : Int)
    {month : Nat}
    (hFirst : 1 ≤ month)
    (hMore : month < 12) :
    toDay { year := year, month := month + 1, day := 1 }
      = toDay
          { year := year, month := month, day := monthLength year month }
        + 1 := by
  have hStart := yearStart_add_one (year - 1)
  rw [Int.sub_add_cancel] at hStart
  rw [toDay_eq, toDay_eq]
  unfold marchDay marchMonth marchYear monthStart monthLength
  interval_cases month
  all_goals
    simp only [Nat.reduceAdd, Nat.reduceLeDiff, if_true, if_false]
    by_cases hLeap : IsLeap year
    all_goals
      simp only [hLeap, if_true, if_false] at hStart ⊢
      omega

theorem toDay_next_year (year : Int) :
    toDay { year := year + 1, month := 1, day := 1 }
      = toDay { year := year, month := 12, day := 31 } + 1 := by
  rw [toDay_eq, toDay_eq]
  unfold marchDay marchMonth marchYear monthStart
  simp only [Nat.reduceAdd, Nat.reduceLeDiff, if_true, if_false,
    Int.add_sub_cancel]
  omega

theorem Valid.toDay_next
    {d : CivilDate}
    (hValid : d.Valid) :
    d.next.toDay = d.toDay + 1 := by
  have hMonth := hValid.month_bounds
  rcases d with ⟨year, month, day⟩
  unfold Valid at hValid
  unfold CivilDate.next
  dsimp only at *
  split
  · exact toDay_next_day year month day
  · have hDay : day = monthLength year month := by omega
    subst hDay
    split
    · rename_i hMore
      exact toDay_next_month year hMonth.1 hMore
    · have hDecember : month = 12 := by omega
      subst hDecember
      exact toDay_next_year year

theorem ofDay_zero : ofDay 0 = { year := 1970, month := 1, day := 1 } := by
  decide

/- The calendar passes from day to day. -/
theorem ofDay_succ (n : Int) : ofDay (n + 1) = (ofDay n).next := by
  have hValid := valid_ofDay n
  have hNext := hValid.toDay_next
  rw [toDay_ofDay] at hNext
  rw [← hNext, ofDay_toDay (valid_next _)]

end CivilDate

end TradeTape
