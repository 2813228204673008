/-
  The proleptic Gregorian calendar on day numbers, where
  day 0 is 1970-01-01.

  Years are counted from March inside an era of 400 years,
  so that the leap day is the last day of its year and both
  directions are plain integer division.

  Key definitions include:
    * `CivilDate`
    * `CivilDate.ofDay`
    * `CivilDate.toDay`
    * `CivilDate.Valid`
-/

namespace TradeTape

------------------------------------------------------------
-- Dates
------------------------------------------------------------

/- A date of the proleptic Gregorian calendar. -/
structure CivilDate where
  year : Int
  month : Nat
  day : Nat
deriving DecidableEq, Repr

namespace CivilDate

/- The leap years of the calendar. -/
def IsLeap (year : Int) : Prop :=
  year % 4 = 0 ∧ (year % 100 ≠ 0 ∨ year % 400 = 0)

instance (year : Int) : Decidable (IsLeap year) := by
  unfold IsLeap
  infer_instance

/- The number of days of a month, zero for no month. -/
def monthLength
    (year : Int)
    (month : Nat) : Nat :=
  match month with
  | 1 | 3 | 5 | 7 | 8 | 10 | 12 => 31
  | 4 | 6 | 9 | 11 => 30
  | 2 => if IsLeap year then 29 else 28
  | _ => 0

/- The dates that the calendar has. -/
def Valid (d : CivilDate) : Prop :=
  1 ≤ d.day ∧ d.day ≤ monthLength d.year d.month

instance (d : CivilDate) : Decidable d.Valid := by
  unfold Valid
  infer_instance

------------------------------------------------------------
-- Day numbers
------------------------------------------------------------

/- The number of days from 1970-01-01 to the date. -/
def toDay (d : CivilDate) : Int :=
  let fromMarch : Int := ((d.month + 9) % 12 : Nat)
  let year := if d.month ≤ 2 then d.year - 1 else d.year
  let era := year.fdiv 400
  let yearOfEra := year - era * 400
  let dayOfYear := (153 * fromMarch + 2) / 5 + d.day - 1
  let dayOfEra :=
    yearOfEra * 365 + yearOfEra / 4 - yearOfEra / 100
      + dayOfYear
  era * 146097 + dayOfEra - 719468

/- The date of a day number. -/
def ofDay (n : Int) : CivilDate :=
  let shifted := n + 719468
  let era := shifted.fdiv 146097
  let dayOfEra := shifted - era * 146097
  let yearOfEra :=
    (dayOfEra - dayOfEra / 1460 + dayOfEra / 36524
      - dayOfEra / 146096) / 365
  let dayOfYear :=
    dayOfEra
      - (365 * yearOfEra + yearOfEra / 4 - yearOfEra / 100)
  let fromMarch := (5 * dayOfYear + 2) / 153
  let day := dayOfYear - (153 * fromMarch + 2) / 5 + 1
  let month :=
    if fromMarch < 10 then fromMarch + 3 else fromMarch - 9
  let year := yearOfEra + era * 400
  { year := if month ≤ 2 then year + 1 else year
    month := month.toNat
    day := day.toNat }

end CivilDate

end TradeTape
