import Mathlib.Data.List.Range
import Arale.Lib.Double
import Arale.Lib.Gregorian

/-!
# The date of a GPS time

GPS counts weeks since 1980-01-06 and the seconds of the week. `GpsToUtcTime`
turns them into a date and a time of day: it takes the days of one year after the
other away from the days since 1980-01-01, looks for the month in a table, and
hands the result to `mktime`.

> `utc_time_exact`: that is the date so many days after 1980-01-06, and the time
> of day.

The loop over the years keeps the day it is about: so many days after the first
of the year (`yearLoop_day`). The seconds are a double. Their quotient by 3600 is
rounded and then cut, which gives the hour for any `Rounding`.
-/

namespace Arale.Gps

open Arale.Lib

/-! ## Model -/

/-- `struct tm`, the fields that are set -/
structure Tm where
  tmYear : Int
  tmMon : Int
  tmMday : Int
  tmHour : Int
  tmMin : Int
  tmSec : Int
  tmIsdst : Int
deriving DecidableEq, Repr

/-- `fgLeapYear`, by the years since 1980 -/
def fgLeapYear (iYearsElapsed : Nat) : Bool :=
  if iYearsElapsed % 100 = 20 then iYearsElapsed % 400 == 20 else iYearsElapsed % 4 == 0

/-- The days that are left after a year; `none` where the loop ends. -/
def yearRound (iYearsElapsed iDaysElapsed : Nat) : Option Nat :=
  if iYearsElapsed % 100 = 20 then
    if iYearsElapsed % 400 = 20 then
      if 366 ≤ iDaysElapsed then some (iDaysElapsed - 366) else none
    else some (iDaysElapsed - 365)
  else if iYearsElapsed % 4 = 0 then
    if 366 ≤ iDaysElapsed then some (iDaysElapsed - 366) else none
  else some (iDaysElapsed - 365)

/-- `while (iDaysElapsed >= 365)`. Each round takes days away, so it ends within
as many rounds as there are days. -/
def yearLoop : Nat → Nat → Nat → Nat × Nat
  | 0, iYearsElapsed, iDaysElapsed => (iYearsElapsed, iDaysElapsed)
  | fuel + 1, iYearsElapsed, iDaysElapsed =>
    if 365 ≤ iDaysElapsed then
      match yearRound iYearsElapsed iDaysElapsed with
      | some left => yearLoop fuel (iYearsElapsed + 1) left
      | none => (iYearsElapsed, iDaysElapsed)
    else (iYearsElapsed, iDaysElapsed)

/-- The days into the year at the start of each month. -/
def doyTable : List Nat := [0, 31, 59, 90, 120, 151, 181, 212, 243, 273, 304, 334]

/-- `doy`, in a leap year one more from March on -/
def doy (leap : Bool) : List Nat :=
  if leap then doyTable.take 2 ++ (doyTable.drop 2).map (· + 1) else doyTable

/-- `pi2Mo` -/
def pi2Mo (leap : Bool) (iDaysElapsed : Nat) : Nat := (doy leap).findIdx (iDaysElapsed < ·)

/-- `pi2Day` -/
def pi2Day (leap : Bool) (iDaysElapsed : Nat) : Nat :=
  if 0 < pi2Mo leap iDaysElapsed then
    iDaysElapsed - (doy leap).getD (pi2Mo leap iDaysElapsed - 1) 0 + 1
  else 0

/-- What `GpsToUtcTime` passes to `mktime`. The days are an `unsigned int`. -/
def gpsToUtcTime (r : Rounding) (i2Wn : Int) (dfTow : ℚ) : Tm :=
  let day := (toInt dfTow).tdiv 86400
  let iDaysElapsed := ((i2Wn * 7 + day + 5) % 2 ^ 32).toNat
  let dfSecElapsed := r.round (dfTow - (day * 86400 : Int))
  let (iYearsElapsed, iDaysElapsed) := yearLoop iDaysElapsed 0 iDaysElapsed
  let leap := fgLeapYear iYearsElapsed
  let pdfSec := r.round (dfSecElapsed - ((toInt dfSecElapsed).tdiv 60 * 60 : Int))
  { tmYear := 1980 + iYearsElapsed - 1900
    tmMon := pi2Mo leap iDaysElapsed - 1
    tmMday := pi2Day leap iDaysElapsed
    tmHour := toInt (r.round (dfSecElapsed / 3600))
    tmMin := ((toInt dfSecElapsed).tmod 3600).tdiv 60
    tmSec := toInt pdfSec
    tmIsdst := -1 }

/-! ## The year -/

section Year

variable {y d fuel : Nat}

theorem fgLeapYear_eq (y : Nat) : fgLeapYear y = leapYear (1980 + y) := by
  rw [fgLeapYear, leapYear]
  by_cases hcentury : y % 100 = 20
  · have hfour : (1980 + y) % 4 = 0 := by omega
    have hhundred : (1980 + y) % 100 = 0 := by omega
    have hcycle : y % 400 = 20 ↔ (1980 + y) % 400 = 0 := by omega
    rw [if_pos hcentury, hfour, hhundred, Bool.eq_iff_iff]
    simpa using hcycle
  · have hhundred : (1980 + y) % 100 ≠ 0 := by omega
    have hfour : y % 4 = 0 ↔ (1980 + y) % 4 = 0 := by omega
    rw [if_neg hcentury, Bool.eq_iff_iff]
    simpa [hhundred] using hfour

/-- A round takes a year away, if it has passed. -/
theorem yearRound_eq (hd : 365 ≤ d) :
    yearRound y d = if yearDays (1980 + y) ≤ d then some (d - yearDays (1980 + y)) else none := by
  have hleap := fgLeapYear_eq y
  rw [fgLeapYear] at hleap
  rw [yearDays, ← hleap, yearRound]
  by_cases hcentury : y % 100 = 20
  · by_cases hcycle : y % 400 = 20
    · simp [hcentury, hcycle]
    · simp [hcentury, hcycle, hd]
  · by_cases hfour : y % 4 = 0
    · simp [hcentury, hfour]
    · simp [hcentury, hfour, hd]

theorem yearDays_ge (y : Nat) : 365 ≤ yearDays y := by
  unfold yearDays
  split
  · decide
  · decide

/-- The loop keeps the day, and ends in its year. -/
theorem yearLoop_day (y d : Nat) (hfuel : d ≤ fuel) :
    Date.next^[(yearLoop fuel y d).2] ⟨1980 + (yearLoop fuel y d).1, 1, 1⟩
        = Date.next^[d] ⟨1980 + y, 1, 1⟩ ∧
      (yearLoop fuel y d).2 < yearDays (1980 + (yearLoop fuel y d).1) := by
  induction fuel generalizing y d with
  | zero =>
    have hpos := yearDays_ge (1980 + y)
    refine ⟨rfl, ?_⟩
    show d < yearDays (1980 + y)
    omega
  | succ fuel ih =>
    have hge := yearDays_ge (1980 + y)
    rw [yearLoop]
    by_cases hd : 365 ≤ d
    · rw [if_pos hd, yearRound_eq hd]
      by_cases hyear : yearDays (1980 + y) ≤ d
      · rw [if_pos hyear]
        obtain ⟨hday, hend⟩ := ih (y + 1) (d - yearDays (1980 + y)) (by omega)
        refine ⟨hday.trans ?_, hend⟩
        obtain ⟨k, rfl⟩ := Nat.exists_eq_add_of_le hyear
        rw [Nat.add_sub_cancel_left, Nat.add_comm _ k, Function.iterate_add_apply, Date.next_year]
        rfl
      · rw [if_neg hyear]
        exact ⟨rfl, Nat.lt_of_not_le hyear⟩
    · rw [if_neg hd]
      refine ⟨rfl, ?_⟩
      show d < yearDays (1980 + y)
      omega

end Year

/-! ## The month -/

section Month

variable {leap : Bool} {d : Nat}

/-- The table has the days before each month. -/
theorem doy_eq (leap : Bool) : doy leap = (List.range 12).map (daysBefore leap) := by
  cases leap with
  | false => rfl
  | true => rfl

/-- The month that is found has begun, and the next one has not. -/
theorem pi2Mo_eq (hd : d < daysBefore leap 12) :
    ∃ m < 12, pi2Mo leap d = m + 1 ∧ daysBefore leap m ≤ d ∧ d < daysBefore leap (m + 1) := by
  have hlength : (doy leap).length = 12 := by
    rw [doy_eq, List.length_map, List.length_range]
  have hle : pi2Mo leap d ≤ 12 := by
    rw [← hlength]
    exact List.findIdx_le_length
  have hentry : ∀ (i : Nat) (hi : i < (doy leap).length), (doy leap)[i] = daysBefore leap i := by
    intro i hi
    simp only [doy_eq, List.getElem_map, List.getElem_range]
  have hbefore : ∀ i, i < pi2Mo leap d → daysBefore leap i ≤ d := by
    intro i hi
    have hnot := List.not_of_lt_findIdx hi
    rw [hentry, decide_eq_false_iff_not] at hnot
    exact Nat.le_of_not_lt hnot
  have hnext : pi2Mo leap d < 12 → d < daysBefore leap (pi2Mo leap d) := by
    intro hi
    have hfound := @List.findIdx_getElem Nat (fun x => decide (d < x)) (doy leap) (by rwa [hlength])
    rw [hentry, decide_eq_true_iff] at hfound
    exact hfound
  obtain ⟨m, hm⟩ : ∃ m, pi2Mo leap d = m + 1 := by
    refine ⟨pi2Mo leap d - 1, ?_⟩
    by_contra hzero
    have hempty : pi2Mo leap d = 0 := by omega
    have hlt := hnext (by omega)
    rw [hempty] at hlt
    exact Nat.not_lt_zero d hlt
  refine ⟨m, by omega, hm, hbefore m (by omega), ?_⟩
  rw [← hm]
  by_cases hlast : pi2Mo leap d < 12
  · exact hnext hlast
  · rwa [show pi2Mo leap d = 12 by omega]

/-- The month and the day of the month. -/
theorem monthDay_eq {y : Nat} (hleap : leap = leapYear y) (hd : d < yearDays y) :
    Date.next^[d] ⟨y, 1, 1⟩ = ⟨y, pi2Mo leap d, pi2Day leap d⟩ := by
  rw [Date.yearDays_eq, ← hleap] at hd
  obtain ⟨m, hm, hmonth, hfirst, hlast⟩ := pi2Mo_eq hd
  have hentry : (doy leap).getD m 0 = daysBefore leap m := by
    rw [doy_eq, List.getD_eq_getElem?_getD, List.getElem?_map, List.getElem?_range hm]
    rfl
  have hday : pi2Day leap d = d - daysBefore leap m + 1 := by
    rw [pi2Day, hmonth, if_pos (Nat.succ_pos m), Nat.add_sub_cancel, hentry]
  rw [hday, hmonth, hleap]
  rw [hleap] at hfirst hlast
  exact Date.next_day_of_year hm hfirst hlast

end Month

/-! ## The time of day -/

section TimeOfDay

variable (r : Rounding) {s t : Nat}

/-- What is left of an integer after whole multiples, in doubles. -/
theorem round_left (k : Nat) (hs : s ≤ 2 ^ 53) :
    r.round ((s : ℚ) - ((toInt s).tdiv k * k : Int)) = (s % k : Nat) := by
  have hquotient : ((toInt s).tdiv k * k : Int) = (s / k * k : Nat) := by
    rw [toInt_natCast, ← Int.ofNat_tdiv, Int.natCast_mul]
  have hleft : (s : ℚ) - ((s / k * k : Nat) : ℚ) = (s % k : Nat) := by
    rw [sub_eq_iff_eq_add, ← Nat.cast_add, Nat.add_comm, Nat.div_add_mod']
  rw [hquotient, Int.cast_natCast, hleft]
  exact r.round_natCast (Nat.le_trans (Nat.mod_le s k) hs)

theorem hour_eq (hs : s < 2 ^ 53) : toInt (r.round (s / 3600)) = (s / 3600 : Nat) :=
  r.toInt_round_div hs (d := 3600) (by decide) (by decide)

theorem minute_eq (s : Nat) : ((toInt s).tmod 3600).tdiv 60 = (s % 3600 / 60 : Nat) := by
  rw [toInt_natCast]
  rfl

end TimeOfDay

/-! ## The date -/

/-- The date so many days after the first day of GPS. -/
def gpsDate (days : Nat) : Date := Date.next^[days] ⟨1980, 1, 6⟩

theorem gpsDate_eq (days : Nat) : gpsDate days = Date.next^[days + 5] ⟨1980, 1, 1⟩ := by
  rfl

theorem gpsDate_valid (days : Nat) : (gpsDate days).Valid := by
  apply Date.Valid.iterate
  exact ⟨by decide, by decide, by decide, by decide⟩

/-- The date and the time of day of a GPS time. -/
theorem utc_time_exact (r : Rounding) (w t : Nat) (hw : w ≤ 300000000) (ht : t < 604800) :
    gpsToUtcTime r w t
        = { tmYear := (gpsDate (7 * w + t / 86400)).year - 1900
            tmMon := (gpsDate (7 * w + t / 86400)).month - 1
            tmMday := (gpsDate (7 * w + t / 86400)).day
            tmHour := (t % 86400 / 3600 : Nat)
            tmMin := (t % 3600 / 60 : Nat)
            tmSec := (t % 60 : Nat)
            tmIsdst := -1 } ∧
      (gpsDate (7 * w + t / 86400)).Valid := by
  refine ⟨?_, gpsDate_valid _⟩
  have hdays : (((w : Int) * 7 + (toInt t).tdiv 86400 + 5) % 2 ^ 32).toNat
      = 7 * w + t / 86400 + 5 := by
    rw [toInt_natCast, show ((t : Int).tdiv 86400) = ((t / 86400 : Nat) : Int) from rfl]
    omega
  have hsec : r.round ((t : ℚ) - ((toInt t).tdiv 86400 * 86400 : Int)) = (t % 86400 : Nat) :=
    round_left r 86400 (by omega)
  have hsmall : t % 86400 < 2 ^ 53 := by omega
  have hleft : r.round (((t % 86400 : Nat) : ℚ) - ((toInt (t % 86400 : Nat)).tdiv 60 * 60 : Int))
      = (t % 86400 % 60 : Nat) := round_left r 60 (by omega)
  obtain ⟨hday, hend⟩ := yearLoop_day 0 (7 * w + t / 86400 + 5) (Nat.le_refl _)
  rw [← gpsDate_eq] at hday
  unfold gpsToUtcTime
  simp only [hdays, hsec, hleft]
  generalize yearLoop (7 * w + t / 86400 + 5) 0 (7 * w + t / 86400 + 5) = year at hday hend
  rw [monthDay_eq (fgLeapYear_eq year.1) hend] at hday
  rw [← hday, hour_eq r hsmall, minute_eq, toInt_natCast]
  congr 1
  · omega
  · omega

/-- The last second of 1980-02-29: week 7, day 5. -/
theorem utc_time_exact_sample :
    gpsToUtcTime Rounding.exact (7 : Nat) (518399 : Nat)
      = { tmYear := 80, tmMon := 1, tmMday := 29, tmHour := 23, tmMin := 59, tmSec := 59
          tmIsdst := -1 } := by
  rw [(utc_time_exact Rounding.exact 7 518399 (by decide) (by decide)).1]
  decide +kernel

end Arale.Gps
