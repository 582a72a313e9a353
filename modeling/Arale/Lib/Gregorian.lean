import Mathlib.Logic.Function.Iterate

/-!
# The Gregorian calendar

The calendar is the rule for the next day: the day after the last of a month is
the first of the next one. A date some days after another one is then `next`
applied so many times, and the lemmas say where it leads: through a month, to the
first of a month, and through a year.
-/

namespace Arale.Lib

/-- Leap years, for all years by the rule of today. -/
def leapYear (y : Nat) : Bool := y % 4 == 0 && (y % 100 != 0 || y % 400 == 0)

/-- The days of the month `m`, from 1 to 12. -/
def monthDays (leap : Bool) (m : Nat) : Nat :=
  if m = 2 then if leap then 29 else 28
  else if m = 4 ∨ m = 6 ∨ m = 9 ∨ m = 11 then 30
  else 31

/-- The days of the first `m` months. -/
def daysBefore (leap : Bool) : Nat → Nat
  | 0 => 0
  | m + 1 => daysBefore leap m + monthDays leap (m + 1)

def yearDays (y : Nat) : Nat := if leapYear y then 366 else 365

structure Date where
  year : Nat
  month : Nat
  day : Nat
deriving DecidableEq, Repr

namespace Date

/-- A day of the calendar. -/
structure Valid (d : Date) : Prop where
  month_pos : 1 ≤ d.month
  month_le : d.month ≤ 12
  day_pos : 1 ≤ d.day
  day_le : d.day ≤ monthDays (leapYear d.year) d.month

def next (d : Date) : Date :=
  if d.day < monthDays (leapYear d.year) d.month then ⟨d.year, d.month, d.day + 1⟩
  else if d.month < 12 then ⟨d.year, d.month + 1, 1⟩
  else ⟨d.year + 1, 1, 1⟩

theorem monthDays_pos (leap : Bool) (m : Nat) : 1 ≤ monthDays leap m := by
  unfold monthDays
  split
  · split
    · decide
    · decide
  · split
    · decide
    · decide

theorem Valid.next {d : Date} (h : d.Valid) : d.next.Valid := by
  unfold Date.next
  split
  · next hday => exact ⟨h.month_pos, h.month_le, Nat.le_add_left 1 d.day, hday⟩
  · split
    · next hmonth =>
      exact ⟨Nat.le_add_left 1 d.month, hmonth, Nat.le_refl 1, monthDays_pos _ _⟩
    · exact ⟨Nat.le_refl 1, Nat.le_of_ble_eq_true rfl, Nat.le_refl 1, monthDays_pos _ _⟩

theorem Valid.iterate {d : Date} (h : d.Valid) (n : Nat) : (Date.next^[n] d).Valid := by
  induction n with
  | zero => exact h
  | succ n ih =>
    rw [Function.iterate_succ_apply']
    exact ih.next

section Steps

variable {y m : Nat}

/-- Within a month. -/
theorem next_days {k : Nat} (hk : k < monthDays (leapYear y) m) :
    next^[k] ⟨y, m, 1⟩ = ⟨y, m, k + 1⟩ := by
  induction k with
  | zero => rfl
  | succ k ih =>
    rw [Function.iterate_succ_apply', ih (Nat.lt_of_succ_lt hk), next, if_pos hk]

/-- Through a month, up to its last day and one day on. -/
theorem next_month (y m : Nat) :
    next^[monthDays (leapYear y) m] ⟨y, m, 1⟩
      = if m < 12 then ⟨y, m + 1, 1⟩ else ⟨y + 1, 1, 1⟩ := by
  obtain ⟨last, hlast⟩ : ∃ n, monthDays (leapYear y) m = n + 1 :=
    ⟨monthDays (leapYear y) m - 1, (Nat.sub_add_cancel (monthDays_pos _ m)).symm⟩
  have hstart : next^[last] ⟨y, m, 1⟩ = ⟨y, m, last + 1⟩ := next_days (by omega)
  have hend : ¬ last + 1 < monthDays (leapYear y) m := by omega
  rw [hlast, Function.iterate_succ_apply', hstart, next, if_neg hend]

/-- To the first of a month. -/
theorem next_months (y : Nat) {m : Nat} (hm : m < 12) :
    next^[daysBefore (leapYear y) m] ⟨y, 1, 1⟩ = ⟨y, m + 1, 1⟩ := by
  induction m with
  | zero => rfl
  | succ m ih =>
    rw [daysBefore, Nat.add_comm, Function.iterate_add_apply, ih (Nat.lt_of_succ_lt hm), next_month,
      if_pos hm]

theorem yearDays_eq (y : Nat) : yearDays y = daysBefore (leapYear y) 12 := by
  unfold yearDays
  cases leapYear y with
  | false => rfl
  | true => rfl

/-- Through a year. -/
theorem next_year (y : Nat) : next^[yearDays y] ⟨y, 1, 1⟩ = ⟨y + 1, 1, 1⟩ := by
  rw [yearDays_eq, daysBefore, Nat.add_comm, Function.iterate_add_apply, next_months y (by decide),
    next_month]
  rfl

/-- To a day of the year, by the month and the days before it. -/
theorem next_day_of_year {n : Nat} (hm : m < 12) (hfirst : daysBefore (leapYear y) m ≤ n)
    (hlast : n < daysBefore (leapYear y) (m + 1)) :
    next^[n] ⟨y, 1, 1⟩ = ⟨y, m + 1, n - daysBefore (leapYear y) m + 1⟩ := by
  rw [daysBefore] at hlast
  obtain ⟨k, rfl⟩ := Nat.exists_eq_add_of_le hfirst
  have hk : k < monthDays (leapYear y) (m + 1) := by omega
  rw [Nat.add_comm, Function.iterate_add_apply, next_months y hm, next_days hk, Nat.add_sub_cancel]

end Steps

end Date

end Arale.Lib
