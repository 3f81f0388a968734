import Mathlib.Order.Basic
import Mathlib.Algebra.Order.Group.Nat

/-!
# Lib — the Gregorian calendar

The rule of 4, 100 and 400 years, applied to every year, and the number of a day: how many days of
that calendar there are up to it.  Numbers of days respect the order of the calendar
(`Day.number_lt`), so a number belongs to one day at most (`Day.number_inj`), and "`n` days later" is
`n` more in the number.
-/

namespace Lib.Gregorian

def isLeap (year : Nat) : Bool := year % 4 = 0 ∧ (year % 100 ≠ 0 ∨ year % 400 = 0)

def yearLen (year : Nat) : Nat := if isLeap year then 366 else 365

/-- Months are counted from 1. -/
def daysInMonth (year mon : Nat) : Nat :=
  if mon = 2 then if isLeap year then 29 else 28
  else if mon = 4 ∨ mon = 6 ∨ mon = 9 ∨ mon = 11 then 30 else 31

/-- The days before a year, from year 0 on. -/
def yearStart : Nat → Nat
  | 0 => 0
  | year + 1 => yearStart year + yearLen year

/-- The days of a year before a month. -/
def monthStart (year : Nat) : Nat → Nat
  | 0 | 1 => 0
  | mon + 2 => monthStart year (mon + 1) + daysInMonth year (mon + 1)

structure Day where
  year : Nat
  mon  : Nat
  mday : Nat
  deriving DecidableEq, Repr

structure Day.Valid (d : Day) : Prop where
  mon_pos  : 1 ≤ d.mon
  mon_le   : d.mon ≤ 12
  mday_pos : 1 ≤ d.mday
  mday_le  : d.mday ≤ daysInMonth d.year d.mon

/-- The number of a day: 1 for the first of January of year 0. -/
def Day.number (d : Day) : Nat := yearStart d.year + monthStart d.year d.mon + d.mday

/-- Lexicographic order. -/
def Day.Before (a b : Day) : Prop :=
  a.year < b.year ∨ a.year = b.year ∧ (a.mon < b.mon ∨ a.mon = b.mon ∧ a.mday < b.mday)

/-! ### Years and months -/

theorem yearStart_mono {a b : Nat} (h : a ≤ b) : yearStart a ≤ yearStart b := by
  induction h with
  | refl => exact Nat.le_refl _
  | step _ ih => exact Nat.le_trans ih (Nat.le_add_right _ _)

theorem monthStart_succ (year : Nat) {mon : Nat} (h : 1 ≤ mon) :
    monthStart year (mon + 1) = monthStart year mon + daysInMonth year mon := by
  cases mon with
  | zero => exact absurd h (Nat.not_succ_le_zero 0)
  | succ mon => rfl

theorem monthStart_mono (year : Nat) {a b : Nat} (h : a ≤ b) :
    monthStart year a ≤ monthStart year b := by
  induction h with
  | refl => exact Nat.le_refl _
  | @step b _ ih =>
    refine Nat.le_trans ih ?_
    cases b with
    | zero => exact Nat.le_refl _
    | succ b => exact Nat.le_add_right _ _

/-- The twelve months are the year. -/
theorem monthStart_end (year : Nat) : monthStart year 13 = yearLen year := by
  have hfeb : daysInMonth year 2 = if isLeap year then 29 else 28 := rfl
  have hsum : monthStart year 13 = 31 + daysInMonth year 2 + 306 := by
    simp only [monthStart]
    rfl
  rw [hsum, hfeb, yearLen]
  split
  · rfl
  · rfl

/-! ### The order of the days -/

variable {a b : Day}

/-- Within its year a day comes before the start of every later month. -/
theorem Day.Valid.le_monthStart (h : a.Valid) {mon : Nat} (hmon : a.mon < mon) :
    monthStart a.year a.mon + a.mday ≤ monthStart a.year mon :=
  calc monthStart a.year a.mon + a.mday
      ≤ monthStart a.year a.mon + daysInMonth a.year a.mon := Nat.add_le_add_left h.mday_le _
    _ = monthStart a.year (a.mon + 1) := (monthStart_succ _ h.mon_pos).symm
    _ ≤ monthStart a.year mon := monthStart_mono _ hmon

/-- **Later days have larger numbers.** -/
theorem Day.number_lt (ha : a.Valid) (hb : b.Valid) (h : a.Before b) : a.number < b.number := by
  have hpos := hb.mday_pos
  rw [Day.number, Day.number]
  rcases h with hyear | ⟨hyear, hmon | ⟨hmon, hday⟩⟩
  · have hend := ha.le_monthStart (Nat.lt_succ_of_le ha.mon_le)
    have hnext : yearStart (a.year + 1) ≤ yearStart b.year := yearStart_mono hyear
    rw [monthStart_end] at hend
    rw [yearStart] at hnext
    omega
  · have hend := ha.le_monthStart hmon
    rw [← hyear]
    omega
  · rw [← hyear, ← hmon]
    omega

theorem Day.trichotomy (a b : Day) : a.Before b ∨ a = b ∨ b.Before a := by
  rw [Day.mk.injEq]
  simp only [Day.Before]
  omega

/-- **A number belongs to one day.** -/
theorem Day.number_inj (ha : a.Valid) (hb : b.Valid) (h : a.number = b.number) : a = b := by
  rcases Day.trichotomy a b with hlt | heq | hgt
  · exact absurd h (Nat.ne_of_lt (Day.number_lt ha hb hlt))
  · exact heq
  · exact absurd h.symm (Nat.ne_of_lt (Day.number_lt hb ha hgt))

/-! ### The next day -/

theorem number_next_month (year : Nat) {mon : Nat} (h : 1 ≤ mon) :
    Day.number ⟨year, mon + 1, 1⟩ = Day.number ⟨year, mon, daysInMonth year mon⟩ + 1 := by
  rw [Day.number, Day.number]
  dsimp only
  rw [monthStart_succ _ h]
  omega

theorem number_next_year (year : Nat) :
    Day.number ⟨year + 1, 1, 1⟩ = Day.number ⟨year, 12, 31⟩ + 1 := by
  have hend : monthStart year 12 + 31 = yearLen year := monthStart_end year
  have hstart : monthStart (year + 1) 1 = 0 := rfl
  rw [Day.number, Day.number]
  dsimp only
  rw [yearStart]
  omega

end Lib.Gregorian
