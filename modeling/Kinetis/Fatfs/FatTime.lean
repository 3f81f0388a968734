import Kinetis.Lib.Gregorian
import Mathlib.Tactic.IntervalCases

/-!
# Fatfs — FAT stamps as Unix times

`fat_time_to_unix_timestamp` takes the date and the time of a directory entry, two packed words, and
counts seconds.  Against it stands the calendar: the number of the day (`Day.number`), from
1 January 1970 on, and the second of that day.

* `yearStart_eq`: the closed form of the source counts the leap years as the calendar does;
* `fat_time_exact`: the seconds are those of the calendar, and a later stamp gives more of them.

The fields are read as numbers: the packed words are shifted and masked as `int`, where nothing
overflows, and the years are at least 1980, so that no subtraction of the closed form is negative.
-/

namespace Kinetis.Fatfs
open Lib.Gregorian

/-! ### The conversion -/

def fatYear (fdate : UInt16) : Nat := (fdate.toNat >>> 9 &&& 0x7F) + 1980
def fatMonth (fdate : UInt16) : Nat := fdate.toNat >>> 5 &&& 0x0F
def fatDay (fdate : UInt16) : Nat := fdate.toNat &&& 0x1F
def fatHour (ftime : UInt16) : Nat := ftime.toNat >>> 11 &&& 0x1F
def fatMinute (ftime : UInt16) : Nat := ftime.toNat >>> 5 &&& 0x3F
def fatSecond (ftime : UInt16) : Nat := (ftime.toNat &&& 0x1F) * 2

def month_days : List Nat := [31, 28, 31, 30, 31, 30, 31, 31, 30, 31, 30, 31]

/-- The loop over the months before the current one, `n` of them; past the table it reads 0. -/
def addMonths (year days : Nat) : (n : Nat) → Nat
  | 0 => days
  | n + 1 =>
    let days' := addMonths year days n + month_days.getD n 0
    if n + 1 = 2 ∧ (year % 400 = 0 ∨ year % 100 ≠ 0 ∧ year % 4 = 0) then days' + 1 else days'

/-- `fat_time_to_unix_timestamp`. -/
def fatTimeToUnixTimestamp (fdate ftime : UInt16) : Nat :=
  let year := fatYear fdate
  let days := 365 * (year - 1970) + (year - 1969) / 4 - (year - 1901) / 100 + (year - 1601) / 400
  (addMonths year days (fatMonth fdate - 1) + fatDay fdate - 1) * 86400 + fatHour ftime * 3600 +
    fatMinute ftime * 60 + fatSecond ftime

/-! ### The civil time of a stamp -/

def fatCivilDay (fdate : UInt16) : Day := ⟨fatYear fdate, fatMonth fdate, fatDay fdate⟩

/-- The second of the day. -/
def fatSecondOfDay (ftime : UInt16) : Nat :=
  fatHour ftime * 3600 + fatMinute ftime * 60 + fatSecond ftime

def epoch : Day := ⟨1970, 1, 1⟩

/-- A date of the calendar with a time on the clock; the years are 1980 to 2107 by the encoding. -/
structure FatValid (fdate ftime : UInt16) : Prop where
  day    : (fatCivilDay fdate).Valid
  hour   : fatHour ftime ≤ 23
  minute : fatMinute ftime ≤ 59
  second : fatSecond ftime ≤ 58

/-- The stamp as one number, the date above the time. -/
def fatStamp (fdate ftime : UInt16) : Nat := fdate.toNat * 2 ^ 16 + ftime.toNat

theorem and_mask (n k : Nat) : n &&& (2 ^ k - 1) = n % 2 ^ k := Nat.and_two_pow_sub_one_eq_mod n k

theorem shift_and_mask (n s k : Nat) : n >>> s &&& (2 ^ k - 1) = n / 2 ^ s % 2 ^ k := by
  rw [and_mask, Nat.shiftRight_eq_div_pow]

/-- The fields of a date, from the top. -/
theorem fatDate_eq (fdate : UInt16) :
    fdate.toNat = (fatYear fdate - 1980) * 512 + fatMonth fdate * 32 + fatDay fdate ∧
      fatMonth fdate < 16 ∧ fatDay fdate < 32 := by
  have hyear : fatYear fdate = fdate.toNat / 512 % 128 + 1980 :=
    congrArg (· + 1980) (shift_and_mask _ 9 7)
  have hmonth : fatMonth fdate = fdate.toNat / 32 % 16 := shift_and_mask _ 5 4
  have hday : fatDay fdate = fdate.toNat % 32 := and_mask _ 5
  have hlt := fdate.toNat_lt
  omega

theorem fatTime_eq (ftime : UInt16) :
    ftime.toNat = fatHour ftime * 2048 + fatMinute ftime * 32 + fatSecond ftime / 2 ∧
      fatMinute ftime < 64 ∧ fatSecond ftime < 64 ∧ fatSecond ftime % 2 = 0 := by
  have hhour : fatHour ftime = ftime.toNat / 2048 % 32 := shift_and_mask _ 11 5
  have hminute : fatMinute ftime = ftime.toNat / 32 % 64 := shift_and_mask _ 5 6
  have hsecond : fatSecond ftime = ftime.toNat % 32 * 2 := congrArg (· * 2) (and_mask _ 5)
  have hlt := ftime.toNat_lt
  omega

/-! ### Days -/

/-- **The leap years in closed form**, from the year `e` of the epoch on. -/
theorem yearStart_eq {e : Nat} (he : e = 1970) (k : Nat) :
    yearStart (e + k) =
      yearStart e + (365 * k + (k + 1) / 4 - (k + 69) / 100 + (k + 369) / 400) := by
  induction k with
  | zero => simp
  | succ k ih =>
    have hlen : yearLen (e + k) =
        if (e + k) % 4 = 0 ∧ ((e + k) % 100 ≠ 0 ∨ (e + k) % 400 = 0) then 366 else 365 := by
      simp only [yearLen, isLeap, decide_eq_true_iff]
    rw [← Nat.add_assoc, yearStart, ih, hlen]
    split
    · omega
    · omega

/-- The years from which the closed form counts. -/
theorem years_since (k : Nat) : 1970 + k - 1970 = k ∧ 1970 + k - 1969 = k + 1 ∧
    1970 + k - 1901 = k + 69 ∧ 1970 + k - 1601 = k + 369 := by
  omega

/-- **The loop over the months** adds the days of the year before the month. -/
theorem addMonths_eq (year days : Nat) {n : Nat} (hn : n ≤ 11) :
    addMonths year days n = days + monthStart year (n + 1) := by
  induction n with
  | zero => rfl
  | succ n ih =>
    -- each entry of the table, with the day that a leap year adds, is a month of the calendar
    have hmonth : (month_days.getD n 0 + if n + 1 = 2 ∧
        (year % 400 = 0 ∨ year % 100 ≠ 0 ∧ year % 4 = 0) then 1 else 0) =
          daysInMonth year (n + 1) := by
      have hlt : n < 11 := hn
      rw [daysInMonth, isLeap]
      interval_cases n <;> simp [month_days]
      split
      · rw [if_pos (by omega)]
      · rw [if_neg (by omega)]
    rw [addMonths, monthStart, ← hmonth]
    split
    · omega
    · omega

variable {fdate ftime fdate' ftime' : UInt16}

/-- Days from the epoch, the seconds of the day beside them. -/
theorem FatValid.days (h : FatValid fdate ftime) :
    (fatCivilDay fdate).number * 86400 + fatSecondOfDay ftime =
      epoch.number * 86400 + fatTimeToUnixTimestamp fdate ftime := by
  obtain ⟨hpos, hle, hday, -⟩ := h.day
  dsimp only [fatCivilDay] at hpos hle hday
  have hmon : fatMonth fdate - 1 + 1 = fatMonth fdate := Nat.sub_add_cancel hpos
  have hmonths := addMonths_eq (fatYear fdate) (n := fatMonth fdate - 1)
  rw [hmon] at hmonths
  rw [fatTimeToUnixTimestamp, hmonths _ (by omega), fatSecondOfDay]
  obtain ⟨k, hk⟩ : ∃ k, fatYear fdate = 1970 + k :=
    Nat.exists_eq_add_of_le (Nat.le_add_left _ _)
  obtain ⟨h70, h69, h01, h16⟩ := years_since k
  have hnumber : (fatCivilDay fdate).number =
      yearStart (1970 + k) + monthStart (fatYear fdate) (fatMonth fdate) + fatDay fdate := by
    rw [← hk]
    rfl
  have hepoch : epoch.number = yearStart 1970 + 1 := by
    simp only [Day.number, epoch, monthStart, Nat.add_zero]
  rw [hnumber, hepoch, yearStart_eq rfl]
  clear hnumber hepoch
  -- only the number of years matters from here on
  clear h70 h69 h01 h16
  omega

/-! ### The order of stamps -/

theorem FatValid.secondOfDay_lt (h : FatValid fdate ftime) : fatSecondOfDay ftime < 86400 := by
  obtain ⟨-, hhour, hminute, hsecond⟩ := h
  rw [fatSecondOfDay]
  omega

theorem fatCivilDay_before (h : fdate.toNat < fdate'.toNat) :
    (fatCivilDay fdate).Before (fatCivilDay fdate') := by
  obtain ⟨heq, hmonth, hday⟩ := fatDate_eq fdate
  obtain ⟨heq', hmonth', hday'⟩ := fatDate_eq fdate'
  have hyear' : 1980 ≤ fatYear fdate' := Nat.le_add_left _ _
  dsimp only [Day.Before, fatCivilDay]
  omega

theorem fatSecondOfDay_lt (hvalid : FatValid fdate ftime) (h : ftime.toNat < ftime'.toNat) :
    fatSecondOfDay ftime < fatSecondOfDay ftime' := by
  obtain ⟨-, -, hminute, hsecond⟩ := hvalid
  obtain ⟨heq, -⟩ := fatTime_eq ftime
  obtain ⟨heq', -⟩ := fatTime_eq ftime'
  rw [fatSecondOfDay, fatSecondOfDay]
  omega

/-- **FAT stamps as Unix times.**  Of every valid stamp the conversion gives the seconds from
1 January 1970 to its civil time, and of a later stamp more. -/
theorem fat_time_exact :
    (∀ fdate ftime, FatValid fdate ftime →
      fatTimeToUnixTimestamp fdate ftime =
        ((fatCivilDay fdate).number - epoch.number) * 86400 + fatSecondOfDay ftime) ∧
    ∀ fdate ftime fdate' ftime', FatValid fdate ftime → FatValid fdate' ftime' →
      fatStamp fdate ftime < fatStamp fdate' ftime' →
      fatTimeToUnixTimestamp fdate ftime < fatTimeToUnixTimestamp fdate' ftime' := by
  constructor
  · intro fdate ftime h
    have hdays := h.days
    have hlt := h.secondOfDay_lt
    omega
  · intro fdate ftime fdate' ftime' h h' hlt
    have hdays := h.days
    have hdays' := h'.days
    have hsec := h.secondOfDay_lt
    have htime := ftime.toNat_lt
    have htime' := ftime'.toNat_lt
    rw [fatStamp, fatStamp] at hlt
    rcases Nat.lt_or_ge fdate.toNat fdate'.toNat with hdate | hdate
    · have hnumber := Day.number_lt h.day h'.day (fatCivilDay_before hdate)
      omega
    · have hsame : fdate = fdate' := UInt16.toNat_inj.mp (by omega)
      subst hsame
      have hlater := fatSecondOfDay_lt h (show ftime.toNat < ftime'.toNat by omega)
      omega

/-- 29 February 2000, 12:34:56. -/
theorem fat_time_exact_leap_day :
    FatValid 0x285D 0x645C ∧ fatTimeToUnixTimestamp 0x285D 0x645C =
      ((fatCivilDay 0x285D).number - epoch.number) * 86400 + fatSecondOfDay 0x645C := by
  have h : FatValid 0x285D 0x645C :=
    ⟨⟨by decide, by decide, by decide, by decide⟩, by decide, by decide, by decide⟩
  exact ⟨h, fat_time_exact.1 _ _ h⟩

end Kinetis.Fatfs
