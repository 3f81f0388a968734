import Mathlib.Order.Basic
import Mathlib.Algebra.Order.Group.Nat

/-!
# Rtc — calendar tasks

A calendar task fires when the current time has reached its expiry, and an auto-load task is then
given a new one: the current time rounded down to a multiple of the interval, unit by unit from
years to seconds, plus the interval.  This module is the code: the additions with their carries,
the rounding, the comparison and the loop.

Months are counted from 1.  Two slips show in the definitions: the years of an interval are
narrowed to `u8` on their way into the addition, and the carry of days takes every fourth year for
a leap year where `rtc_task_validate_time` knows the Gregorian rule.
-/

namespace Kinetis.Rtc

/-! ### Times -/

/-- The date part of `struct tm`. -/
structure Date where
  year : Nat
  mon  : Nat
  mday : Nat
  deriving DecidableEq, Repr

/-- `struct tm`, as far as it is used. -/
structure Tm extends Date where
  hour : Nat
  min  : Nat
  sec  : Nat
  deriving DecidableEq, Repr

/-- `time_after32`. -/
def timeAfter32 (a b : Nat) : Bool := 2 ^ 31 ≤ (b + 2 ^ 32 - a) % 2 ^ 32

/-- `rtc_task_expired`: the current time is not before `expired`. -/
def rtcTaskExpired (cur expired : Tm) : Bool :=
  if cur.year ≠ expired.year then timeAfter32 cur.year expired.year
  else if cur.mon ≠ expired.mon then timeAfter32 cur.mon expired.mon
  else if cur.mday ≠ expired.mday then timeAfter32 cur.mday expired.mday
  else if cur.hour ≠ expired.hour then timeAfter32 cur.hour expired.hour
  else if cur.min ≠ expired.min then timeAfter32 cur.min expired.min
  else if cur.sec ≠ expired.sec then timeAfter32 cur.sec expired.sec
  else true

/-- `rtc_task_validate_time`. -/
def rtcTaskValidateTime (t : Tm) : Bool :=
  if t.year < 1970 ∨ t.year > 9999 ∨ t.mon < 1 ∨ t.mon > 12 ∨ t.mday < 1 ∨ t.mday > 31 ∨
      t.hour > 23 ∨ t.min > 59 ∨ t.sec > 59 then false
  else if t.mon = 2 ∧ t.mday >
      (if t.year % 4 = 0 ∧ (t.year % 100 ≠ 0 ∨ t.year % 400 = 0) then 29 else 28) then false
  else if (t.mon = 4 ∨ t.mon = 6 ∨ t.mon = 9 ∨ t.mon = 11) ∧ t.mday > 30 then false
  else true

/-! ### Additions -/

def isShortMonth (mon : Nat) : Bool := mon = 4 ∨ mon = 6 ∨ mon = 9 ∨ mon = 11

def isLongMonth (mon : Nat) : Bool :=
  mon = 1 ∨ mon = 3 ∨ mon = 5 ∨ mon = 7 ∨ mon = 8 ∨ mon = 10 ∨ mon = 12

/-- The end of `rtc_task_special_add_days`: months carry into years. -/
def carryYear (d : Date) : Date :=
  if d.mon < 13 then d else { d with mon := d.mon - 12, year := d.year + 1 }

/-- The third block of `rtc_task_special_add_days`. -/
def carryLong (d : Date) : Date :=
  if isLongMonth d.mon then
    if d.mday < 32 then d else carryYear { d with mday := d.mday - 31, mon := d.mon + 1 }
  else carryYear d

/-- The second block. -/
def carryShort (d : Date) : Date :=
  if isShortMonth d.mon then
    if d.mday < 31 then d else carryLong { d with mday := d.mday - 30, mon := d.mon + 1 }
  else carryLong d

/-- `rtc_task_special_add_days`. -/
def rtcTaskSpecialAddDays (d : Date) : Date :=
  if d.mon = 2 then
    if d.year % 4 = 0 then
      if d.mday < 30 then d else carryShort { d with mday := d.mday - 29, mon := d.mon + 1 }
    else
      if d.mday < 29 then d else carryShort { d with mday := d.mday - 28, mon := d.mon + 1 }
  else carryShort d

/-- `++tm_mday` and its carry. -/
def nextDay (d : Date) : Date := rtcTaskSpecialAddDays { d with mday := d.mday + 1 }

/-- Hours carry into days. -/
def carryHour (t : Tm) : Tm :=
  if t.hour < 24 then t else { t with hour := t.hour - 24, toDate := nextDay t.toDate }

def carryMin (t : Tm) : Tm :=
  if t.min < 60 then t else carryHour { t with min := t.min - 60, hour := t.hour + 1 }

def carrySec (t : Tm) : Tm :=
  if t.sec < 60 then t else carryMin { t with sec := t.sec - 60, min := t.min + 1 }

/-- `rtc_task_time_add_seconds`; the number is a `u8`, here and below. -/
def rtcTaskTimeAddSeconds (t : Tm) (seconds : Nat) : Tm :=
  if seconds % 2 ^ 8 > 60 then t else carrySec { t with sec := t.sec + seconds % 2 ^ 8 }

def rtcTaskTimeAddMinutes (t : Tm) (minutes : Nat) : Tm :=
  if minutes % 2 ^ 8 > 60 then t else carryMin { t with min := t.min + minutes % 2 ^ 8 }

def rtcTaskTimeAddHours (t : Tm) (hours : Nat) : Tm :=
  if hours % 2 ^ 8 > 24 then t else carryHour { t with hour := t.hour + hours % 2 ^ 8 }

/-- The loop of `rtc_task_time_add_days`. -/
def addDays : Nat → Date → Date
  | 0, d => d
  | n + 1, d => addDays n (nextDay d)

def rtcTaskTimeAddDays (t : Tm) (days : Nat) : Tm :=
  { t with toDate := addDays (days % 2 ^ 8) t.toDate }

def rtcTaskTimeAddMonths (t : Tm) (months : Nat) : Tm :=
  if months % 2 ^ 8 > 12 then t
  else
    { t with toDate := carryYear { t.toDate with mon := t.mon + months % 2 ^ 8 } }

def rtcTaskTimeAddYear (t : Tm) (years : Nat) : Tm :=
  { t with year := t.year + years % 2 ^ 8 }

/-! ### The next expiry -/

def updateYear (interval t : Tm) : Tm :=
  if interval.year ≠ 0 then
    rtcTaskTimeAddYear
      { year := t.year - t.year % interval.year, mon := 0, mday := 0, hour := 0, min := 0, sec := 0 }
      interval.year
  else t

def updateMon (interval t : Tm) : Tm :=
  if interval.mon ≠ 0 then
    rtcTaskTimeAddMonths
      { t with mon := t.mon - t.mon % interval.mon, mday := 0, hour := 0, min := 0, sec := 0 }
      interval.mon
  else t

def updateMday (interval t : Tm) : Tm :=
  if interval.mday ≠ 0 then
    rtcTaskTimeAddDays
      { t with mday := t.mday - t.mday % interval.mday, hour := 0, min := 0, sec := 0 }
      interval.mday
  else t

def updateHour (interval t : Tm) : Tm :=
  if interval.hour ≠ 0 then
    rtcTaskTimeAddHours { t with hour := t.hour - t.hour % interval.hour, min := 0, sec := 0 }
      interval.hour
  else t

def updateMin (interval t : Tm) : Tm :=
  if interval.min ≠ 0 then
    rtcTaskTimeAddMinutes { t with min := t.min - t.min % interval.min, sec := 0 } interval.min
  else t

def updateSec (interval t : Tm) : Tm :=
  if interval.sec ≠ 0 then rtcTaskTimeAddSeconds t interval.sec else t

/-- `rtc_task_update_time`. -/
def rtcTaskUpdateTime (cur interval : Tm) : Tm :=
  updateSec interval (updateMin interval (updateHour interval
    (updateMday interval (updateMon interval (updateYear interval cur)))))

/-! ### Tasks -/

/-- `struct rtc_task`. -/
structure RtcTask where
  expired  : Tm
  interval : Tm
  autoLoad : Bool
  deriving DecidableEq, Repr

/-- `rtc_task_add`: what it refuses, and the task it adds. -/
def rtcTaskAdd (cur interval : Tm) (autoLoad : Bool) : Option RtcTask :=
  if interval.year > 9999 ∨ interval.mon > 12 ∨ interval.mday > 31 ∨ interval.hour > 23 ∨
      interval.min > 59 ∨ interval.sec > 59 then none
  else if cur.year = 0 then none
  else some ⟨rtcTaskUpdateTime cur interval, interval, autoLoad⟩

/-- `rtc_task_loop`: the tasks whose callbacks run, and the tasks that stay in the list. -/
def rtcTaskLoop (cur : Tm) : List RtcTask → List RtcTask × List RtcTask
  | [] => ([], [])
  | task :: rest =>
    let (fired, kept) := rtcTaskLoop cur rest
    if rtcTaskExpired cur task.expired then
      (task :: fired,
        if task.autoLoad then
          { task with expired := rtcTaskUpdateTime cur task.interval } :: kept
        else kept)
    else (fired, task :: kept)

end Kinetis.Rtc
