import Mathlib.Data.Nat.Bitwise
import Mathlib.Tactic.IntervalCases

/-!
# Sensor — the alarms of the DS3231

The registers of the clock chip hold alarm 1 in four bytes and alarm 2 in three, in BCD, with a mask
bit at the top of each.  Two interfaces program them: one takes an array (`ds3231_set_alarm1`,
`ds3231_set_alarm2`), the other arguments (`ds3231_set_alarm1_with_seconds`,
`ds3231_set_alarm2_with_minutes`).

* `alarm1_configuration_iff`: the configuration is not read back, since
  `ds3231_get_alarm1_configuration` writes its cleared buffer where it should read;
* `alarm_interfaces_agree_iff`: the array interface loses the mask bits, which it computes first and
  then overwrites, and takes only four bits of a date; where neither matters the two agree.

Registers and arguments are numbers of eight bits.  In 12-hour mode the array interface also changes
its caller's array, which is left out.
-/

namespace Kinetis.Sensor

def ALARM_1_SECONDS : Nat := 0x07
def ALARM_2_MINUTES : Nat := 0x0B
def DS3231_ALARM_MASK : Nat := 0x80
def DS3231_ALARM_DY_DT_BIT : Nat := 0x40
def DS3231_ALARM_DAY : Nat := 0x40
def DS3231_HOURS_12_24_BIT : Nat := 0x40
def DS3231_HOURS_AM_PM_BIT : Nat := 0x20
def DS3231_ALARM_MASK_SECOND : Nat := 0x01
def DS3231_ALARM_MASK_MINUTE : Nat := 0x02
def DS3231_ALARM_MASK_HOUR : Nat := 0x04
def DS3231_ALARM_MASK_DAY_DATE : Nat := 0x08
def WEEK_CYCLE : Nat := 0x00
def MONTH_CYCLE : Nat := 0x01

inductive TimeMode where
  | hours24
  | hours12
  deriving DecidableEq

/-- The registers, and the time mode and region that the driver remembers. -/
structure Ds3231 where
  regs       : Nat → Nat
  timeMode   : TimeMode
  timeRegion : Bool

/-- `regmap_bulk_write`. -/
def Ds3231.bulkWrite (dev : Ds3231) (reg : Nat) (tmp : List Nat) : Ds3231 :=
  { dev with
      regs := fun i => if reg ≤ i ∧ i < reg + tmp.length then tmp.getD (i - reg) 0 else dev.regs i }

def toBcd (x : Nat) : Nat := (x / 10) <<< 4 ||| x % 10

/-- `x &= ~bit`. -/
def clearBit (x bit : Nat) : Nat := x &&& (0xFF ^^^ bit)

/-! ### The interface with arguments -/

def alarmHours (dev : Ds3231) (hours : Nat) : Nat :=
  match dev.timeMode with
  | .hours12 =>
    let tmp := toBcd (if hours > 12 then hours - 12 else hours) ||| DS3231_HOURS_12_24_BIT
    if dev.timeRegion then tmp ||| DS3231_HOURS_AM_PM_BIT else tmp
  | .hours24 => clearBit (toBcd hours) DS3231_HOURS_12_24_BIT

def alarmDayDate (dayDate : Nat) : Nat :=
  if dayDate &&& DS3231_ALARM_DAY ≠ 0 then dayDate &&& 0x0F ||| DS3231_ALARM_DY_DT_BIT
  else clearBit (toBcd dayDate) DS3231_ALARM_DY_DT_BIT

def applyMask (mask bit tmp : Nat) : Nat :=
  if mask &&& bit ≠ 0 then tmp ||| DS3231_ALARM_MASK else tmp

/-- `ds3231_set_alarm1_with_seconds`. -/
def ds3231SetAlarm1WithSeconds (dev : Ds3231) (seconds minutes hours dayDate mask : Nat) : Ds3231 :=
  dev.bulkWrite ALARM_1_SECONDS
    [applyMask mask DS3231_ALARM_MASK_SECOND (toBcd seconds),
      applyMask mask DS3231_ALARM_MASK_MINUTE (toBcd minutes),
      applyMask mask DS3231_ALARM_MASK_HOUR (alarmHours dev hours),
      applyMask mask DS3231_ALARM_MASK_DAY_DATE (alarmDayDate dayDate)]

/-- `ds3231_set_alarm2_with_minutes`. -/
def ds3231SetAlarm2WithMinutes (dev : Ds3231) (minutes hours dayDate mask : Nat) : Ds3231 :=
  dev.bulkWrite ALARM_2_MINUTES
    [applyMask mask DS3231_ALARM_MASK_MINUTE (toBcd minutes),
      applyMask mask DS3231_ALARM_MASK_HOUR (alarmHours dev hours),
      applyMask mask DS3231_ALARM_MASK_DAY_DATE (alarmDayDate dayDate)]

/-! ### The interface with an array -/

/-- The buffer after the tests of the mask, one entry for each bit. -/
def maskBuffer (alarm : Nat) (bits : List Nat) : List Nat := bits.map fun bit => applyMask alarm bit 0

def arrayHours (dev : Ds3231) (hours : Nat) : Nat :=
  match dev.timeMode with
  | .hours24 => clearBit (toBcd (hours &&& 0x3F)) DS3231_HOURS_12_24_BIT
  | .hours12 =>
    toBcd ((if hours > 12 then hours - 12 else hours) &&& 0x1F) ||| DS3231_HOURS_12_24_BIT

/-- The last entry; another `date_or_day` leaves it. -/
def arrayDayDate (tmp : List Nat) (i dateOrDay day : Nat) : List Nat :=
  if dateOrDay = WEEK_CYCLE then tmp.set i ((day &&& 0x0F) % 10 ||| DS3231_ALARM_DY_DT_BIT)
  else if dateOrDay = MONTH_CYCLE then
    tmp.set i (clearBit (toBcd (day &&& 0x0F)) DS3231_ALARM_DY_DT_BIT)
  else tmp

/-- `ds3231_set_alarm1`. -/
def ds3231SetAlarm1 (dev : Ds3231) (pdata : List Nat) (dateOrDay alarm : Nat) : Ds3231 :=
  let tmp := maskBuffer alarm [DS3231_ALARM_MASK_SECOND, DS3231_ALARM_MASK_MINUTE,
    DS3231_ALARM_MASK_HOUR, DS3231_ALARM_MASK_DAY_DATE]
  let tmp := tmp.set 0 (toBcd (pdata.getD 0 0 &&& 0x7F))
  let tmp := tmp.set 1 (toBcd (pdata.getD 1 0 &&& 0x7F))
  let tmp := tmp.set 2 (arrayHours dev (pdata.getD 2 0))
  dev.bulkWrite ALARM_1_SECONDS (arrayDayDate tmp 3 dateOrDay (pdata.getD 3 0))

/-- `ds3231_set_alarm2`. -/
def ds3231SetAlarm2 (dev : Ds3231) (pdata : List Nat) (dateOrDay alarm : Nat) : Ds3231 :=
  let tmp := maskBuffer alarm
    [DS3231_ALARM_MASK_MINUTE, DS3231_ALARM_MASK_HOUR, DS3231_ALARM_MASK_DAY_DATE]
  let tmp := tmp.set 0 (toBcd (pdata.getD 0 0 &&& 0x7F))
  let tmp := tmp.set 1 (arrayHours dev (pdata.getD 1 0))
  dev.bulkWrite ALARM_2_MINUTES (arrayDayDate tmp 2 dateOrDay (pdata.getD 2 0))

/-! ### Reading alarm 1 -/

structure Alarm1 where
  seconds : Nat
  minutes : Nat
  hours   : Nat
  dayDate : Nat
  mask    : Nat
  deriving DecidableEq

def fromBcd (x tens : Nat) : Nat := (x &&& tens) >>> 4 * 10 + (x &&& 0x0F)

/-- The values that `ds3231_get_alarm1_configuration` takes from its buffer. -/
def alarm1Of (tmp : List Nat) : Alarm1 :=
  let t := fun i => tmp.getD i 0
  let bit := fun i b => if t i &&& DS3231_ALARM_MASK ≠ 0 then b else 0
  { seconds := fromBcd (t 0) 0x70
    minutes := fromBcd (t 1) 0x70
    hours :=
      if t 2 &&& DS3231_HOURS_12_24_BIT ≠ 0 then
        fromBcd (t 2) 0x10 + if t 2 &&& DS3231_HOURS_AM_PM_BIT ≠ 0 then 12 else 0
      else fromBcd (t 2) 0x30
    dayDate :=
      if t 3 &&& DS3231_ALARM_DY_DT_BIT ≠ 0 then t 3 &&& 0x0F ||| DS3231_ALARM_DAY
      else fromBcd (t 3) 0x30
    mask := bit 0 DS3231_ALARM_MASK_SECOND ||| bit 1 DS3231_ALARM_MASK_MINUTE |||
      bit 2 DS3231_ALARM_MASK_HOUR ||| bit 3 DS3231_ALARM_MASK_DAY_DATE }

/-- `ds3231_get_alarm1_configuration`: the buffer is written to the device, not read from it. -/
def ds3231GetAlarm1Configuration (dev : Ds3231) : Alarm1 × Ds3231 :=
  let tmp := [0, 0, 0, 0]
  let dev' := dev.bulkWrite ALARM_1_SECONDS tmp
  (alarm1Of tmp, { dev' with
    timeMode := if tmp.getD 2 0 &&& DS3231_HOURS_12_24_BIT ≠ 0 then .hours12 else .hours24 })

theorem Ds3231.bulkWrite_again (dev : Ds3231) (reg : Nat) (tmp : List Nat) :
    ((dev.bulkWrite reg tmp).bulkWrite reg tmp).regs = (dev.bulkWrite reg tmp).regs := by
  funext i
  dsimp only [Ds3231.bulkWrite]
  split
  · rfl
  · rfl

/-- **Reading the configuration back.**  What was set is returned, and the registers stay, exactly if
everything set was zero, the day included. -/
theorem alarm1_configuration_iff (dev : Ds3231) (hmode : dev.timeMode = .hours24)
    (seconds minutes hours dayDate mask : Nat) :
    ((ds3231GetAlarm1Configuration
        (ds3231SetAlarm1WithSeconds dev seconds minutes hours dayDate mask)).1 =
        ⟨seconds, minutes, hours, dayDate, mask⟩ ∧
      (ds3231GetAlarm1Configuration
        (ds3231SetAlarm1WithSeconds dev seconds minutes hours dayDate mask)).2.regs =
        (ds3231SetAlarm1WithSeconds dev seconds minutes hours dayDate mask).regs) ↔
    seconds = 0 ∧ minutes = 0 ∧ hours = 0 ∧ dayDate = 0 ∧ mask = 0 := by
  have hzero : alarm1Of [0, 0, 0, 0] = ⟨0, 0, 0, 0, 0⟩ := by decide
  constructor
  · rintro ⟨hread, -⟩
    obtain ⟨rfl, rfl, rfl, rfl, rfl⟩ := Alarm1.mk.inj (hzero.symm.trans hread)
    exact ⟨rfl, rfl, rfl, rfl, rfl⟩
  · rintro ⟨rfl, rfl, rfl, rfl, rfl⟩
    have hset : ds3231SetAlarm1WithSeconds dev 0 0 0 0 0 =
        dev.bulkWrite ALARM_1_SECONDS [0, 0, 0, 0] := by
      rw [ds3231SetAlarm1WithSeconds, alarmHours, hmode]
      rfl
    rw [hset]
    exact ⟨hzero, dev.bulkWrite_again _ _⟩

/-- A device after reset. -/
def freshDs3231 : Ds3231 := ⟨fun _ => 0, .hours24, false⟩

theorem alarm1_configuration_zero :
    (ds3231GetAlarm1Configuration (ds3231SetAlarm1WithSeconds freshDs3231 0 0 0 0 0)).1 =
      ⟨0, 0, 0, 0, 0⟩ :=
  ((alarm1_configuration_iff freshDs3231 rfl 0 0 0 0 0).mpr (by decide)).1

/-- **An alarm at 12:34:56 on the 7th is read as all zero, and gone.** -/
theorem alarm1_configuration_lost :
    let dev := ds3231SetAlarm1WithSeconds freshDs3231 56 34 12 7 0
    (ds3231GetAlarm1Configuration dev).1 = ⟨0, 0, 0, 0, 0⟩ ∧ dev.regs 0x07 = 0x56 ∧
      (ds3231GetAlarm1Configuration dev).2.regs 0x07 = 0 := by
  decide

/-! ### The two interfaces -/

def Ds3231.alarm1 (dev : Ds3231) : List Nat := (List.range 4).map fun i => dev.regs (ALARM_1_SECONDS + i)
def Ds3231.alarm2 (dev : Ds3231) : List Nat := (List.range 3).map fun i => dev.regs (ALARM_2_MINUTES + i)

/-- A weekday or a date, as `date_or_day` says. -/
def DayGiven (dateOrDay day : Nat) : Prop :=
  dateOrDay = WEEK_CYCLE ∧ 1 ≤ day ∧ day ≤ 7 ∨ dateOrDay = MONTH_CYCLE ∧ 1 ≤ day ∧ day ≤ 31

/-- The corresponding argument: a weekday is flagged. -/
def dayArgument (dateOrDay day : Nat) : Nat :=
  if dateOrDay = WEEK_CYCLE then day ||| DS3231_ALARM_DAY else day

/-- The last register, from an entry that the array interface has not yet written. -/
def arrayDay (dateOrDay day : Nat) : Nat := (arrayDayDate [0] 0 dateOrDay day).getD 0 0

section registers
variable {dev : Ds3231} {minutes hours dateOrDay day mask : Nat}

theorem bcd_masked {x : Nat} (h : x < 60) : toBcd (x &&& 0x7F) = toBcd x ∧ toBcd x < 0x80 := by
  interval_cases x <;> decide

theorem arrayHours_eq (hmode : dev.timeMode = .hours24) (h : hours < 24) :
    arrayHours dev hours = alarmHours dev hours ∧ alarmHours dev hours < 0x80 := by
  have harray : arrayHours dev hours = clearBit (toBcd (hours &&& 0x3F)) 0x40 := by
    rw [arrayHours, hmode]
    rfl
  have hargs : alarmHours dev hours = clearBit (toBcd hours) 0x40 := by
    rw [alarmHours, hmode]
    rfl
  rw [harray, hargs]
  interval_cases hours <;> decide

/-- Four bits hold a weekday, and a date up to the 15th. -/
theorem arrayDay_eq_iff (h : DayGiven dateOrDay day) :
    (arrayDay dateOrDay day = alarmDayDate (dayArgument dateOrDay day) ↔
        (dateOrDay = WEEK_CYCLE ∨ day ≤ 15)) ∧
      arrayDay dateOrDay day < 0x80 ∧ alarmDayDate (dayArgument dateOrDay day) < 0x80 := by
  obtain ⟨rfl, hlo, hhi⟩ | ⟨rfl, hlo, hhi⟩ := h
  · interval_cases day <;> decide
  · interval_cases day <;> decide

/-- A register without its mask bit is the masked one only if the bit is not asked for. -/
theorem eq_applyMask_iff {x y bit : Nat} (hx : x < 0x80) :
    x = applyMask mask bit y ↔ mask &&& bit = 0 ∧ x = y := by
  rw [applyMask]
  split
  · rename_i hbit
    refine iff_of_false (fun heq => ?_) (fun h => hbit h.1)
    have hle : DS3231_ALARM_MASK ≤ y ||| DS3231_ALARM_MASK := Nat.right_le_or
    rw [← heq, DS3231_ALARM_MASK] at hle
    omega
  · rename_i hbit
    exact (and_iff_right (Decidable.not_not.mp hbit)).symm

theorem alarm1_array (hday : DayGiven dateOrDay day) (seconds : Nat) :
    (ds3231SetAlarm1 dev [seconds, minutes, hours, day] dateOrDay mask).alarm1 =
      [toBcd (seconds &&& 0x7F), toBcd (minutes &&& 0x7F), arrayHours dev hours,
        arrayDay dateOrDay day] := by
  obtain ⟨rfl, -⟩ | ⟨rfl, -⟩ := hday
  · rfl
  · rfl

theorem alarm2_array (hday : DayGiven dateOrDay day) :
    (ds3231SetAlarm2 dev [minutes, hours, day] dateOrDay mask).alarm2 =
      [toBcd (minutes &&& 0x7F), arrayHours dev hours, arrayDay dateOrDay day] := by
  obtain ⟨rfl, -⟩ | ⟨rfl, -⟩ := hday
  · rfl
  · rfl

end registers

theorem mask_alarm1_iff {mask : Nat} (h : mask < 16) :
    (mask &&& 1 = 0 ∧ mask &&& 2 = 0 ∧ mask &&& 4 = 0 ∧ mask &&& 8 = 0) ↔ mask = 0 := by
  interval_cases mask <;> decide

theorem mask_alarm2_iff {mask : Nat} (h : mask < 16) :
    (mask &&& 2 = 0 ∧ mask &&& 4 = 0 ∧ mask &&& 8 = 0) ↔ mask &&& 0x0E = 0 := by
  interval_cases mask <;> decide

/-- **The two interfaces.**  In 24-hour mode they leave the same alarm registers exactly if no mask
bit of the alarm is asked for and the day is a weekday or a date up to the 15th. -/
theorem alarm_interfaces_agree_iff (dev : Ds3231) (hmode : dev.timeMode = .hours24)
    (seconds minutes hours dateOrDay day mask : Nat) (hs : seconds < 60) (hm : minutes < 60)
    (hh : hours < 24) (hday : DayGiven dateOrDay day) (hmask : mask < 16) :
    ((ds3231SetAlarm1 dev [seconds, minutes, hours, day] dateOrDay mask).alarm1 =
        (ds3231SetAlarm1WithSeconds dev seconds minutes hours
          (dayArgument dateOrDay day) mask).alarm1 ↔
      mask = 0 ∧ (dateOrDay = WEEK_CYCLE ∨ day ≤ 15)) ∧
    ((ds3231SetAlarm2 dev [minutes, hours, day] dateOrDay mask).alarm2 =
        (ds3231SetAlarm2WithMinutes dev minutes hours (dayArgument dateOrDay day) mask).alarm2 ↔
      mask &&& 0x0E = 0 ∧ (dateOrDay = WEEK_CYCLE ∨ day ≤ 15)) := by
  obtain ⟨hsec, hsec'⟩ := bcd_masked hs
  obtain ⟨hmin, hmin'⟩ := bcd_masked hm
  obtain ⟨hhour, hhour'⟩ := arrayHours_eq hmode hh
  obtain ⟨hdays, hdays', -⟩ := arrayDay_eq_iff hday
  have hargs1 : (ds3231SetAlarm1WithSeconds dev seconds minutes hours
      (dayArgument dateOrDay day) mask).alarm1 =
        [applyMask mask 1 (toBcd seconds), applyMask mask 2 (toBcd minutes),
          applyMask mask 4 (alarmHours dev hours),
          applyMask mask 8 (alarmDayDate (dayArgument dateOrDay day))] := rfl
  have hargs2 : (ds3231SetAlarm2WithMinutes dev minutes hours
      (dayArgument dateOrDay day) mask).alarm2 =
        [applyMask mask 2 (toBcd minutes), applyMask mask 4 (alarmHours dev hours),
          applyMask mask 8 (alarmDayDate (dayArgument dateOrDay day))] := rfl
  rw [alarm1_array hday, alarm2_array hday, hargs1, hargs2, hsec, hmin, hhour]
  simp only [List.cons.injEq, and_true, eq_applyMask_iff hsec', eq_applyMask_iff hmin',
    eq_applyMask_iff hhour', eq_applyMask_iff hdays', hdays, ← mask_alarm1_iff hmask,
    ← mask_alarm2_iff hmask]
  constructor
  · constructor
    · rintro ⟨h1, h2, h4, h8, h⟩
      exact ⟨⟨h1, h2, h4, h8⟩, h⟩
    · rintro ⟨⟨h1, h2, h4, h8⟩, h⟩
      exact ⟨h1, h2, h4, h8, h⟩
  · constructor
    · rintro ⟨h2, h4, h8, h⟩
      exact ⟨⟨h2, h4, h8⟩, h⟩
    · rintro ⟨⟨h2, h4, h8⟩, h⟩
      exact ⟨h2, h4, h8, h⟩

/-- Alarm 1 on the 7th, no mask. -/
theorem alarm_interfaces_agree_seventh :
    (ds3231SetAlarm1 freshDs3231 [56, 34, 12, 7] MONTH_CYCLE 0).alarm1 =
      (ds3231SetAlarm1WithSeconds freshDs3231 56 34 12 (dayArgument MONTH_CYCLE 7) 0).alarm1 :=
  (alarm_interfaces_agree_iff freshDs3231 rfl 56 34 12 MONTH_CYCLE 7 0 (by decide) (by decide)
    (by decide) (.inr (by decide)) (by decide)).1.mpr (by decide)

/-- **The 20th becomes the 4th, and the masks are lost.** -/
theorem alarm_interfaces_differ :
    (ds3231SetAlarm1 freshDs3231 [0, 0, 0, 20] MONTH_CYCLE 1).alarm1 = [0, 0, 0, 0x04] ∧
    (ds3231SetAlarm1WithSeconds freshDs3231 0 0 0 20 1).alarm1 = [0x80, 0, 0, 0x20] ∧
    (ds3231SetAlarm2 freshDs3231 [0, 0, 1] MONTH_CYCLE 2).alarm2 = [0, 0, 0x01] ∧
    (ds3231SetAlarm2WithMinutes freshDs3231 0 0 1 2).alarm2 = [0x80, 0, 0x01] := by
  decide

end Kinetis.Sensor
