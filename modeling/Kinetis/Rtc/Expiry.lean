import Kinetis.Rtc.RtcTask

/-!
# Rtc — the next expiry

When the expiry that `rtc_task_update_time` computes is a time of the calendar and later than the
current time.  Rounding and adding go unit by unit, so the result is analysed in two halves: the
date, whose carries count months as `monthLen` does (every fourth year a leap year), and the time of
day, which carries into the date at most once.

* `Date.Proper.roundDays` and `Date.Proper.addDays_noSuchDay_iff`: what adding days does to a date,
  and when it leads to a 29 February that the Gregorian rule does not know;
* `updateClock_spec`: what the hours, minutes and seconds do;
* `next_expiry_sound_iff`: the expiry is good exactly under `Sound`, a condition on the current
  time and the interval.
-/

namespace Kinetis.Rtc

/-! ### Days as the additions count them -/

/-- The length of a month, every fourth year a leap year. -/
def monthLen (year mon : Nat) : Nat :=
  if mon = 2 then if year % 4 = 0 then 29 else 28 else if isShortMonth mon then 30 else 31

/-- A day of the additions' calendar, or the day before the first of its month. -/
structure Date.Proper (d : Date) : Prop where
  mon_pos : 1 ≤ d.mon
  mon_le  : d.mon ≤ 12
  mday_le : d.mday ≤ monthLen d.year d.mon

/-- A fourth year that the Gregorian rule makes a common one. -/
def BadCentury (year : Nat) : Prop := year % 100 = 0 ∧ year % 400 ≠ 0

/-- 29 February of a year that does not have it. -/
def Date.NoSuchDay (d : Date) : Prop := d.mon = 2 ∧ d.mday = 29 ∧ BadCentury d.year

/-- Lexicographic order. -/
def Date.Before (a b : Date) : Prop :=
  a.year < b.year ∨ a.year = b.year ∧ (a.mon < b.mon ∨ a.mon = b.mon ∧ a.mday < b.mday)

/-- The first of the month after that of `d`. -/
def Date.nextMonth (d : Date) : Date :=
  if d.mon = 12 then ⟨d.year + 1, 1, 1⟩ else ⟨d.year, d.mon + 1, 1⟩

variable {d : Date}

theorem Date.Before.trans {a b c : Date} (h : a.Before b) (h' : b.Before c) : a.Before c := by
  rw [Date.Before] at *
  omega

theorem monthLen_bounds (year mon : Nat) : 28 ≤ monthLen year mon ∧ monthLen year mon ≤ 31 := by
  rw [monthLen]
  split
  · split
    · omega
    · omega
  · split
    · omega
    · omega

variable {mon n k : Nat}

theorem isLongMonth_of (hpos : 1 ≤ mon) (hle : mon ≤ 12) (hfeb : mon ≠ 2)
    (hshort : isShortMonth mon = false) : isLongMonth mon = true := by
  rw [isShortMonth, decide_eq_false_iff_not] at hshort
  rw [isLongMonth, decide_eq_true_iff]
  omega

theorem isLongMonth_succ (hshort : isShortMonth mon = true) :
    isLongMonth (mon + 1) = true ∧ mon ≠ 12 := by
  rw [isShortMonth, decide_eq_true_iff] at hshort
  rw [isLongMonth, decide_eq_true_iff]
  omega

/-- **The next day**: the next of the month, or the first of the next month. -/
theorem Date.Proper.nextDay_eq (h : d.Proper) :
    nextDay d = if d.mday < monthLen d.year d.mon then { d with mday := d.mday + 1 }
      else d.nextMonth := by
  obtain ⟨year, mon, mday⟩ := d
  obtain ⟨hpos, hle, hday⟩ := h
  dsimp only at hpos hle hday ⊢
  rw [nextDay, rtcTaskSpecialAddDays, Date.nextMonth]
  dsimp only
  by_cases hfeb : mon = 2
  · subst hfeb
    have hmarch : carryShort ⟨year, 3, 1⟩ = ⟨year, 3, 1⟩ := rfl
    rw [monthLen, if_pos rfl] at hday ⊢
    rw [if_pos rfl]
    by_cases hleap : year % 4 = 0
    · rw [if_pos hleap] at hday ⊢
      rw [if_pos hleap]
      by_cases hlast : mday < 29
      · rw [if_pos hlast, if_pos (by omega)]
      · obtain rfl : mday = 29 := by omega
        exact hmarch
    · rw [if_neg hleap] at hday ⊢
      rw [if_neg hleap]
      by_cases hlast : mday < 28
      · rw [if_pos hlast, if_pos (by omega)]
      · obtain rfl : mday = 28 := by omega
        exact hmarch
  · rw [monthLen, if_neg hfeb] at hday ⊢
    rw [if_neg hfeb, carryShort]
    cases hshort : isShortMonth mon with
    | true =>
      obtain ⟨hlong, hdec⟩ := isLongMonth_succ hshort
      simp only [hshort, if_true] at hday ⊢
      by_cases hlast : mday < 30
      · rw [if_pos hlast, if_pos (by omega)]
      · obtain rfl : mday = 30 := by omega
        rw [if_neg hdec, carryLong]
        rw [hlong]
        rfl
    | false =>
      simp only [hshort, Bool.false_eq_true, if_false] at hday ⊢
      rw [carryLong]
      dsimp only
      rw [isLongMonth_of hpos hle hfeb hshort, if_pos rfl]
      by_cases hlast : mday < 31
      · rw [if_pos hlast, if_pos (by omega)]
      · obtain rfl : mday = 31 := by omega
        rw [if_neg (by omega), if_neg (by omega), carryYear]
        dsimp only
        by_cases hdec : mon = 12
        · subst hdec
          rfl
        · rw [if_neg hdec, if_pos (by omega)]

theorem Date.Proper.nextMonth (h : d.Proper) :
    d.nextMonth.Proper ∧ d.nextMonth.mday = 1 ∧ d.Before d.nextMonth := by
  obtain ⟨hpos, hle, -⟩ := h
  rw [Date.nextMonth]
  split
  · have hlen := monthLen_bounds (d.year + 1) 1
    exact ⟨⟨Nat.le_refl 1, Nat.le_add_left 1 11, by dsimp only; omega⟩, rfl,
      .inl (Nat.lt_succ_self _)⟩
  · rename_i hdec
    have hlen := monthLen_bounds d.year (d.mon + 1)
    exact ⟨⟨Nat.le_add_left 1 _, by dsimp only; omega, by dsimp only; omega⟩, rfl,
      .inr ⟨rfl, .inl (Nat.lt_succ_self _)⟩⟩

theorem Date.Proper.nextDay (h : d.Proper) :
    (nextDay d).Proper ∧ 1 ≤ (Rtc.nextDay d).mday ∧ d.Before (Rtc.nextDay d) := by
  rw [h.nextDay_eq]
  split
  · rename_i hlast
    exact ⟨⟨h.mon_pos, h.mon_le, hlast⟩, Nat.le_add_left 1 _,
      .inr ⟨rfl, .inr ⟨rfl, Nat.lt_succ_self _⟩⟩⟩
  · obtain ⟨hp, hone, hb⟩ := h.nextMonth
    exact ⟨hp, Nat.le_of_eq hone.symm, hb⟩

/-! ### Several days -/

theorem addDays_add (a b : Nat) (d : Date) : addDays (a + b) d = addDays b (addDays a d) := by
  induction a generalizing d with
  | zero => rw [Nat.zero_add, addDays]
  | succ a ih => rw [Nat.add_right_comm, addDays, addDays, ih]

/-- Days that stay in the month. -/
theorem Date.Proper.addDays_within (h : d.Proper) (hn : d.mday + n ≤ monthLen d.year d.mon) :
    addDays n d = { d with mday := d.mday + n } := by
  induction n generalizing d with
  | zero => rfl
  | succ n ih =>
    have hstep : Rtc.nextDay d = { d with mday := d.mday + 1 } := by
      rw [h.nextDay_eq, if_pos (by omega)]
    have hp : Date.Proper { d with mday := d.mday + 1 } := by
      rw [← hstep]
      exact h.nextDay.1
    rw [addDays, hstep, ih hp (by dsimp only; omega)]
    rw [Nat.add_assoc, Nat.add_comm 1 n]

/-- Days that go over the end of the month. -/
theorem Date.Proper.addDays_over (h : d.Proper) (hn : monthLen d.year d.mon < d.mday + n) :
    addDays n d = addDays (d.mday + n - monthLen d.year d.mon - 1) d.nextMonth := by
  have hday := h.mday_le
  obtain ⟨k, hk⟩ : ∃ k, n = (monthLen d.year d.mon - d.mday) + (k + 1) :=
    ⟨d.mday + n - monthLen d.year d.mon - 1, by omega⟩
  have hrest : d.mday + n - monthLen d.year d.mon - 1 = k := by omega
  have hend : d.mday + (monthLen d.year d.mon - d.mday) = monthLen d.year d.mon := by omega
  have hp : Date.Proper { d with mday := monthLen d.year d.mon } :=
    ⟨h.mon_pos, h.mon_le, Nat.le_refl _⟩
  rw [hrest, hk, addDays_add, h.addDays_within (Nat.le_of_eq hend), hend, addDays, hp.nextDay_eq,
    if_neg (Nat.lt_irrefl _)]
  rfl

theorem Date.Proper.addDays (h : d.Proper) (n : Nat) :
    (addDays n d).Proper ∧ (1 ≤ n → 1 ≤ (Rtc.addDays n d).mday ∧ d.Before (Rtc.addDays n d)) := by
  induction n generalizing d with
  | zero => exact ⟨h, fun h0 => absurd h0 (Nat.not_succ_le_zero 0)⟩
  | succ n ih =>
    obtain ⟨hp, hone, hb⟩ := h.nextDay
    obtain ⟨hp', hrest⟩ := ih hp
    refine ⟨hp', fun _ => ?_⟩
    rcases Nat.eq_zero_or_pos n with rfl | hn
    · exact ⟨hone, hb⟩
    · exact ⟨(hrest hn).1, hb.trans (hrest hn).2⟩

/-- **Rounding down and adding** a number of days leads past the day it started from. -/
theorem Date.Proper.roundDays (h : d.Proper) (hk : k ≠ 0) :
    let r := Rtc.addDays k { d with mday := d.mday - d.mday % k }
    r.Proper ∧ 1 ≤ r.mday ∧ d.Before r := by
  intro r
  have hday := h.mday_le
  have hmod : d.mday % k < k := Nat.mod_lt _ (Nat.pos_of_ne_zero hk)
  have hle : d.mday % k ≤ d.mday := Nat.mod_le _ _
  have hp : Date.Proper { d with mday := d.mday - d.mday % k } :=
    ⟨h.mon_pos, h.mon_le, by dsimp only; omega⟩
  -- the first `mday % k` days lead back to `d`
  have hback : Rtc.addDays (d.mday % k) { d with mday := d.mday - d.mday % k } = d := by
    rw [hp.addDays_within (by dsimp only; omega)]
    dsimp only
    rw [Nat.sub_add_cancel hle]
  have hr : r = Rtc.addDays (k - d.mday % k) d := by
    have hsplit : k = d.mday % k + (k - d.mday % k) := by omega
    show Rtc.addDays k _ = _
    rw [hsplit, addDays_add]
    rw [← hsplit, hback]
  obtain ⟨hpr, hrest⟩ := h.addDays (k - d.mday % k)
  rw [hr]
  exact ⟨hpr, hrest (by omega)⟩

theorem monthLen_jan (year : Nat) : monthLen year 1 = 31 := rfl

theorem monthLen_feb (year : Nat) : monthLen year 2 = if year % 4 = 0 then 29 else 28 := if_pos rfl

/-- A date in the month after that of `d`, or in the one after it. -/
theorem Date.Proper.addDays_cases (h : d.Proper) (hn : d.mday + n ≤ 62) :
    d.mday + n ≤ monthLen d.year d.mon ∧ Rtc.addDays n d = ⟨d.year, d.mon, d.mday + n⟩ ∨
    monthLen d.year d.mon < d.mday + n ∧
      (d.mon ≠ 12 ∧ d.mday + n - monthLen d.year d.mon ≤ monthLen d.year (d.mon + 1) ∧
          Rtc.addDays n d = ⟨d.year, d.mon + 1, d.mday + n - monthLen d.year d.mon⟩ ∨
        (d.mon ≠ 12 → monthLen d.year (d.mon + 1) < d.mday + n - monthLen d.year d.mon) ∧
          (Rtc.addDays n d).mon ≠ 2) := by
  have hlen := monthLen_bounds d.year d.mon
  have hpos := h.mon_pos
  rcases Nat.lt_or_ge (monthLen d.year d.mon) (d.mday + n) with hover | hin
  · refine .inr ⟨hover, ?_⟩
    obtain ⟨hp, -, -⟩ := h.nextMonth
    rw [h.addDays_over hover]
    rw [Date.nextMonth] at *
    by_cases hdec : d.mon = 12
    · -- December has 31 days, and January as many
      rw [if_pos hdec] at *
      have hl : monthLen d.year d.mon = 31 := by rw [hdec]; rfl
      have hjan := monthLen_jan (d.year + 1)
      rw [hp.addDays_within (by dsimp only; omega)]
      exact .inr ⟨fun hne => absurd hdec hne, (by decide : (1 : Nat) ≠ 2)⟩
    · rw [if_neg hdec] at *
      have hnext := monthLen_bounds d.year (d.mon + 1)
      rcases Nat.lt_or_ge (monthLen d.year (d.mon + 1)) (d.mday + n - monthLen d.year d.mon) with
        hover' | hin'
      · refine .inr ⟨fun _ => hover', ?_⟩
        obtain ⟨hp', -, -⟩ := hp.nextMonth
        rw [hp.addDays_over (by dsimp only; omega)]
        rw [Date.nextMonth] at *
        have hthird := monthLen_bounds d.year (d.mon + 1 + 1)
        have hjan := monthLen_jan (d.year + 1)
        split
        · rename_i hnov
          rw [if_pos hnov] at hp'
          rw [hp'.addDays_within (by dsimp only; omega)]
          exact (by decide : (1 : Nat) ≠ 2)
        · rename_i hnov
          rw [if_neg hnov] at hp'
          rw [hp'.addDays_within (by dsimp only; omega)]
          dsimp only
          omega
      · refine .inl ⟨hdec, hin', ?_⟩
        rw [hp.addDays_within (by dsimp only; omega), Date.mk.injEq]
        exact ⟨rfl, rfl, by dsimp only; omega⟩
  · exact .inl ⟨hin, h.addDays_within hin⟩

theorem BadCentury.leap {year : Nat} (h : BadCentury year) : year % 4 = 0 := by
  have := h.1
  omega

/-- **Landing on a 29 February that does not exist**, from up to two months before it. -/
theorem Date.Proper.addDays_noSuchDay_iff (h : d.Proper) (hn : d.mday + n ≤ 62) :
    (Rtc.addDays n d).NoSuchDay ↔
      BadCentury d.year ∧ (d.mon = 2 ∧ d.mday + n = 29 ∨ d.mon = 1 ∧ d.mday + n = 60) := by
  have hjan := monthLen_jan d.year
  rw [Date.NoSuchDay]
  rcases h.addDays_cases hn with ⟨hin, heq⟩ | ⟨hover, ⟨hdec, hin, heq⟩ | ⟨hover', hno⟩⟩
  · rw [heq]
    constructor
    · rintro ⟨hm, hd, hbad⟩
      exact ⟨hbad, .inl ⟨hm, hd⟩⟩
    · rintro ⟨hbad, ⟨hm, hd⟩ | ⟨hm, hd⟩⟩
      · exact ⟨hm, hd, hbad⟩
      · rw [hm] at hin
        omega
  · rw [heq]
    dsimp only
    constructor
    · rintro ⟨hm, hd, hbad⟩
      have hm : d.mon = 1 := by omega
      rw [hm] at hd
      exact ⟨hbad, .inr ⟨hm, by omega⟩⟩
    · rintro ⟨hbad, ⟨hm, hd⟩ | ⟨hm, hd⟩⟩
      · rw [hm, monthLen_feb, if_pos hbad.leap] at hover
        omega
      · rw [hm]
        exact ⟨rfl, by omega, hbad⟩
  · refine iff_of_false (fun h => hno h.1) ?_
    rintro ⟨hbad, ⟨hm, hd⟩ | ⟨hm, hd⟩⟩
    · rw [hm, monthLen_feb, if_pos hbad.leap] at hover
      omega
    · have hlt := hover' (by omega)
      rw [hm, monthLen_feb, if_pos hbad.leap] at hlt
      omega

/-! ### The time of day -/

/-- The part of `rtc_task_update_time` below the days. -/
def updateClock (interval t : Tm) : Tm :=
  updateSec interval (updateMin interval (updateHour interval t))

/-- The part of `rtc_task_update_time` above the hours. -/
def updateDate (interval t : Tm) : Tm :=
  updateMday interval (updateMon interval (updateYear interval t))

theorem rtcTaskUpdateTime_eq (cur interval : Tm) :
    rtcTaskUpdateTime cur interval = updateClock interval (updateDate interval cur) := rfl

/-- A time on the clock. -/
structure Tm.OnClock (t : Tm) : Prop where
  hour_le : t.hour ≤ 23
  min_le  : t.min ≤ 59
  sec_le  : t.sec ≤ 59

/-- Lexicographic order. -/
def Tm.Before (a b : Tm) : Prop :=
  a.toDate.Before b.toDate ∨ a.toDate = b.toDate ∧
    (a.hour < b.hour ∨ a.hour = b.hour ∧ (a.min < b.min ∨ a.min = b.min ∧ a.sec < b.sec))

/-- What `rtc_task_add` accepts. -/
structure Tm.Interval (iv : Tm) : Prop where
  year_le : iv.year ≤ 9999
  mon_le  : iv.mon ≤ 12
  mday_le : iv.mday ≤ 31
  clock   : iv.OnClock

/-- Whether the time of day, rounded to the interval and advanced by it, runs past midnight. -/
def DayCarry (cur interval : Tm) : Prop :=
  if interval.hour ≠ 0 then 24 ≤ cur.hour - cur.hour % interval.hour + interval.hour
  else if interval.min ≠ 0 then
    cur.hour = 23 ∧ 60 ≤ cur.min - cur.min % interval.min + interval.min
  else cur.hour = 23 ∧ cur.min = 59 ∧ 60 ≤ cur.sec + interval.sec

section clock

variable {iv t : Tm}

theorem updateSec_zero (h : iv.Interval) (hs : t.sec = 0) :
    updateSec iv t = { t with sec := iv.sec } := by
  have hle := h.clock.sec_le
  have hmod : iv.sec % 2 ^ 8 = iv.sec := Nat.mod_eq_of_lt (by omega)
  rw [updateSec]
  split
  · rw [rtcTaskTimeAddSeconds, hmod, if_neg (by omega), carrySec, hs, Nat.zero_add,
      if_pos (by dsimp only; omega)]
  · rename_i hz
    rw [Decidable.not_not.mp hz, ← hs]

theorem updateMin_zero (h : iv.Interval) (hm : t.min = 0) (hs : t.sec = 0) :
    updateMin iv t = { t with min := iv.min } := by
  have hle := h.clock.min_le
  have hmod : iv.min % 2 ^ 8 = iv.min := Nat.mod_eq_of_lt (by omega)
  rw [updateMin]
  split
  · rw [rtcTaskTimeAddMinutes, hmod, if_neg (by omega), carryMin, hm, Nat.zero_mod,
      Nat.zero_add, if_pos (by dsimp only; omega), hs]
  · rename_i hz
    rw [Decidable.not_not.mp hz, ← hm]

theorem updateHour_zero (h : iv.Interval) (hh : t.hour = 0) (hm : t.min = 0) (hs : t.sec = 0) :
    updateHour iv t = { t with hour := iv.hour } := by
  have hle := h.clock.hour_le
  have hmod : iv.hour % 2 ^ 8 = iv.hour := Nat.mod_eq_of_lt (by omega)
  rw [updateHour]
  split
  · rw [rtcTaskTimeAddHours, hmod, if_neg (by omega), carryHour, hh, Nat.zero_mod,
      Nat.zero_add, if_pos (by dsimp only; omega), hs, hm]
  · rename_i hz
    rw [Decidable.not_not.mp hz, ← hh]

theorem updateSec_updateMin_zero (h : iv.Interval) (hm : t.min = 0) (hs : t.sec = 0) :
    updateSec iv (updateMin iv t) = { t with min := iv.min, sec := iv.sec } := by
  rw [updateMin_zero h hm hs, updateSec_zero h]
  exact hs

/-- **From midnight** the time of day becomes that of the interval. -/
theorem updateClock_midnight (h : iv.Interval) (hh : t.hour = 0) (hm : t.min = 0)
    (hs : t.sec = 0) :
    updateClock iv t = ⟨t.toDate, iv.hour, iv.min, iv.sec⟩ := by
  rw [updateClock, updateHour_zero h hh hm hs, updateSec_updateMin_zero h]
  · exact hm
  · exact hs

theorem carryHour_spec (hh : t.hour ≤ 47) :
    (carryHour t).hour ≤ 23 ∧ (carryHour t).min = t.min ∧ (carryHour t).sec = t.sec ∧
      (24 ≤ t.hour ∧ (carryHour t).toDate = nextDay t.toDate ∨
        t.hour < 24 ∧ (carryHour t).toDate = t.toDate ∧ (carryHour t).hour = t.hour) := by
  rw [carryHour]
  split
  · rename_i hlt
    exact ⟨Nat.le_of_lt_succ hlt, rfl, rfl, .inr ⟨hlt, rfl, rfl⟩⟩
  · rename_i hge
    exact ⟨by dsimp only; omega, rfl, rfl, .inl ⟨Nat.le_of_not_lt hge, rfl⟩⟩

theorem carryMin_spec (hh : t.hour ≤ 23) (hm : t.min ≤ 119) :
    (carryMin t).hour ≤ 23 ∧ (carryMin t).min ≤ 59 ∧ (carryMin t).sec = t.sec ∧
      (t.hour = 23 ∧ 60 ≤ t.min ∧ (carryMin t).toDate = nextDay t.toDate ∨
        ¬ (t.hour = 23 ∧ 60 ≤ t.min) ∧ (carryMin t).toDate = t.toDate ∧
          (t.hour < (carryMin t).hour ∨
            (carryMin t).hour = t.hour ∧ (carryMin t).min = t.min)) := by
  rw [carryMin]
  split
  · exact ⟨hh, by omega, rfl, .inr ⟨by omega, rfl, .inr ⟨rfl, rfl⟩⟩⟩
  · have hnext : ({ t with min := t.min - 60, hour := t.hour + 1 } : Tm).hour ≤ 47 := by
      dsimp only
      omega
    obtain ⟨hle, hmin, hsec, ⟨hge, hdate⟩ | ⟨hlt, hdate, hhour⟩⟩ := carryHour_spec hnext
    · dsimp only at hge hmin
      exact ⟨hle, by omega, hsec, .inl ⟨by omega, by omega, hdate⟩⟩
    · dsimp only at hlt hmin hhour
      exact ⟨hle, by omega, hsec, .inr ⟨by omega, hdate, .inl (by omega)⟩⟩

/-- Rounding down to a multiple and adding one more goes past the number. -/
theorem round_bounds (n : Nat) (hk : k ≠ 0) : n < n - n % k + k ∧ n - n % k + k ≤ n + k := by
  have hmod : n % k < k := Nat.mod_lt _ (Nat.pos_of_ne_zero hk)
  omega

/-- **The clock stage**: past midnight it is the next day, and before midnight a later time of the
same day. -/
theorem updateClock_spec (h : iv.Interval) (ht : t.OnClock)
    (hne : iv.hour ≠ 0 ∨ iv.min ≠ 0 ∨ iv.sec ≠ 0) :
    (updateClock iv t).OnClock ∧
      (DayCarry t iv ∧ (updateClock iv t).toDate = nextDay t.toDate ∨
        ¬ DayCarry t iv ∧ (updateClock iv t).toDate = t.toDate ∧ t.Before (updateClock iv t)) := by
  obtain ⟨hh, hm, hs⟩ := ht
  have hiv := h.clock.hour_le
  have hiv' := h.clock.min_le
  have hiv'' := h.clock.sec_le
  rw [updateClock, DayCarry]
  -- the largest unit of the interval decides; the smaller ones are set from zero
  by_cases hhour : iv.hour = 0
  · have hkeep : updateHour iv t = t := if_neg (fun hc => hc hhour)
    rw [hkeep, if_neg (fun hc => hc hhour)]
    by_cases hmin : iv.min = 0
    · have hkeep' : updateMin iv t = t := if_neg (fun hc => hc hmin)
      have hsec : iv.sec ≠ 0 := by omega
      have hmod : iv.sec % 2 ^ 8 = iv.sec := Nat.mod_eq_of_lt (by omega)
      rw [hkeep', if_neg (fun hc => hc hmin), updateSec, if_pos hsec, rtcTaskTimeAddSeconds, hmod,
        if_neg (by omega), carrySec]
      dsimp only
      split
      · exact ⟨⟨hh, hm, by dsimp only; omega⟩, .inr ⟨by omega, rfl,
          .inr ⟨rfl, .inr ⟨rfl, .inr ⟨rfl, by dsimp only; omega⟩⟩⟩⟩⟩
      · obtain ⟨hle, hle', hsec', ⟨h23, hge, hdate⟩ | ⟨hno, hdate, hlater⟩⟩ := carryMin_spec
          (show ({ t with sec := t.sec + iv.sec - 60, min := t.min + 1 } : Tm).hour ≤ 23 from hh)
          (show t.min + 1 ≤ 119 by omega)
        · dsimp only at h23 hge hsec'
          exact ⟨⟨hle, hle', by omega⟩, .inl ⟨by omega, hdate⟩⟩
        · dsimp only at hno hsec' hlater
          exact ⟨⟨hle, hle', by omega⟩, .inr ⟨by omega, hdate, .inr ⟨hdate.symm, by omega⟩⟩⟩
    · have hmod : iv.min % 2 ^ 8 = iv.min := Nat.mod_eq_of_lt (by omega)
      obtain ⟨hlt, hub⟩ := round_bounds t.min hmin
      rw [if_pos hmin, updateMin, if_pos hmin, rtcTaskTimeAddMinutes, hmod, if_neg (by omega)]
      obtain ⟨hle, hle', hsec', hdate⟩ := carryMin_spec
        (show ({ t with min := t.min - t.min % iv.min + iv.min, sec := 0 } : Tm).hour ≤ 23 from hh)
        (show t.min - t.min % iv.min + iv.min ≤ 119 by omega)
      rw [updateSec_zero h hsec']
      refine ⟨⟨hle, hle', hiv''⟩, ?_⟩
      rcases hdate with ⟨h23, hge, hdate⟩ | ⟨hno, hdate, hlater⟩
      · exact .inl ⟨⟨h23, hge⟩, hdate⟩
      · dsimp only at hlater
        exact .inr ⟨hno, hdate, .inr ⟨hdate.symm, by dsimp only; omega⟩⟩
  · have hmod : iv.hour % 2 ^ 8 = iv.hour := Nat.mod_eq_of_lt (by omega)
    obtain ⟨hlt, hub⟩ := round_bounds t.hour hhour
    rw [if_pos hhour, updateHour, if_pos hhour, rtcTaskTimeAddHours, hmod, if_neg (by omega)]
    obtain ⟨hle, hmin', hsec', hdate⟩ := carryHour_spec
      (show ({ t with hour := t.hour - t.hour % iv.hour + iv.hour, min := 0, sec := 0 } : Tm).hour
        ≤ 47 by dsimp only; omega)
    rw [updateSec_updateMin_zero h hmin' hsec']
    refine ⟨⟨hle, hiv', hiv''⟩, ?_⟩
    rcases hdate with ⟨hge, hdate⟩ | ⟨hno, hdate, hlater⟩
    · exact .inl ⟨hge, hdate⟩
    · dsimp only at hno hlater
      exact .inr ⟨by omega, hdate, .inr ⟨hdate.symm, .inl (by dsimp only; omega)⟩⟩

end clock

/-! ### Times of the calendar -/

/-- A time that `rtc_task_validate_time` accepts but for its upper bound on years; its leap-year
rule has a period of 400 years. -/
def CalendarTime (t : Tm) : Prop :=
  1970 ≤ t.year ∧ rtcTaskValidateTime { t with year := 2000 + t.year % 400 } = true

/-- The days of a month by the rule of `rtc_task_validate_time`. -/
theorem le_monthLen_iff (year mon mday : Nat) :
    mday ≤ monthLen year mon ∧ ¬ (mon = 2 ∧ mday = 29 ∧ BadCentury year) ↔
      mday ≤ 31 ∧
      ¬ (mon = 2 ∧ mday >
        (if year % 4 = 0 ∧ (year % 100 ≠ 0 ∨ year % 400 = 0) then 29 else 28)) ∧
      ¬ ((mon = 4 ∨ mon = 6 ∨ mon = 9 ∨ mon = 11) ∧ mday > 30) := by
  simp only [monthLen, isShortMonth, BadCentury, decide_eq_true_iff]
  by_cases hfeb : mon = 2
  · subst hfeb
    rw [if_pos rfl]
    split
    · split
      · omega
      · omega
    · rw [if_neg (by omega)]
      omega
  · rw [if_neg hfeb]
    split
    · omega
    · omega

theorem refusals_iff (a b c : Prop) [Decidable a] [Decidable b] [Decidable c] :
    (if a then false else if b then false else if c then false else true) = true ↔
      ¬ a ∧ ¬ b ∧ ¬ c := by
  simp

theorem rtcTaskValidateTime_iff (t : Tm) :
    rtcTaskValidateTime t = true ↔ (1970 ≤ t.year ∧ t.year ≤ 9999) ∧
      t.toDate.Proper ∧ 1 ≤ t.mday ∧ t.OnClock ∧ ¬ t.toDate.NoSuchDay := by
  have hdays := le_monthLen_iff t.year t.mon t.mday
  rw [rtcTaskValidateTime, refusals_iff]
  constructor
  · rintro ⟨hrange, hfeb, hshort⟩
    obtain ⟨hlen, hno⟩ := hdays.mpr ⟨by omega, hfeb, hshort⟩
    exact ⟨by omega, ⟨by omega, by omega, hlen⟩, by omega, ⟨by omega, by omega, by omega⟩, hno⟩
  · rintro ⟨⟨hlo, hhi⟩, ⟨hpos, hle, hlen⟩, hone, ⟨hh, hm, hs⟩, hno⟩
    obtain ⟨h31, hfeb, hshort⟩ := hdays.mp ⟨hlen, hno⟩
    exact ⟨by omega, hfeb, hshort⟩

theorem calendarTime_iff (t : Tm) :
    CalendarTime t ↔ 1970 ≤ t.year ∧
      t.toDate.Proper ∧ 1 ≤ t.mday ∧ t.OnClock ∧ ¬ t.toDate.NoSuchDay := by
  have hlen : monthLen (2000 + t.year % 400) t.mon = monthLen t.year t.mon := by
    have hfour : (2000 + t.year % 400) % 4 = t.year % 4 := by omega
    rw [monthLen, monthLen, hfour]
  have hbad : BadCentury (2000 + t.year % 400) ↔ BadCentury t.year := by
    rw [BadCentury, BadCentury]
    omega
  rw [CalendarTime, rtcTaskValidateTime_iff, Date.NoSuchDay, hbad]
  constructor
  · rintro ⟨hlo, -, ⟨hpos, hle, hday⟩, hone, ⟨hh, hm, hs⟩, hno⟩
    exact ⟨hlo, ⟨hpos, hle, hlen ▸ hday⟩, hone, ⟨hh, hm, hs⟩, hno⟩
  · rintro ⟨hlo, ⟨hpos, hle, hday⟩, hone, ⟨hh, hm, hs⟩, hno⟩
    exact ⟨hlo, by dsimp only; omega, ⟨hpos, hle, hlen.symm ▸ hday⟩, hone, ⟨hh, hm, hs⟩, hno⟩

/-- The years permitting, a time of the calendar is what `rtc_task_validate_time` accepts. -/
theorem rtcTaskValidateTime_iff_calendar (t : Tm) :
    rtcTaskValidateTime t = true ↔ t.year ≤ 9999 ∧ CalendarTime t := by
  rw [rtcTaskValidateTime_iff, calendarTime_iff]
  constructor
  · rintro ⟨⟨hlo, hhi⟩, hrest⟩
    exact ⟨hhi, hlo, hrest⟩
  · rintro ⟨hhi, hlo, hrest⟩
    exact ⟨⟨hlo, hhi⟩, hrest⟩

theorem timeAfter32_of_lt {a b : Nat} (hab : a < b) (hb : b < 2 ^ 31) :
    timeAfter32 a b = false := by
  rw [timeAfter32, decide_eq_false_iff_not]
  omega

/-- A time before the expiry has not reached it for `rtc_task_expired`. -/
theorem rtcTaskExpired_of_before {cur e : Tm} (hyear : e.year < 2 ^ 31) (hp : e.toDate.Proper)
    (hc : e.OnClock) (hb : cur.Before e) : rtcTaskExpired cur e = false := by
  obtain ⟨-, hmon, hday⟩ := hp
  obtain ⟨hhour, hmin, hsec⟩ := hc
  have hlen := monthLen_bounds e.year e.mon
  rw [rtcTaskExpired]
  rcases hb with (hy | ⟨hy, hm | ⟨hm, hd⟩⟩) | ⟨hdate, hh | ⟨hh, hm | ⟨hm, hs⟩⟩⟩
  · rw [if_pos (Nat.ne_of_lt hy), timeAfter32_of_lt hy hyear]
  · rw [if_neg (fun hne => hne hy), if_pos (Nat.ne_of_lt hm), timeAfter32_of_lt hm (by omega)]
  · rw [if_neg (fun hne => hne hy), if_neg (fun hne => hne hm), if_pos (Nat.ne_of_lt hd),
      timeAfter32_of_lt hd (by omega)]
  · rw [hdate, if_neg (fun hne => hne rfl), if_neg (fun hne => hne rfl),
      if_neg (fun hne => hne rfl), if_pos (Nat.ne_of_lt hh), timeAfter32_of_lt hh (by omega)]
  · rw [hdate, if_neg (fun hne => hne rfl), if_neg (fun hne => hne rfl),
      if_neg (fun hne => hne rfl), if_neg (fun hne => hne hh), if_pos (Nat.ne_of_lt hm),
      timeAfter32_of_lt hm (by omega)]
  · rw [hdate, if_neg (fun hne => hne rfl), if_neg (fun hne => hne rfl),
      if_neg (fun hne => hne rfl), if_neg (fun hne => hne hh), if_neg (fun hne => hne hm),
      if_pos (Nat.ne_of_lt hs), timeAfter32_of_lt hs (by omega)]

/-! ### The date stage -/

def Tm.Midnight (t : Tm) : Prop := t.hour = 0 ∧ t.min = 0 ∧ t.sec = 0

section date

variable {iv t cur : Tm}

theorem updateYear_midnight (hy : iv.year ≠ 0) : (updateYear iv t).Midnight := by
  rw [updateYear, if_pos hy]
  exact ⟨rfl, rfl, rfl⟩

theorem updateMon_midnight (h : iv.mon ≠ 0 ∨ t.Midnight) : (updateMon iv t).Midnight := by
  rw [updateMon]
  split
  · rw [rtcTaskTimeAddMonths]
    split
    · exact ⟨rfl, rfl, rfl⟩
    · exact ⟨rfl, rfl, rfl⟩
  · rename_i hm
    exact h.resolve_left hm

theorem updateMday_midnight (h : iv.mday ≠ 0 ∨ t.Midnight) : (updateMday iv t).Midnight := by
  rw [updateMday]
  split
  · exact ⟨rfl, rfl, rfl⟩
  · rename_i hm
    exact h.resolve_left hm

/-- An interval of days or more starts the time of day at midnight. -/
theorem rtcTaskUpdateTime_midnight (h : iv.Interval)
    (hne : iv.year ≠ 0 ∨ iv.mon ≠ 0 ∨ iv.mday ≠ 0) :
    rtcTaskUpdateTime cur iv = ⟨(updateDate iv cur).toDate, iv.hour, iv.min, iv.sec⟩ := by
  have hmid : (updateDate iv cur).Midnight := by
    refine updateMday_midnight ?_
    by_cases hd : iv.mday = 0
    · refine .inr (updateMon_midnight ?_)
      by_cases hm : iv.mon = 0
      · exact .inr (updateYear_midnight (by omega))
      · exact .inl hm
    · exact .inl hd
  obtain ⟨hh, hm, hs⟩ := hmid
  rw [rtcTaskUpdateTime_eq, updateClock_midnight h hh hm hs]

theorem updateYear_date (hy : iv.year ≠ 0) :
    (updateYear iv t).toDate = ⟨t.year - t.year % iv.year + iv.year % 2 ^ 8, 0, 0⟩ := by
  rw [updateYear, if_pos hy]
  rfl

theorem updateMon_date (h : iv.Interval) (hm : iv.mon ≠ 0) :
    (updateMon iv t).toDate = carryYear ⟨t.year, t.mon - t.mon % iv.mon + iv.mon, 0⟩ := by
  have hle := h.mon_le
  have hmod : iv.mon % 2 ^ 8 = iv.mon := Nat.mod_eq_of_lt (by omega)
  rw [updateMon, if_pos hm, rtcTaskTimeAddMonths, hmod, if_neg (by omega)]

theorem updateMday_date (h : iv.Interval) (hd : iv.mday ≠ 0) :
    (updateMday iv t).toDate = addDays iv.mday ⟨t.year, t.mon, t.mday - t.mday % iv.mday⟩ := by
  have hle := h.mday_le
  have hmod : iv.mday % 2 ^ 8 = iv.mday := Nat.mod_eq_of_lt (by omega)
  rw [updateMday, if_pos hd, rtcTaskTimeAddDays, hmod]

/-- A month without a number stays without one. -/
theorem addDays_mon_zero (n : Nat) {d : Date} (h : d.mon = 0) : (addDays n d).mon = 0 := by
  induction n generalizing d with
  | zero => exact h
  | succ n ih =>
    refine ih ?_
    obtain ⟨year, mon, mday⟩ := d
    subst h
    rfl

/-- Days counted from the day before the first of a month. -/
theorem addDays_from_zero (year : Nat) (hpos : 1 ≤ mon) (hle : mon ≤ 12) (hn : n ≤ 31) :
    addDays n ⟨year, mon, 0⟩ = if n ≤ monthLen year mon then ⟨year, mon, n⟩
      else ⟨year, mon + 1, n - monthLen year mon⟩ := by
  have hp : Date.Proper ⟨year, mon, 0⟩ := ⟨hpos, hle, Nat.zero_le _⟩
  split
  · rename_i hin
    rw [hp.addDays_within (by dsimp only; omega)]
    rw [Nat.zero_add]
  · rename_i hover
    have hlen := monthLen_bounds year mon
    -- December has 31 days
    have hdec : mon ≠ 12 := by
      rintro rfl
      exact hover hn
    have hp' : Date.Proper ⟨year, mon + 1, 1⟩ := by
      have hnext := monthLen_bounds year (mon + 1)
      exact ⟨Nat.le_add_left 1 _, by dsimp only; omega, by dsimp only; omega⟩
    have hnext := monthLen_bounds year (mon + 1)
    rw [hp.addDays_over (by dsimp only; omega), Date.nextMonth, if_neg hdec,
      hp'.addDays_within (by dsimp only; omega), Date.mk.injEq]
    exact ⟨rfl, rfl, by dsimp only; omega⟩

theorem addDays_from_zero_spec (year : Nat) (hpos : 1 ≤ mon) (hle : mon ≤ 12) (hn0 : n ≠ 0)
    (hn : n ≤ 31) :
    (addDays n ⟨year, mon, 0⟩).Proper ∧ 1 ≤ (addDays n ⟨year, mon, 0⟩).mday ∧
      (addDays n ⟨year, mon, 0⟩).year = year ∧ mon ≤ (addDays n ⟨year, mon, 0⟩).mon ∧
      ((addDays n ⟨year, mon, 0⟩).NoSuchDay ↔ BadCentury year ∧ mon = 2 ∧ n = 29) := by
  have hp : Date.Proper ⟨year, mon, 0⟩ := ⟨hpos, hle, Nat.zero_le _⟩
  obtain ⟨hproper, hrest⟩ := hp.addDays n
  refine ⟨hproper, (hrest (Nat.pos_of_ne_zero hn0)).1, ?_, ?_, ?_⟩
  · rw [addDays_from_zero year hpos hle hn]
    split
    · rfl
    · rfl
  · rw [addDays_from_zero year hpos hle hn]
    split
    · exact Nat.le_refl _
    · exact Nat.le_succ _
  · rw [hp.addDays_noSuchDay_iff (by dsimp only; omega)]
    dsimp only
    rw [and_congr_right_iff]
    intro _
    omega

theorem Date.Proper.addDays_year_le {d : Date} (h : d.Proper) (n : Nat) :
    (Rtc.addDays n d).year ≤ d.year + n := by
  induction n generalizing d with
  | zero => exact Nat.le_refl _
  | succ n ih =>
    have hstep : (Rtc.nextDay d).year ≤ d.year + 1 := by
      rw [h.nextDay_eq, Date.nextMonth]
      split
      · exact Nat.le_succ _
      · split
        · exact Nat.le_refl _
        · exact Nat.le_succ _
    have hrest := ih h.nextDay.1
    rw [Rtc.addDays]
    omega

end date

/-! ### When the expiry is good -/

/-- The month and day of an interval as a date of a given year; days past the end of the month run
into the next. -/
def dayOf (year : Nat) (interval : Tm) : Date :=
  if interval.mday ≤ monthLen year interval.mon then ⟨year, interval.mon, interval.mday⟩
  else ⟨year, interval.mon + 1, interval.mday - monthLen year interval.mon⟩

/-- An interval in years leads past the current time: its years, narrowed to `u8`, exceed those
that the rounding takes away, or equal them and its remaining units are later in the year. -/
def YearsLater (cur interval : Tm) : Prop :=
  interval.year ≠ 0 →
    cur.year % interval.year < interval.year % 2 ^ 8 ∨
    cur.year % interval.year = interval.year % 2 ^ 8 ∧
      cur.Before ⟨dayOf cur.year interval, interval.hour, interval.min, interval.sec⟩

/-- The interval leads to 29 February of a year that does not have it. -/
def LeapDay (cur interval : Tm) : Prop :=
  if interval.year ≠ 0 then
    BadCentury (cur.year - cur.year % interval.year + interval.year % 2 ^ 8) ∧
      interval.mon = 2 ∧ interval.mday = 29
  else if interval.mon ≠ 0 then
    interval.mday = 29 ∧
      (cur.mon - cur.mon % interval.mon + interval.mon = 2 ∧ BadCentury cur.year ∨
        cur.mon - cur.mon % interval.mon + interval.mon = 14 ∧ BadCentury (cur.year + 1))
  else if interval.mday ≠ 0 then
    BadCentury cur.year ∧
      (cur.mon = 2 ∧ cur.mday - cur.mday % interval.mday + interval.mday = 29 ∨
        cur.mon = 1 ∧ cur.mday - cur.mday % interval.mday + interval.mday = 60)
  else BadCentury cur.year ∧ cur.mon = 2 ∧ cur.mday = 28 ∧ DayCarry cur interval

/-- **The condition on the current time and the interval.**  An interval in years names a month,
one in years or months names a day, its years are later, and 29 February is not in the way. -/
structure Sound (cur interval : Tm) : Prop where
  mon_given  : interval.year ≠ 0 → interval.mon ≠ 0
  mday_given : interval.year ≠ 0 ∨ interval.mon ≠ 0 → interval.mday ≠ 0
  later      : YearsLater cur interval
  no_leap    : ¬ LeapDay cur interval

/-- What is known of an expiry that has a month and a day. -/
structure Lands (cur interval e : Tm) : Prop where
  proper     : e.toDate.Proper
  mday_pos   : 1 ≤ e.mday
  clock      : e.OnClock
  year_lt    : e.year < 2 ^ 31
  leap_iff   : e.toDate.NoSuchDay ↔ LeapDay cur interval
  before_iff : cur.Before e ↔ YearsLater cur interval

section lands

variable {cur iv : Tm}

theorem Tm.Interval.clock_of (h : iv.Interval) (d : Date) :
    Tm.OnClock ⟨d, iv.hour, iv.min, iv.sec⟩ := ⟨h.clock.hour_le, h.clock.min_le, h.clock.sec_le⟩

theorem lands_year (hle : cur.year ≤ 9999) (h : iv.Interval) (hy : iv.year ≠ 0) (hm : iv.mon ≠ 0)
    (hd : iv.mday ≠ 0) : Lands cur iv (rtcTaskUpdateTime cur iv) := by
  have hmon := h.mon_le
  have hround : cur.year % iv.year ≤ cur.year := Nat.mod_le _ _
  generalize hyr : cur.year - cur.year % iv.year + iv.year % 2 ^ 8 = year
  have hdate : (updateDate iv cur).toDate = addDays iv.mday ⟨year, iv.mon, 0⟩ := by
    have hstep : (updateMon iv (updateYear iv cur)).toDate = ⟨year, iv.mon, 0⟩ := by
      rw [updateMon_date h hm, updateYear_date hy, carryYear, hyr]
      dsimp only
      rw [Nat.zero_mod, Nat.sub_zero, Nat.zero_add, if_pos (by omega)]
    rw [updateDate, updateMday_date h hd, hstep]
    dsimp only
    rw [Nat.zero_mod, Nat.sub_zero]
  obtain ⟨hp, hone, hyear, -, hleap⟩ :=
    addDays_from_zero_spec year (Nat.pos_of_ne_zero hm) hmon hd h.mday_le
  rw [rtcTaskUpdateTime_midnight h (.inl hy), hdate]
  refine ⟨hp, hone, h.clock_of _, ?_, ?_, ?_⟩
  · dsimp only
    omega
  · rw [hleap, LeapDay, if_pos hy, hyr]
  · rcases Nat.lt_trichotomy cur.year year with hlt | heq | hgt
    · refine iff_of_true (.inl (.inl ?_)) (fun _ => .inl (by omega))
      rw [hyear]
      exact hlt
    · -- the same year: the rest of the interval decides
      have hday : addDays iv.mday ⟨year, iv.mon, 0⟩ = dayOf cur.year iv := by
        rw [dayOf, heq, addDays_from_zero year (Nat.pos_of_ne_zero hm) hmon h.mday_le]
      rw [hday]
      constructor
      · exact fun hb _ => .inr ⟨by omega, hb⟩
      · intro hl
        rcases hl hy with hlt | ⟨-, hb⟩
        · omega
        · exact hb
    · refine iff_of_false (fun hb => ?_) (fun hl => ?_)
      · rw [Tm.Before, Date.Before, hyear] at hb
        rcases hb with hb | ⟨hb, -⟩
        · omega
        · have hyy := congrArg Date.year hb
          dsimp only at hyy
          omega
      · rcases hl hy with hlt | ⟨heq, -⟩
        · omega
        · omega

theorem lands_mon (hp : cur.toDate.Proper) (hle : cur.year ≤ 9999) (h : iv.Interval)
    (hy : iv.year = 0) (hm : iv.mon ≠ 0) (hd : iv.mday ≠ 0) :
    Lands cur iv (rtcTaskUpdateTime cur iv) := by
  have hmon := h.mon_le
  have hle12 := hp.mon_le
  obtain ⟨hlt, hub⟩ := round_bounds cur.mon hm
  have hkeep : updateYear iv cur = cur := if_neg (fun hc => hc hy)
  have hnot : YearsLater cur iv := fun hc => absurd hy hc
  rw [rtcTaskUpdateTime_midnight h (.inr (.inl hm)), updateDate, updateMday_date h hd,
    updateMon_date h hm, hkeep, carryYear]
  dsimp only
  split
  · -- a later month of this year
    obtain ⟨hp', hone, hyear, hmon', hleap⟩ := addDays_from_zero_spec cur.year
      (show 1 ≤ cur.mon - cur.mon % iv.mon + iv.mon by omega) (by omega) hd h.mday_le
    rw [Nat.zero_mod, Nat.sub_zero]
    refine ⟨hp', hone, h.clock_of _, ?_, ?_, iff_of_true (.inl (.inr ⟨?_, .inl ?_⟩)) hnot⟩
    · dsimp only
      omega
    · rw [hleap, LeapDay, if_neg (fun hc => hc hy), if_pos hm]
      constructor
      · rintro ⟨hbad, hfeb, h29⟩
        exact ⟨h29, .inl ⟨hfeb, hbad⟩⟩
      · rintro ⟨h29, ⟨hfeb, hbad⟩ | ⟨hfeb, -⟩⟩
        · exact ⟨hbad, hfeb, h29⟩
        · omega
    · exact hyear.symm
    · exact Nat.lt_of_lt_of_le hlt hmon'
  · obtain ⟨hp', hone, hyear, hmon', hleap⟩ := addDays_from_zero_spec (cur.year + 1)
      (show 1 ≤ cur.mon - cur.mon % iv.mon + iv.mon - 12 by omega) (by omega) hd h.mday_le
    rw [Nat.zero_mod, Nat.sub_zero]
    refine ⟨hp', hone, h.clock_of _, ?_, ?_, iff_of_true (.inl (.inl ?_)) hnot⟩
    · dsimp only
      omega
    · rw [hleap, LeapDay, if_neg (fun hc => hc hy), if_pos hm]
      constructor
      · rintro ⟨hbad, hfeb, h29⟩
        exact ⟨h29, .inr ⟨by omega, hbad⟩⟩
      · rintro ⟨h29, ⟨hfeb, -⟩ | ⟨hfeb, hbad⟩⟩
        · omega
        · exact ⟨hbad, by omega, h29⟩
    · rw [hyear]
      exact Nat.lt_succ_self _

theorem lands_mday (hp : cur.toDate.Proper) (hle : cur.year ≤ 9999) (h : iv.Interval)
    (hy : iv.year = 0) (hm : iv.mon = 0) (hd : iv.mday ≠ 0) :
    Lands cur iv (rtcTaskUpdateTime cur iv) := by
  have hday := hp.mday_le
  have hday' := h.mday_le
  have hlen := monthLen_bounds cur.year cur.mon
  have hkeep : updateMon iv (updateYear iv cur) = cur := by
    rw [updateYear, if_neg (fun hc => hc hy), updateMon, if_neg (fun hc => hc hm)]
  have hround : Date.Proper { cur.toDate with mday := cur.mday - cur.mday % iv.mday } :=
    ⟨hp.mon_pos, hp.mon_le, by dsimp only; omega⟩
  obtain ⟨hp', hone, hb⟩ := hp.roundDays hd
  rw [rtcTaskUpdateTime_midnight h (.inr (.inr hd)), updateDate, updateMday_date h hd, hkeep]
  refine ⟨hp', hone, h.clock_of _, ?_, ?_,
    iff_of_true (.inl hb) (fun hc => absurd hy hc)⟩
  · have hyear := hround.addDays_year_le iv.mday
    dsimp only at hyear ⊢
    omega
  · rw [LeapDay, if_neg (fun hc => hc hy), if_neg (fun hc => hc hm), if_pos hd]
    exact hround.addDays_noSuchDay_iff (by dsimp only; omega)

theorem lands_clock (hp : cur.toDate.Proper) (hone : 1 ≤ cur.mday) (hc : cur.OnClock)
    (hno : ¬ cur.toDate.NoSuchDay) (hle : cur.year ≤ 9999) (h : iv.Interval) (hy : iv.year = 0)
    (hm : iv.mon = 0) (hd : iv.mday = 0) (hne : iv.hour ≠ 0 ∨ iv.min ≠ 0 ∨ iv.sec ≠ 0) :
    Lands cur iv (rtcTaskUpdateTime cur iv) := by
  have hnot : YearsLater cur iv := fun hc => absurd hy hc
  have hkeep : updateDate iv cur = cur := by
    rw [updateDate, updateYear, if_neg (fun hc => hc hy), updateMon, if_neg (fun hc => hc hm),
      updateMday, if_neg (fun hc => hc hd)]
  rw [rtcTaskUpdateTime_eq, hkeep]
  have hleap : LeapDay cur iv ↔
      BadCentury cur.year ∧ cur.mon = 2 ∧ cur.mday = 28 ∧ DayCarry cur iv := by
    rw [LeapDay, if_neg (fun hc => hc hy), if_neg (fun hc => hc hm), if_neg (fun hc => hc hd)]
  obtain ⟨hc', ⟨hcarry, hdate⟩ | ⟨hcarry, hdate, hb⟩⟩ := updateClock_spec h hc hne
  · obtain ⟨hp', hone', hb⟩ := hp.nextDay
    have hyear := hp.addDays_year_le 1
    have hday := hp.mday_le
    have hlen := monthLen_bounds cur.year cur.mon
    refine ⟨hdate ▸ hp', hdate ▸ hone', hc', ?_, ?_, iff_of_true (.inl (hdate ▸ hb)) hnot⟩
    · rw [hdate]
      exact Nat.lt_of_le_of_lt hyear (by omega)
    · rw [hdate, hleap]
      refine (hp.addDays_noSuchDay_iff (n := 1) (by omega)).trans ?_
      rw [and_congr_right_iff]
      intro _
      constructor
      · intro hor
        exact ⟨by omega, by omega, hcarry⟩
      · rintro ⟨hfeb, h28, -⟩
        omega
  · refine ⟨hdate ▸ hp, hdate ▸ hone, hc', by rw [hdate]; omega, ?_, iff_of_true hb hnot⟩
    rw [hdate, hleap]
    exact iff_of_false hno (fun hl => hcarry hl.2.2.2)

/-- Without a month the expiry has none. -/
theorem rtcTaskUpdateTime_mon_zero (h : iv.Interval) (hy : iv.year ≠ 0) (hm : iv.mon = 0) :
    (rtcTaskUpdateTime cur iv).mon = 0 := by
  have hkeep : (updateMon iv (updateYear iv cur)).mon = 0 := by
    rw [updateMon, if_neg (fun hc => hc hm), updateYear_date hy]
  rw [rtcTaskUpdateTime_midnight h (.inl hy)]
  by_cases hd : iv.mday = 0
  · rw [updateDate, updateMday, if_neg (fun hc => hc hd)]
    exact hkeep
  · rw [updateDate, updateMday_date h hd]
    exact addDays_mon_zero _ hkeep

/-- Without a day the expiry has none. -/
theorem rtcTaskUpdateTime_mday_zero (h : iv.Interval) (hym : iv.year ≠ 0 ∨ iv.mon ≠ 0)
    (hd : iv.mday = 0) : (rtcTaskUpdateTime cur iv).mday = 0 := by
  rw [rtcTaskUpdateTime_midnight h (hym.imp_right .inl), updateDate, updateMday,
    if_neg (fun hc => hc hd)]
  by_cases hm : iv.mon = 0
  · rw [updateMon, if_neg (fun hc => hc hm), updateYear_date (by omega)]
  · rw [updateMon_date h hm, carryYear]
    split
    · rfl
    · rfl

/-- **The expiry is good exactly under the condition.** -/
theorem rtcTaskUpdateTime_good_iff (hcur : rtcTaskValidateTime cur = true) (h : iv.Interval)
    (hne : iv ≠ ⟨⟨0, 0, 0⟩, 0, 0, 0⟩) :
    (CalendarTime (rtcTaskUpdateTime cur iv) ∧ cur.Before (rtcTaskUpdateTime cur iv) ∧
      rtcTaskExpired cur (rtcTaskUpdateTime cur iv) = false) ↔ Sound cur iv := by
  obtain ⟨⟨hlo, hhi⟩, hp, hone, hclock, hno⟩ := (rtcTaskValidateTime_iff cur).mp hcur
  rw [calendarTime_iff]
  by_cases hgiven : (iv.year ≠ 0 → iv.mon ≠ 0) ∧ (iv.year ≠ 0 ∨ iv.mon ≠ 0 → iv.mday ≠ 0)
  · obtain ⟨hmon, hmday⟩ := hgiven
    have hl : Lands cur iv (rtcTaskUpdateTime cur iv) := by
      by_cases hd : iv.mday = 0
      · have hy : iv.year = 0 := by omega
        have hm : iv.mon = 0 := by omega
        refine lands_clock hp hone hclock hno hhi h hy hm hd ?_
        refine Decidable.byContradiction fun hz => hne ?_
        obtain ⟨⟨year, mon, mday⟩, hour, min, sec⟩ := iv
        dsimp only at hy hm hd hz
        rw [hy, hm, hd, show hour = 0 by omega, show min = 0 by omega, show sec = 0 by omega]
      · by_cases hm : iv.mon = 0
        · exact lands_mday hp hhi h (by omega) hm hd
        · by_cases hy : iv.year = 0
          · exact lands_mon hp hhi h hy hm hd
          · exact lands_year hhi h hy hm hd
    constructor
    · rintro ⟨⟨-, -, -, -, hleap⟩, hb, -⟩
      exact ⟨hmon, hmday, hl.before_iff.mp hb, fun hld => hleap (hl.leap_iff.mpr hld)⟩
    · intro hs
      have hb := hl.before_iff.mpr hs.later
      refine ⟨⟨?_, hl.proper, hl.mday_pos, hl.clock, fun hld => hs.no_leap (hl.leap_iff.mp hld)⟩,
        hb, rtcTaskExpired_of_before hl.year_lt hl.proper hl.clock hb⟩
      rcases hb with (hy | ⟨hy, -⟩) | ⟨hdate, -⟩
      · omega
      · omega
      · rw [← hdate]
        exact hlo
  · refine iff_of_false ?_ (fun hs => hgiven ⟨hs.mon_given, hs.mday_given⟩)
    rintro ⟨⟨-, hpe, honee, -⟩, -⟩
    refine hgiven ⟨fun hy hm => ?_, fun hym hd => ?_⟩
    · have hpos := hpe.mon_pos
      rw [rtcTaskUpdateTime_mon_zero h hy hm] at hpos
      exact Nat.not_succ_le_zero 0 hpos
    · rw [rtcTaskUpdateTime_mday_zero h hym hd] at honee
      exact Nat.not_succ_le_zero 0 honee

end lands

/-! ### Tasks that fire -/

theorem rtcTaskAdd_eq_some {cur iv : Tm} {autoLoad : Bool} {task : RtcTask}
    (hadd : rtcTaskAdd cur iv autoLoad = some task) :
    iv.Interval ∧ task = ⟨rtcTaskUpdateTime cur iv, iv, autoLoad⟩ := by
  rw [rtcTaskAdd] at hadd
  split at hadd
  · exact absurd hadd.symm (Option.some_ne_none _)
  · split at hadd
    · exact absurd hadd.symm (Option.some_ne_none _)
    · rename_i hrange _
      exact ⟨⟨by omega, by omega, by omega, ⟨by omega, by omega, by omega⟩⟩,
        (Option.some.inj hadd).symm⟩

/-- A second pass at the same time fires nothing, if no reloaded task has expired again. -/
theorem rtcTaskLoop_again {cur : Tm} {tasks : List RtcTask}
    (h : ∀ task ∈ tasks, task.autoLoad = true →
      rtcTaskExpired cur (rtcTaskUpdateTime cur task.interval) = false) :
    (rtcTaskLoop cur (rtcTaskLoop cur tasks).2).1 = [] := by
  induction tasks with
  | nil => rfl
  | cons task rest ih =>
    have hrest := ih (fun t ht => h t (List.mem_cons_of_mem _ ht))
    rw [rtcTaskLoop]
    dsimp only
    by_cases hexp : rtcTaskExpired cur task.expired = true
    · rw [if_pos hexp]
      by_cases hauto : task.autoLoad = true
      · rw [if_pos hauto, rtcTaskLoop]
        dsimp only
        rw [h task List.mem_cons_self hauto]
        exact hrest
      · rw [if_neg hauto]
        exact hrest
    · rw [if_neg hexp, rtcTaskLoop]
      dsimp only
      rw [if_neg hexp]
      exact hrest

/-- **The next expiry.**  For a current time that is valid and a non-zero interval that
`rtc_task_add` accepts, the expiry is a time of the calendar, later than the current time, and not
yet reached, exactly under `Sound`; and where the intervals of the auto-load tasks are so, a second
pass at the same time fires nothing. -/
theorem next_expiry_sound_iff (cur : Tm) (hcur : rtcTaskValidateTime cur = true) :
    (∀ iv autoLoad task, rtcTaskAdd cur iv autoLoad = some task → iv ≠ ⟨⟨0, 0, 0⟩, 0, 0, 0⟩ →
      ((CalendarTime task.expired ∧ cur.Before task.expired ∧
        rtcTaskExpired cur task.expired = false) ↔ Sound cur iv)) ∧
    ∀ tasks : List RtcTask,
      (∀ task ∈ tasks, task.autoLoad = true →
        (rtcTaskAdd cur task.interval true).isSome ∧ task.interval ≠ ⟨⟨0, 0, 0⟩, 0, 0, 0⟩ ∧
          Sound cur task.interval) →
      (rtcTaskLoop cur (rtcTaskLoop cur tasks).2).1 = [] := by
  constructor
  · intro iv autoLoad task hadd hne
    obtain ⟨hiv, rfl⟩ := rtcTaskAdd_eq_some hadd
    exact rtcTaskUpdateTime_good_iff hcur hiv hne
  · intro tasks htasks
    refine rtcTaskLoop_again fun task hmem hauto => ?_
    obtain ⟨hadd, hne, hs⟩ := htasks task hmem hauto
    obtain ⟨added, hadd⟩ := Option.isSome_iff_exists.mp hadd
    obtain ⟨hiv, -⟩ := rtcTaskAdd_eq_some hadd
    exact ((rtcTaskUpdateTime_good_iff hcur hiv hne).mpr hs).2.2

/-- At 20:30 on 28 February 2024 a daily task next expires at midnight of the 29th. -/
theorem next_expiry_sound_daily :
    let cur : Tm := ⟨⟨2024, 2, 28⟩, 20, 30, 0⟩
    let day : Tm := ⟨⟨0, 0, 1⟩, 0, 0, 0⟩
    rtcTaskValidateTime cur = true ∧
    rtcTaskAdd cur day true = some ⟨⟨⟨2024, 2, 29⟩, 0, 0, 0⟩, day, true⟩ ∧
    Sound cur day ∧ (rtcTaskLoop cur (rtcTaskLoop cur [⟨cur, day, true⟩]).2).1 = [] := by
  intro cur day
  have hcur : rtcTaskValidateTime cur = true := by decide
  have hadd : rtcTaskAdd cur day true = some ⟨⟨⟨2024, 2, 29⟩, 0, 0, 0⟩, day, true⟩ := by decide
  have hne : day ≠ ⟨⟨0, 0, 0⟩, 0, 0, 0⟩ := by decide
  obtain ⟨hiff, hloop⟩ := next_expiry_sound_iff cur hcur
  have hs : Sound cur day := (hiff day true _ hadd hne).mp
    ⟨⟨by decide, by decide⟩, .inl (.inr ⟨rfl, .inr ⟨rfl, by decide⟩⟩), by decide⟩
  refine ⟨hcur, hadd, hs, hloop _ ?_⟩
  intro task hmem _
  rw [List.mem_singleton] at hmem
  subst hmem
  exact ⟨by decide, hne, hs⟩

/-- **A yearly interval of 256 years is narrowed to none**, and the task fires on every pass; a
task every second has 29 February 2100 as its expiry. -/
theorem narrowed_interval_fires_again :
    let cur : Tm := ⟨⟨2048, 1, 1⟩, 0, 0, 0⟩
    let ages : Tm := ⟨⟨256, 1, 1⟩, 0, 0, 0⟩
    let eve : Tm := ⟨⟨2100, 2, 28⟩, 23, 59, 59⟩
    let second : Tm := ⟨⟨0, 0, 0⟩, 0, 0, 1⟩
    rtcTaskValidateTime cur = true ∧ rtcTaskValidateTime eve = true ∧
    rtcTaskAdd cur ages true = some ⟨cur, ages, true⟩ ∧
    (rtcTaskLoop cur (rtcTaskLoop cur [⟨cur, ages, true⟩]).2).1 = [⟨cur, ages, true⟩] ∧
    rtcTaskAdd eve second true = some ⟨⟨⟨2100, 2, 29⟩, 0, 0, 0⟩, second, true⟩ ∧
    rtcTaskValidateTime ⟨⟨2100, 2, 29⟩, 0, 0, 0⟩ = false := by
  decide

end Kinetis.Rtc
