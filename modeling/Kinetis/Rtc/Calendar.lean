import Kinetis.Lib.Gregorian
import Kinetis.Rtc.Expiry

/-!
# Rtc — the additions and the calendar

The additions of seconds, minutes, hours and days against the Gregorian calendar.  A time is an
instant: the number of its day and the second of that day.  All four additions advance the clock
exactly and step the date a number of days; where they differ from the calendar is the carry of
days, which puts a 29 February into every fourth year.

* `addDays_exact_iff`: adding days is right unless it steps over the end of a February that has no
  29th for the calendar and has one for the additions;
* `Normal`: what the carries of the clock do;
* `additions_exact_iff`: the same condition for all four additions.
-/

namespace Kinetis.Rtc
open Lib.Gregorian

/-! ### Days -/

/-- A date as a day of the calendar. -/
def Date.day (d : Date) : Day := ⟨d.year, d.mon, d.mday⟩

def feb28 (year : Nat) : Date := ⟨year, 2, 28⟩

def march1 (year : Nat) : Date := ⟨year, 3, 1⟩

/-- Between two days is the end of a February that the additions make too long. -/
def Crosses (a b : Nat) : Prop :=
  ∃ year, BadCentury year ∧ a ≤ (feb28 year).day.number ∧ (feb28 year).day.number < b

theorem isLeap_iff (year : Nat) : isLeap year = true ↔ year % 4 = 0 ∧ ¬ BadCentury year := by
  rw [isLeap, decide_eq_true_iff, BadCentury]
  omega

variable {year n k : Nat}

theorem daysInMonth_eq {mon : Nat} (h : ¬ (mon = 2 ∧ BadCentury year)) :
    daysInMonth year mon = monthLen year mon := by
  rw [daysInMonth, monthLen]
  by_cases hfeb : mon = 2
  · rw [if_pos hfeb, if_pos hfeb]
    refine if_congr ?_ rfl rfl
    rw [isLeap_iff]
    exact and_iff_left fun hbad => h ⟨hfeb, hbad⟩
  · rw [if_neg hfeb, if_neg hfeb]
    exact if_congr (decide_eq_true_iff).symm rfl rfl

theorem daysInMonth_bad (h : BadCentury year) : daysInMonth year 2 = 28 := by
  rw [daysInMonth, if_pos rfl, if_neg]
  rw [isLeap_iff]
  exact fun hleap => hleap.2 h

variable {d : Date}

/-- The calendar's dates are those of the additions, but for a 29 February too many. -/
theorem Date.day_valid_iff (d : Date) : d.day.Valid ↔ d.Proper ∧ 1 ≤ d.mday ∧ ¬ d.NoSuchDay := by
  have hlen : d.mday ≤ daysInMonth d.year d.mon ↔ d.mday ≤ monthLen d.year d.mon ∧
      ¬ d.NoSuchDay := by
    by_cases hbad : d.mon = 2 ∧ BadCentury d.year
    · rw [hbad.1, daysInMonth_bad hbad.2, monthLen_feb, if_pos hbad.2.leap]
      constructor
      · intro h
        exact ⟨by omega, fun hno => absurd hno.2.1 (by omega)⟩
      · rintro ⟨h, hno⟩
        have : d.mday ≠ 29 := fun h29 => hno ⟨hbad.1, h29, hbad.2⟩
        omega
    · rw [daysInMonth_eq hbad]
      exact (and_iff_left fun hno => hbad ⟨hno.1, hno.2.2⟩).symm
  constructor
  · rintro ⟨hpos, hle, hone, hday⟩
    exact ⟨⟨hpos, hle, (hlen.mp hday).1⟩, hone, (hlen.mp hday).2⟩
  · rintro ⟨⟨hpos, hle, hday⟩, hone, hno⟩
    exact ⟨hpos, hle, hone, hlen.mpr ⟨hday, hno⟩⟩

theorem feb28_valid (year : Nat) : (feb28 year).day.Valid := by
  refine ⟨(by decide : 1 ≤ 2), (by decide : 2 ≤ 12), (by decide : 1 ≤ 28), ?_⟩
  change 28 ≤ daysInMonth year 2
  rw [daysInMonth, if_pos rfl]
  split
  · decide
  · decide

theorem march1_valid (year : Nat) : (march1 year).day.Valid :=
  ⟨(by decide : 1 ≤ 3), (by decide : 3 ≤ 12), Nat.le_refl 1, (by decide : 1 ≤ 31)⟩

/-- **One day**: right unless it is 28 February of a year that the additions take for a leap
year. -/
theorem nextDay_exact (h : d.day.Valid) (hgap : ∀ year, BadCentury year → d ≠ feb28 year) :
    (nextDay d).day.Valid ∧ (nextDay d).day.number = d.day.number + 1 := by
  obtain ⟨hp, hone, hno⟩ := (Date.day_valid_iff d).mp h
  obtain ⟨hp', hone', -⟩ := hp.nextDay
  -- 28 February apart, the day after a good date is none that does not exist
  have hno' : ¬ (nextDay d).NoSuchDay := by
    rintro ⟨hmon, hday, hbad⟩
    rw [hp.nextDay_eq] at hmon hday hbad
    split at hday
    · rename_i hlast
      rw [if_pos hlast] at hmon hbad
      refine hgap d.year hbad ?_
      rw [feb28, Date.mk.injEq]
      exact ⟨rfl, hmon, by dsimp only at hday; omega⟩
    · exact absurd (hp.nextMonth.2.1.symm.trans hday) (by decide)
  refine ⟨(Date.day_valid_iff _).mpr ⟨hp', hone', hno'⟩, ?_⟩
  rw [hp.nextDay_eq]
  split
  · rfl
  · rename_i hlast
    have hend : d.mday = monthLen d.year d.mon := Nat.le_antisymm hp.mday_le (Nat.le_of_not_lt hlast)
    have hlen : daysInMonth d.year d.mon = d.mday := by
      rw [hend]
      refine daysInMonth_eq ?_
      rintro ⟨hfeb, hbad⟩
      refine hno ⟨hfeb, ?_, hbad⟩
      rw [hend, hfeb, monthLen_feb, if_pos hbad.leap]
    rw [Date.nextMonth]
    split
    · rename_i hdec
      have h31 : d.mday = 31 := by rw [← hlen, hdec]; rfl
      rw [Date.day, Date.day]
      rw [hdec, h31]
      exact number_next_year d.year
    · rw [Date.day, Date.day]
      rw [← hlen]
      exact number_next_month d.year hp.mon_pos

theorem not_feb28_of_not_crosses (h : ¬ Crosses d.day.number (d.day.number + (n + 1))) :
    ∀ year, BadCentury year → d ≠ feb28 year := by
  rintro year hbad rfl
  exact h ⟨year, hbad, Nat.le_refl _, by omega⟩

/-- Days that do not cross the end of a bad February. -/
theorem addDays_exact (h : d.day.Valid) (hno : ¬ Crosses d.day.number (d.day.number + n)) :
    (addDays n d).day.Valid ∧ (addDays n d).day.number = d.day.number + n := by
  induction n generalizing d with
  | zero => exact ⟨h, rfl⟩
  | succ n ih =>
    obtain ⟨hv, hnum⟩ := nextDay_exact h (not_feb28_of_not_crosses hno)
    have hno' : ¬ Crosses (nextDay d).day.number ((nextDay d).day.number + n) := by
      rintro ⟨year, hbad, hle, hlt⟩
      exact hno ⟨year, hbad, by omega, by omega⟩
    obtain ⟨hv', hnum'⟩ := ih hv hno'
    exact ⟨hv', by rw [addDays]; omega⟩

/-- From the first of March the next February is far away. -/
theorem not_crosses_march (hn : n ≤ 255) :
    ¬ Crosses (march1 year).day.number ((march1 year).day.number + n) := by
  rintro ⟨year', -, hle, hlt⟩
  have hlater : year < year' := by
    by_contra hno
    refine absurd hle (Nat.not_le_of_lt (Day.number_lt (feb28_valid year') (march1_valid year) ?_))
    rcases Nat.lt_or_eq_of_le (Nat.le_of_not_lt hno) with hlt | heq
    · exact .inl hlt
    · exact .inr ⟨heq, .inl (by decide : 2 < 3)⟩
  have hstart : yearStart (year + 1) ≤ yearStart year' := yearStart_mono hlater
  have hfeb : (feb28 year').day.number = yearStart year' + 31 + 28 := rfl
  have hfirst : (march1 year).day.number = yearStart year + (31 + daysInMonth year 2) + 1 := rfl
  have hdays : daysInMonth year 2 ≤ 29 := by
    rw [daysInMonth, if_pos rfl]
    split
    · exact Nat.le_refl _
    · exact Nat.le_succ _
  have hyear : 365 ≤ yearLen year := by
    rw [yearLen]
    split
    · exact Nat.le_succ _
    · exact Nat.le_refl _
  rw [yearStart] at hstart
  omega

/-- From 28 February of such a year the additions are a day late. -/
theorem addDays_late (hbad : BadCentury year) (hn : n < 255) :
    ¬ ((addDays (n + 1) (feb28 year)).day.Valid ∧
      (addDays (n + 1) (feb28 year)).day.number = (feb28 year).day.number + (n + 1)) := by
  have hfirst : nextDay (feb28 year) = ⟨year, 2, 29⟩ := by
    rw [nextDay, rtcTaskSpecialAddDays, feb28]
    dsimp only
    rw [if_pos rfl, if_pos hbad.leap]
    rfl
  have hsecond : nextDay ⟨year, 2, 29⟩ = march1 year := by
    rw [nextDay, rtcTaskSpecialAddDays]
    dsimp only
    rw [if_pos rfl, if_pos hbad.leap]
    rfl
  rintro ⟨hv, hnum⟩
  rw [addDays, hfirst] at hv hnum
  cases n with
  | zero => exact ((Date.day_valid_iff _).mp hv).2.2 ⟨rfl, rfl, hbad⟩
  | succ n =>
    rw [addDays, hsecond] at hnum
    rw [(addDays_exact (march1_valid year) (not_crosses_march (by omega))).2] at hnum
    have hnext : (march1 year).day.number = (feb28 year).day.number + 1 := by
      have h := number_next_month year (by decide : 1 ≤ 2)
      rw [daysInMonth_bad hbad] at h
      exact h
    omega

/-- **Adding days** is right exactly when no such February ends in between. -/
theorem addDays_exact_iff (h : d.day.Valid) (hn : n ≤ 255) :
    ((addDays n d).day.Valid ∧ (addDays n d).day.number = d.day.number + n) ↔
      ¬ Crosses d.day.number (d.day.number + n) := by
  refine ⟨fun hexact hcross => ?_, addDays_exact h⟩
  -- up to 28 February the additions are right, from there on late
  induction n generalizing d with
  | zero =>
    obtain ⟨year, -, hle, hlt⟩ := hcross
    omega
  | succ n ih =>
    by_cases hgap : ∃ year, BadCentury year ∧ d = feb28 year
    · obtain ⟨year, hbad, rfl⟩ := hgap
      exact addDays_late hbad (by omega) hexact
    · obtain ⟨hv, hnum⟩ := nextDay_exact h (fun year hbad heq => hgap ⟨year, hbad, heq⟩)
      obtain ⟨year, hbad, hle, hlt⟩ := hcross
      have hne : d.day.number ≠ (feb28 year).day.number := by
        intro heq
        refine hgap ⟨year, hbad, ?_⟩
        obtain ⟨y, m, k⟩ := d
        have hday := Day.number_inj h (feb28_valid year) heq
        rw [Date.day, Date.day, Day.mk.injEq] at hday
        rw [feb28, Date.mk.injEq]
        exact hday
      rw [addDays] at hexact
      refine ih hv (by omega) ⟨hexact.1, by omega⟩ ⟨year, hbad, by omega, by omega⟩

/-! ### The clock -/

/-- The second of the day, also of a time whose fields have run over. -/
def Tm.second (t : Tm) : Nat := 3600 * t.hour + 60 * t.min + t.sec

theorem Tm.OnClock.second_lt {t : Tm} (h : t.OnClock) : t.second < 86400 := by
  obtain ⟨hh, hm, hs⟩ := h
  rw [Tm.second]
  omega

/-- `r` is `t` on the clock, and `k` days later what did not fit. -/
structure Normal (t r : Tm) (k : Nat) : Prop where
  clock  : r.OnClock
  date   : r.toDate = addDays k t.toDate
  second : r.second + 86400 * k = t.second

variable {r : Tm}

section carry

variable {t : Tm}

theorem carryHour_normal (hh : t.hour ≤ 47) (hm : t.min ≤ 59) (hs : t.sec ≤ 59) :
    ∃ k ≤ 1, Normal t (carryHour t) k := by
  rw [carryHour]
  split
  · rename_i hlt
    exact ⟨0, by decide, ⟨Nat.le_of_lt_succ hlt, hm, hs⟩, rfl, rfl⟩
  · rename_i hge
    refine ⟨1, Nat.le_refl 1, ⟨by dsimp only; omega, hm, hs⟩, rfl, ?_⟩
    rw [Tm.second, Tm.second]
    dsimp only
    omega

/-- A carry that moves seconds from one field to the next changes neither date nor second. -/
theorem Normal.of_eq {t' : Tm} (h : Normal t' r k) (hdate : t'.toDate = t.toDate)
    (hsecond : t'.second = t.second) : Normal t r k :=
  ⟨h.clock, by rw [h.date, hdate], by rw [h.second, hsecond]⟩

theorem carryMin_normal (hh : t.hour ≤ 23) (hm : t.min ≤ 119) (hs : t.sec ≤ 59) :
    ∃ k ≤ 1, Normal t (carryMin t) k := by
  rw [carryMin]
  split
  · rename_i hlt
    exact ⟨0, by decide, ⟨hh, Nat.le_of_lt_succ hlt, hs⟩, rfl, rfl⟩
  · rename_i hge
    obtain ⟨k, hk, hn⟩ := carryHour_normal (t := { t with min := t.min - 60, hour := t.hour + 1 })
      (by dsimp only; omega) (by dsimp only; omega) hs
    refine ⟨k, hk, hn.of_eq rfl ?_⟩
    rw [Tm.second, Tm.second]
    dsimp only
    omega

theorem carrySec_normal (hh : t.hour ≤ 23) (hm : t.min ≤ 59) (hs : t.sec ≤ 119) :
    ∃ k ≤ 1, Normal t (carrySec t) k := by
  rw [carrySec]
  split
  · rename_i hlt
    exact ⟨0, by decide, ⟨hh, hm, Nat.le_of_lt_succ hlt⟩, rfl, rfl⟩
  · rename_i hge
    obtain ⟨k, hk, hn⟩ := carryMin_normal (t := { t with sec := t.sec - 60, min := t.min + 1 })
      hh (by dsimp only; omega) (by dsimp only; omega)
    refine ⟨k, hk, hn.of_eq rfl ?_⟩
    rw [Tm.second, Tm.second]
    dsimp only
    omega

end carry

/-! ### Instants -/

/-- Seconds on the calendar. -/
def Tm.instant (t : Tm) : Nat := 86400 * t.day.number + t.second

/-- `r` is the time of the calendar that is `n` seconds after `t`. -/
structure Later (t : Tm) (n : Nat) (r : Tm) : Prop where
  valid   : r.day.Valid
  clock   : r.OnClock
  instant : r.instant = t.instant + n

/-- There is one such time. -/
theorem Later.unique {t r' : Tm} (h : Later t n r) (h' : Later t n r') : r = r' := by
  have hlt := h.clock.second_lt
  have hlt' := h'.clock.second_lt
  have heq := h.instant.trans h'.instant.symm
  rw [Tm.instant, Tm.instant] at heq
  have hday := Day.number_inj h.valid h'.valid (by omega)
  have hsecond : r.second = r'.second := by
    rw [hday] at heq
    omega
  obtain ⟨⟨y, m, d⟩, hour, min, sec⟩ := r
  obtain ⟨⟨y', m', d'⟩, hour', min', sec'⟩ := r'
  obtain ⟨hh, hm, hs⟩ := h.clock
  obtain ⟨hh', hm', hs'⟩ := h'.clock
  rw [Date.day, Date.day, Day.mk.injEq] at hday
  rw [Tm.second, Tm.second] at hsecond
  rw [Tm.mk.injEq, Date.mk.injEq]
  dsimp only at *
  omega

/-- The end of a February that the additions make too long is between `t` and `n` seconds later. -/
def CrossesGap (t : Tm) (n : Nat) : Prop := Crosses t.day.number ((t.instant + n) / 86400)

/-- A time that `k` days and the clock make `n` seconds later. -/
theorem later_iff {t : Tm} (hv : t.day.Valid) (hclock : r.OnClock)
    (hdate : r.toDate = addDays k t.toDate) (hsecond : r.second + 86400 * k = t.second + n)
    (hk : k ≤ 255) : Later t n r ↔ ¬ CrossesGap t n := by
  have hlt := hclock.second_lt
  have hend : (t.instant + n) / 86400 = t.day.number + k := by
    rw [Tm.instant]
    omega
  have hday : r.day = (addDays k t.toDate).day := by rw [hdate]
  rw [CrossesGap, hend, ← addDays_exact_iff hv hk]
  constructor
  · rintro ⟨hvalid, -, hinstant⟩
    rw [Tm.instant, hday] at hinstant
    rw [hday] at hvalid
    exact ⟨hvalid, by omega⟩
  · rintro ⟨hvalid, hnumber⟩
    refine ⟨by rw [hday]; exact hvalid, hclock, ?_⟩
    rw [Tm.instant, Tm.instant, hday]
    omega

/-- **The additions on the calendar.**  For every time that `rtc_task_validate_time` accepts, adding
seconds, minutes, hours or days gives the time of the calendar that many units later exactly when no
28 February of a year divisible by 100 and not by 400 is passed. -/
theorem additions_exact_iff (t : Tm) (ht : rtcTaskValidateTime t = true) :
    (∀ s ≤ 60, Later t s (rtcTaskTimeAddSeconds t s) ↔ ¬ CrossesGap t s) ∧
    (∀ m ≤ 60, Later t (60 * m) (rtcTaskTimeAddMinutes t m) ↔ ¬ CrossesGap t (60 * m)) ∧
    (∀ h ≤ 24, Later t (3600 * h) (rtcTaskTimeAddHours t h) ↔ ¬ CrossesGap t (3600 * h)) ∧
    (∀ d ≤ 255, Later t (86400 * d) (rtcTaskTimeAddDays t d) ↔ ¬ CrossesGap t (86400 * d)) := by
  obtain ⟨-, hp, hone, hclock, hno⟩ := (rtcTaskValidateTime_iff t).mp ht
  have hv : t.day.Valid := (Date.day_valid_iff t.toDate).mpr ⟨hp, hone, hno⟩
  obtain ⟨hh, hm, hs⟩ := hclock
  refine ⟨fun s hle => ?_, fun m hle => ?_, fun h hle => ?_, fun d hle => ?_⟩
  · obtain ⟨k, hk, hn⟩ := carrySec_normal (t := { t with sec := t.sec + s }) hh hm
      (by dsimp only; omega)
    rw [rtcTaskTimeAddSeconds, Nat.mod_eq_of_lt (by omega : s < 2 ^ 8), if_neg (by omega)]
    refine later_iff hv hn.clock hn.date (hn.second.trans ?_) (by omega)
    rw [Tm.second, Tm.second]
    dsimp only
    omega
  · obtain ⟨k, hk, hn⟩ := carryMin_normal (t := { t with min := t.min + m }) hh
      (by dsimp only; omega) hs
    rw [rtcTaskTimeAddMinutes, Nat.mod_eq_of_lt (by omega : m < 2 ^ 8), if_neg (by omega)]
    refine later_iff hv hn.clock hn.date (hn.second.trans ?_) (by omega)
    rw [Tm.second, Tm.second]
    dsimp only
    omega
  · obtain ⟨k, hk, hn⟩ := carryHour_normal (t := { t with hour := t.hour + h })
      (by dsimp only; omega) hm hs
    rw [rtcTaskTimeAddHours, Nat.mod_eq_of_lt (by omega : h < 2 ^ 8), if_neg (by omega)]
    refine later_iff hv hn.clock hn.date (hn.second.trans ?_) (by omega)
    rw [Tm.second, Tm.second]
    dsimp only
    omega
  · rw [rtcTaskTimeAddDays, Nat.mod_eq_of_lt (by omega : d < 2 ^ 8)]
    exact later_iff hv ⟨hh, hm, hs⟩ rfl rfl hle

/-- New Year's Eve of 9999, one second before midnight. -/
theorem additions_exact_new_year :
    rtcTaskValidateTime ⟨⟨9999, 12, 31⟩, 23, 59, 59⟩ = true ∧
    Later ⟨⟨9999, 12, 31⟩, 23, 59, 59⟩ 1 ⟨⟨10000, 1, 1⟩, 0, 0, 0⟩ := by
  have hv : rtcTaskValidateTime ⟨⟨9999, 12, 31⟩, 23, 59, 59⟩ = true := by decide
  refine ⟨hv, ((additions_exact_iff _ hv).1 1 (by decide)).mpr ?_⟩
  rintro ⟨year, -, hle, hlt⟩
  simp only [Tm.instant, Tm.second, Date.day] at hle hlt
  have hday := Day.number_inj (b := ⟨9999, 12, 31⟩) (feb28_valid year)
    ⟨by decide, by decide, by decide, by decide⟩ (by rw [Date.day]; omega)
  exact absurd (congrArg Day.mon hday) (by decide : 2 ≠ 12)

/-- **2100 has no 29 February**: one second after the last of 28 February, and two days after it. -/
theorem additions_2100 :
    rtcTaskValidateTime ⟨⟨2100, 2, 28⟩, 23, 59, 59⟩ = true ∧
    rtcTaskTimeAddSeconds ⟨⟨2100, 2, 28⟩, 23, 59, 59⟩ 1 = ⟨⟨2100, 2, 29⟩, 0, 0, 0⟩ ∧
    ¬ Later ⟨⟨2100, 2, 28⟩, 23, 59, 59⟩ 1 ⟨⟨2100, 2, 29⟩, 0, 0, 0⟩ ∧
    rtcTaskTimeAddDays ⟨⟨2100, 2, 28⟩, 23, 59, 59⟩ 2 = ⟨⟨2100, 3, 1⟩, 23, 59, 59⟩ ∧
    ¬ Later ⟨⟨2100, 2, 28⟩, 23, 59, 59⟩ (86400 * 2) ⟨⟨2100, 3, 1⟩, 23, 59, 59⟩ := by
  refine ⟨by decide, by decide, fun h => ?_, by decide, fun h => ?_⟩
  · exact absurd h.valid.mday_le (by decide)
  · have hnext := number_next_month 2100 (by decide : 1 ≤ 2)
    have hinstant := h.instant
    rw [daysInMonth_bad ⟨rfl, by decide⟩] at hnext
    simp only [Tm.instant, Tm.second, Date.day, Nat.reduceAdd] at hinstant hnext
    omega

end Kinetis.Rtc
