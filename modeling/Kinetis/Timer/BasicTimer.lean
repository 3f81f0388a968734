import Kinetis.Lib.Runs
import Mathlib.Algebra.Order.Group.Nat
import Mathlib.Logic.Function.Iterate

/-!
# Timer — reading the microsecond clock

The clock is three words: seconds and microseconds in memory, advanced by the interrupt every
millisecond, and the hardware counter below a millisecond.  `_basic_timer_get_us` loads the three
one after the other and starts again when the seconds have changed meanwhile.  The microseconds
are not checked, so the interrupt may come between their load and that of the counter.

A run interleaves microseconds that pass with the loads of a call.  `began`, `usAt`, `counterAt`
and `ended` record when things happened; the code does not see them.

* `timerAt_eq`: what the three words hold at every instant;
* `Reading` holds of a call at every point of every run;
* `getUs_window`: a call returns the time of an instant between its start and its end, unless it
  is torn, and then it returns a time before its start.
-/

namespace Kinetis.BasicTimer
open Lib

/-! ### The clock -/

def TIMER_US_PER_SEC : Nat := 1000000
def TIMER_INTERRUPT_PERIOD : Nat := 1000

/-- The two words in memory, the hardware counter, and the microseconds that have really passed. -/
structure Timer where
  tickSs  : Nat
  tickUs  : Nat
  counter : Nat
  elapsed : Nat
  deriving DecidableEq, Repr

/-- `basic_timer_init`, with the counter at 0. -/
def Timer.init : Timer := ⟨0, 0, 0, 0⟩

/-- `basic_timer_isr`; both words are `u32`. -/
def basicTimerIsr (period : Nat) (t : Timer) : Timer :=
  let us := (t.tickUs + period) % 2 ^ 32
  if us ≥ TIMER_US_PER_SEC then
    { t with tickUs := us - TIMER_US_PER_SEC, tickSs := (t.tickSs + 1) % 2 ^ 32 }
  else { t with tickUs := us }

/-- A microsecond passes; when the counter wraps, the interrupt is taken at once. -/
def Timer.pass (t : Timer) : Timer :=
  if t.counter + 1 = TIMER_INTERRUPT_PERIOD then
    basicTimerIsr TIMER_INTERRUPT_PERIOD { t with counter := 0, elapsed := t.elapsed + 1 }
  else { t with counter := t.counter + 1, elapsed := t.elapsed + 1 }

/-- The clock `n` microseconds after it was started. -/
def timerAt (n : Nat) : Timer := Timer.pass^[n] Timer.init

theorem timerAt_succ (n : Nat) : timerAt (n + 1) = (timerAt n).pass :=
  Function.iterate_succ_apply' Timer.pass n Timer.init

/-- **The three words at every instant.** -/
theorem timerAt_eq (n : Nat) :
    timerAt n = ⟨n / 1000000 % 2 ^ 32, n / 1000 % 1000 * 1000, n % 1000, n⟩ := by
  induction n with
  | zero => rfl
  | succ n ih =>
    have hus : (n / 1000 % 1000 * 1000 + 1000) % 2 ^ 32 = n / 1000 % 1000 * 1000 + 1000 :=
      Nat.mod_eq_of_lt (by omega)
    rw [timerAt_succ, ih, Timer.pass, TIMER_INTERRUPT_PERIOD]
    dsimp only
    split
    · rename_i hwrap
      rw [basicTimerIsr, TIMER_US_PER_SEC]
      dsimp only
      rw [hus]
      split
      · -- the last millisecond of a second
        rename_i hlast
        have hsec : (n + 1) / 1000000 = n / 1000000 + 1 := by omega
        rw [hsec, Timer.mk.injEq, Nat.mod_add_mod]
        exact ⟨rfl, by omega, by omega, rfl⟩
      · rename_i hlast
        have hsec : (n + 1) / 1000000 = n / 1000000 := by omega
        rw [hsec, Timer.mk.injEq]
        exact ⟨rfl, by omega, by omega, rfl⟩
    · rename_i hcount
      have hsec : (n + 1) / 1000000 = n / 1000000 := by omega
      rw [hsec, Timer.mk.injEq]
      exact ⟨rfl, by omega, by omega, rfl⟩

/-! ### A call -/

/-- Where a call of `_basic_timer_get_us` is. -/
inductive Pc where
  | loadSs
  | loadUs
  | loadCounter
  | check
  | done
  deriving DecidableEq, Repr

/-- The locals of a call, what it returns, and when it did what. -/
structure Call where
  pc        : Pc
  ss        : Nat
  us        : Nat
  counter   : Nat
  value     : Nat
  began     : Nat
  usAt      : Nat
  counterAt : Nat
  ended     : Nat
  deriving DecidableEq, Repr

def Call.begin (now : Nat) : Call := ⟨.loadSs, 0, 0, 0, 0, now, 0, 0, 0⟩

/-- The next load of a call. -/
def Call.load (t : Timer) (c : Call) : Call :=
  match c.pc with
  | .loadSs => { c with pc := .loadUs, ss := t.tickSs }
  | .loadUs => { c with pc := .loadCounter, us := t.tickUs, usAt := t.elapsed }
  | .loadCounter => { c with pc := .check, counter := t.counter, counterAt := t.elapsed }
  | .check =>
    if c.ss ≠ t.tickSs then { c with pc := .loadSs }
    else { c with
      pc := .done
      value := (c.ss * TIMER_US_PER_SEC + c.us + c.counter) % 2 ^ 64
      ended := t.elapsed }
  | .done => c

/-- What happens next: a microsecond passes, or the call goes on. -/
inductive Event where
  | pass
  | load
  deriving DecidableEq, Repr

def step (s : Timer × Call) : Event → Timer × Call
  | .pass => (s.1.pass, s.2)
  | .load => (s.1, s.2.load s.1)

/-- A call begun at the instant `n`, run through the events `es`. -/
def getUs (n : Nat) (es : List Event) : Timer × Call := es.foldl step (timerAt n, Call.begin n)

/-! ### What a call has read -/

/-- What is known of a call at the instant `now`, in terms of the instants of its loads. -/
def Reading (now : Nat) (c : Call) : Prop :=
  match c.pc with
  | .loadSs => c.began ≤ now
  | .loadUs => ∃ t, c.began ≤ t ∧ t ≤ now ∧ c.ss = t / 1000000 % 2 ^ 32
  | .loadCounter => ∃ t, c.began ≤ t ∧ t ≤ c.usAt ∧ c.usAt ≤ now ∧ c.ss = t / 1000000 % 2 ^ 32 ∧
      c.us = c.usAt / 1000 % 1000 * 1000
  | .check => ∃ t, c.began ≤ t ∧ t ≤ c.usAt ∧ c.usAt ≤ c.counterAt ∧ c.counterAt ≤ now ∧
      c.ss = t / 1000000 % 2 ^ 32 ∧ c.us = c.usAt / 1000 % 1000 * 1000 ∧
      c.counter = c.counterAt % 1000
  | .done => ∃ t, c.began ≤ t ∧ t ≤ c.usAt ∧ c.usAt ≤ c.counterAt ∧ c.counterAt ≤ c.ended ∧
      c.ended ≤ now ∧ t / 1000000 % 2 ^ 32 = c.ended / 1000000 % 2 ^ 32 ∧
      c.value = (t / 1000000 % 2 ^ 32 * 1000000 + c.usAt / 1000 % 1000 * 1000 +
        c.counterAt % 1000) % 2 ^ 64

variable {now : Nat} {c : Call}

theorem Reading.pass (h : Reading now c) : Reading (now + 1) c := by
  rw [Reading] at h ⊢
  split
  · rename_i hpc
    rw [hpc] at h
    exact Nat.le_succ_of_le h
  · rename_i hpc
    rw [hpc] at h
    obtain ⟨t, hb, ht, h⟩ := h
    exact ⟨t, hb, Nat.le_succ_of_le ht, h⟩
  · rename_i hpc
    rw [hpc] at h
    obtain ⟨t, hb, ht, hu, h⟩ := h
    exact ⟨t, hb, ht, Nat.le_succ_of_le hu, h⟩
  · rename_i hpc
    rw [hpc] at h
    obtain ⟨t, hb, ht, hu, hc, h⟩ := h
    exact ⟨t, hb, ht, hu, Nat.le_succ_of_le hc, h⟩
  · rename_i hpc
    rw [hpc] at h
    obtain ⟨t, hb, ht, hu, hc, he, h⟩ := h
    exact ⟨t, hb, ht, hu, hc, Nat.le_succ_of_le he, h⟩

theorem Reading.load (h : Reading now c) : Reading now (c.load (timerAt now)) := by
  rw [timerAt_eq, Call.load]
  rw [Reading] at h
  split
  · rename_i hpc
    rw [hpc] at h
    exact ⟨now, h, Nat.le_refl now, rfl⟩
  · rename_i hpc
    rw [hpc] at h
    obtain ⟨t, hb, ht, hss⟩ := h
    exact ⟨t, hb, ht, Nat.le_refl now, hss, rfl⟩
  · rename_i hpc
    rw [hpc] at h
    obtain ⟨t, hb, ht, hu, hss, hus⟩ := h
    exact ⟨t, hb, ht, hu, Nat.le_refl now, hss, hus, rfl⟩
  · rename_i hpc
    rw [hpc] at h
    obtain ⟨t, hb, ht, hu, hc, hss, hus, hcounter⟩ := h
    split
    · exact hb.trans (ht.trans (hu.trans hc))
    · rename_i hsame
      refine ⟨t, hb, ht, hu, hc, Nat.le_refl now, ?_, ?_⟩
      · rw [← hss]
        exact Classical.not_not.mp hsame
      · rw [hss, hus, hcounter]
        rfl
  · rename_i hpc
    rw [hpc] at h
    rw [Reading, hpc]
    exact h

/-- The state of a run: the clock is the clock of its instant, and the call has read what it has
read; a call keeps its beginning. -/
structure Follows (n : Nat) (s : Timer × Call) : Prop where
  clock   : s.1 = timerAt s.1.elapsed
  later   : n ≤ s.1.elapsed
  began   : s.2.began = n
  reading : Reading s.1.elapsed s.2

theorem elapsed_timerAt (n : Nat) : (timerAt n).elapsed = n := by rw [timerAt_eq]

theorem Call.load_began (t : Timer) (c : Call) : (c.load t).began = c.began := by
  rw [Call.load]
  split
  · rfl
  · rfl
  · rfl
  · split
    · rfl
    · rfl
  · rfl

theorem Follows.step {n : Nat} {s : Timer × Call} (h : Follows n s) (ev : Event) :
    Follows n (step s ev) := by
  cases ev with
  | pass =>
    have hpass : s.1.pass = timerAt (s.1.elapsed + 1) := by
      rw [timerAt_succ, ← h.clock]
    have helapsed : s.1.pass.elapsed = s.1.elapsed + 1 := by rw [hpass, elapsed_timerAt]
    refine ⟨?_, ?_, h.began, ?_⟩
    · rw [BasicTimer.step, helapsed, hpass]
    · rw [BasicTimer.step, helapsed]
      exact Nat.le_succ_of_le h.later
    · rw [BasicTimer.step, helapsed]
      exact h.reading.pass
  | load =>
    refine ⟨h.clock, h.later, (Call.load_began _ _).trans h.began, ?_⟩
    have hload := h.reading.load
    rw [← h.clock] at hload
    exact hload

theorem follows_getUs (n : Nat) (es : List Event) : Follows n (getUs n es) := by
  refine Run.foldl_invariant (fun _ ev h => h.step ev) es ?_
  have hn := elapsed_timerAt n
  exact ⟨by rw [hn], hn.ge, rfl, hn.ge⟩

/-! ### What a call returns -/

/-- The interrupt came between the load of the microseconds and that of the counter, in the
millisecond in which the call began, and the counter was read before it had come round to where
it stood then. -/
def Call.Torn (c : Call) : Prop :=
  c.began / 1000 = c.usAt / 1000 ∧ c.usAt / 1000 < c.counterAt / 1000 ∧
    c.counterAt % 1000 < c.began % 1000

instance (c : Call) : Decidable c.Torn := inferInstanceAs (Decidable (_ ∧ _))

/-- The value is the time of an instant between the beginning and the end of the call. -/
def Call.InWindow (c : Call) : Prop := c.began ≤ c.value ∧ c.value ≤ c.ended

/-- Before the seconds overflow, the value is the millisecond of the one load and the counter of
the other. -/
theorem Reading.value_eq (h : Reading now c) (hdone : c.pc = .done)
    (hend : c.ended < 2 ^ 32 * 1000000) :
    (c.began ≤ c.usAt ∧ c.usAt ≤ c.counterAt ∧ c.counterAt ≤ c.ended) ∧
      c.value = c.usAt / 1000 * 1000 + c.counterAt % 1000 := by
  rw [Reading, hdone] at h
  obtain ⟨t, hb, ht, hu, hc, -, hss, hval⟩ := h
  refine ⟨⟨hb.trans ht, hu, hc⟩, ?_⟩
  have hmod : ∀ {x}, x ≤ c.ended → x / 1000000 % 2 ^ 32 = x / 1000000 := by
    intro x hx
    exact Nat.mod_eq_of_lt (by omega)
  -- all loads were made in the same second
  have hms : c.usAt / 1000 / 1000 = c.usAt / 1000000 := Nat.div_div_eq_div_mul _ _ _
  rw [hmod (ht.trans (hu.trans hc))] at hss
  have hsec : c.usAt / 1000000 = t / 1000000 := by omega
  rw [hval, hmod (ht.trans (hu.trans hc))]
  omega

theorem Reading.inWindow_iff (h : Reading now c) (hdone : c.pc = .done)
    (hend : c.ended < 2 ^ 32 * 1000000) : c.InWindow ↔ ¬ c.Torn := by
  obtain ⟨⟨hb, hu, hc⟩, hval⟩ := h.value_eq hdone hend
  rw [Call.InWindow, Call.Torn]
  omega

/-- Once the seconds have overflowed, a call of less than `2 ^ 32 - 1` seconds returns a time
before its beginning. -/
theorem Reading.not_inWindow (h : Reading now c) (hdone : c.pc = .done)
    (hend : 2 ^ 32 * 1000000 ≤ c.ended) (hshort : c.ended < c.began + (2 ^ 32 - 1) * 1000000) :
    ¬ c.InWindow := by
  rw [Reading, hdone] at h
  obtain ⟨t, hb, ht, hu, hc, -, hss, hval⟩ := h
  have hle : c.value ≤ t / 1000000 % 2 ^ 32 * 1000000 + c.usAt / 1000 % 1000 * 1000 +
      c.counterAt % 1000 := hval.trans_le (Nat.mod_le _ _)
  rintro ⟨hlo, -⟩
  omega

/-- **Reading the clock.**  A call that returns before the seconds overflow returns the time of an
instant between its beginning and its end exactly when it is not torn; after they have overflowed,
no call does (that takes less than `2 ^ 32 - 1` seconds).  Of two calls one after the other that
are not torn, the second does not return less than the first. -/
theorem getUs_window (n : Nat) (es : List Event) (hdone : (getUs n es).2.pc = .done) :
    let c := (getUs n es).2
    (c.ended < 2 ^ 32 * 1000000 → (c.InWindow ↔ ¬ c.Torn)) ∧
      (2 ^ 32 * 1000000 ≤ c.ended → c.ended < c.began + (2 ^ 32 - 1) * 1000000 → ¬ c.InWindow) ∧
      ∀ n' es', c.ended ≤ n' → (getUs n' es').2.pc = .done →
        (getUs n' es').2.ended < 2 ^ 32 * 1000000 → ¬ c.Torn → ¬ (getUs n' es').2.Torn →
        c.value ≤ (getUs n' es').2.value := by
  intro c
  have hf := follows_getUs n es
  refine ⟨hf.reading.inWindow_iff hdone, hf.reading.not_inWindow hdone, ?_⟩
  intro n' es' hlater hdone' hend' hwhole hwhole'
  have hf' := follows_getUs n' es'
  have hwin' := (hf'.reading.inWindow_iff hdone' hend').mpr hwhole'
  have hbound : c.ended < 2 ^ 32 * 1000000 :=
    (hlater.trans (hf'.began.ge.trans (hwin'.1.trans hwin'.2))).trans_lt hend'
  have hwin := (hf.reading.inWindow_iff hdone hbound).mpr hwhole
  exact hwin.2.trans (hlater.trans (hf'.began.ge.trans hwin'.1))

/-- A call in which a microsecond passes before the last load. -/
theorem getUs_window_undisturbed :
    (getUs 999 [.load, .load, .load, .pass, .load]).2.pc = .done ∧
      (getUs 999 [.load, .load, .load, .pass, .load]).2.InWindow := by
  have hrun : (getUs 999 [.load, .load, .load, .pass, .load]).2 =
      ⟨.done, 0, 0, 999, 999, 999, 999, 999, 1000⟩ := by
    rw [getUs, timerAt_eq]
    decide
  have hdone : (getUs 999 [.load, .load, .load, .pass, .load]).2.pc = .done := by rw [hrun]
  refine ⟨hdone, ((getUs_window 999 _ hdone).1 ?_).mpr ?_⟩
  · rw [hrun]
    decide
  · rw [hrun]
    decide

/-- Two calls one after the other, the second torn: the clock goes back by 999 microseconds. -/
theorem torn_call_goes_back :
    let c := (getUs 999 [.load, .load, .load, .load]).2
    let c' := (getUs 999 [.load, .load, .pass, .load, .load]).2
    c.pc = .done ∧ c'.pc = .done ∧ c.ended ≤ c'.began ∧ c.value = 999 ∧ c'.value = 0 ∧
      ¬ c'.InWindow := by
  have hc : (getUs 999 [.load, .load, .load, .load]).2 =
      ⟨.done, 0, 0, 999, 999, 999, 999, 999, 999⟩ := by
    rw [getUs, timerAt_eq]
    decide
  have hc' : (getUs 999 [.load, .load, .pass, .load, .load]).2 =
      ⟨.done, 0, 0, 0, 0, 999, 999, 1000, 1000⟩ := by
    rw [getUs, timerAt_eq]
    decide
  rw [hc, hc']
  exact ⟨rfl, rfl, Nat.le_refl _, rfl, rfl, fun h => absurd h.1 (by decide)⟩

end Kinetis.BasicTimer
