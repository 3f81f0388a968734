import Mathlib.Data.List.Basic

/-!
# Input — debouncing a button

`button_handler` is called every few milliseconds with a sample of the pin.  A press and a release
count once three samples in a row confirm them; the samples are shifted through a bitmap of three
bits.  The bitmap is cleared between the phases, but `button_add` fills it when the active level is
high, so that the first press needs one sample only.

* `Watch`: a button beside a count of the confirming samples in a row;
* `Sound.step`: with a cleared bitmap, the bits that are set are those of the count;
* `button_debounced_iff`: presses and releases are confirmed by three samples exactly for an active
  level of 0, or where the first active sample is not followed by another.
-/

namespace Kinetis.Input

def DEBOUNCE_CNT : Nat := 3

/-- `enum button_state_machine`. -/
inductive ButtonState where
  | idle
  | firstEdge
  | debounce
  | down
  | secondEdge
  | releaseDebounce
  | up
  deriving DecidableEq

/-- `enum button_event`. -/
inductive ButtonEvent where
  | none
  | singleClick
  | doubleClick
  | longPress
  | repeatPress
  deriving DecidableEq

/-- `struct button`, as far as the handler uses it. -/
structure Button where
  activeLevel : UInt8
  state       : ButtonState
  event       : ButtonEvent
  buttonLevel : BitVec DEBOUNCE_CNT
  validTicks  : UInt64
  cnt         : UInt8

/-- The pin and the clock at a call of the handler. -/
structure Sample where
  gpioLevel : UInt8
  now       : UInt64

/-- The button that `button_add` puts on the list. -/
def buttonAdd (activeLevel : UInt8) : Button where
  activeLevel := if activeLevel ≠ 0 then 1 else 0
  state := .idle
  event := .none
  buttonLevel := if activeLevel ≠ 0 then BitVec.allOnes DEBOUNCE_CNT else 0
  validTicks := 0
  cnt := 0

def Button.Active (b : Button) (x : Sample) : Prop := x.gpioLevel = b.activeLevel

instance (b : Button) (x : Sample) : Decidable (b.Active x) := inferInstanceAs (Decidable (_ = _))

/-- A sample shifted into the bitmap. -/
def shiftIn (level : BitVec DEBOUNCE_CNT) (bit : Bool) : BitVec DEBOUNCE_CNT :=
  if bit then level <<< 1 ||| 1 else level <<< 1 &&& ~~~1

/-- `button_handler`, with the events that it reports. -/
def buttonHandler (b : Button) (x : Sample) : Button × List ButtonEvent :=
  match b.state with
  | .idle => (if b.Active x then { b with state := .debounce } else b, [])
  | .debounce =>
    let level := shiftIn b.buttonLevel (b.Active x)
    if level = BitVec.allOnes DEBOUNCE_CNT then
      ({ b with buttonLevel := 0, validTicks := x.now, state := .down }, [])
    else ({ b with buttonLevel := level }, [])
  | .down =>
    let held := x.now - b.validTicks > 3000
    let b' := if held then { b with event := .repeatPress } else b
    (if b.Active x then b' else { b' with state := .releaseDebounce },
      if held then [.repeatPress] else [])
  | .releaseDebounce =>
    let level := shiftIn b.buttonLevel (¬ b.Active x)
    if level = BitVec.allOnes DEBOUNCE_CNT then
      ({ b with buttonLevel := 0, validTicks := x.now - b.validTicks, state := .up }, [])
    else ({ b with buttonLevel := level }, [])
  | .up =>
    ({ b with
        cnt := if b.validTicks ≤ 1500 then b.cnt + 1 else b.cnt
        event := .none
        state := .idle
        validTicks := 0 },
      if b.validTicks ≤ 1500 then [.singleClick]
      else if b.validTicks ≤ 3000 then [.longPress] else [])
  | .firstEdge | .secondEdge => (b, [])

/-! ### Watching a button -/

/-- A button with the confirming samples in a row that it has taken in the phase it is in, and all
events so far. -/
structure Watch where
  button  : Button
  press   : Nat
  release : Nat
  events  : List ButtonEvent

def Watch.step (w : Watch) (x : Sample) : Watch where
  button := (buttonHandler w.button x).1
  press := if w.button.state = .debounce ∧ w.button.Active x then w.press + 1 else 0
  release := if w.button.state = .releaseDebounce ∧ ¬ w.button.Active x then w.release + 1 else 0
  events := w.events ++ (buttonHandler w.button x).2

def Watch.run (w : Watch) (xs : List Sample) : Watch := xs.foldl Watch.step w

/-- The watch from `button_add` on. -/
def Watch.start (activeLevel : UInt8) : Watch := ⟨buttonAdd activeLevel, 0, 0, []⟩

/-- A press or a release that a sample completes is confirmed by three. -/
def Watch.Confirmed (w : Watch) (x : Sample) : Prop :=
  (w.button.state ≠ .down → (w.step x).button.state = .down → 3 ≤ (w.step x).press) ∧
    (w.button.state ≠ .up → (w.step x).button.state = .up → 3 ≤ (w.step x).release)

def Debounced : Watch → List Sample → Prop
  | _, [] => True
  | w, x :: xs => w.Confirmed x ∧ Debounced (w.step x) xs

/-- The first active sample is followed by another. -/
def QuickStart (b : Button) : List Sample → Prop
  | x :: y :: xs => if b.Active x then b.Active y else QuickStart b (y :: xs)
  | _ => False

/-- No three active samples in a row, after `k` of them. -/
def ShortPulses (b : Button) : (k : Nat) → List Sample → Prop
  | _, [] => True
  | k, x :: xs =>
    if b.Active x then k + 1 < 3 ∧ ShortPulses b (k + 1) xs else ShortPulses b 0 xs

/-! ### The bitmap -/

/-- The bits that are set from the lowest on. -/
def lowOnes (level : BitVec DEBOUNCE_CNT) : Nat :=
  if level &&& 1 = 0 then 0 else if level &&& 2 = 0 then 1 else if level &&& 4 = 0 then 2 else 3

theorem lowOnes_set (level : BitVec DEBOUNCE_CNT) :
    lowOnes (shiftIn level true) = min (lowOnes level + 1) 3 := by
  revert level
  decide

theorem lowOnes_clear (level : BitVec DEBOUNCE_CNT) : lowOnes (shiftIn level false) = 0 := by
  revert level
  decide

theorem allOnes_iff (level : BitVec DEBOUNCE_CNT) :
    level = BitVec.allOnes DEBOUNCE_CNT ↔ lowOnes level = 3 := by
  revert level
  decide

/-- One sample moves the set bits as it moves the count. -/
theorem lowOnes_shiftIn {level : BitVec DEBOUNCE_CNT} {n : Nat} (h : lowOnes level = min n 3)
    (p : Prop) [Decidable p] :
    lowOnes (shiftIn level (decide p)) = min (if p then n + 1 else 0) 3 := by
  by_cases hp : p
  · rw [if_pos hp, decide_eq_true hp, lowOnes_set, h]
    omega
  · rw [if_neg hp, decide_eq_false hp, lowOnes_clear]
    rfl

/-- **The bitmap against the counts**: clear outside the two phases, and inside them as long a row of
bits as of samples. -/
structure Sound (w : Watch) : Prop where
  debounce : w.button.state = .debounce → lowOnes w.button.buttonLevel = min w.press 3
  release  : w.button.state = .releaseDebounce → lowOnes w.button.buttonLevel = min w.release 3
  cleared  : w.button.state ≠ .debounce → w.button.state ≠ .releaseDebounce →
    w.button.buttonLevel = 0

variable {w : Watch} {xs : List Sample}

variable {x : Sample} {b : Button} {k : Nat} {activeLevel : UInt8}

/-- A button that a sample leaves in another phase, its bitmap clear. -/
theorem Sound.of_cleared {es : List ButtonEvent} (hstep : buttonHandler w.button x = (b, es))
    (hlevel : b.buttonLevel = 0) (hpress : w.button.state ≠ .debounce)
    (hrelease : w.button.state ≠ .releaseDebounce)
    (hdown : b.state = .down → w.button.state = .down) (hup : b.state ≠ .up) :
    Sound (w.step x) ∧ w.Confirmed x := by
  have hzero : lowOnes 0 = 0 := rfl
  rw [Watch.Confirmed, Watch.step, hstep]
  simp only [hpress, hrelease, false_and, if_false]
  refine ⟨⟨?_, ?_, fun _ _ => hlevel⟩, fun hne heq => absurd (hdown heq) hne,
    fun _ heq => absurd heq hup⟩
  · intro _
    rw [hlevel, hzero]
    rfl
  · intro _
    rw [hlevel, hzero]
    rfl

/-- **One sample** keeps the bitmap and the counts together, and completes a press or a release only
with the third in a row. -/
theorem Sound.step (h : Sound w) (x : Sample) : Sound (w.step x) ∧ w.Confirmed x := by
  cases hs : w.button.state with
  | debounce =>
    -- the bitmap is full with the third bit, and that is the third sample
    have hones := lowOnes_shiftIn (h.debounce hs) (w.button.Active x)
    by_cases hfull : shiftIn w.button.buttonLevel (w.button.Active x) = BitVec.allOnes DEBOUNCE_CNT
    · have hstep : buttonHandler w.button x =
          ({ w.button with buttonLevel := 0, validTicks := x.now, state := .down }, []) := by
        rw [buttonHandler, hs]
        exact if_pos hfull
      rw [allOnes_iff, hones] at hfull
      rw [Watch.Confirmed, Watch.step, hstep]
      simp only [hs, true_and]
      exact ⟨⟨by simp, by simp, fun _ _ => rfl⟩, fun _ _ => by omega, by simp⟩
    · have hstep : buttonHandler w.button x = ({ w.button with
          state := .debounce
          buttonLevel := shiftIn w.button.buttonLevel (w.button.Active x) }, []) := by
        rw [buttonHandler, hs]
        exact if_neg hfull
      rw [Watch.Confirmed, Watch.step, hstep]
      simp only [hs, true_and]
      exact ⟨⟨fun _ => hones, by simp, by simp⟩, by simp, by simp⟩
  | releaseDebounce =>
    have hones := lowOnes_shiftIn (h.release hs) (¬ w.button.Active x)
    by_cases hfull : shiftIn w.button.buttonLevel (¬ w.button.Active x) =
        BitVec.allOnes DEBOUNCE_CNT
    · have hstep : buttonHandler w.button x = ({ w.button with
          buttonLevel := 0, validTicks := x.now - w.button.validTicks, state := .up }, []) := by
        rw [buttonHandler, hs]
        exact if_pos hfull
      rw [allOnes_iff, hones] at hfull
      rw [Watch.Confirmed, Watch.step, hstep]
      simp only [hs, true_and]
      exact ⟨⟨by simp, by simp, fun _ _ => rfl⟩, by simp, fun _ _ => by omega⟩
    · have hstep : buttonHandler w.button x = ({ w.button with
          state := .releaseDebounce
          buttonLevel := shiftIn w.button.buttonLevel (¬ w.button.Active x) }, []) := by
        rw [buttonHandler, hs]
        exact if_neg hfull
      rw [Watch.Confirmed, Watch.step, hstep]
      simp only [hs, true_and]
      exact ⟨⟨by simp, fun _ => hones, by simp⟩, by simp, by simp⟩
  | idle =>
    have hlevel := h.cleared (by simp [hs]) (by simp [hs])
    refine Sound.of_cleared (by rw [buttonHandler, hs]) ?_ (by simp [hs]) (by simp [hs]) ?_ ?_
    all_goals split <;> simp [hs, hlevel]
  | down =>
    have hlevel := h.cleared (by simp [hs]) (by simp [hs])
    refine Sound.of_cleared (by rw [buttonHandler, hs]) ?_ (by simp [hs]) (by simp [hs])
      (fun _ => hs) ?_
    all_goals split <;> split <;> simp [hs, hlevel]
  | up =>
    have hlevel := h.cleared (by simp [hs]) (by simp [hs])
    refine Sound.of_cleared (by rw [buttonHandler, hs]) ?_ (by simp [hs]) (by simp [hs]) ?_ ?_
    all_goals simp [hlevel]
  | firstEdge | secondEdge =>
    have hlevel := h.cleared (by simp [hs]) (by simp [hs])
    exact Sound.of_cleared (by rw [buttonHandler, hs]) hlevel (by simp [hs]) (by simp [hs])
      (by simp [hs]) (by simp [hs])

theorem Sound.debounced (h : Sound w) (xs : List Sample) : Debounced w xs := by
  induction xs generalizing w with
  | nil => trivial
  | cons x xs ih => exact ⟨(h.step x).2, ih (h.step x).1⟩

/-! ### The filled bitmap -/

/-- A button of active level 1 before its first active sample. -/
structure Fresh (w : Watch) : Prop where
  state : w.button.state = .idle
  level : w.button.buttonLevel = BitVec.allOnes DEBOUNCE_CNT

theorem Fresh.inactive (h : Fresh w) (hx : ¬ w.button.Active x) :
    (w.step x).button = w.button ∧ w.Confirmed x ∧ (w.step x).events = w.events := by
  have hstep : buttonHandler w.button x = (w.button, []) := by
    simp only [buttonHandler, h.state, if_neg hx]
  rw [Watch.Confirmed, Watch.step, hstep]
  exact ⟨rfl, ⟨fun hne heq => absurd heq hne, fun hne heq => absurd heq hne⟩, List.append_nil _⟩

theorem Fresh.active (h : Fresh w) (hx : w.button.Active x) :
    (w.step x).button = { w.button with state := .debounce } ∧ (w.step x).press = 0 ∧
      w.Confirmed x ∧ (w.step x).events = w.events := by
  have hstep : buttonHandler w.button x = ({ w.button with state := .debounce }, []) := by
    simp only [buttonHandler, h.state, if_pos hx]
  rw [Watch.Confirmed, Watch.step, hstep]
  simp [h.state]

/-- **After the first active sample** the filled bitmap takes the next one for the third, unless it is
inactive. -/
theorem Fresh.second (h : Fresh w) {y : Sample} (hx : w.button.Active x) :
    (w.button.Active y → ¬ (w.step x).Confirmed y) ∧
      (¬ w.button.Active y → (w.step x).Confirmed y ∧ Sound ((w.step x).step y) ∧
        ((w.step x).step y).press = 0 ∧ ((w.step x).step y).button.state = .debounce ∧
        ((w.step x).step y).button.activeLevel = w.button.activeLevel ∧
        ((w.step x).step y).events = w.events) := by
  obtain ⟨hbutton, hpress, -, hevents⟩ := h.active hx
  generalize w.step x = w' at *
  have hactive : w'.button.Active y ↔ w.button.Active y := by
    rw [hbutton]
    rfl
  have hs : w'.button.state = .debounce := by rw [hbutton]
  have hlevel : w'.button.buttonLevel = BitVec.allOnes DEBOUNCE_CNT := by rw [hbutton, ← h.level]
  have hfull : shiftIn (BitVec.allOnes DEBOUNCE_CNT) true = BitVec.allOnes DEBOUNCE_CNT := by decide
  have hopen : ¬ shiftIn (BitVec.allOnes DEBOUNCE_CNT) false = BitVec.allOnes DEBOUNCE_CNT := by
    decide
  constructor
  · intro hy hconf
    have hdown : (w'.step y).button.state = .down := by
      simp only [Watch.step, buttonHandler, hs, hlevel, hactive.mpr hy, decide_true, hfull, if_true]
    have hcount := hconf.1 (by simp [hs]) hdown
    simp only [Watch.step, hs, hactive.mpr hy, hpress, true_and, if_true] at hcount
    omega
  · intro hy
    have hy' : ¬ w'.button.Active y := fun h' => hy (hactive.mp h')
    have hstep : buttonHandler w'.button y = ({ w'.button with
        state := .debounce
        buttonLevel := shiftIn (BitVec.allOnes DEBOUNCE_CNT) false }, []) := by
      simp only [buttonHandler, hs, hlevel, hy', decide_false, if_neg hopen]
    have hzero : lowOnes (shiftIn (BitVec.allOnes DEBOUNCE_CNT) false) = 0 := by decide
    rw [Watch.Confirmed, Watch.step, hstep]
    simp only [hs, hy', and_false, if_false]
    refine ⟨⟨by simp, by simp⟩, ⟨fun _ => hzero, by simp, by simp⟩, trivial, trivial, by rw [hbutton], ?_⟩
    rw [hevents, List.append_nil]

/-- Without the second sample the filled bitmap does no harm. -/
theorem Fresh.debounced_iff (h : Fresh w) (xs : List Sample) :
    Debounced w xs ↔ ¬ QuickStart w.button xs := by
  induction xs generalizing w with
  | nil => exact iff_of_true trivial id
  | cons x xs ih =>
    by_cases hx : w.button.Active x
    · obtain ⟨-, -, hconf, -⟩ := h.active hx
      cases xs with
      | nil => exact iff_of_true ⟨hconf, trivial⟩ id
      | cons y ys =>
        rw [QuickStart, if_pos hx]
        constructor
        · exact fun hd hy => (h.second hx).1 hy hd.2.1
        · intro hy
          obtain ⟨hconf', hsound, -⟩ := (h.second hx).2 hy
          exact ⟨hconf, hconf', hsound.debounced ys⟩
    · obtain ⟨hbutton, hconf, -⟩ := h.inactive hx
      have hfresh : Fresh (w.step x) := ⟨by rw [hbutton, h.state], by rw [hbutton, h.level]⟩
      rw [Debounced, ih hfresh, hbutton]
      cases xs with
      | nil => exact iff_of_true ⟨hconf, id⟩ id
      | cons y ys =>
        rw [QuickStart, if_neg hx]
        exact and_iff_right hconf

/-! ### Short pulses -/

/-- A button that waits or checks a press, with at most `k` active samples behind it. -/
structure Quiet (w : Watch) (k : Nat) : Prop where
  sound  : Sound w
  state  : w.button.state = .idle ∨ w.button.state = .debounce
  press  : w.press ≤ k

theorem Quiet.step (h : Quiet w k) (hshort : w.button.Active x → k + 1 < 3) :
    Quiet (w.step x) (if w.button.Active x then k + 1 else 0) ∧
      (w.step x).button.activeLevel = w.button.activeLevel ∧ (w.step x).events = w.events := by
  have hsound := (h.sound.step x).1
  have hpress := h.press
  rcases h.state with hs | hs
  · have hstep : buttonHandler w.button x =
        (if w.button.Active x then { w.button with state := .debounce } else w.button, []) := by
      simp only [buttonHandler, hs]
    refine ⟨⟨hsound, ?_, ?_⟩, ?_, ?_⟩
    · rw [Watch.step, hstep]
      dsimp only
      split
      · exact .inr rfl
      · exact .inl hs
    · simp [Watch.step, hs]
    · rw [Watch.step, hstep]
      dsimp only
      split
      · rfl
      · rfl
    · rw [Watch.step, hstep]
      exact List.append_nil _
  · -- too few active samples for the bitmap to be full
    have hones := lowOnes_shiftIn (h.sound.debounce hs) (w.button.Active x)
    have hopen : ¬ shiftIn w.button.buttonLevel (w.button.Active x) =
        BitVec.allOnes DEBOUNCE_CNT := by
      rw [allOnes_iff, hones]
      split
      · rename_i hx
        have := hshort hx
        omega
      · omega
    have hstep : buttonHandler w.button x = ({ w.button with
        state := .debounce
        buttonLevel := shiftIn w.button.buttonLevel (w.button.Active x) }, []) := by
      simp only [buttonHandler, hs, if_neg hopen]
    refine ⟨⟨hsound, ?_, ?_⟩, ?_, ?_⟩
    · rw [Watch.step, hstep]
      exact .inr rfl
    · simp only [Watch.step, hs, true_and]
      split
      · omega
      · exact Nat.le_refl _
    · rw [Watch.step, hstep]
    · rw [Watch.step, hstep]
      exact List.append_nil _

theorem Quiet.run (h : Quiet w k) (hb : b.activeLevel = w.button.activeLevel)
    (hshort : ShortPulses b k xs) : (w.run xs).events = w.events := by
  induction xs generalizing w k with
  | nil => rfl
  | cons x xs ih =>
    have hactive : b.Active x ↔ w.button.Active x := by rw [Button.Active, Button.Active, hb]
    rw [ShortPulses] at hshort
    by_cases hx : w.button.Active x
    · rw [if_pos (hactive.mpr hx)] at hshort
      obtain ⟨hquiet, hlevel, hevents⟩ := h.step (x := x) (fun _ => hshort.1)
      rw [if_pos hx] at hquiet
      exact (ih hquiet (hb.trans hlevel.symm) hshort.2).trans hevents
    · rw [if_neg (fun hc => hx (hactive.mp hc))] at hshort
      obtain ⟨hquiet, hlevel, hevents⟩ := h.step (x := x) (fun hc => absurd hc hx)
      rw [if_neg hx] at hquiet
      exact (ih hquiet (hb.trans hlevel.symm) hshort).trans hevents

theorem Fresh.run (h : Fresh w) (hquick : ¬ QuickStart w.button xs)
    (hshort : ShortPulses w.button 0 xs) : (w.run xs).events = w.events := by
  induction xs generalizing w with
  | nil => rfl
  | cons x xs ih =>
    rw [ShortPulses] at hshort
    by_cases hx : w.button.Active x
    · obtain ⟨-, -, -, hevents⟩ := h.active hx
      cases xs with
      | nil => exact hevents
      | cons y ys =>
        rw [QuickStart, if_pos hx] at hquick
        rw [if_pos hx, ShortPulses, if_neg hquick] at hshort
        obtain ⟨-, hsound, hpress, hstate, hlevel, hevents'⟩ := (h.second hx).2 hquick
        have hquiet : Quiet ((w.step x).step y) 0 :=
          ⟨hsound, .inr hstate, Nat.le_of_eq hpress⟩
        exact (hquiet.run hlevel.symm hshort.2).trans hevents'
    · obtain ⟨hbutton, -, hevents⟩ := h.inactive hx
      have hfresh : Fresh (w.step x) := ⟨by rw [hbutton, h.state], by rw [hbutton, h.level]⟩
      rw [if_neg hx] at hshort
      refine (ih hfresh ?_ (by rw [hbutton]; exact hshort)).trans hevents
      rw [hbutton]
      cases xs with
      | nil => exact id
      | cons y ys =>
        rw [QuickStart, if_neg hx] at hquick
        exact hquick

/-! ### From `button_add` on -/

theorem start_sound (h : activeLevel = 0) : Sound (Watch.start activeLevel) := by
  subst h
  exact ⟨by simp [Watch.start, buttonAdd], by simp [Watch.start, buttonAdd], fun _ _ => rfl⟩

theorem start_fresh (h : activeLevel ≠ 0) : Fresh (Watch.start activeLevel) :=
  ⟨rfl, if_pos h⟩

/-- **Debouncing.**  Every press and every release is confirmed by three samples in a row exactly if
the active level is 0 or the first active sample is not followed by another; and then pulses of
fewer than three samples report nothing. -/
theorem button_debounced_iff (activeLevel : UInt8) (xs : List Sample) :
    (Debounced (Watch.start activeLevel) xs ↔
      activeLevel = 0 ∨ ¬ QuickStart (buttonAdd activeLevel) xs) ∧
    (activeLevel = 0 ∨ ¬ QuickStart (buttonAdd activeLevel) xs →
      ShortPulses (buttonAdd activeLevel) 0 xs → ((Watch.start activeLevel).run xs).events = []) := by
  by_cases h : activeLevel = 0
  · have hsound := start_sound h
    have hquiet : Quiet (Watch.start activeLevel) 0 := ⟨hsound, .inl rfl, Nat.le_refl 0⟩
    exact ⟨iff_of_true (hsound.debounced xs) (.inl h), fun _ hshort => hquiet.run rfl hshort⟩
  · have hfresh := start_fresh h
    refine ⟨(hfresh.debounced_iff xs).trans (or_iff_right h).symm, fun hcond hshort => ?_⟩
    exact hfresh.run (hcond.resolve_left h) hshort

/-- **Two samples make a click**: an active level of 1, two active samples and five inactive ones. -/
theorem button_two_samples_click :
    let high : Sample := ⟨1, 0⟩
    let low : Sample := ⟨0, 0⟩
    ((Watch.start 1).run [high, high]).button.state = .down ∧
      ((Watch.start 1).run [high, high]).press = 1 ∧
      ((Watch.start 1).run [high, high, low, low, low, low, low]).events = [.singleClick] := by
  decide

end Kinetis.Input
