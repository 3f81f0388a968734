import Kinetis.Pov.FsmSafety

/-!
# Pov — every pass starts at the first column

`pass_starts_at_first_column`: as long as passes meet no trouble and every end of image is served,
each call of `display_image` finds the file behind the header of its image.  The position is reset
at the end of an image only: the way back from an error, or from an update of the stator, does not
rewind, and the next pass goes on where the last one stopped (`displays_from_the_middle`).
-/

namespace Kinetis.Pov.Fsm
open Lib Mavlink

/-! ### Ends of image that are served -/

section Served

variable {d : Disk} {a : Arm}

/-- The rewind works, and the image that the command asks for, if it asks for one, can be shown. -/
def Served (d : Disk) (a : Arm) : Prop :=
  d.seek = none ∧ ∀ i, a.target = some i → ∃ bytes, Offers d a i bytes

/-- An end of image that is served leaves an image at its first column. -/
theorem Served.handleEndOfImage (h : Showable a) (hserved : Served d a) :
    (handleEndOfImage d a).1 = none ∧ (handleEndOfImage d a).2.AtFirstColumn := by
  cases htarget : a.target with
  | none =>
    obtain ⟨_, _, heq⟩ := handleEndOfImage_replayed htarget h.fileValid hserved.1
    rw [heq]
    refine ⟨rfl, ?_⟩
    change min POV_IMAGE_HEADER_SIZE a.imageFile.size = _
    rw [h.size]
    rfl
  | some i =>
    obtain ⟨bytes, hoffers⟩ := hserved.2 i htarget
    rcases handleEndOfImage_switches (d := d) htarget with ⟨_, _, _, _, heq⟩ | ⟨-, hno⟩
    · rw [heq]
      exact ⟨rfl, rfl⟩
    · exact absurd hoffers (hno bytes)

theorem Served.endOfImage (h : Showable a) (hserved : Served d a) :
    (endOfImage d a).state = .displaying ∧ (endOfImage d a).AtFirstColumn := by
  obtain ⟨hok, hfirst⟩ := hserved.handleEndOfImage h
  rw [Fsm.endOfImage]
  split
  next heq => simp [heq] at hok
  next heq =>
    rw [heq] at hfirst
    exact ⟨rfl, hfirst⟩

end Served

/-! ### Iterations that leave no image in the middle -/

/-- No access of the pass fails, and the sensor does not stall. -/
structure Untroubled (w : Inputs) (a : Arm) : Prop where
  reads : ∀ k, w.readFails k = false
  spi   : ∀ k, w.spi k = none
  moves : ∀ s t i, ¬ Stalls w a.armId a.angularResolution s t i

/-- What the phone asks for leaves an image at its first column, or is seen to later. -/
def PhoneServed (w : World) (a : Arm) : PhoneReaction → Prop
  | .endOfImage => Served w.disk a
  | .install action imageIndex delayFrames =>
    Served w.disk (imageCmdSet action imageIndex delayFrames a)
  | .reload => Reloadable w.disk
  | .enter state => state = .rotorUpdate
  | .stay => True

/-- Nothing in this iteration leaves the image in the middle. -/
structure Smooth (a : Arm) (w : World) : Prop where
  pass   : Displays a w → Untroubled w.display a
  phone  : a.state = .checkCmd → a.isMaster = true → PhoneServed w a (phoneReaction w a)
  ring   : a.Polls → RingUpdatesWork a w ∧ Served w.disk (ringPoll w a)
  update : a.state = .rotorUpdate → w.disk.seek = none

/-- The states between the end of a pass and the rewind. -/
def State.passEnded : State → Bool
  | .checkCmd | .checkRing | .statorUpdate | .rotorUpdate => true
  | _ => false

/-- Outside the end of a pass, the image stands at its first column. -/
structure Ready (a : Arm) : Prop where
  image  : Showable a
  first  : a.state.passEnded = false → a.AtFirstColumn
  stator : a.state ≠ .statorUpdate
  rotor  : a.state = .rotorUpdate → a.isMaster = true

section Pass

variable {a a₀ : Arm} {w : World}

/-- An arm at its first column stays ready in any state but the update of the stator. -/
theorem Ready.of_first (h : Showable a) (hfirst : a.AtFirstColumn)
    (hstate : a.state.passEnded = false) : Ready a where
  image := h
  first _ := hfirst
  stator hs := by
    rw [hs] at hstate
    cases hstate
  rotor hs := by
    rw [hs] at hstate
    cases hstate

theorem Served.ready (h : Showable a) {d : Disk} (hserved : Served d a) :
    Ready (Fsm.endOfImage d a) := by
  obtain ⟨hstate, hfirst⟩ := hserved.endOfImage h
  exact .of_first (h.endOfImage d) hfirst (by rw [hstate]; rfl)

theorem served_replay (a : Arm) {d : Disk} (hseek : d.seek = none) (imageIndex : UInt16) :
    Served d (imageCmdSet MAV_IMAGE_ACTION_REPLAY imageIndex 0 a) := by
  have htarget : (imageCmdSet MAV_IMAGE_ACTION_REPLAY imageIndex 0 a).target = none :=
    target_of_replay rfl
  exact ⟨hseek, fun i hi => by cases hi⟩

theorem Ready.displayLoop (h : Ready a) (hstate : a.state = .displaying) (hreturns : Returns a w)
    (hpass : Displays a w → Untroubled w.display a) : Ready (displayLoop w a) := by
  have hfirst := h.first (by rw [hstate]; rfl)
  by_cases hbeat : a.isMaster = true → w.heartbeat = true
  · obtain ⟨q, hq⟩ := Option.isSome_iff_exists.mp (hreturns ⟨hstate, hbeat⟩)
    have hw := hpass ⟨hstate, hbeat⟩
    have himage := h.image.displayImage hq
    rw [displayLoop_eq hbeat hq]
    -- without trouble the pass does not fail
    obtain ⟨⟨e, r⟩, hr, rfl⟩ := Option.map_eq_some_iff.mp hq
    rw [Arm.inputs, if_pos h.image.fileValid] at hr
    obtain rfl := displayImage_ok ⟨h.image.size, hw.reads, hw.spi⟩ hw.moves hfirst hr
    cases hmaster : ({ a with toRotor := r } : Arm).isMaster with
    | true =>
      exact ⟨himage.setFsmState _, fun hended => Bool.noConfusion hended, State.noConfusion,
        State.noConfusion⟩
    | false =>
      exact ⟨himage.setFsmState _, fun hended => Bool.noConfusion hended, State.noConfusion,
        State.noConfusion⟩
  · -- the heartbeat is looked at before the image is touched
    rw [Fsm.displayLoop, if_pos (by simpa using hbeat)]
    exact .of_first (h.image.setFsmState _) hfirst rfl

theorem Ready.checkPhoneCmd (h : Ready a) (hmaster : a.isMaster = true)
    (hserved : PhoneServed w a (phoneReaction w a)) :
    Ready (checkPhoneCmd w a) := by
  rw [Fsm.checkPhoneCmd]
  split
  next heq =>
    rw [heq] at hserved
    exact hserved.ready h.image
  next heq =>
    rw [heq] at hserved
    exact hserved.ready (h.image.imageCmdSet _ _ _)
  next heq =>
    rw [heq] at hserved
    obtain ⟨a', hreload, hshow, hfirst, -⟩ := Reloadable.reload hserved a
    rw [hreload]
    exact .of_first (hshow.setFsmState _) hfirst rfl
  next heq =>
    rw [heq] at hserved
    obtain rfl := hserved
    exact ⟨h.image.setFsmState _, fun hended => Bool.noConfusion hended, State.noConfusion,
      fun _ => hmaster⟩
  next => exact h

theorem Ready.waitSpeedStable (h : Ready a) (hstate : a.state = .waitSpeed) (w : World) :
    Ready (waitSpeedStable w a) := by
  have hfirst := h.first (by rw [hstate]; rfl)
  have himage := h.image.waitSpeedStable w
  obtain ⟨n, state, heq, hnext⟩ := waitSpeedStable_cases w a
  rw [heq] at himage ⊢
  refine .of_first himage hfirst ?_
  rcases hnext with rfl | rfl
  · rfl
  · rw [hstate]
    rfl

/-- One smooth iteration keeps the arm ready. -/
theorem Ready.step (h : Ready a) (hreturns : Returns a w) (hw : Smooth a w) : Ready (step a w) := by
  -- a change of state that is not the end of a pass
  have hgoes (hnow : a.state.passEnded = false) {state : State} (hs : state.passEnded = false) :
      Ready (a.setFsmState state) := .of_first (h.image.setFsmState _) (h.first hnow) hs
  -- the states of the master only
  have hawait (hnow : a.state.passEnded = false) (ok : Bool) {next : State}
      (hnext : next.passEnded = false) :
      Ready (if a.isMaster then a.goOn ok next else a.setFsmState .waitSpeed) := by
    rw [Arm.goOn]
    split
    · split
      · exact hgoes hnow hnext
      · exact h
    · exact hgoes hnow rfl
  rw [Fsm.step]
  split
  next hstate => exact hawait (by rw [hstate]; rfl) _ rfl
  next hstate => exact hawait (by rw [hstate]; rfl) _ rfl
  next hstate => exact hawait (by rw [hstate]; rfl) _ rfl
  next hstate => exact h.displayLoop hstate hreturns hw.pass
  next hstate =>
    split
    next hmaster => exact h.checkPhoneCmd hmaster (hw.phone hstate hmaster)
    next hslave =>
      obtain ⟨hupdates, hserved⟩ := hw.ring (.inr ⟨hstate, Bool.eq_false_iff.mpr hslave⟩)
      exact hserved.ready (h.image.ringPoll hupdates)
  next hstate => exact h.waitSpeedStable hstate w
  next hstate =>
    obtain ⟨hupdates, hserved⟩ := hw.ring (.inl hstate)
    exact hserved.ready (h.image.ringPoll hupdates)
  next hstate => exact absurd hstate h.stator
  next hstate =>
    rw [if_pos (h.rotor hstate)]
    exact (served_replay a (hw.update hstate) _).ready (h.image.imageCmdSet _ _ _)
  next hstate =>
    rw [errorOccurred]
    split
    · exact hgoes (by rw [hstate]; rfl) rfl
    · exact hgoes (by rw [hstate]; rfl) rfl

theorem Started.ready (h : Started a) : Ready a := by
  obtain ⟨himage, hfirst, hstate⟩ := h.showable
  refine .of_first himage hfirst ?_
  rcases hstate with hstate | hstate
  · rw [hstate]
    rfl
  · rw [hstate]
    rfl

end Pass

/-- **Each pass starts at the first column as long as nothing leaves the image in the middle.**  In
every run of smooth iterations, heartbeat timeouts and lost speed included, each call of
`display_image` finds the image behind its header; and however the call ends, the batches it has
read are the image's first ones, in order. -/
theorem pass_starts_at_first_column {a₀ a : Arm} {w : World} (hstart : Started a₀)
    (hrun : Run (fun a w => Returns a w ∧ Smooth a w) step a₀ a) (hcall : Displays a w) :
    a.fileValid = true ∧ a.imageFile.pos = POV_IMAGE_HEADER_SIZE ∧
      ∀ q, a.displayImage w.display w.fuel = some q →
        ∃ m, HasRead a.imageFile.bytes m q.2.toRotor := by
  have hready : Ready a := hrun.invariant (fun _ _ h hw => h.step hw.1 hw.2) hstart.ready
  have hfirst := hready.first (by rw [hcall.1]; rfl)
  refine ⟨hready.image.fileValid, hfirst, fun q hq => ?_⟩
  rw [Arm.displayImage, Option.map_eq_some_iff] at hq
  obtain ⟨⟨e, r⟩, hpass, rfl⟩ := hq
  exact displayImage_hasRead hready.image.size hfirst hpass

theorem pass_starts_at_first_column_quiet :
    ∃ a, Displays a quietWorld ∧ a.imageFile.pos = POV_IMAGE_HEADER_SIZE := by
  obtain ⟨a, hstart, harm⟩ := secondArm_started
  have hok (a : Arm) (h : a.state = .waitSpeed) : Returns a quietWorld ∧ Smooth a quietWorld :=
    ⟨returns_of_waiting h _, fun hcall => State.noConfusion (h.symm.trans hcall.1),
      fun hstate => State.noConfusion (h.symm.trans hstate),
      fun hpolls => absurd hpolls (not_polls_of_waiting h),
      fun hstate => State.noConfusion (h.symm.trans hstate)⟩
  have hcall : Displays { a with state := .displaying } quietWorld := ⟨rfl, fun _ => rfl⟩
  exact ⟨_, hcall, (pass_starts_at_first_column hstart
    (run_to_displaying hok harm.waits harm.samples) hcall).2.1⟩

/-- The sensor shows one angle while the clock goes on. -/
def stallInputs : Inputs where
  hall _ := ⟨0, 720⟩
  clock k := if k = 0 then 0 else 5000
  readFails _ := false
  spi _ := none

theorem readNextSector_ticks (w : Inputs) (r : Rotor) : (readNextSector w r).2.ticks = r.ticks := by
  rw [readNextSector]
  dsimp only
  split
  · rfl
  · split
    · rfl
    · split <;> rfl

/-- A pass that stalls has read two batches. -/
theorem displayImage_stalls {r : Rotor} (hbytes : r.imageFile.bytes = darkImage)
    (hpos : r.imageFile.pos = POV_IMAGE_HEADER_SIZE) (hticks : r.ticks = 0) :
    ∃ r', displayImage stallInputs 2 r = some (some .etimedout, r') ∧
      r'.imageFile.pos = POV_IMAGE_HEADER_SIZE +
        2 * (POV_PREFETCH_COLS * POV_LED_DRIVER_COL_BYTES) := by
  have hh : Healthy stallInputs r.imageFile.bytes := by
    rw [hbytes]
    exact ⟨size_of_validate validate_darkImage, fun _ => rfl, fun _ => rfl⟩
  obtain ⟨r₁, hread, hs, -, harm, hres⟩ := readNextSector_start hh hpos
  obtain ⟨r₂, hrefill, hl, -, harm₂, hres₂⟩ := refill_loaded hh hs (by decide)
  have hticks₁ : r₁.ticks = 0 := by
    have h := readNextSector_ticks stallInputs r.sampled
    rw [hread] at h
    exact h.trans hticks
  have hticks₂ : r₂.ticks = 0 := by
    have h : (refill stallInputs r₁).2.ticks = r₁.ticks := by
      rw [refill]
      split
      · exact readNextSector_ticks _ _
      · rfl
    rw [hrefill] at h
    exact h.trans hticks₁
  have hangle (r' : Rotor) (h : r'.armId = r.armId)
      (h' : r'.angularResolution = r.angularResolution) :
      nextAngle stallInputs r' = nextAngle stallInputs r := by
    rw [nextAngle, nextAngle, h, h']
    rfl
  have hwait : waitAngle stallInputs (nextAngle stallInputs r) (deadline stallInputs r₂) 1
      r₂.ticked = some (some .etimedout, r₂.ticked.sampled.ticked.sampled) := by
    have hlate : deadline stallInputs r₂ < stallInputs.clock r₂.ticked.ticks := by
      have hlimit : deadline stallInputs r₂ = 1000 := by
        rw [deadline, hticks₂]
        rfl
      have hclock : stallInputs.clock r₂.ticked.ticks = 5000 := by
        rw [show r₂.ticked.ticks = r₂.ticks + 1 from rfl, hticks₂]
        rfl
      rw [hlimit, hclock]
      decide
    have hsame := hangle r₂.ticked (harm₂.trans harm) (hres₂.trans hres)
    have hstill := hangle r₂.ticked.sampled.ticked (harm₂.trans harm) (hres₂.trans hres)
    rw [waitAngle, if_neg (not_not.mpr hsame), if_pos hlate, if_pos hstill]
  refine ⟨r₂.ticked.sampled.ticked.sampled, ?_, hl.pos⟩
  rw [displayImage, hread]
  simp only [Pov.displayLoop, hrefill, hwait]

/-- After a sensor stall the second arm starts its next pass behind the two batches that the last
one had read. -/
theorem displays_from_the_middle :
    ∃ a₀ a w, Started a₀ ∧ Run Returns step a₀ a ∧ Displays a w ∧
      a.imageFile.pos = POV_IMAGE_HEADER_SIZE +
        2 * (POV_PREFETCH_COLS * POV_LED_DRIVER_COL_BYTES) := by
  obtain ⟨a₀, hstart, h⟩ := secondArm_started
  have hrun : Run Returns step a₀ { a₀ with state := .displaying } :=
    run_to_displaying (fun a h => returns_of_waiting h _) h.waits h.samples
  obtain ⟨r, hr, hpos⟩ := displayImage_stalls (r := a₀.toRotor) (by rw [h.file]) (by rw [h.file])
    h.ticks
  let w : World := { quietWorld with display := stallInputs, fuel := 2 }
  have hpass := h.displayImage hr
  have hreturns : Returns { a₀ with state := .displaying } w :=
    fun _ => Option.isSome_iff_exists.mpr ⟨_, hpass⟩
  have hstep : step { a₀ with state := .displaying } w =
      { a₀ with toRotor := r, state := .error } :=
    displayLoop_eq (w := w) (fun _ => rfl) hpass
  have hrun := hrun.snoc hreturns
  rw [hstep] at hrun
  have harm : r.armId = 1 := (displayImage_kept hr).2.1.trans h.armId
  have hback := run_from_error (a := { a₀ with toRotor := r, state := .error }) rfl harm h.samples
  exact ⟨a₀, _, quietWorld, hstart, hrun.trans hback, ⟨rfl, fun _ => rfl⟩, hpos⟩

end Kinetis.Pov.Fsm
