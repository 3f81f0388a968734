import Kinetis.Pov.Display

/-!
# Pov — the columns a pass sends

`display_image` reads a batch before its loop and another at the top of the loop, since the
index of columns sent is still `0`.  Each read flips `ping`, and the transfer takes the half that
was read last; so the first batch is never sent, and the pass shows columns 4 to 719.

* `displayImage_sent`: what a call that returns `0` has sent.
* `displayImage_returns`: with a sensor that advances, the call does return `0`.
-/

namespace Kinetis.Pov
open Lib

variable (w : Inputs)

/-! ### What is sent -/

/-- Column `c` of an image, as the four groups of its bytes. -/
def imageColumn (bytes : List UInt8) (c : Nat) : List (List UInt8) :=
  columnGroups (slice bytes (POV_IMAGE_HEADER_SIZE + c * POV_LED_DRIVER_COL_BYTES)
    POV_LED_DRIVER_COL_BYTES) 0

/-- The columns of an image, in file order. -/
def imageColumns (bytes : List UInt8) : List (List (List UInt8)) :=
  (List.range POV_DISPLAY_COLS).map (imageColumn bytes)

/-- The `b`-th batch of an image. -/
def batch (bytes : List UInt8) (b : Nat) : List UInt8 :=
  slice bytes (POV_IMAGE_HEADER_SIZE + b * (POV_PREFETCH_COLS * POV_LED_DRIVER_COL_BYTES))
    (POV_PREFETCH_COLS * POV_LED_DRIVER_COL_BYTES)

variable {i : Nat}

theorem columnGroups_batch (bytes : List UInt8) (b : Nat) (hi : i < POV_PREFETCH_COLS) :
    columnGroups (batch bytes b) i = imageColumn bytes (b * POV_PREFETCH_COLS + i) := by
  rw [imageColumn]
  refine List.map_congr_left fun g hg => ?_
  rw [List.mem_range] at hg
  simp only [POV_PREFETCH_COLS, POV_SPI_GROUPS] at hi hg
  rw [batch, slice_slice _ _ _ (by simp; omega), slice_slice _ _ _ (by simp; omega)]
  exact congrArg (slice bytes · POV_LED_DRIVER_GROUP_BYTES) (by simp; omega)

theorem size_of_validate {size : Nat} {header : ImageHeader}
    (h : validateDisplayImage size header = .ok ()) :
    size = POV_IMAGE_HEADER_SIZE + POV_DISPLAY_COLS * POV_LED_DRIVER_COL_BYTES := by
  simp only [validateDisplayImage] at h
  split at h
  · cases h
  split at h
  · cases h
  split at h
  · cases h
  split at h
  · cases h
  split at h
  · cases h
  next hcols hbytes hsize =>
  push Not at hcols hbytes hsize
  rw [hsize, hcols.1, hbytes.2]

theorem columnGroups_overwrite {data : List UInt8}
    (hlen : data.length = POV_PREFETCH_COLS * POV_LED_DRIVER_COL_BYTES) (hi : i < POV_PREFETCH_COLS)
    (buf : List UInt8) : columnGroups (overwrite buf data) i = columnGroups data i := by
  refine List.map_congr_left fun g hg => ?_
  rw [List.mem_range] at hg
  simp only [POV_PREFETCH_COLS, POV_SPI_GROUPS] at hi hg
  rw [overwrite, slice_append_left]
  rw [hlen]
  simp
  omega

/-! ### The pass -/

/-- The image has the validated size, and no device fails. -/
structure Healthy (bytes : List UInt8) : Prop where
  size  : bytes.length = POV_IMAGE_HEADER_SIZE + POV_DISPLAY_COLS * POV_LED_DRIVER_COL_BYTES
  reads : ∀ k, w.readFails k = false
  spi   : ∀ k, w.spi k = none

/-- `n` columns of a pass are sent: not columns `0 ..`, but columns `4 ..` of the image. -/
structure Sent (bytes : List UInt8) (before : List (List (List UInt8))) (n : Nat)
    (r : Rotor) : Prop where
  file : r.imageFile.bytes = bytes
  sent : r.sent = before ++ (List.range' POV_PREFETCH_COLS n).map (imageColumn bytes)

/-- A batch is loaded, and column `n` of the pass is next in it.  The half that is sent from
holds the batch read last, which is one ahead of the columns counted. -/
structure Loaded (bytes : List UInt8) (before : List (List (List UInt8))) (n : Nat)
    (r : Rotor) : Prop extends Sent bytes before n r where
  index : r.prefetchSentIndex = n % POV_PREFETCH_COLS
  pos   : r.imageFile.pos = POV_IMAGE_HEADER_SIZE +
    (n / POV_PREFETCH_COLS + 2) * (POV_PREFETCH_COLS * POV_LED_DRIVER_COL_BYTES)
  frame : ∀ i < POV_PREFETCH_COLS,
    columnGroups (r.ledDriverFrame (r.prefetchPing ^^^ 1)) i =
      imageColumn bytes ((n / POV_PREFETCH_COLS + 1) * POV_PREFETCH_COLS + i)

/-- The batch is used up, or none has been sent from yet. -/
structure Spent (bytes : List UInt8) (before : List (List (List UInt8))) (n : Nat)
    (r : Rotor) : Prop extends Sent bytes before n r where
  aligned : n % POV_PREFETCH_COLS = 0
  index   : r.prefetchSentIndex = POV_PREFETCH_COLS ∨ r.prefetchSentIndex = 0
  pos     : r.imageFile.pos = POV_IMAGE_HEADER_SIZE +
    (n / POV_PREFETCH_COLS + 1) * (POV_PREFETCH_COLS * POV_LED_DRIVER_COL_BYTES)

/-- The state at the top of the loop after `n` columns. -/
def Sending (bytes : List UInt8) (before : List (List (List UInt8))) (n : Nat) (r : Rotor) : Prop :=
  Spent bytes before n r ∨ n % POV_PREFETCH_COLS ≠ 0 ∧ Loaded bytes before n r

section Pass

variable {w} {bytes : List UInt8} {before : List (List (List UInt8))} {n : Nat} {r r' : Rotor}

/-- The sensor and the clock are all a wait touches. -/
def Waited (r r' : Rotor) : Prop := ∃ a b, r' = { r with samples := a, ticks := b }

variable {lastAngle : UInt32} {e : Option Errno} {fuel k : Nat}

theorem waitAngle_waited {deadline : UInt64}
    (h : waitAngle w lastAngle deadline fuel r = some (e, r')) : Waited r r' := by
  induction fuel generalizing r with
  | zero => cases h
  | succ fuel ih =>
    rw [waitAngle] at h
    split at h
    · cases h
      exact ⟨_, _, rfl⟩
    · split at h
      · split at h <;> cases h <;> exact ⟨_, _, rfl⟩
      · obtain ⟨a, b, rfl⟩ := ih h
        exact ⟨a, b, rfl⟩

/-- All that handing over a column touches. -/
theorem sendColumn_eq (w : Inputs) (r : Rotor) :
    ∃ t sent index, (sendColumn w r).2 =
      { r with transfers := t, sent := sent, prefetchSentIndex := index } := by
  rw [sendColumn, spiMultiTransmit]
  cases w.spi r.transfers with
  | none => exact ⟨_, _, _, rfl⟩
  | some e => exact ⟨_, _, _, rfl⟩

section Invariant

variable {P : Rotor → Prop} (hread : ∀ r, P r → P (readNextSector w r).2)
  (hwait : ∀ r r', Waited r r' → P r → P r') (hsend : ∀ r, P r → P (sendColumn w r).2)
include hread hwait hsend

/-- What reading, waiting and sending preserve, the loop preserves, however it ends. -/
theorem displayLoop_invariant (hr : P r) (h : displayLoop w fuel lastAngle r = some (e, r')) :
    P r' := by
  induction fuel generalizing r lastAngle with
  | zero => cases h
  | succ fuel ih =>
    rw [displayLoop] at h
    have hrefill : P (refill w r).2 := by
      rw [refill]
      split
      · exact hread r hr
      · exact hr
    generalize refill w r = q at h hrefill
    obtain ⟨e₁, r₁⟩ := q
    match e₁ with
    | some e₁ =>
      obtain rfl : r₁ = r' := by cases e₁ <;> cases h <;> rfl
      exact hrefill
    | none =>
      cases hq : waitAngle w lastAngle (deadline w r₁) fuel r₁.ticked with
      | none => simp [hq] at h
      | some q =>
        obtain ⟨e₂, r₂⟩ := q
        have hwaited : P r₂ := by
          obtain ⟨a, b, rfl⟩ := waitAngle_waited hq
          exact hwait r₁ _ ⟨a, b, rfl⟩ hrefill
        have hsent := hsend r₂ hwaited
        generalize hq₃ : sendColumn w r₂ = q at h hsent
        obtain ⟨e₃, r₃⟩ := q
        match e₂, e₃ with
        | some e₂, _ =>
          simp only [hq] at h
          cases h
          exact hwaited
        | none, some e₃ =>
          simp only [hq, hq₃] at h
          cases h
          exact hsent
        | none, none =>
          simp only [hq, hq₃] at h
          exact ih (hwait r₃ _ ⟨_, _, rfl⟩ hsent) h

theorem displayImage_invariant (hr : P r) (h : displayImage w fuel r = some (e, r')) : P r' := by
  rw [displayImage] at h
  have hfirst := hread r.sampled (hwait r _ ⟨_, _, rfl⟩ hr)
  generalize readNextSector w r.sampled = q at h hfirst
  obtain ⟨e₁, r₁⟩ := q
  match e₁ with
  | some e₁ =>
    cases h
    exact hfirst
  | none => exact displayLoop_invariant hread hwait hsend hfirst h

end Invariant

/-- The image and the arm are not touched by a pass. -/
def Kept (r r' : Rotor) : Prop :=
  r'.imageFile.bytes = r.imageFile.bytes ∧ r'.armId = r.armId ∧
    r'.angularResolution = r.angularResolution

theorem displayImage_kept (h : displayImage w fuel r = some (e, r')) : Kept r r' := by
  refine displayImage_invariant (P := Kept r) (fun r₁ hk => ?_) (fun r₁ r₂ hw hk => ?_)
    (fun r₁ hk => ?_) ⟨rfl, rfl, rfl⟩ h
  · rw [readNextSector]
    dsimp only
    split
    · exact hk
    · split
      · exact hk
      · split <;> exact hk
  · obtain ⟨_, _, rfl⟩ := hw
    exact hk
  · obtain ⟨_, _, _, heq⟩ := sendColumn_eq w r₁
    rw [heq]
    exact hk

theorem Loaded.waited (h : Loaded bytes before n r) (hw : Waited r r') : Loaded bytes before n r' := by
  obtain ⟨_, _, rfl⟩ := hw
  exact ⟨⟨h.file, h.sent⟩, h.index, h.pos, h.frame⟩

theorem Sending.sampled (h : Sending bytes before n r) : Sending bytes before n r.sampled := by
  rcases h with h | ⟨hne, h⟩
  · exact .inl ⟨⟨h.file, h.sent⟩, h.aligned, h.index, h.pos⟩
  · exact .inr ⟨hne, h.waited ⟨_, _, rfl⟩⟩

theorem Sending.sent_eq (h : Sending bytes before n r) :
    r.sent = before ++ (List.range' POV_PREFETCH_COLS n).map (imageColumn bytes) := by
  rcases h with h | ⟨-, h⟩
  · exact h.sent
  · exact h.sent

/-- A read of a whole batch. -/
theorem readNextSector_full
    (hsize : bytes.length = POV_IMAGE_HEADER_SIZE + POV_DISPLAY_COLS * POV_LED_DRIVER_COL_BYTES)
    (hread : w.readFails r.reads = false) (hfile : r.imageFile.bytes = bytes) {b : Nat}
    (hb : b < POV_DISPLAY_COLS / POV_PREFETCH_COLS)
    (hpos : r.imageFile.pos = POV_IMAGE_HEADER_SIZE +
      b * (POV_PREFETCH_COLS * POV_LED_DRIVER_COL_BYTES)) :
    ∃ r', readNextSector w r = (none, r') ∧ r'.imageFile.bytes = bytes ∧
      r'.imageFile.pos = POV_IMAGE_HEADER_SIZE +
        (b + 1) * (POV_PREFETCH_COLS * POV_LED_DRIVER_COL_BYTES) ∧
      r'.prefetchSentIndex = 0 ∧ r'.sent = r.sent ∧ r'.samples = r.samples ∧
      r'.armId = r.armId ∧ r'.angularResolution = r.angularResolution ∧
      ∀ i < POV_PREFETCH_COLS, columnGroups (r'.ledDriverFrame (r'.prefetchPing ^^^ 1)) i =
        imageColumn bytes (b * POV_PREFETCH_COLS + i) := by
  have hdata : r.imageFile.read (POV_PREFETCH_COLS * POV_LED_DRIVER_COL_BYTES) =
      (batch bytes b,
        ⟨bytes, r.imageFile.pos + POV_PREFETCH_COLS * POV_LED_DRIVER_COL_BYTES⟩) := by
    have hle : r.imageFile.pos + POV_PREFETCH_COLS * POV_LED_DRIVER_COL_BYTES ≤
        r.imageFile.size := by
      rw [File.size, hfile, hpos, hsize]
      simp at hb ⊢
      omega
    rw [File.read_full hle, hfile, batch, hpos]
  have hlen : (batch bytes b).length = POV_PREFETCH_COLS * POV_LED_DRIVER_COL_BYTES := by
    rw [batch, length_slice, hsize]
    simp at hb ⊢
    omega
  have hne : POV_PREFETCH_COLS * POV_LED_DRIVER_COL_BYTES ≠ 0 := by simp
  rw [readNextSector, hread, hdata]
  simp only [Bool.false_eq_true, if_false, hlen, if_neg hne, ne_eq, not_true_eq_false]
  refine ⟨_, rfl, rfl, ?_, rfl, rfl, rfl, rfl, rfl, fun i hi => ?_⟩
  · rw [hpos]
    simp
    omega
  · simp only [Nat.xor_assoc, Nat.xor_self, Nat.xor_zero, if_true]
    rw [columnGroups_overwrite hlen hi, columnGroups_batch bytes b hi]

/-- After the refill a batch is loaded, unless the image is used up. -/
theorem refill_loaded (hh : Healthy w bytes) (hs : Sending bytes before n r)
    (hn : n + POV_PREFETCH_COLS < POV_DISPLAY_COLS) :
    ∃ r', refill w r = (none, r') ∧ Loaded bytes before n r' ∧ r'.samples = r.samples ∧
      r'.armId = r.armId ∧ r'.angularResolution = r.angularResolution := by
  rcases hs with hs | ⟨hne, hl⟩
  · obtain ⟨r', heq, hfile, hpos, hindex, hsent, hsamples, harm, hres, hframe⟩ :=
      readNextSector_full hh.size (hh.reads _) hs.file (b := n / POV_PREFETCH_COLS + 1)
        (by simp at hn ⊢; omega) hs.pos
    refine ⟨r', ?_, ⟨⟨hfile, hsent.trans hs.sent⟩, ?_, hpos, hframe⟩, hsamples, harm, hres⟩
    · rw [refill, if_pos hs.index, heq]
    · rw [hindex, hs.aligned]
  · refine ⟨r, ?_, hl, rfl, rfl, rfl⟩
    have hlt : n % POV_PREFETCH_COLS < POV_PREFETCH_COLS := Nat.mod_lt _ (by simp)
    rw [refill, if_neg]
    rw [hl.index]
    omega

/-- The refill after the last batch meets the end of the file. -/
theorem refill_end (hh : Healthy w bytes) (hs : Sending bytes before n r)
    (hn : n + POV_PREFETCH_COLS = POV_DISPLAY_COLS) :
    ∃ r', refill w r = (some .enoent, r') ∧ r'.sent = r.sent := by
  have hs : Spent bytes before n r := hs.resolve_right fun hc => hc.1 (by simp at hn ⊢; omega)
  have hread : r.imageFile.read (POV_PREFETCH_COLS * POV_LED_DRIVER_COL_BYTES) =
      ([], r.imageFile) := by
    refine File.read_end ?_ _
    rw [File.size, hs.file, hs.pos, hh.size]
    simp at hn ⊢
    omega
  rw [refill, if_pos hs.index, readNextSector, hh.reads, hread]
  exact ⟨_, rfl, rfl⟩

/-- Column `n` of the pass is column `n + 4` of the image. -/
theorem sendColumn_sending (hh : Healthy w bytes) (hl : Loaded bytes before n r) :
    ∃ r', sendColumn w r = (none, r') ∧ Sending bytes before (n + 1) r' ∧ r'.samples = r.samples ∧
      r'.armId = r.armId ∧ r'.angularResolution = r.angularResolution := by
  have hlt : n % POV_PREFETCH_COLS < POV_PREFETCH_COLS := Nat.mod_lt _ (by simp)
  have hcol := hl.frame _ hlt
  have hidx : (n / POV_PREFETCH_COLS + 1) * POV_PREFETCH_COLS + n % POV_PREFETCH_COLS =
      POV_PREFETCH_COLS + n := by
    simp
    omega
  have hsent : r.sent ++ [columnGroups (r.ledDriverFrame (r.prefetchPing ^^^ 1))
      r.prefetchSentIndex] =
      before ++ (List.range' POV_PREFETCH_COLS (n + 1)).map (imageColumn bytes) := by
    rw [hl.index, hcol, hidx, hl.sent, List.range'_concat, List.map_append, List.append_assoc]
    simp
  rw [sendColumn, spiMultiTransmit, hh.spi]
  refine ⟨_, rfl, ?_, rfl, rfl, rfl⟩
  by_cases hnext : (n + 1) % POV_PREFETCH_COLS = 0
  · refine .inl ⟨⟨hl.file, hsent⟩, hnext, .inl ?_, ?_⟩
    · simp only [hl.index]
      simp at hnext ⊢
      omega
    · simp only [hl.pos]
      simp at hnext ⊢
      omega
  · have hdiv : (n + 1) / POV_PREFETCH_COLS = n / POV_PREFETCH_COLS := by
      simp at hnext ⊢
      omega
    refine .inr ⟨hnext, ⟨⟨hl.file, hsent⟩, ?_, ?_, ?_⟩⟩
    · simp only [hl.index]
      simp at hnext ⊢
      omega
    · rw [hdiv]
      exact hl.pos
    · rw [hdiv]
      exact hl.frame

/-- **A pass that ends well has sent columns 4 to 719.** -/
theorem displayLoop_sent (hh : Healthy w bytes) (hs : Sending bytes before n r)
    (hn : n + POV_PREFETCH_COLS ≤ POV_DISPLAY_COLS)
    (h : displayLoop w fuel lastAngle r = some (none, r')) :
    r'.sent = before ++ (List.range' POV_PREFETCH_COLS (POV_DISPLAY_COLS - POV_PREFETCH_COLS)).map
      (imageColumn bytes) := by
  induction fuel generalizing n r lastAngle with
  | zero => cases h
  | succ fuel ih =>
    rcases Nat.lt_or_eq_of_le hn with hlt | heq
    · obtain ⟨r₁, hrefill, hl, -⟩ := refill_loaded hh hs hlt
      rw [displayLoop, hrefill] at h
      cases hwait : waitAngle w lastAngle (deadline w r₁) fuel r₁.ticked with
      | none => simp only [hwait, reduceCtorEq] at h
      | some q =>
        obtain ⟨e, r₂⟩ := q
        have hwaited : Waited r₁ r₂ := by
          obtain ⟨a, b, rfl⟩ := waitAngle_waited hwait
          exact ⟨a, b, rfl⟩
        obtain ⟨r₃, hsend, hs₃, -⟩ := sendColumn_sending hh (hl.waited hwaited)
        cases e with
        | some e => simp [hwait] at h
        | none =>
          simp only [hwait, hsend] at h
          exact ih (hs₃.sampled) (by omega) h
    · obtain ⟨r₁, hrefill, hsent⟩ := refill_end hh hs heq
      rw [displayLoop, hrefill] at h
      obtain rfl : r₁ = r' := by simpa using h
      have hnum : n = POV_DISPLAY_COLS - POV_PREFETCH_COLS := by omega
      rw [hsent, hs.sent_eq, hnum]

/-- Every access to the sensor sees another angle than the access before. -/
def Advancing (w : Inputs) (armId : UInt8) (angularResolution : UInt32) : Prop :=
  ∀ k, getAngle armId angularResolution (w.hall (k + 1)) ≠
    getAngle armId angularResolution (w.hall k)

/-- With a sensor that advances the loop ends well. -/
theorem displayLoop_returns (hh : Healthy w bytes) (hadv : Advancing w r.armId r.angularResolution)
    (hs : Sending bytes before n r) (hn : n + POV_PREFETCH_COLS ≤ POV_DISPLAY_COLS)
    (hfuel : POV_DISPLAY_COLS < n + fuel) (hk : r.samples = k + 1)
    (hlast : lastAngle = getAngle r.armId r.angularResolution (w.hall k)) :
    ∃ r', displayLoop w fuel lastAngle r = some (none, r') := by
  induction fuel generalizing n r lastAngle k with
  | zero => omega
  | succ fuel ih =>
    rcases Nat.lt_or_eq_of_le hn with hlt | heq
    · obtain ⟨r₁, hrefill, hl, hsamples, harm, hres⟩ := refill_loaded hh hs hlt
      obtain ⟨m, rfl⟩ : ∃ m, fuel = m + 1 := ⟨fuel - 1, by omega⟩
      have hangle : nextAngle w r₁.ticked ≠ lastAngle := by
        have : nextAngle w r₁.ticked =
            getAngle r.armId r.angularResolution (w.hall (k + 1)) := by
          rw [nextAngle, ← hk, ← hsamples, ← harm, ← hres]
          rfl
        rw [this, hlast]
        exact hadv k
      have hwait : waitAngle w lastAngle (deadline w r₁) (m + 1) r₁.ticked =
          some (none, r₁.ticked.sampled) := by
        rw [waitAngle, if_pos hangle]
      have hwaited : Waited r₁ r₁.ticked.sampled := ⟨_, _, rfl⟩
      obtain ⟨r₃, hsend, hs₃, hsamples₃, harm₃, hres₃⟩ :=
        sendColumn_sending hh (hl.waited hwaited)
      have harm₃ : r₃.armId = r.armId := harm₃.trans harm
      have hres₃ : r₃.angularResolution = r.angularResolution := hres₃.trans hres
      have hk₃ : r₃.samples = k + 2 := by
        rw [hsamples₃]
        change r₁.samples + 1 = _
        rw [hsamples, hk]
      rw [displayLoop, hrefill]
      simp only [hwait, hsend]
      refine ih (r := r₃.sampled) (k := k + 2) ?_ hs₃.sampled (by omega) (by omega) ?_ ?_
      · change Advancing w r₃.armId r₃.angularResolution
        rw [harm₃, hres₃]
        exact hadv
      · change r₃.samples + 1 = _
        rw [hk₃]
      · rw [nextAngle, hk₃]
        rfl
    · obtain ⟨r₁, hrefill, -⟩ := refill_end hh hs heq
      rw [displayLoop, hrefill]
      exact ⟨r₁, rfl⟩

/-- The first read of a pass leaves the loop with one batch loaded and none counted as sent. -/
theorem readNextSector_start (hh : Healthy w r.imageFile.bytes)
    (hpos : r.imageFile.pos = POV_IMAGE_HEADER_SIZE) :
    ∃ r', readNextSector w r.sampled = (none, r') ∧ Sending r.imageFile.bytes r.sent 0 r' ∧
      r'.samples = r.samples + 1 ∧ r'.armId = r.armId ∧
      r'.angularResolution = r.angularResolution := by
  obtain ⟨r', heq, hfile, hpos', hindex, hsent, hsamples, harm, hres, -⟩ :=
    readNextSector_full (r := r.sampled) (b := 0) hh.size (hh.reads _) rfl (by simp)
      (by exact hpos)
  refine ⟨r', heq, .inl ⟨⟨hfile, ?_⟩, rfl, .inr hindex, hpos'⟩, hsamples, harm, hres⟩
  rw [hsent]
  simp [Rotor.sampled]

theorem displayImage_sent (hh : Healthy w r.imageFile.bytes)
    (hpos : r.imageFile.pos = POV_IMAGE_HEADER_SIZE) (h : displayImage w fuel r = some (none, r')) :
    r'.sent = r.sent ++ (imageColumns r.imageFile.bytes).drop POV_PREFETCH_COLS := by
  obtain ⟨r₁, hread, hs, -⟩ := readNextSector_start hh hpos
  rw [displayImage, hread] at h
  rw [displayLoop_sent hh hs (by simp) h, imageColumns, ← List.map_drop, List.range_eq_range']
  simp

theorem displayImage_returns (hh : Healthy w r.imageFile.bytes)
    (hpos : r.imageFile.pos = POV_IMAGE_HEADER_SIZE)
    (hadv : Advancing w r.armId r.angularResolution) (hfuel : POV_DISPLAY_COLS < fuel) :
    ∃ r', displayImage w fuel r = some (none, r') := by
  obtain ⟨r₁, hread, hs, hsamples, harm, hres⟩ := readNextSector_start hh hpos
  rw [displayImage, hread]
  refine displayLoop_returns hh ?_ hs (by simp) (by omega) hsamples ?_
  · rw [harm, hres]
    exact hadv
  · rw [harm, hres]
    rfl

/-! ### Where a pass stands -/

/-- The first `m` batches of the image are read: the file stands behind them, and the half read
last holds the last of them. -/
structure HasRead (bytes : List UInt8) (m : Nat) (r : Rotor) : Prop where
  file  : r.imageFile.bytes = bytes
  pos   : r.imageFile.pos = POV_IMAGE_HEADER_SIZE +
    m * (POV_PREFETCH_COLS * POV_LED_DRIVER_COL_BYTES)
  frame : ∀ b, m = b + 1 → ∀ i < POV_PREFETCH_COLS,
    columnGroups (r.ledDriverFrame (r.prefetchPing ^^^ 1)) i =
      imageColumn bytes (b * POV_PREFETCH_COLS + i)

theorem readNextSector_hasRead
    (hsize : bytes.length = POV_IMAGE_HEADER_SIZE + POV_DISPLAY_COLS * POV_LED_DRIVER_COL_BYTES)
    {m : Nat} (h : HasRead bytes m r) : ∃ m', HasRead bytes m' (readNextSector w r).2 := by
  cases hread : w.readFails r.reads with
  | true =>
    refine ⟨m, ?_⟩
    rw [readNextSector, hread]
    exact ⟨h.file, h.pos, h.frame⟩
  | false =>
    by_cases hm : m < POV_DISPLAY_COLS / POV_PREFETCH_COLS
    · obtain ⟨r', heq, hfile, hpos, -, -, -, -, -, hframe⟩ :=
        readNextSector_full hsize hread h.file hm h.pos
      rw [heq]
      refine ⟨m + 1, hfile, hpos, fun b hb => ?_⟩
      obtain rfl : m = b := by omega
      exact hframe
    · -- at the end of the image nothing is copied
      have hend : r.imageFile.read (POV_PREFETCH_COLS * POV_LED_DRIVER_COL_BYTES) =
          ([], r.imageFile) := by
        refine File.read_end ?_ _
        rw [File.size, h.file, h.pos, hsize]
        simp at hm ⊢
        omega
      have hhalf : (fun i => if i = r.prefetchPing then overwrite (r.ledDriverFrame i) []
          else r.ledDriverFrame i) = r.ledDriverFrame := by
        funext i
        split
        · rfl
        · rfl
      refine ⟨m, ?_⟩
      rw [readNextSector, hread, hend]
      simp only [Bool.false_eq_true, if_false, hhalf, List.length_nil, if_true]
      exact ⟨h.file, h.pos, h.frame⟩

/-- However a pass from the first column ends, what it has read are the image's first batches. -/
theorem displayImage_hasRead
    (hsize : r.imageFile.size =
      POV_IMAGE_HEADER_SIZE + POV_DISPLAY_COLS * POV_LED_DRIVER_COL_BYTES)
    (hpos : r.imageFile.pos = POV_IMAGE_HEADER_SIZE)
    (h : displayImage w fuel r = some (e, r')) : ∃ m, HasRead r.imageFile.bytes m r' := by
  have hstart : HasRead r.imageFile.bytes 0 r :=
    ⟨rfl, by rw [hpos]; rfl, fun b hb => absurd hb (Nat.succ_ne_zero b).symm⟩
  refine displayImage_invariant (P := fun r₁ => ∃ m, HasRead r.imageFile.bytes m r₁)
    (fun r₁ ⟨m, hm⟩ => readNextSector_hasRead hsize hm) (fun r₁ r₂ hw ⟨m, hm⟩ => ⟨m, ?_⟩)
    (fun r₁ ⟨m, hm⟩ => ⟨m, ?_⟩) ⟨0, hstart⟩ h
  · obtain ⟨_, _, rfl⟩ := hw
    exact ⟨hm.file, hm.pos, hm.frame⟩
  · obtain ⟨_, _, _, heq⟩ := sendColumn_eq w r₁
    rw [heq]
    exact ⟨hm.file, hm.pos, hm.frame⟩

/-! ### Passes without trouble -/

/-- The deadline that is set at access `s` of the sensor and reading `t` of the clock. -/
def stallDeadline (w : Inputs) (s t : Nat) : UInt64 :=
  let stallUs := (w.hall s).periodTicks
  w.clock t + (if 1000 < stallUs then stallUs else 1000).toUInt64

/-- The sensor stalls: the accesses from `s` to `s + i + 2` see one angle, and the clock's reading
`t + 1 + i` is past the deadline set at reading `t`. -/
def Stalls (w : Inputs) (armId : UInt8) (angularResolution : UInt32) (s t i : Nat) : Prop :=
  (∀ j ≤ i + 2, getAngle armId angularResolution (w.hall (s + j)) =
    getAngle armId angularResolution (w.hall s)) ∧
  stallDeadline w (s + 1) t < w.clock (t + 1 + i)

theorem waitAngle_moves {s t : Nat}
    (hno : ∀ i, ¬ Stalls w r.armId r.angularResolution s t i)
    (hlast : lastAngle = getAngle r.armId r.angularResolution (w.hall s))
    (hsamples : r.samples = s + 1 + i) (hticks : r.ticks = t + 1 + i)
    (hsame : ∀ j ≤ i, getAngle r.armId r.angularResolution (w.hall (s + j)) =
      getAngle r.armId r.angularResolution (w.hall s))
    (h : waitAngle w lastAngle (stallDeadline w (s + 1) t) fuel r = some (e, r')) : e = none := by
  induction fuel generalizing r i with
  | zero => cases h
  | succ fuel ih =>
    rw [waitAngle] at h
    split at h
    · cases h
      rfl
    next hangle =>
    have hi : getAngle r.armId r.angularResolution (w.hall (s + (i + 1))) =
        getAngle r.armId r.angularResolution (w.hall s) := by
      rw [nextAngle, hsamples, hlast, ne_eq, not_not] at hangle
      rw [← hangle, Nat.add_assoc, Nat.add_comm 1 i]
    have hsame' (j : Nat) (hj : j ≤ i + 1) :
        getAngle r.armId r.angularResolution (w.hall (s + j)) =
          getAngle r.armId r.angularResolution (w.hall s) := by
      rcases Nat.lt_or_eq_of_le hj with hlt | rfl
      · exact hsame j (by omega)
      · exact hi
    split at h
    next hlate =>
      split at h
      next hangle' =>
        -- still the same angle after the deadline: the sensor stalls
        refine absurd ⟨fun j hj => ?_, hticks ▸ hlate⟩ (hno i)
        rcases Nat.lt_or_eq_of_le hj with hlt | rfl
        · exact hsame' j (by omega)
        · rw [← hlast, ← hangle']
          change _ = getAngle r.armId r.angularResolution (w.hall (r.samples + 1))
          rw [hsamples, show s + (i + 2) = s + 1 + i + 1 by omega]
      · cases h
        rfl
    · refine ih (r := r.sampled.ticked) (i := i + 1) hno hlast ?_ ?_ hsame' h
      · change r.samples + 1 = _
        omega
      · change r.ticks + 1 = _
        omega

/-- With no device error and no stall, a pass that comes back has ended well. -/
theorem displayLoop_ok (hh : Healthy w bytes)
    (hno : ∀ s t i, ¬ Stalls w r.armId r.angularResolution s t i) (hs : Sending bytes before n r)
    (hn : n + POV_PREFETCH_COLS ≤ POV_DISPLAY_COLS) (hk : r.samples = k + 1)
    (hlast : lastAngle = getAngle r.armId r.angularResolution (w.hall k))
    (h : displayLoop w fuel lastAngle r = some (e, r')) : e = none := by
  induction fuel generalizing n r lastAngle k with
  | zero => cases h
  | succ fuel ih =>
    rw [displayLoop] at h
    rcases Nat.lt_or_eq_of_le hn with hlt | heq
    · obtain ⟨r₁, hrefill, hl, hsamples, harm, hres⟩ := refill_loaded hh hs hlt
      rw [hrefill] at h
      cases hwait : waitAngle w lastAngle (deadline w r₁) fuel r₁.ticked with
      | none => simp [hwait] at h
      | some q =>
        obtain ⟨e₂, r₂⟩ := q
        obtain rfl : e₂ = none := by
          have hk₁ : r₁.samples = k + 1 := hsamples.trans hk
          rw [show deadline w r₁ = stallDeadline w (k + 1) r₁.ticks from hk₁ ▸ rfl] at hwait
          refine waitAngle_moves (r := r₁.ticked) (s := k) (t := r₁.ticks) (i := 0)
            (fun i => ?_) ?_ hk₁ rfl (fun j hj => ?_) hwait
          · change ¬ Stalls w r₁.armId r₁.angularResolution k r₁.ticks i
            rw [harm, hres]
            exact hno k _ i
          · change lastAngle = getAngle r₁.armId r₁.angularResolution (w.hall k)
            rw [harm, hres]
            exact hlast
          · rw [Nat.le_zero.mp hj, Nat.add_zero]
        have hwaited : Waited r₁ r₂ := by
          obtain ⟨a, b, rfl⟩ := waitAngle_waited hwait
          exact ⟨a, b, rfl⟩
        obtain ⟨r₃, hsend, hs₃, -, harm₃, hres₃⟩ := sendColumn_sending hh (hl.waited hwaited)
        have harm₃ : r₃.armId = r.armId := by
          obtain ⟨_, _, rfl⟩ := hwaited
          exact harm₃.trans harm
        have hres₃ : r₃.angularResolution = r.angularResolution := by
          obtain ⟨_, _, rfl⟩ := hwaited
          exact hres₃.trans hres
        simp only [hwait, hsend] at h
        refine ih (r := r₃.sampled) (k := r₃.samples) ?_ hs₃.sampled (by omega) rfl rfl h
        change ∀ s t i, ¬ Stalls w r₃.armId r₃.angularResolution s t i
        rw [harm₃, hres₃]
        exact hno
    · obtain ⟨r₁, hrefill, -⟩ := refill_end hh hs heq
      rw [hrefill] at h
      cases h
      rfl

theorem displayImage_ok (hh : Healthy w r.imageFile.bytes)
    (hno : ∀ s t i, ¬ Stalls w r.armId r.angularResolution s t i)
    (hpos : r.imageFile.pos = POV_IMAGE_HEADER_SIZE) (h : displayImage w fuel r = some (e, r')) :
    e = none := by
  obtain ⟨r₁, hread, hs, hsamples, harm, hres⟩ := readNextSector_start hh hpos
  rw [displayImage, hread] at h
  refine displayLoop_ok hh ?_ hs (by simp) hsamples ?_ h
  · rw [harm, hres]
    exact hno
  · rw [harm, hres]
    rfl

/-- The pass is four columns short of the image. -/
theorem drop_imageColumns_ne (bytes : List UInt8) (before : List (List (List UInt8))) :
    before ++ (imageColumns bytes).drop POV_PREFETCH_COLS ≠ before ++ imageColumns bytes := by
  intro h
  have hlen := congrArg List.length (List.append_cancel_left h)
  simp [imageColumns] at hlen

end Pass

/-- **The first batch is never shown.**  Over a validated image positioned after its header, and
with no device error, a call that returns `0` has handed over the columns from the fifth on, in
file order, and never all of them; with a sensor that advances it does return `0`. -/
theorem displayImage_skips_first_batch (w : Inputs) (r : Rotor)
    (hvalid : validateDisplayImage r.imageFile.size (.ofBytes r.imageFile.bytes) = .ok ())
    (hpos : r.imageFile.pos = POV_IMAGE_HEADER_SIZE) (hreads : ∀ k, w.readFails k = false)
    (hspi : ∀ k, w.spi k = none) :
    (∀ fuel r', displayImage w fuel r = some (none, r') →
      r'.sent ≠ r.sent ++ imageColumns r.imageFile.bytes ∧
        r'.sent = r.sent ++ (imageColumns r.imageFile.bytes).drop POV_PREFETCH_COLS) ∧
    (Advancing w r.armId r.angularResolution →
      ∃ fuel r', displayImage w fuel r = some (none, r')) := by
  have hh : Healthy w r.imageFile.bytes := ⟨size_of_validate hvalid, hreads, hspi⟩
  refine ⟨fun fuel r' h => ?_, fun hadv => ⟨_, displayImage_returns hh hpos hadv (Nat.lt_succ_self _)⟩⟩
  have hsent := displayImage_sent hh hpos h
  refine ⟨?_, hsent⟩
  rw [hsent]
  exact drop_imageColumns_ne _ _

/-! ### A dark image -/

/-- A valid image with every LED off. -/
def darkImage : List UInt8 :=
  [0x21, 0x56, 0x4F, 0x50, 2, 0, 0xD0, 2, 64, 0, 4, 2, 0, 7, 0, 0] ++
    List.replicate (POV_DISPLAY_COLS * POV_LED_DRIVER_COL_BYTES) 0

/-- A sensor that alternates between two columns, and no device errors. -/
def steadyInputs : Inputs where
  hall k := ⟨if k % 2 = 0 then 0 else 1, 720⟩
  clock _ := 0
  readFails _ := false
  spi _ := none

def darkRotor : Rotor where
  imageFile := ⟨darkImage, POV_IMAGE_HEADER_SIZE⟩
  ledDriverFrame _ := []
  prefetchPing := 0
  prefetchSentIndex := 0
  pendingColumn := POV_IMAGE_HEADER_SIZE
  armId := 0
  angularResolution := 720
  sent := []
  samples := 0
  ticks := 0
  reads := 0
  transfers := 0

theorem field_append_left {l : List UInt8} {off n : Nat} (h : off + n ≤ l.length) (l' : List UInt8) :
    field (l ++ l') off n = field l off n := by
  rw [field, field, slice_append_left h]

theorem validate_darkImage :
    validateDisplayImage darkImage.length (.ofBytes darkImage) = .ok () := by
  have hlen : darkImage.length =
      POV_IMAGE_HEADER_SIZE + POV_DISPLAY_COLS * POV_LED_DRIVER_COL_BYTES := by
    rw [darkImage, List.length_append, List.length_replicate]
    rfl
  have hheader : ImageHeader.ofBytes darkImage =
      ⟨POV_IMG_MAGIC, POV_IMG_VERSION, POV_DISPLAY_COLS, POV_LEDS_PER_GROUP, POV_SPI_GROUPS,
        POV_PAYLOAD_LED_DRIVER, POV_LED_DRIVER_COL_BYTES⟩ := by
    rw [darkImage, ImageHeader.ofBytes]
    rw [field_append_left (by decide), field_append_left (by decide),
      field_append_left (by decide), field_append_left (by decide),
      field_append_left (by decide), field_append_left (by decide),
      field_append_left (by decide)]
    decide
  rw [hlen]
  decide

theorem advancing_steadyInputs {armId : UInt8} (harm : armId = 0 ∨ armId = 1) :
    Advancing steadyInputs armId 720 := by
  intro k
  have hk : k % 2 = 0 ∧ (k + 1) % 2 = 1 ∨ k % 2 = 1 ∧ (k + 1) % 2 = 0 := by omega
  rcases hk with ⟨hk, hk'⟩ | ⟨hk, hk'⟩
  · simp only [steadyInputs, hk, hk']
    rcases harm with rfl | rfl <;> decide
  · simp only [steadyInputs, hk, hk']
    rcases harm with rfl | rfl <;> decide

theorem displayImage_skips_first_batch_dark :
    ∃ fuel r', displayImage steadyInputs fuel darkRotor = some (none, r') ∧
      r'.sent = (imageColumns darkImage).drop POV_PREFETCH_COLS := by
  obtain ⟨hsent, hreturns⟩ := displayImage_skips_first_batch steadyInputs darkRotor
    validate_darkImage rfl (fun _ => rfl) (fun _ => rfl)
  obtain ⟨fuel, r', h⟩ := hreturns (advancing_steadyInputs (.inl rfl))
  exact ⟨fuel, r', h, (hsent fuel r' h).2.trans (List.nil_append _)⟩

/-- A pass over the dark image returns `0` without having sent the image's columns. -/
theorem displayImage_dark_incomplete :
    ∃ r', displayImage steadyInputs 721 darkRotor = some (none, r') ∧
      r'.sent ≠ imageColumns darkImage ∧ r'.sent.length = 716 := by
  have hh : Healthy steadyInputs darkRotor.imageFile.bytes :=
    ⟨size_of_validate validate_darkImage, fun _ => rfl, fun _ => rfl⟩
  obtain ⟨r', h⟩ := displayImage_returns hh rfl (advancing_steadyInputs (.inl rfl))
    (show POV_DISPLAY_COLS < 721 by decide)
  have hsent := displayImage_sent hh rfl h
  rw [show darkRotor.sent = [] from rfl, show darkRotor.imageFile.bytes = darkImage from rfl,
    List.nil_append] at hsent
  have hlen : r'.sent.length = 716 := by
    rw [hsent]
    simp [imageColumns]
  refine ⟨r', h, fun hall => ?_, hlen⟩
  rw [hall] at hlen
  simp [imageColumns] at hlen

end Kinetis.Pov
