import Kinetis.Bootloader.Update
import Kinetis.Mavlink.Device
import Mathlib.Data.List.TakeWhile

/-!
# Bootloader — receiving an image, and which one is programmed

An accepted `BOOTLOADER_UPDATE_CMD` leads to RECEIVE, and a transfer from there to PROGRAM.

* `received_image_iff`: what PROGRAM then reads is the file the command named, unless the update
  flag of this boot gave a path: `firmware_path` outlives the update it was for.
* `transfer_outcome_iff`: what a transfer that fails comes to.  `receive_firmware` hands on a 0 of
  `lrzsz_rz`, which stands for a success in the loop.
-/

namespace Kinetis.Bootloader
open Lib
open Mavlink (cString)

variable {layout : MemLayout} {ctx : Context} {b : BootInput} {flash : Flash}
  {flag : Option (List UInt8)} {m m' : Machine} {i : StepInput}

/-! ### The path of the flag -/

/-- The path of a received file: by the name of the command, or the default. -/
def receivedPath (name : List UInt8) : List UInt8 :=
  BL_BACKUP_PATH ++ ascii "/" ++ if name = [] then BL_FIRMWARE_NAME else name

/-- The path that the update flag gives a boot. -/
def flagPath (ctx : Context) (b : BootInput) (flag : Option (List UInt8)) : List UInt8 :=
  match readUpdateFlag ctx b.flagError flag with
  | some (ctx', _) => ctx'.firmwarePath
  | none => []

/-- The state of the context does not matter to the flag. -/
theorem readUpdateFlag_state (ctx : Context) (s : FsmState) (flagError : Bool)
    (flag : Option (List UInt8)) :
    readUpdateFlag { ctx with state := s } flagError flag =
      (readUpdateFlag ctx flagError flag).map fun r => ({ r.1 with state := s }, r.2) := by
  cases flag with
  | none => rfl
  | some bytes =>
    simp only [readUpdateFlag]
    split
    · rfl
    split
    · rfl
    · rfl

theorem length_flagPath_le (ctx : Context) (b : BootInput) (flag : Option (List UInt8)) :
    (flagPath ctx b flag).length ≤ 95 := by
  rw [flagPath]
  cases flag with
  | none => exact Nat.zero_le _
  | some bytes =>
    simp only [readUpdateFlag]
    split
    · rename_i ctx' request h
      split at h
      · cases h
      split at h
      · cases h
      cases h
      exact List.length_take_le _ _
    · exact Nat.zero_le _

/-- The context that the loop starts with has the path of the flag. -/
theorem boot_firmwarePath (hinit : bootloaderInit layout = some ctx) :
    (boot ctx b flash flag).ctx.firmwarePath = flagPath ctx b flag := by
  have hpath : ctx.firmwarePath = [] := (bootloaderInit_eq_some hinit).2.2
  unfold boot flagPath
  dsimp only
  rw [readUpdateFlag_state]
  cases readUpdateFlag ctx b.flagError flag with
  | none =>
    dsimp only [Option.map_none]
    split
    · exact hpath
    split
    · exact hpath
    · exact hpath
  | some r =>
    dsimp only [Option.map_some]
    split
    · rfl
    · rfl

/-- **No round changes the path.** -/
theorem Move.firmwarePath (h : Move m i m') : m'.ctx.firmwarePath = m.ctx.firmwarePath := by
  cases h with
  | done _ _ => rw [deleteFlag_eq]
  | abort _ _ _ => rw [deleteFlag_eq]
  | _ => rfl

/-! ### Receiving -/

/-- What `bootloader_flow` makes of a transfer. -/
theorem step_receive (hphase : m.phase = .running) (hreceive : m.ctx.state = .receive) :
    step m i =
      if i.dataAvailable then
        if 0 ≤ i.rz then m.setState .program else if i.rz = -ENODATA then m
        else m.setState .error
      else m := by
  rw [step, hphase]
  rw [hreceive]
  rw [receiveFirmware]
  cases i.dataAvailable with
  | false => rfl
  | true => rfl

/-- A round in RECEIVE changes nothing but the state. -/
theorem receive_keeps (hs : m.ctx.state = .receive) :
    ∃ s, (step m i).ctx = { m.ctx with state := s } := by
  cases hphase : m.phase with
  | running =>
    rw [step_receive hphase hs]
    split_ifs
    · exact ⟨.program, rfl⟩
    · exact ⟨m.ctx.state, rfl⟩
    · exact ⟨.error, rfl⟩
    · exact ⟨m.ctx.state, rfl⟩
  | _ =>
    rw [step, hphase]
    exact ⟨m.ctx.state, rfl⟩

/-- The name of a command fits the field of the context. -/
theorem length_cString_le (field : List UInt8) : (cString 31 field).length ≤ 31 :=
  (List.takeWhile_prefix _).length_le.trans (List.length_take_le _ _)

theorem strncpy_cString (field : List UInt8) : strncpy 64 (cString 31 field) = cString 31 field := by
  have hne : ∀ c ∈ cString 31 field, decide (c ≠ 0) = true :=
    fun c hc => List.mem_takeWhile_imp (p := fun c => decide (c ≠ 0)) hc
  have hcstr : cstr (cString 31 field) = cString 31 field := List.takeWhile_eq_self_iff.mpr hne
  rw [strncpy, hcstr]
  exact List.take_of_length_le ((length_cString_le field).trans (by decide))

theorem stagedPath_eq (ctx : Context) (hname : ctx.firmwareFilename.length ≤ 31)
    (hpath : ctx.firmwarePath.length ≤ 95) :
    ctx.stagedPath =
      if ctx.firmwarePath ≠ [] then ctx.firmwarePath else receivedPath ctx.firmwareFilename := by
  rw [Context.stagedPath]
  split
  · exact List.take_of_length_le (by omega)
  · refine List.take_of_length_le ?_
    have himage : ctx.imageName.length ≤ 31 := by
      rw [Context.imageName]
      split
      · decide +kernel
      · exact hname
    have hfront : (BL_BACKUP_PATH ++ ascii "/").length = 10 := by decide +kernel
    rw [List.length_append]
    omega

/-- **Which image a received file is programmed from.**  A command is accepted in a run from any
boot, and the transfer that follows it leads to PROGRAM.  The file read there is the one the command
named exactly if the update flag of this boot gave no path, or that very one. -/
theorem received_image_iff {size crc : UInt32} {field : List UInt8}
    (hinit : bootloaderInit layout = some ctx)
    (hrun : Run (fun _ _ => True) step (boot ctx b flash flag) m)
    (hphase : m.phase = .running) (hwait : m.ctx.state = .waitCmd)
    (hmsg : i.message = some (.updateCmd size crc (cString 31 field)))
    (hreceive : Run (fun m _ => m.ctx.state = .receive) step (step m i) m')
    (_hprogram : m'.ctx.state = .program) :
    m'.ctx.stagedPath = receivedPath (cString 31 field) ↔
      flagPath ctx b flag = [] ∨ flagPath ctx b flag = receivedPath (cString 31 field) := by
  have hpath : m.ctx.firmwarePath = flagPath ctx b flag :=
    hrun.invariant (P := fun m => m.ctx.firmwarePath = flagPath ctx b flag)
      (fun s i hs _ => (step_move s i).firmwarePath.trans hs) (boot_firmwarePath hinit)
  -- the command sets the name and leaves the path
  have haccept : (step m i).ctx.firmwareFilename = cString 31 field ∧
      (step m i).ctx.firmwarePath = flagPath ctx b flag := by
    rw [step, hphase]
    dsimp only
    rw [hwait]
    dsimp only
    rw [checkServerCmd, hmsg]
    exact ⟨strncpy_cString field, hpath⟩
  obtain ⟨hname, hpath'⟩ : m'.ctx.firmwareFilename = cString 31 field ∧
      m'.ctx.firmwarePath = flagPath ctx b flag := by
    refine hreceive.invariant (P := fun m => m.ctx.firmwareFilename = cString 31 field ∧
      m.ctx.firmwarePath = flagPath ctx b flag) (fun m i hm hs => ?_) haccept
    obtain ⟨s, heq⟩ := receive_keeps (i := i) hs
    rw [heq]
    exact hm
  have hstaged := stagedPath_eq m'.ctx (hname ▸ length_cString_le field)
    (hpath' ▸ length_flagPath_le ctx b flag)
  rw [hname, hpath'] at hstaged
  rw [hstaged]
  by_cases hnil : flagPath ctx b flag = []
  · simp [hnil]
  · simp [hnil]

/-- A round that brings a command for the file `a`, and one that transfers it. -/
def StepInput.named : StepInput :=
  { StepInput.quiet vectorImage with message := some (.updateCmd 0 0 (cString 31 (ascii "a"))) }

def StepInput.transferred : StepInput :=
  { StepInput.quiet vectorImage with dataAvailable := true, rz := 8 }

/-- Without a flag there is nothing to jump to in an erased flash. -/
def bootErased : Machine := boot defaultContext ⟨false, true⟩ (fun _ => 0xFF) none

theorem received_image_erased :
    ((step (step bootErased .named) .transferred).ctx.stagedPath =
      receivedPath (cString 31 (ascii "a"))) ↔
      flagPath defaultContext ⟨false, true⟩ none = [] ∨
        flagPath defaultContext ⟨false, true⟩ none = receivedPath (cString 31 (ascii "a")) := by
  have hinit : bootloaderInit defaultLayout = some defaultContext := by decide +kernel
  exact received_image_iff hinit (.refl bootErased) (by decide +kernel) (by decide +kernel) rfl
    (.more (by decide +kernel) (.refl _)) (by decide +kernel)

/-- **A path outlives its update.**  The flag names a staged file that is not there; after the error
a command names `a`, which is transferred, and the file of the flag is read again. -/
theorem stale_path :
    let m := [{ StepInput.quiet [] with files := fun _ => none }, .quiet [], .named,
      .transferred].foldl step (bootStaged fun _ => 0xFF)
    m.ctx.state = .program ∧ m.ctx.firmwareFilename = ascii "a" ∧
      m.ctx.stagedPath = ascii "0:/app.bin" ∧
      m.ctx.stagedPath ≠ receivedPath (cString 31 (ascii "a")) := by
  decide +kernel

/-! ### Transfers that fail -/

/-- A failure is counted, and the third one ends the flow. -/
def Machine.Counted (m m' : Machine) : Prop :=
  m'.ctx.retryCount = (m.ctx.retryCount + 1) % 256 ∧
    (m'.phase = .returned ↔ 3 ≤ (m.ctx.retryCount + 1) % 256)

theorem errorStep_counted (hphase : m.phase = .running) : m.Counted (errorStep m i) := by
  rw [errorStep]
  split
  · next hretry =>
      rw [deleteFlag_eq]
      exact ⟨rfl, iff_of_true rfl hretry⟩
  · next hretry =>
      refine ⟨rfl, iff_of_false ?_ hretry⟩
      rw [hphase]
      exact Phase.noConfusion

/-- What a round in RECEIVE should come to; there is a transfer in it when data has arrived. -/
structure TransferLaw (m : Machine) (i : StepInput) : Prop where
  /-- PROGRAM is entered with received bytes only. -/
  program : (step m i).ctx.state = .program → i.dataAvailable = true ∧ 0 < i.rz
  /-- A failure leads to ERROR, and is counted in the round after. -/
  error   : i.dataAvailable = true → i.rz ≤ 0 →
    (step m i).ctx.state = .error ∧ ∀ j, m.Counted (step (step m i) j)

/-- **Transfers that fail.**  In RECEIVE a transfer is taken for what it is exactly if `lrzsz_rz`
returns neither 0 nor the error that stands for no data. -/
theorem transfer_outcome_iff (m : Machine) (i : StepInput) (hphase : m.phase = .running)
    (hreceive : m.ctx.state = .receive) :
    TransferLaw m i ↔ (i.dataAvailable = true → i.rz ≠ 0 ∧ i.rz ≠ -ENODATA) := by
  have hstep : step m i = _ := step_receive hphase hreceive
  have hnodata : ENODATA = 61 := rfl
  constructor
  · rintro ⟨hprogram, herror⟩ hdata
    rw [if_pos hdata] at hstep
    refine ⟨fun hzero => ?_, fun hneg => ?_⟩
    · have hstate : (step m i).ctx.state = .program := by
        rw [hstep, if_pos (by omega)]
        rfl
      have hpos := (hprogram hstate).2
      omega
    · have hstate := (herror hdata (by omega)).1
      rw [hstep, if_neg (by omega), if_pos hneg, hreceive] at hstate
      cases hstate
  · intro hcond
    refine ⟨fun hstate => ?_, fun hdata hle => ?_⟩
    · rw [hstep] at hstate
      split at hstate
      · next hdata =>
          obtain ⟨hzero, hneg⟩ := hcond hdata
          rw [if_neg hneg] at hstate
          split at hstate
          · exact ⟨hdata, by omega⟩
          · cases hstate
      · rw [hreceive] at hstate
        cases hstate
    · obtain ⟨hzero, hneg⟩ := hcond hdata
      have heq : step m i = m.setState .error := by
        rw [hstep, if_pos hdata, if_neg (by omega), if_neg hneg]
      rw [heq]
      refine ⟨rfl, fun j => ?_⟩
      have hnext : step (m.setState .error) j = errorStep (m.setState .error) j := by
        rw [step, setState_phase, hphase]
        rfl
      rw [hnext]
      exact errorStep_counted hphase

theorem transfer_outcome_lost :
    TransferLaw (step bootErased .named) { StepInput.transferred with rz := -5 } ↔
      (true = true → (-5 : Int) ≠ 0 ∧ (-5 : Int) ≠ -ENODATA) :=
  transfer_outcome_iff _ _ (by decide +kernel) (by decide +kernel)

/-- **A transfer of nothing is programmed.**  `lrzsz_rz` returns 0, and the next state is PROGRAM. -/
theorem empty_transfer_programs :
    (step (step bootErased .named) { StepInput.transferred with rz := 0 }).ctx.state = .program := by
  decide +kernel

end Kinetis.Bootloader
