import Kinetis.Bootloader.Flash
import Kinetis.Platform.Crc

/-!
# Bootloader — the update state machine

`drivers/kinetis/bootloader.c` on hardware: the boot decision, and the loop that receives,
programs and verifies a firmware image.

A `Machine` is what the code can see: its context, the flash, and the update flag file.  Two
ghost fields record what happened, for the properties only: the last request accepted and the
flash as it was when it last passed verification.  One `step` is one round of the `while (1)` loop;
everything the outside world decides in a round is its `StepInput`: commands, transfers, the files
on the card, and the failures of the file system, the heap and the flash.

Pointers are 32-bit.  Heartbeats, log output and the hardware calls between the decision to jump
and the jump itself are left out.
-/

namespace Kinetis.Bootloader
open Lib

/-- `enum bootloader_fsm_state`. -/
inductive FsmState where
  | init
  | checkMode
  | jumpApp
  | waitCmd
  | receive
  | program
  | flash
  | verify
  | complete
  | error
  deriving DecidableEq, Repr

/-- `struct bootloader_mem_layout`. -/
structure MemLayout where
  romBase         : UInt32
  romSize         : UInt32
  bootloaderSize  : UInt32
  firmwareMaxSize : UInt32
  sramStart       : UInt32
  sramEnd         : UInt32
  deriving DecidableEq, Repr

/-- `struct bootloader_context`.  A C string is the list of its bytes before the terminator. -/
structure Context where
  layout           : MemLayout
  firmwareAddr     : Nat
  firmwareSize     : UInt32
  firmwareCrc32    : UInt32
  firmwareFilename : List UInt8
  firmwarePath     : List UInt8
  state            : FsmState
  retryCount       : Nat
  deriving DecidableEq, Repr

def bootloaderInit (layout : MemLayout) : Option Context :=
  if layout.romBase = 0 then none
  else if layout.romSize < layout.firmwareMaxSize + layout.bootloaderSize then none
  else some {
    layout
    firmwareAddr := (layout.romBase + layout.bootloaderSize).toNat
    firmwareSize := 0
    firmwareCrc32 := 0
    firmwareFilename := []
    firmwarePath := []
    state := .init
    retryCount := 0 }

/-! ### Strings and paths -/

def ascii (s : String) : List UInt8 := s.toList.map fun c => c.toNat.toUInt8

def BL_BACKUP_PATH : List UInt8 := ascii "0:/backup"
def BL_FIRMWARE_NAME : List UInt8 := ascii "firmware.bin"
def BL_UPDATE_FLAG_MAGIC : Nat := 0x55474655
def BL_FLASH_CHUNK : Nat := 4096
def ENODATA : Int := 61

/-- The C string at the front of a buffer. -/
def cstr (buf : List UInt8) : List UInt8 := buf.takeWhile (· ≠ 0)

/-- `strncpy(dst, src, sizeof(dst) - 1)` into a buffer whose last byte stays `0`. -/
def strncpy (size : Nat) (src : List UInt8) : List UInt8 := (cstr src).take (size - 1)

/-- The name a request gives its image, or the default. -/
def Context.imageName (ctx : Context) : List UInt8 :=
  if ctx.firmwareFilename = [] then BL_FIRMWARE_NAME else ctx.firmwareFilename

/-- The path the first pass reads, as `snprintf` into 128 bytes leaves it. -/
def Context.stagedPath (ctx : Context) : List UInt8 :=
  if ctx.firmwarePath ≠ [] then ctx.firmwarePath.take 127
  else (BL_BACKUP_PATH ++ ascii "/" ++ ctx.imageName).take 127

/-! ### The outside world -/

/-- A MAVLink message, as `check_server_cmd` tells them apart. -/
inductive Message where
  | heartbeat
  | updateCmd (firmwareSize firmwareCrc32 : UInt32) (filename : List UInt8)
  | other
  deriving DecidableEq, Repr

/-- What the outside world decides in one round of the loop. -/
structure StepInput where
  message       : Option Message
  dataAvailable : Bool
  rz            : Int
  allocOk       : Bool
  files         : List UInt8 → Option (List UInt8)
  readError₁    : Option Nat
  copyOk        : Bool
  reopenOk      : Bool
  readError₂    : Option Nat
  faults        : Faults
  deleteOk      : Bool

/-- What the outside world decides before the loop. -/
structure BootInput where
  flagError  : Bool
  createDirs : Bool

/-- `jumped`: `jump_to_firmware` was called.  It does not return: it starts the image, or halts
when the vector table cannot be read. -/
inductive Phase where
  | running
  | jumped
  | returned
  deriving DecidableEq, Repr

structure Machine where
  ctx      : Context
  flash    : Flash
  flag     : Option (List UInt8)
  phase    : Phase
  request  : Option (UInt32 × UInt32)
  verified : Option Flash

def Machine.setState (m : Machine) (state : FsmState) : Machine :=
  { m with ctx := { m.ctx with state } }

/-! ### Programming -/

/-- One pass over a file in chunks: what it delivers, and whether it reached the end.  An error
at the `k`-th `f_read` ends it. -/
def readPass (readError : Option Nat) (bytes : List UInt8) : List (List UInt8) × Bool :=
  match readError with
  | none => (chunks BL_FLASH_CHUNK bytes, true)
  | some k =>
    if k ≤ (chunks BL_FLASH_CHUNK bytes).length then ((chunks BL_FLASH_CHUNK bytes).take k, false)
    else (chunks BL_FLASH_CHUNK bytes, true)

/-- `total_size` after a pass. -/
def totalSize (data : List (List UInt8)) : UInt32 :=
  data.foldl (fun total c => total + UInt32.ofNat c.length) 0

/-- `calc_crc32` after a pass. -/
def calcCrc32 (data : List (List UInt8)) : UInt32 := data.foldl crc32 0xFFFFFFFF ^^^ 0xFFFFFFFF

/-- The write loop of the second pass. -/
def writeChunks (faults : Faults) (addr : Nat) : UInt32 → List (List UInt8) → Hal → Outcome Hal
  | _, [], h => (none, h)
  | offset, c :: cs, h =>
    (stm32FlashWrite faults (addr + offset.toNat) c h).andThen
      (writeChunks faults addr (offset + UInt32.ofNat c.length) cs)

/-- A staged file that passed the checks of the first pass, with its `total_size` and
`calc_crc32`. -/
structure Staged where
  bytes : List UInt8
  total : UInt32
  crc   : UInt32
  deriving DecidableEq, Repr

/-- The first pass, its checks, and the copy and second `f_open` that follow them.  A failed
`f_open` there returns FatFs' own code, which the loop treats like any other error. -/
def checkStaged (ctx : Context) (i : StepInput) : Except Errno Staged :=
  match i.files ctx.stagedPath with
  | none => .error .eio
  | some bytes =>
    let data := (readPass i.readError₁ bytes).1
    if !i.allocOk then .error .enomem
    else if !(readPass i.readError₁ bytes).2 then .error .eio
    else if ctx.firmwareSize ≠ 0 ∧ totalSize data ≠ ctx.firmwareSize then .error .epipe
    else if ctx.firmwareCrc32 ≠ 0 ∧ calcCrc32 data ≠ ctx.firmwareCrc32 then .error .epipe
    else if ctx.firmwarePath = [] ∧ !i.copyOk then .error .eio
    else if !i.reopenOk then .error .eio
    else .ok ⟨bytes, totalSize data, calcCrc32 data⟩

/-- The erase and the second pass, which takes a read error for the end of the file. -/
def programStaged (ctx : Context) (i : StepInput) (staged : Staged) (h : Hal) : Outcome Hal :=
  (stm32FlashErase i.faults ctx.firmwareAddr staged.total.toNat h).andThen
    (writeChunks i.faults ctx.firmwareAddr 0 (readPass i.readError₂ staged.bytes).1)

/-- `write_firmware_to_chip`: the context and the flash after it.  A file staged without a path is
copied before the second pass reads it, byte for byte. -/
def writeFirmwareToChip (ctx : Context) (i : StepInput) (h : Hal) : Outcome (Context × Hal) :=
  match checkStaged ctx i with
  | .error e => (some e, ctx, h)
  | .ok staged =>
    match programStaged ctx i staged h with
    | (some e, h') => (some e, ctx, h')
    | (none, h') =>
      (none, { ctx with firmwareSize := staged.total, firmwareCrc32 := staged.crc }, h')

/-! ### Reading back -/

/-- The read-back loop of `verify_flash_crc`: chunk by chunk from `offset` on. -/
def flashCrc (mem : Flash) (addr size : Nat) : Nat → Nat → UInt32 → Option UInt32
  | 0, _, crc => some crc
  | fuel + 1, offset, crc =>
    if size ≤ offset then some crc
    else
      (stm32FlashRead mem (addr + offset) (min (size - offset) BL_FLASH_CHUNK)).bind fun buf =>
        flashCrc mem addr size fuel (offset + BL_FLASH_CHUNK) (crc32 crc buf)

def verifyFlashCrc (ctx : Context) (i : StepInput) (mem : Flash) : Except Errno Unit :=
  let size := ctx.firmwareSize.toNat
  if !i.allocOk then .error .enomem
  else
    match flashCrc mem ctx.firmwareAddr size (size / BL_FLASH_CHUNK + 1) 0 0xFFFFFFFF with
    | none => .error .einval
    | some crc => if crc ^^^ 0xFFFFFFFF ≠ ctx.firmwareCrc32 then .error .eio else .ok ()

/-- The two words of a vector table are a stack pointer in SRAM and a reset vector in flash. -/
def vectorValid (layout : MemLayout) (stackPtr resetVec : UInt32) : Bool :=
  layout.sramStart ≤ stackPtr && stackPtr ≤ layout.sramEnd &&
    layout.romBase ≤ resetVec && resetVec < layout.romBase + layout.romSize

def isFirmwareValid (ctx : Context) (mem : Flash) : Bool :=
  match stm32FlashRead mem ctx.firmwareAddr 4, stm32FlashRead mem (ctx.firmwareAddr + 4) 4 with
  | some sp, some reset => vectorValid ctx.layout (.ofNat (leNat sp)) (.ofNat (leNat reset))
  | _, _ => false

/-! ### The update flag -/

/-- `sizeof(struct bootloader_update_flag)`. -/
def flagSize : Nat := 160

/-- `read_update_flag`: the context with the request, and the request. -/
def readUpdateFlag (ctx : Context) (flagError : Bool) (flag : Option (List UInt8)) :
    Option (Context × UInt32 × UInt32) :=
  match flag with
  | none => none
  | some bytes =>
    -- what is not read of the structure stays zero
    let buf := bytes.take flagSize ++ List.replicate (flagSize - bytes.length) 0
    if flagError ∨ min bytes.length flagSize < 8 then none
    else if leNat (slice buf 0 4) ≠ BL_UPDATE_FLAG_MAGIC then none
    else
      let size := UInt32.ofNat (leNat (slice buf 4 4))
      let crc := UInt32.ofNat (leNat (slice buf 8 4))
      some ({ ctx with
        firmwareSize := size
        firmwareCrc32 := crc
        firmwareFilename := strncpy 64 (buf.drop 16)
        firmwarePath := strncpy 96 (buf.drop 64) }, size, crc)

/-- `bootloader_write_update_flag`: the file the application leaves. -/
def bootloaderWriteUpdateFlag (size crc : UInt32) (filename path : List UInt8) : List UInt8 :=
  let pad (n : Nat) (s : List UInt8) := strncpy n s ++ List.replicate (n - (strncpy n s).length) 0
  leBytes 4 BL_UPDATE_FLAG_MAGIC ++ leBytes 4 size.toNat ++ leBytes 4 crc.toNat ++ leBytes 4 0 ++
    pad 48 filename ++ pad 96 path

/-! ### The flow -/

/-- The part of `bootloader_flow` before the loop. -/
def boot (ctx : Context) (b : BootInput) (flash : Flash) (flag : Option (List UInt8)) : Machine :=
  let ctx := { ctx with state := .checkMode }
  match readUpdateFlag ctx b.flagError flag with
  | some (ctx, request) =>
    let m : Machine := ⟨ctx, flash, flag, .running, some request, none⟩
    if !b.createDirs then { m with phase := .returned }
    else m.setState (if ctx.firmwarePath ≠ [] then .program else .waitCmd)
  | none =>
    let m : Machine := ⟨ctx, flash, flag, .running, none, none⟩
    if isFirmwareValid ctx flash then { m.setState .jumpApp with phase := .jumped }
    else if !b.createDirs then { m with phase := .returned }
    else m.setState (if ctx.firmwarePath ≠ [] then .program else .waitCmd)

def checkServerCmd (m : Machine) (i : StepInput) : Machine :=
  match i.message with
  | some (.updateCmd size crc filename) =>
    { m with
      ctx := { m.ctx with
        firmwareSize := size
        firmwareCrc32 := crc
        firmwareFilename := strncpy 64 filename
        state := .receive }
      request := some (size, crc) }
  | _ => m

/-- `receive_firmware`, and what the loop makes of it.  Its positive results are turned into `0`;
a `0` of `lrzsz_rz` stays one. -/
def receiveFirmware (m : Machine) (i : StepInput) : Machine :=
  if !i.dataAvailable then m
  else if 0 ≤ i.rz then m.setState .program
  else if i.rz = -ENODATA then m
  else m.setState .error

def programStep (m : Machine) (i : StepInput) : Machine :=
  match writeFirmwareToChip m.ctx i ⟨m.flash, []⟩ with
  | (some _, ctx, h) => { m with ctx := { ctx with state := .error }, flash := h.mem }
  | (none, ctx, h) => { m with ctx := { ctx with state := .verify }, flash := h.mem }

def verifyStep (m : Machine) (i : StepInput) : Machine :=
  match verifyFlashCrc m.ctx i m.flash with
  | .error _ => m.setState .error
  | .ok () => { m.setState .complete with verified := some m.flash }

/-- `fatfs_delete_file(NULL, BL_UPDATE_FLAG_PATH)`, whose result is not looked at. -/
def deleteFlag (m : Machine) (i : StepInput) : Machine :=
  if i.deleteOk then { m with flag := none } else m

def errorStep (m : Machine) (i : StepInput) : Machine :=
  let m := { m with ctx := { m.ctx with retryCount := (m.ctx.retryCount + 1) % 256 } }
  if 3 ≤ m.ctx.retryCount then { deleteFlag m i with phase := .returned }
  else m.setState .waitCmd

/-- One round of the loop. -/
def step (m : Machine) (i : StepInput) : Machine :=
  match m.phase with
  | .running =>
    match m.ctx.state with
    | .waitCmd => checkServerCmd m i
    | .receive => receiveFirmware m i
    | .program => programStep m i
    | .verify => verifyStep m i
    | .complete => { deleteFlag m i with phase := .jumped }
    | .error => errorStep m i
    | _ => m
  | _ => m

end Kinetis.Bootloader
