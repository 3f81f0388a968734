import Kinetis.Lib.Memory
import Kinetis.Platform.Files
import Kinetis.Lib.Words
import Mathlib.Tactic.Set
import Mathlib.Order.Basic

/-!
# Bootloader — the STM32H7 flash driver

`stm32_flash_erase`, `stm32_flash_write` and `stm32_flash_read` of the H7 build
(`projects/persistence-of-vision/interface.c`): 128 KB sectors, 32-byte flash words.

The HAL is the memory and a log of the operations asked of it.  An operation that succeeds has
its exact effect; one that fails, or is cut short by a loss of power, leaves arbitrary bytes in
the range it touches (`Faults`), and the driver asks for nothing more after it.
-/

namespace Kinetis.Bootloader
open Lib

def FLASH_BANK1_BASE : Nat := 0x08000000
def ROM_TOTAL_SIZE : Nat := 1024 * 1024
def BL_FLASH_SECTOR_SIZE : Nat := 0x20000
def BL_FLASH_WORD_SIZE : Nat := 32

/-- The end of the flash bank. -/
def romEnd : Nat := FLASH_BANK1_BASE + ROM_TOTAL_SIZE

abbrev Flash := Nat → UInt8

/-! ### The HAL -/

/-- `HAL_FLASHEx_Erase` of one sector, `HAL_FLASH_Program` of one flash word. -/
inductive HalOp where
  | erase (sector : Nat)
  | program (addr : Nat) (word : List UInt8)
  deriving DecidableEq, Repr

namespace HalOp

def start : HalOp → Nat
  | erase sector => FLASH_BANK1_BASE + sector * BL_FLASH_SECTOR_SIZE
  | program addr _ => addr

def stop : HalOp → Nat
  | erase sector => FLASH_BANK1_BASE + (sector + 1) * BL_FLASH_SECTOR_SIZE
  | program addr _ => addr + BL_FLASH_WORD_SIZE

/-- `op` erases or programs the byte at `a`. -/
def Touches (op : HalOp) (a : Nat) : Prop := op.start ≤ a ∧ a < op.stop

instance (op : HalOp) (a : Nat) : Decidable (op.Touches a) := inferInstanceAs (Decidable (_ ∧ _))

/-- The exact effect. -/
def apply : HalOp → Flash → Flash
  | erase sector, mem => fun a => if (erase sector).Touches a then 0xFF else mem a
  | program addr word, mem => overlay mem addr word

end HalOp

structure Hal where
  mem : Flash
  log : List HalOp

/-- For each HAL call in turn: `none`, or the bytes a call that does not finish leaves behind. -/
abbrev Faults := Nat → Option Flash

variable (faults : Faults)

def Hal.exec (h : Hal) (op : HalOp) : Outcome Hal :=
  match faults h.log.length with
  | none => (none, ⟨op.apply h.mem, h.log ++ [op]⟩)
  | some junk => (some .eio, ⟨fun a => if op.Touches a then junk a else h.mem a, h.log ++ [op]⟩)

/-! ### Erase -/

/-- The loop over the sectors. -/
def eraseSectors : List Nat → Hal → Outcome Hal
  | [], h => (none, h)
  | k :: ks, h => (h.exec faults (.erase k)).andThen (eraseSectors ks)

def startSector (addr : Nat) : Nat := (addr - FLASH_BANK1_BASE) % 2 ^ 32 / BL_FLASH_SECTOR_SIZE

def endSector (addr size : Nat) : Nat :=
  (addr + size - 1 - FLASH_BANK1_BASE) % 2 ^ 32 / BL_FLASH_SECTOR_SIZE

def maxSector : Nat := (ROM_TOTAL_SIZE + BL_FLASH_SECTOR_SIZE - 1) / BL_FLASH_SECTOR_SIZE

/-- The sectors from `start_sector` to `end_sector`. -/
def sectors (addr size : Nat) : List Nat :=
  List.range' (startSector addr) (endSector addr size + 1 - startSector addr)

def stm32FlashErase (addr size : Nat) (h : Hal) : Outcome Hal :=
  if addr < FLASH_BANK1_BASE ∨ romEnd < addr + size ∨ size = 0 then (some .einval, h)
  else if maxSector = 0 ∨ maxSector ≤ endSector addr size then (some .einval, h)
  else eraseSectors faults (sectors addr size) h

/-! ### Write and read -/

/-- One round of the loop over flash words: the word to program, and how many of the bytes
still to write it takes. -/
def nextWord (mem : Flash) (flashAddr : Nat) (rest : List UInt8) : HalOp × Nat :=
  let wordOff := flashAddr % BL_FLASH_WORD_SIZE
  if wordOff ≠ 0 ∨ rest.length < BL_FLASH_WORD_SIZE then
    -- unaligned or partial: read, modify, write
    let alignedAddr := flashAddr - wordOff
    let buf := readMem mem alignedAddr BL_FLASH_WORD_SIZE
    let copySz :=
      if rest.length < BL_FLASH_WORD_SIZE - wordOff then rest.length
      else BL_FLASH_WORD_SIZE - wordOff
    (.program alignedAddr
      (buf.take wordOff ++ rest.take copySz ++ buf.drop (wordOff + copySz)), copySz)
  else (.program flashAddr (rest.take BL_FLASH_WORD_SIZE), BL_FLASH_WORD_SIZE)

/-- The loop over flash words, with the bytes still to write.  Every round takes at least one
byte, so a fuel of their number is enough. -/
def writeWords : Nat → Nat → List UInt8 → Hal → Outcome Hal
  | 0, _, _, h => (none, h)
  | _ + 1, _, [], h => (none, h)
  | fuel + 1, addr, b :: bs, h =>
    (h.exec faults (nextWord h.mem (addr % 2 ^ 32) (b :: bs)).1).andThen
      (writeWords fuel (addr + (nextWord h.mem (addr % 2 ^ 32) (b :: bs)).2)
        ((b :: bs).drop (nextWord h.mem (addr % 2 ^ 32) (b :: bs)).2))

def stm32FlashWrite (addr : Nat) (data : List UInt8) (h : Hal) : Outcome Hal :=
  if romEnd < addr + data.length then (some .einval, h)
  else writeWords faults data.length addr data h

def stm32FlashRead (mem : Flash) (addr size : Nat) : Option (List UInt8) :=
  if romEnd < addr + size then none else some (readMem mem addr size)

/-! ### What the driver does -/

section Spec

variable {faults} {h h' : Hal} {op : HalOp} {addr : Nat} {rest data : List UInt8}

theorem Hal.exec_eq_ok : h.exec faults op = (none, h') ↔
    faults h.log.length = none ∧ h' = ⟨op.apply h.mem, h.log ++ [op]⟩ := by
  rw [exec]
  cases faults h.log.length with
  | none => simp [eq_comm]
  | some junk => simp

/-- An operation is logged whether it succeeds or not. -/
theorem Hal.exec_log (h : Hal) (op : HalOp) : (h.exec faults op).2.log = h.log ++ [op] := by
  rw [exec]
  cases faults h.log.length <;> rfl

/-- A byte that is erased, or in a sector still to come, is erased after the loop. -/
theorem eraseSectors_ok {ks : List Nat} {a : Nat} (hok : eraseSectors faults ks h = (none, h'))
    (ha : h.mem a = 0xFF ∨ ∃ k ∈ ks, (HalOp.erase k).Touches a) : h'.mem a = 0xFF := by
  induction ks generalizing h with
  | nil =>
    cases hok
    obtain ha | ⟨k, hk, -⟩ := ha
    · exact ha
    · cases hk
  | cons k ks ih =>
    obtain ⟨h₁, hexec, hrest⟩ := Outcome.andThen_eq_ok.mp hok
    obtain ⟨-, rfl⟩ := Hal.exec_eq_ok.mp hexec
    refine ih hrest ?_
    by_cases hk : (HalOp.erase k).Touches a
    · exact .inl (if_pos hk)
    · rcases ha with ha | ⟨j, hj, hja⟩
      · exact .inl ((if_neg hk).trans ha)
      · rcases List.mem_cons.mp hj with rfl | hj
        · exact absurd hja hk
        · exact .inr ⟨j, hj, hja⟩

/-- The sectors of a range cover it. -/
theorem exists_sector {size a : Nat} (hbase : FLASH_BANK1_BASE ≤ addr) (hend : addr + size ≤ romEnd)
    (hlo : addr ≤ a) (hhi : a < addr + size) :
    ∃ k ∈ sectors addr size, (HalOp.erase k).Touches a := by
  refine ⟨(a - FLASH_BANK1_BASE) / BL_FLASH_SECTOR_SIZE, ?_, ?_⟩
  · rw [sectors, List.mem_range'_1, startSector, endSector]
    simp only [romEnd, FLASH_BANK1_BASE, ROM_TOTAL_SIZE, BL_FLASH_SECTOR_SIZE] at *
    omega
  · rw [HalOp.Touches, HalOp.start, HalOp.stop]
    simp only [romEnd, FLASH_BANK1_BASE, ROM_TOTAL_SIZE, BL_FLASH_SECTOR_SIZE] at *
    omega

/-- **An erase that succeeds leaves its range erased.** -/
theorem stm32FlashErase_ok {size : Nat} (hok : stm32FlashErase faults addr size h = (none, h')) :
    FLASH_BANK1_BASE ≤ addr ∧ addr + size ≤ romEnd ∧ 0 < size ∧
      ∀ a, addr ≤ a → a < addr + size → h'.mem a = 0xFF := by
  rw [stm32FlashErase] at hok
  split at hok
  · cases hok
  · next hrange =>
      simp only [not_or, Nat.not_lt] at hrange
      obtain ⟨hbase, hend, hsize⟩ := hrange
      split at hok
      · cases hok
      · refine ⟨hbase, hend, Nat.pos_of_ne_zero hsize, fun a hlo hhi => ?_⟩
        exact eraseSectors_ok hok (.inr (exists_sector hbase hend hlo hhi))

theorem nextWord_pos (mem : Flash) (addr : Nat) (hrest : rest ≠ []) : 0 < (nextWord mem addr rest).2 := by
  have hlen : 0 < rest.length := List.length_pos_of_ne_nil hrest
  have hmod : addr % BL_FLASH_WORD_SIZE < BL_FLASH_WORD_SIZE := Nat.mod_lt _ (by decide)
  rw [nextWord]
  split
  · simp only
    split <;> omega
  · exact Nat.zero_lt_of_lt hmod

theorem nextWord_le (mem : Flash) (addr : Nat) (rest : List UInt8) :
    (nextWord mem addr rest).2 ≤ rest.length := by
  rw [nextWord]
  split
  · simp only
    split <;> omega
  · next hc => omega

/-- A round programs one aligned flash word around the address. -/
theorem nextWord_range (mem : Flash) (addr : Nat) (rest : List UInt8) :
    (nextWord mem addr rest).1.start = addr - addr % BL_FLASH_WORD_SIZE ∧
    (nextWord mem addr rest).1.stop = addr - addr % BL_FLASH_WORD_SIZE + BL_FLASH_WORD_SIZE := by
  rw [nextWord]
  split
  · exact ⟨rfl, rfl⟩
  · next hc =>
      have hzero : addr % BL_FLASH_WORD_SIZE = 0 := by omega
      rw [hzero]
      exact ⟨rfl, rfl⟩

/-- The bytes a round takes end within the word it programs. -/
theorem nextWord_fits (mem : Flash) (addr : Nat) (rest : List UInt8) :
    addr % BL_FLASH_WORD_SIZE + (nextWord mem addr rest).2 ≤
    BL_FLASH_WORD_SIZE := by
  have hmod : addr % BL_FLASH_WORD_SIZE < BL_FLASH_WORD_SIZE := Nat.mod_lt _ (by decide)
  rw [nextWord]
  split
  · simp only
    split <;> omega
  · next hc => omega

/-- **One round writes its bytes and nothing else.** -/
theorem nextWord_apply (mem : Flash) (addr : Nat) (rest : List UInt8) :
    (nextWord mem addr rest).1.apply mem =
    overlay mem addr (rest.take (nextWord mem addr rest).2) := by
  have hle := nextWord_le mem addr rest
  have hfits := nextWord_fits mem addr rest
  have hmod := Nat.mod_le addr BL_FLASH_WORD_SIZE
  rw [nextWord] at hle hfits ⊢
  split
  · next hc =>
      rw [if_pos hc] at hle hfits
      set copySz := if rest.length < BL_FLASH_WORD_SIZE - addr % BL_FLASH_WORD_SIZE then rest.length
        else BL_FLASH_WORD_SIZE - addr % BL_FLASH_WORD_SIZE
      have hlen : (rest.take copySz).length = copySz := List.length_take_of_le hle
      have hmodify := overlay_modify mem (addr - addr % BL_FLASH_WORD_SIZE)
        (addr % BL_FLASH_WORD_SIZE) BL_FLASH_WORD_SIZE (rest.take copySz) (by rw [hlen]; exact hfits)
      rw [hlen, Nat.sub_add_cancel hmod] at hmodify
      exact hmodify
  · rfl

/-- **A write that succeeds leaves the data at its address and every other byte as it was.** -/
theorem writeWords_ok {fuel : Nat} (hfuel : data.length ≤ fuel) (hend : addr + data.length ≤ 2 ^ 32)
    (hok : writeWords faults fuel addr data h = (none, h')) :
    h'.mem = overlay h.mem addr data := by
  induction fuel generalizing addr data h with
  | zero =>
    obtain rfl : data = [] := List.length_eq_zero_iff.mp (by omega)
    cases hok
    simp
  | succ fuel ih =>
    cases data with
    | nil =>
      cases hok
      simp
    | cons b bs =>
      have hpos := nextWord_pos h.mem addr (List.cons_ne_nil b bs)
      have hle := nextWord_le h.mem addr (b :: bs)
      have hmod : addr % 2 ^ 32 = addr := Nat.mod_eq_of_lt (by omega)
      rw [writeWords, hmod] at hok
      obtain ⟨h₁, hexec, hrest⟩ := Outcome.andThen_eq_ok.mp hok
      obtain ⟨-, rfl⟩ := Hal.exec_eq_ok.mp hexec
      have hlen : ((b :: bs).drop (nextWord h.mem addr (b :: bs)).2).length =
          (b :: bs).length - (nextWord h.mem addr (b :: bs)).2 := List.length_drop
      rw [ih (by omega) (by omega) hrest, nextWord_apply]
      have htake : ((b :: bs).take (nextWord h.mem addr (b :: bs)).2).length =
          (nextWord h.mem addr (b :: bs)).2 := List.length_take_of_le hle
      have happ := overlay_append h.mem addr ((b :: bs).take (nextWord h.mem addr (b :: bs)).2)
        ((b :: bs).drop (nextWord h.mem addr (b :: bs)).2)
      rw [htake, List.take_append_drop] at happ
      exact happ

theorem stm32FlashWrite_ok (hok : stm32FlashWrite faults addr data h = (none, h')) :
    addr + data.length ≤ romEnd ∧ h'.mem = overlay h.mem addr data := by
  rw [stm32FlashWrite] at hok
  split at hok
  · cases hok
  · next hc =>
      have hend : addr + data.length ≤ romEnd := Nat.not_lt.mp hc
      have hrom : romEnd ≤ 2 ^ 32 := by decide
      exact ⟨hend, writeWords_ok (Nat.le_refl _) (Nat.le_trans hend hrom) hok⟩

end Spec

end Kinetis.Bootloader
