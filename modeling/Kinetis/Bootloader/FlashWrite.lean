import Kinetis.Bootloader.Footprint
import Kinetis.Lib.Loops

/-!
# Bootloader — writing flash, on both chips

`stm32_flash_write` exists twice in `projects/persistence-of-vision/interface.c`: for the H7 with
flash words of 32 bytes and for the F4 with words of 4.  Both go through the data word by word, with
a read-modify-write where a word is not covered; they differ in how a word is put together.

* `Chip.nextWord` is one word, `flashWrite` the loop around it.
* `WritesWords` is what the loop needs of a word; both chips have it.
* `flashWrite_exact`: the loop ends, the data stands at its address, and nothing else changed.
-/

namespace Kinetis.Bootloader
open Lib

/-! ### The two drivers -/

namespace F4

def FLASH_BASE : Nat := 0x08000000
def BL_FLASH_WORD_SIZE : Nat := 4

/-- One round of the loop of the F4: the word to program, and how many of the bytes still to write it
takes. -/
def nextWord (mem : Flash) (flashAddr : Nat) (rest : List UInt8) : HalOp × Nat :=
  let wordOff := flashAddr % BL_FLASH_WORD_SIZE
  let alignedAddr := flashAddr - wordOff
  let copySz :=
    if BL_FLASH_WORD_SIZE - wordOff > rest.length then rest.length
    else BL_FLASH_WORD_SIZE - wordOff
  if wordOff ≠ 0 ∨ copySz < BL_FLASH_WORD_SIZE then
    -- unaligned or partial: read, modify, write
    let dataWord := readMem mem alignedAddr BL_FLASH_WORD_SIZE
    (.program alignedAddr
      (dataWord.take wordOff ++ rest.take copySz ++ dataWord.drop (wordOff + copySz)), copySz)
  else (.program flashAddr (rest.take BL_FLASH_WORD_SIZE), copySz)

end F4

inductive Chip where
  | stm32h743
  | stm32f407
  deriving DecidableEq, Repr

def Chip.nextWord : Chip → Flash → Nat → List UInt8 → HalOp × Nat
  | .stm32h743 => Bootloader.nextWord
  | .stm32f407 => F4.nextWord

/-- Where the flash of a chip begins; it has `ROM_TOTAL_SIZE` bytes. -/
def Chip.base : Chip → Nat
  | .stm32h743 => FLASH_BANK1_BASE
  | .stm32f407 => F4.FLASH_BASE

/-- The variables of the loop. -/
structure WriteLoop where
  offset : Nat
  hal    : Hal
  error  : Option Errno

section loop

variable (next : Flash → Nat → List UInt8 → HalOp × Nat) (faults : Faults) (addr : Nat)
  (data : List UInt8)

def WriteLoop.going (s : WriteLoop) : Bool := s.error = none ∧ s.offset < data.length

/-- One round. -/
def WriteLoop.round (s : WriteLoop) : WriteLoop :=
  let word := next s.hal.mem ((addr + s.offset) % 2 ^ 32) (data.drop s.offset)
  match s.hal.exec faults word.1 with
  | (some e, hal) => { s with hal, error := some e }
  | (none, hal) => { s with hal, offset := (s.offset + word.2) % 2 ^ 32 }

end loop

/-- `stm32_flash_write`; `none` while the loop has not ended within `fuel` rounds. -/
def flashWrite (chip : Chip) (faults : Faults) (addr : Nat) (data : List UInt8) (h : Hal)
    (fuel : Nat) : Option (Outcome Hal) :=
  if chip.base + ROM_TOTAL_SIZE < addr + data.length then some (some .einval, h)
  else
    let s := iterWhile (WriteLoop.going data) (WriteLoop.round chip.nextWord faults addr data) fuel
      ⟨0, h, none⟩
    if s.going data then none else some (s.error, s.hal)

/-! ### Words -/

/-- What a word of a write does: it takes some of the bytes, and puts them where they belong. -/
structure WritesWords (next : Flash → Nat → List UInt8 → HalOp × Nat) : Prop where
  pos   : ∀ mem addr rest, rest ≠ [] → 0 < (next mem addr rest).2
  le    : ∀ mem addr rest, (next mem addr rest).2 ≤ rest.length
  apply : ∀ mem addr rest,
    (next mem addr rest).1.apply mem = overlay mem addr (rest.take (next mem addr rest).2)

namespace F4

theorem copySz_fits (addr : Nat) (rest : List UInt8) :
    addr % BL_FLASH_WORD_SIZE +
        (if BL_FLASH_WORD_SIZE - addr % BL_FLASH_WORD_SIZE > rest.length then rest.length
          else BL_FLASH_WORD_SIZE - addr % BL_FLASH_WORD_SIZE) ≤ BL_FLASH_WORD_SIZE := by
  have hmod : addr % BL_FLASH_WORD_SIZE < BL_FLASH_WORD_SIZE := Nat.mod_lt _ (by decide)
  split <;> omega

/-- The bytes a round takes: up to the end of the word, as far as there are any. -/
theorem nextWord_snd (mem : Flash) (addr : Nat) (rest : List UInt8) :
    (nextWord mem addr rest).2 =
      if BL_FLASH_WORD_SIZE - addr % BL_FLASH_WORD_SIZE > rest.length then rest.length
      else BL_FLASH_WORD_SIZE - addr % BL_FLASH_WORD_SIZE := by
  unfold nextWord
  rw [apply_ite Prod.snd]
  exact ite_self _

theorem nextWord_apply (mem : Flash) (addr : Nat) (rest : List UInt8) :
    (nextWord mem addr rest).1.apply mem =
      overlay mem addr (rest.take (nextWord mem addr rest).2) := by
  have hfits := copySz_fits addr rest
  rw [nextWord]
  generalize hcopy : (if BL_FLASH_WORD_SIZE - addr % BL_FLASH_WORD_SIZE > rest.length then
    rest.length else BL_FLASH_WORD_SIZE - addr % BL_FLASH_WORD_SIZE) = copySz at hfits ⊢
  have hle : copySz ≤ rest.length := by
    rw [← hcopy]
    split <;> omega
  split
  · have hlen : (rest.take copySz).length = copySz := List.length_take_of_le hle
    have hmodify := overlay_modify mem (addr - addr % BL_FLASH_WORD_SIZE)
      (addr % BL_FLASH_WORD_SIZE) BL_FLASH_WORD_SIZE (rest.take copySz) (by rw [hlen]; exact hfits)
    rw [hlen, Nat.sub_add_cancel (Nat.mod_le addr BL_FLASH_WORD_SIZE)] at hmodify
    exact hmodify
  · next hc =>
      have hwhole : copySz = BL_FLASH_WORD_SIZE := by omega
      rw [hwhole]
      rfl

end F4

theorem Chip.writesWords (chip : Chip) : WritesWords chip.nextWord := by
  cases chip with
  | stm32h743 =>
    exact ⟨fun mem addr _ hrest => nextWord_pos mem addr hrest, nextWord_le, nextWord_apply⟩
  | stm32f407 =>
    refine ⟨fun mem addr rest hrest => ?_, fun mem addr rest => ?_, F4.nextWord_apply⟩
    · have hlen : 0 < rest.length := List.length_pos_of_ne_nil hrest
      have hmod : addr % F4.BL_FLASH_WORD_SIZE < F4.BL_FLASH_WORD_SIZE :=
        Nat.mod_lt _ (by decide)
      rw [Chip.nextWord, F4.nextWord_snd]
      split <;> omega
    · rw [Chip.nextWord, F4.nextWord_snd]
      split <;> omega

/-! ### The loop -/

section exact

variable {next : Flash → Nat → List UInt8 → HalOp × Nat} {addr : Nat} {data : List UInt8} {mem : Flash}
  {s : WriteLoop}

/-- What holds between two rounds: the data up to `offset` is written, and nothing else. -/
structure WriteLoop.Written (mem : Flash) (addr : Nat) (data : List UInt8) (s : WriteLoop) :
    Prop where
  error  : s.error = none
  offset : s.offset ≤ data.length
  mem    : s.hal.mem = overlay mem addr (data.take s.offset)

/-- **One round writes its bytes and nothing else.** -/
theorem WriteLoop.Written.round (hnext : WritesWords next) (hend : addr + data.length < 2 ^ 32)
    (h : s.Written mem addr data) (hgoing : s.going data = true) :
    (s.round next noFaults addr data).Written mem addr data ∧
      s.offset < (s.round next noFaults addr data).offset := by
  have hlt : s.offset < data.length := (of_decide_eq_true hgoing).2
  have hrest : data.drop s.offset ≠ [] := by
    rw [Ne, List.drop_eq_nil_iff]
    omega
  have haddr : (addr + s.offset) % 2 ^ 32 = addr + s.offset := Nat.mod_eq_of_lt (by omega)
  unfold WriteLoop.round
  rw [haddr]
  have hpos := hnext.pos s.hal.mem (addr + s.offset) (data.drop s.offset) hrest
  have hle := hnext.le s.hal.mem (addr + s.offset) (data.drop s.offset)
  have happly := hnext.apply s.hal.mem (addr + s.offset) (data.drop s.offset)
  generalize next s.hal.mem (addr + s.offset) (data.drop s.offset) = word at hpos hle happly ⊢
  rw [List.length_drop] at hle
  have hoffset : (s.offset + word.2) % 2 ^ 32 = s.offset + word.2 := Nat.mod_eq_of_lt (by omega)
  dsimp only
  rw [exec_noFaults]
  rw [hoffset]
  have hnew : s.offset + word.2 ≤ data.length := by omega
  refine ⟨⟨h.error, hnew, ?_⟩, Nat.lt_add_of_pos_right hpos⟩
  -- the word follows what was written before it
  have hlen : (data.take s.offset).length = s.offset := List.length_take_of_le h.offset
  have happ := overlay_append mem addr (data.take s.offset) ((data.drop s.offset).take word.2)
  rw [hlen] at happ
  rw [happly, h.mem, List.take_add, happ]

/-- **A write is exact, on both chips.**  For a range that does not go beyond the flash the loop ends,
with success; the data stands at its address, and every other byte is what it was. -/
theorem flashWrite_exact (chip : Chip) (addr : Nat) (data : List UInt8) (h : Hal)
    (hend : addr + data.length ≤ chip.base + ROM_TOTAL_SIZE) :
    ∃ h', (∃ fuel₀, ∀ fuel ≥ fuel₀, flashWrite chip noFaults addr data h fuel = some (none, h')) ∧
      readMem h'.mem addr data.length = data ∧
      ∀ a, a < addr ∨ addr + data.length ≤ a → h'.mem a = h.mem a := by
  have hrom : addr + data.length < 2 ^ 32 := by
    have hbase : chip.base + ROM_TOTAL_SIZE < 2 ^ 32 := by cases chip <;> decide
    exact hend.trans_lt hbase
  let cond := WriteLoop.going data
  let body := WriteLoop.round chip.nextWord noFaults addr data
  let start : WriteLoop := ⟨0, h, none⟩
  have hstart : start.Written h.mem addr data := ⟨rfl, Nat.zero_le _, (overlay_nil _ _).symm⟩
  have hround : ∀ s : WriteLoop, s.Written h.mem addr data → cond s = true →
      (body s).Written h.mem addr data ∧ data.length - (body s).offset < data.length - s.offset := by
    intro s hs hgoing
    obtain ⟨hs', hlt⟩ := hs.round chip.writesWords hrom hgoing
    have hoff : s.offset < data.length := (of_decide_eq_true hgoing).2
    exact ⟨hs', Nat.sub_lt_sub_left hoff hlt⟩
  -- as many rounds as there are bytes are enough, and more change nothing
  let final := iterWhile cond body data.length start
  have hstop : cond final = false :=
    iterWhile_ends (fun s => data.length - s.offset) hround hstart (Nat.sub_le _ _)
  have hmore : ∀ fuel ≥ data.length, iterWhile cond body fuel start = final := by
    intro fuel hfuel
    obtain ⟨more, rfl⟩ := Nat.exists_eq_add_of_le hfuel
    rw [iterWhile_add, iterWhile_of_not hstop]
  have hwritten : final.Written h.mem addr data :=
    iterWhile_invariant (fun s hs hc => (hround s hs hc).1) _ hstart
  have hall : final.offset = data.length := by
    have hge : ¬ final.offset < data.length :=
      fun hlt => of_decide_eq_false hstop ⟨hwritten.error, hlt⟩
    exact Nat.le_antisymm hwritten.offset (Nat.not_lt.mp hge)
  have hmem : final.hal.mem = overlay h.mem addr data := by
    rw [hwritten.mem, hall, List.take_length]
  refine ⟨final.hal, ⟨data.length, fun fuel hfuel => ?_⟩, ?_, fun a ha => ?_⟩
  · rw [flashWrite, if_neg (Nat.not_lt.mpr hend)]
    dsimp only
    rw [hmore fuel hfuel, if_neg (Bool.eq_false_iff.mp hstop), hwritten.error]
  · rw [hmem, readMem_overlay]
  · rw [hmem]
    rcases ha with ha | ha
    · exact overlay_of_lt ha
    · exact overlay_of_le ha

/-- Seven bytes across two words of the F4. -/
theorem flashWrite_exact_seven :
    ∃ h', (∃ fuel₀, ∀ fuel ≥ fuel₀,
        flashWrite .stm32f407 noFaults 0x08000003 [1, 2, 3, 4, 5, 6, 7] ⟨fun _ => 0xFF, []⟩ fuel =
          some (none, h')) ∧
      readMem h'.mem 0x08000003 7 = [1, 2, 3, 4, 5, 6, 7] ∧
      ∀ a, a < 0x08000003 ∨ 0x08000003 + 7 ≤ a → h'.mem a = 0xFF :=
  flashWrite_exact .stm32f407 0x08000003 [1, 2, 3, 4, 5, 6, 7] ⟨fun _ => 0xFF, []⟩ (by decide)

end exact

/-! ### The driver of the H7 -/

/-- The loop, and the words it has still to write. -/
theorem iterWhile_eq_writeWords (faults : Faults) {addr : Nat} {data : List UInt8}
    (hend : addr + data.length < 2 ^ 32) {fuel : Nat} {s : WriteLoop} (herror : s.error = none)
    (hoffset : s.offset ≤ data.length) (hfuel : data.length - s.offset ≤ fuel) :
    let r := iterWhile (WriteLoop.going data) (WriteLoop.round nextWord faults addr data) fuel s
    r.going data = false ∧
      (r.error, r.hal) = writeWords faults fuel (addr + s.offset) (data.drop s.offset) s.hal := by
  induction fuel generalizing s with
  | zero =>
    have hall : ¬ s.offset < data.length := by omega
    exact ⟨decide_eq_false fun hg => hall hg.2, congrArg (·, s.hal) herror⟩
  | succ fuel ih =>
    dsimp only at ih ⊢
    cases hdrop : data.drop s.offset with
    | nil =>
      have hall : data.length ≤ s.offset := List.drop_eq_nil_iff.mp hdrop
      have hstop : s.going data = false := decide_eq_false fun hg => absurd hg.2 (by omega)
      rw [iterWhile_of_not hstop, herror]
      exact ⟨hstop, rfl⟩
    | cons b bs =>
      have hlen := congrArg List.length hdrop
      rw [List.length_drop, List.length_cons] at hlen
      have hgoing : s.going data = true := decide_eq_true ⟨herror, by omega⟩
      have haddr : (addr + s.offset) % 2 ^ 32 = addr + s.offset := Nat.mod_eq_of_lt (by omega)
      have hpos := nextWord_pos s.hal.mem (addr + s.offset) (List.cons_ne_nil b bs)
      have hle := nextWord_le s.hal.mem (addr + s.offset) (b :: bs)
      rw [List.length_cons] at hle
      rw [iterWhile_succ hgoing, writeWords, haddr]
      have hround : s.round nextWord faults addr data =
          match s.hal.exec faults (nextWord s.hal.mem (addr + s.offset) (b :: bs)).1 with
          | (some e, hal) => { s with hal, error := some e }
          | (none, hal) =>
            { s with
                hal
                offset := s.offset + (nextWord s.hal.mem (addr + s.offset) (b :: bs)).2 } := by
        unfold WriteLoop.round
        rw [haddr, hdrop]
        dsimp only
        rw [Nat.mod_eq_of_lt (show s.offset +
          (nextWord s.hal.mem (addr + s.offset) (b :: bs)).2 < 2 ^ 32 by omega)]
      rw [hround]
      generalize nextWord s.hal.mem (addr + s.offset) (b :: bs) = word at hpos hle ⊢
      obtain ⟨err, hal⟩ := s.hal.exec faults word.1
      cases err with
      | some e =>
        have hstop : WriteLoop.going data { s with hal, error := some e } = false :=
          decide_eq_false fun hg => by cases hg.1
        rw [iterWhile_of_not hstop]
        exact ⟨hstop, rfl⟩
      | none =>
        have hnext := ih (s := { s with hal, offset := s.offset + word.2 }) herror
          (show s.offset + word.2 ≤ data.length by omega)
          (show data.length - (s.offset + word.2) ≤ fuel by omega)
        rw [← List.drop_drop, hdrop, ← Nat.add_assoc] at hnext
        exact hnext

/-- The loop of the H7 is the driver that the update uses. -/
theorem flashWrite_eq_stm32FlashWrite (faults : Faults) (addr : Nat) (data : List UInt8) (h : Hal) :
    flashWrite .stm32h743 faults addr data h data.length =
      some (stm32FlashWrite faults addr data h) := by
  have hbase : Chip.base .stm32h743 + ROM_TOTAL_SIZE = romEnd := rfl
  rw [flashWrite, stm32FlashWrite, hbase]
  by_cases hrange : romEnd < addr + data.length
  · rw [if_pos hrange, if_pos hrange]
  · have hend : addr + data.length < 2 ^ 32 :=
      (Nat.not_lt.mp hrange).trans_lt (by decide)
    obtain ⟨hstop, heq⟩ := iterWhile_eq_writeWords faults hend (s := ⟨0, h, none⟩) rfl
      (Nat.zero_le _) (Nat.le_of_eq (Nat.sub_zero data.length))
    rw [if_neg hrange, if_neg hrange]
    dsimp only [Chip.nextWord]
    rw [if_neg (Bool.eq_false_iff.mp hstop), heq]
    rfl

end Kinetis.Bootloader
