import Kinetis.Lib.Memory

/-!
# Lib — NOR flash

A NOR flash memory of bytes.  An erase sets every byte of a sector to `0xFF`; a page program takes
the bytes it is sent into a page buffer, from an offset on and wrapping at the end of the page, and
then clears bits: every byte of the page becomes the conjunction of what it was and of the buffer.

* `program_eq_overlay`: data that does not go over the end of its page, into bytes that are erased,
  is written as it is, and nothing else changes.
-/

namespace Lib

/-- The sector of `addr` erased. -/
def erase (size : Nat) (mem : Nat → UInt8) (addr : Nat) : Nat → UInt8 := fun a =>
  if a / size = addr / size then 0xFF else mem a

/-- The page buffer after `data` was sent from offset `off` on. -/
def latch (page : Nat) : Nat → List UInt8 → (Nat → UInt8) → Nat → UInt8
  | _, [], buf => buf
  | off, b :: data, buf => latch page ((off + 1) % page) data (Function.update buf off b)

/-- A page programmed with `data` from `addr` on. -/
def program (page : Nat) (mem : Nat → UInt8) (addr : Nat) (data : List UInt8) : Nat → UInt8 :=
  fun a =>
    if a / page = addr / page then mem a &&& latch page (addr % page) data (fun _ => 0xFF) (a % page)
    else mem a

/-- The bytes `[addr, addr + n)` are erased. -/
def Erased (mem : Nat → UInt8) (addr n : Nat) : Prop := ∀ a, addr ≤ a → a < addr + n → mem a = 0xFF

variable {mem : Nat → UInt8} {addr n : Nat} {data : List UInt8}

/-- Data that stays inside the page is taken in place. -/
theorem latch_eq_overlay {page : Nat} (buf : Nat → UInt8) {off : Nat}
    (h : off + data.length ≤ page) : latch page off data buf = overlay buf off data := by
  induction data generalizing off buf with
  | nil => rw [latch, overlay_nil]
  | cons b data ih =>
    have hone : Function.update buf off b = overlay buf off [b] := by
      funext a
      by_cases ha : a = off
      · subst ha
        simp [overlay]
      · rw [Function.update_of_ne ha]
        rcases Nat.lt_or_gt_of_ne ha with hlt | hgt
        · rw [overlay_of_lt hlt]
        · rw [overlay_of_le hgt]
    rw [List.length_cons] at h
    rw [latch, hone]
    -- the offset wraps only after the last byte
    rcases data with _ | ⟨c, data⟩
    · rw [latch]
    · rw [List.length_cons] at h
      rw [Nat.mod_eq_of_lt (by omega), ih _ (by rw [List.length_cons]; omega)]
      exact overlay_append buf off [b] (c :: data)

/-- A page program inside its page clears the bits that the data has clear. -/
theorem program_eq_and {page : Nat} (hpage : addr % page + data.length ≤ page) :
    program page mem addr data = fun a => mem a &&& overlay (fun _ => 0xFF) addr data a := by
  funext a
  have ha := Nat.div_add_mod a page
  have hq := Nat.div_add_mod addr page
  rw [program, latch_eq_overlay _ hpage]
  by_cases hin : addr ≤ a ∧ a < addr + data.length
  · -- a byte of the data is in the page
    have hsame : a / page = addr / page :=
      Nat.div_eq_of_lt_le (by rw [Nat.mul_comm]; omega) (by rw [Nat.add_one_mul, Nat.mul_comm]; omega)
    rw [hsame] at ha
    have hsub : a % page - addr % page = a - addr := by omega
    rw [if_pos hsame, overlay, if_pos (by omega), hsub, overlay, if_pos hin.1]
  · rw [overlay_of_notMem hin]
    split
    · rename_i hsame
      rw [hsame] at ha
      rw [overlay_of_notMem (by omega)]
    · exact UInt8.and_neg_one.symm

/-- **A page program inside its page, into erased bytes**, writes the data. -/
theorem program_eq_overlay {page : Nat} (hpage : addr % page + data.length ≤ page)
    (hmem : Erased mem addr data.length) : program page mem addr data = overlay mem addr data := by
  rw [program_eq_and hpage]
  funext a
  by_cases hin : addr ≤ a ∧ a < addr + data.length
  · rw [hmem a hin.1 hin.2, overlay, if_pos hin.1, overlay, if_pos hin.1,
      List.getElem?_eq_getElem (by omega)]
    exact UInt8.neg_one_and
  · rw [overlay_of_notMem hin, overlay_of_notMem hin]
    exact UInt8.and_neg_one

/-- A whole sector is erased. -/
theorem erased_erase (size : Nat) (mem : Nat → UInt8) (h : addr % size = 0) :
    Erased (erase size mem addr) addr size := by
  intro a hle hlt
  have hq := Nat.div_add_mod addr size
  rw [erase, if_pos]
  exact Nat.div_eq_of_lt_le (by rw [Nat.mul_comm]; omega)
    (by rw [Nat.add_one_mul, Nat.mul_comm]; omega)

/-- **An erase and a write of the whole sector** writes the sector, and nothing else changes. -/
theorem overlay_erase {size : Nat} (mem : Nat → UInt8) (hsize : 0 < size) (h : addr % size = 0)
    (hdata : data.length = size) : overlay (erase size mem addr) addr data = overlay mem addr data := by
  funext a
  by_cases hin : addr ≤ a ∧ a < addr + data.length
  · rw [overlay, if_pos hin.1, overlay, if_pos hin.1, List.getElem?_eq_getElem (by omega),
      Option.getD_some, Option.getD_some]
  · rw [overlay_of_notMem hin, overlay_of_notMem hin, erase, if_neg]
    intro hsame
    have ha := Nat.div_add_mod a size
    have hq := Nat.div_add_mod addr size
    rw [hsame] at ha
    have hmod := Nat.mod_lt a hsize
    omega

theorem Erased.sub {m off : Nat} (h : Erased mem addr n) (hle : off + m ≤ n) :
    Erased mem (addr + off) m := fun a ha hlt => h a (by omega) (by omega)

/-- What is written before erased bytes leaves them erased. -/
theorem Erased.overlay (h : Erased mem (addr + data.length) n) :
    Erased (overlay mem addr data) (addr + data.length) n := by
  intro a ha hlt
  rw [overlay_of_le ha]
  exact h a ha hlt

end Lib
