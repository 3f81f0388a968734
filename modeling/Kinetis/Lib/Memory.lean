import Kinetis.Lib.Slices

/-!
# Lib — Memory

A memory is a function of the address.  `overlay mem addr data` is `mem` with `data` written from
`addr` on, and `readMem mem addr n` the `n` cells from `addr` on.
-/

namespace Lib

variable {β : Type*} {mem : Nat → β} {addr : Nat} {data : List β}

def overlay (mem : Nat → β) (addr : Nat) (data : List β) : Nat → β := fun a =>
  if addr ≤ a then data[a - addr]?.getD (mem a) else mem a

def readMem (mem : Nat → β) (addr n : Nat) : List β := (List.range n).map fun i => mem (addr + i)

@[simp] theorem length_readMem (mem : Nat → β) (addr n : Nat) : (readMem mem addr n).length = n := by
  simp [readMem]

theorem getElem?_readMem (mem : Nat → β) (addr n i : Nat) :
    (readMem mem addr n)[i]? = if i < n then some (mem (addr + i)) else none := by
  rw [readMem]
  by_cases h : i < n <;> simp [h]

@[simp] theorem overlay_nil (mem : Nat → β) (addr : Nat) : overlay mem addr [] = mem := by
  funext a
  simp [overlay]

variable {a n m : Nat}

theorem overlay_of_lt (h : a < addr) : overlay mem addr data a = mem a := by
  rw [overlay, if_neg (Nat.not_le.mpr h)]

theorem overlay_of_le (h : addr + data.length ≤ a) : overlay mem addr data a = mem a := by
  rw [overlay, if_pos (by omega), List.getElem?_eq_none (by omega), Option.getD_none]

theorem overlay_of_notMem (h : ¬ (addr ≤ a ∧ a < addr + data.length)) :
    overlay mem addr data a = mem a := by
  rcases Nat.lt_or_ge a addr with hlt | hge
  · exact overlay_of_lt hlt
  · exact overlay_of_le (by omega)

/-- A byte that is written does not depend on what was there. -/
theorem overlay_of_mem (mem' : Nat → β) (h : addr ≤ a ∧ a < addr + data.length) :
    overlay mem addr data a = overlay mem' addr data a := by
  rw [overlay, overlay, if_pos h.1, if_pos h.1, List.getElem?_eq_getElem (by omega),
    Option.getD_some, Option.getD_some]

/-- Two writes in a row are one. -/
theorem overlay_append (mem : Nat → β) (addr : Nat) (d₁ d₂ : List β) :
    overlay (overlay mem addr d₁) (addr + d₁.length) d₂ = overlay mem addr (d₁ ++ d₂) := by
  funext a
  by_cases ha : addr ≤ a
  · by_cases hd : addr + d₁.length ≤ a
    · have hsub : a - addr - d₁.length = a - (addr + d₁.length) := by omega
      rw [overlay, if_pos hd, overlay_of_le hd, overlay, if_pos ha,
        List.getElem?_append_right (by omega), hsub]
    · rw [overlay_of_lt (by omega), overlay, if_pos ha, overlay, if_pos ha,
        List.getElem?_append_left (by omega)]
  · rw [overlay_of_lt (by omega), overlay_of_lt (by omega), overlay_of_lt (by omega)]

/-- What was written is read back. -/
theorem readMem_overlay (mem : Nat → β) (addr : Nat) (data : List β) :
    readMem (overlay mem addr data) addr data.length = data := by
  refine List.ext_getElem? fun i => ?_
  rw [getElem?_readMem]
  by_cases hi : i < data.length
  · rw [if_pos hi, overlay, if_pos (Nat.le_add_right addr i), Nat.add_sub_cancel_left,
      List.getElem?_eq_getElem hi, Option.getD_some]
  · rw [if_neg hi, List.getElem?_eq_none (by omega)]

/-- A read beside a write sees nothing of it. -/
theorem readMem_overlay_of_disjoint (h : a + n ≤ addr ∨ addr + data.length ≤ a) :
    readMem (overlay mem addr data) a n = readMem mem a n := by
  refine List.map_congr_left fun i hi => ?_
  have hin := List.mem_range.mp hi
  rcases h with h | h
  · exact overlay_of_lt (by omega)
  · exact overlay_of_le (by omega)

/-- A read is a read of its front and one of its back. -/
theorem readMem_append (mem : Nat → β) (addr m n : Nat) :
    readMem mem addr (m + n) = readMem mem addr m ++ readMem mem (addr + m) n := by
  rw [readMem, List.range_add, List.map_append, List.map_map]
  refine congrArg _ (List.map_congr_left fun i _ => ?_)
  simp [Nat.add_assoc]

/-- What is read from where the data was written: the data, and what was behind it. -/
theorem readMem_overlay_append (mem : Nat → β) (addr : Nat) {data : List β} (h : data.length ≤ n) :
    readMem (overlay mem addr data) addr n =
      data ++ readMem mem (addr + data.length) (n - data.length) := by
  obtain ⟨k, rfl⟩ := Nat.exists_eq_add_of_le h
  rw [readMem_append, readMem_overlay, readMem_overlay_of_disjoint (.inr (Nat.le_refl _)),
    Nat.add_sub_cancel_left]

theorem take_readMem (mem : Nat → β) (addr : Nat) (h : m ≤ n) :
    (readMem mem addr n).take m = readMem mem addr m := by
  obtain ⟨k, rfl⟩ := Nat.exists_eq_add_of_le h
  rw [readMem_append, List.take_left' (length_readMem mem addr m)]

theorem drop_readMem (mem : Nat → β) (addr : Nat) (h : m ≤ n) :
    (readMem mem addr n).drop m = readMem mem (addr + m) (n - m) := by
  obtain ⟨k, rfl⟩ := Nat.exists_eq_add_of_le h
  rw [readMem_append, List.drop_left' (length_readMem mem addr m), Nat.add_sub_cancel_left]

/-- A slice of a read is a read. -/
theorem slice_readMem (mem : Nat → β) (addr : Nat) {off : Nat} (h : off + m ≤ n) :
    slice (readMem mem addr n) off m = readMem mem (addr + off) m := by
  obtain ⟨k, rfl⟩ := Nat.exists_eq_add_of_le (Nat.le_of_add_right_le h)
  rw [slice, readMem_append, List.drop_left' (length_readMem mem addr off),
    take_readMem mem _ (by omega)]

/-- Writing back what is there changes nothing. -/
theorem overlay_readMem (mem : Nat → β) (addr n : Nat) :
    overlay mem addr (readMem mem addr n) = mem := by
  funext a
  by_cases ha : addr ≤ a
  · rw [overlay, if_pos ha, getElem?_readMem]
    split
    · simp [Nat.add_sub_cancel' ha]
    · rfl
  · exact overlay_of_lt (by omega)

/-- Read, modify, write: a write of a whole word whose other cells were read before is a write
of the modified cells. -/
theorem overlay_modify (mem : Nat → β) (addr off n : Nat) (data : List β)
    (h : off + data.length ≤ n) :
    overlay mem addr ((readMem mem addr n).take off ++ data ++
      (readMem mem addr n).drop (off + data.length)) = overlay mem (addr + off) data := by
  have hoff : (readMem mem addr n).take off = readMem mem addr off := take_readMem mem addr (by omega)
  have hdrop : (readMem mem addr n).drop (off + data.length) =
      readMem mem (addr + off + data.length) (n - (off + data.length)) := by
    rw [drop_readMem mem addr h, Nat.add_assoc]
  -- the cells after the modified ones are outside the write, so they read the same after it
  have hsame : readMem mem (addr + off + data.length) (n - (off + data.length)) =
      readMem (overlay mem (addr + off) data) (addr + off + data.length)
        (n - (off + data.length)) := (readMem_overlay_of_disjoint (.inr (Nat.le_refl _))).symm
  have hlen : (readMem mem addr off).length = off := length_readMem mem addr off
  rw [hoff, hdrop, List.append_assoc, ← overlay_append, overlay_readMem, hlen, ← overlay_append,
    hsame, overlay_readMem]

end Lib
