import Kinetis.Allocator.Model
import Mathlib.Data.List.Pairwise

/-!
# Allocator — what the table operations do

One lemma for each loop over the descriptor table, stated for the list of live blocks
`blocks[0 .. block_count)`.

* The sort leaves a table in address order alone (`ensureBlocksSorted_eq`).
* Insertion puts one block before the first block above it (`live_insertBlockSorted`).
* Release drops one entry (`live_removeBlock`).
-/

namespace Kinetis.Allocator
open Lib

/-- The live blocks, in table order. -/
def live (s : State) : List Block := (List.range s.blockCount).map s.blocks

/-- The table is in address order. -/
def Sorted (s : State) : Prop :=
  ∀ i j, i < j → j < s.blockCount → (s.blocks i).start ≤ (s.blocks j).start

@[simp] theorem length_live (s : State) : (live s).length = s.blockCount := by simp [live]

theorem getElem?_map_range (t : Nat → Block) (n i : Nat) :
    ((List.range n).map t)[i]? = if i < n then some (t i) else none := by
  by_cases h : i < n <;> simp [h]

variable {s : State} {b : Block} {i start n : Nat}

theorem mem_live : b ∈ live s ↔ ∃ i, i < s.blockCount ∧ s.blocks i = b := by
  simp [live]

theorem mem_live_of_lt (h : i < s.blockCount) : s.blocks i ∈ live s :=
  mem_live.mpr ⟨i, h, rfl⟩

theorem getElem_live (h : i < (live s).length) : (live s)[i] = s.blocks i := by
  simp [live]

/-! ### Sorting -/

theorem sortInner_eq {i : Nat} {t : Nat → Block} :
    ∀ {js : List Nat}, (∀ j ∈ js, (t i).start ≤ (t j).start) → sortInner i js t = t
  | [], _ => rfl
  | j :: js, h => by
    have hj : ¬ (t j).start < (t i).start := Nat.not_lt.mpr (h j (by simp))
    rw [sortInner, if_neg hj]
    exact sortInner_eq fun k hk => h k (List.mem_cons_of_mem j hk)

theorem sortOuter_eq {n : Nat} {t : Nat → Block}
    (h : ∀ i j, i < j → j < n → (t i).start ≤ (t j).start) :
    ∀ is : List Nat, sortOuter n is t = t
  | [] => rfl
  | i :: is => by
    have hin : sortInner i (List.range' (i + 1) (n - (i + 1))) t = t := by
      refine sortInner_eq fun j hj => ?_
      rw [List.mem_range'_1] at hj
      exact h i j (by omega) (by omega)
    rw [sortOuter, hin]
    exact sortOuter_eq h is

/-- On a table in address order the sort only clears `need_sort`. -/
theorem ensureBlocksSorted_eq (h : Sorted s) :
    ensureBlocksSorted s = { s with needSort := s.needSort && decide (s.blockCount ≤ 1) } := by
  rw [ensureBlocksSorted]
  split
  · next hc =>
      rcases hc with hn | hc
      · simp only [hn, Bool.false_and]
        rw [← hn]
      · simp [hc]
  · next hc =>
      push Not at hc
      have h₂ : ¬ s.blockCount ≤ 1 := by omega
      rw [sortOuter_eq h]
      simp [h₂]

/-! ### Shifting -/

theorem shiftUp_apply {pos : Nat} :
    ∀ (n : Nat) (t : Nat → Block) (k : Nat),
      shiftUp pos n t k = if pos < k ∧ k ≤ n then t (k - 1) else t k
  | 0, t, k => by
    have : ¬ (pos < k ∧ k ≤ 0) := by omega
    rw [shiftUp, if_neg this]
  | n + 1, t, k => by
    rw [shiftUp]
    split
    · next hp =>
        rw [shiftUp_apply n]
        by_cases hk : k = n + 1
        · subst hk
          simp [hp]
        · have hk' : (pos < k ∧ k ≤ n + 1) ↔ (pos < k ∧ k ≤ n) := by omega
          have hk1 : pos < k ∧ k ≤ n → k - 1 ≠ n + 1 := by omega
          simp only [hk']
          split
          · next h => rw [Function.update_of_ne (hk1 h)]
          · rw [Function.update_of_ne hk]
    · next hp =>
        have : ¬ (pos < k ∧ k ≤ n + 1) := by omega
        rw [if_neg this]

theorem shiftDown_apply :
    ∀ (m i : Nat) (t : Nat → Block) (k : Nat),
      shiftDown m i t k = if i ≤ k ∧ k < i + m then t (k + 1) else t k
  | 0, i, t, k => by
    have : ¬ (i ≤ k ∧ k < i + 0) := by omega
    rw [shiftDown, if_neg this]
  | m + 1, i, t, k => by
    rw [shiftDown, shiftDown_apply m]
    by_cases hk : k = i
    · subst hk
      have h₁ : ¬ (k + 1 ≤ k ∧ k < k + 1 + m) := by omega
      have h₂ : k ≤ k ∧ k < k + (m + 1) := by omega
      rw [if_neg h₁, if_pos h₂, Function.update_self]
    · have hiff : (i + 1 ≤ k ∧ k < i + 1 + m) ↔ (i ≤ k ∧ k < i + (m + 1)) := by omega
      simp only [hiff]
      split
      · next h => rw [Function.update_of_ne (by omega)]
      · rw [Function.update_of_ne hk]

/-! ### Insertion -/

theorem insertPos_le (s : State) (start : Nat) : insertPos s start ≤ s.blockCount := by
  rw [insertPos]
  cases h : (List.range s.blockCount).find? fun pos => start < (s.blocks pos).start with
  | none => exact le_rfl
  | some p => exact (List.mem_range.mp (List.mem_of_find?_eq_some h)).le

/-- Every block before the insertion point starts at or below `start`. -/
theorem start_le_of_lt_insertPos (h : i < insertPos s start) : (s.blocks i).start ≤ start := by
  by_contra hlt
  have hic := h.trans_le (insertPos_le s start)
  rw [insertPos] at h
  cases hf : (List.range s.blockCount).find? fun pos => start < (s.blocks pos).start with
  | none =>
    rw [List.find?_eq_none] at hf
    exact hf i (List.mem_range.mpr hic) (by simpa using hlt)
  | some p =>
    rw [hf] at h
    rw [List.find?_range_eq_some] at hf
    exact absurd (hf.2.2 i h) (by simpa using hlt)

/-- The block at the insertion point, if there is one, starts above `start`. -/
theorem lt_start_insertPos (h : insertPos s start < s.blockCount) :
    start < (s.blocks (insertPos s start)).start := by
  rw [insertPos] at h ⊢
  cases hf : (List.range s.blockCount).find? fun pos => start < (s.blocks pos).start with
  | none => rw [hf] at h; exact absurd h (Nat.lt_irrefl _)
  | some p => simpa using List.find?_some hf

theorem start_le_of_mem_take (h : b ∈ (live s).take (insertPos s start)) : b.start ≤ start := by
  obtain ⟨i, hi, rfl⟩ := List.mem_take_iff_getElem.mp h
  rw [getElem_live]
  exact start_le_of_lt_insertPos (Nat.lt_of_lt_of_le hi (Nat.min_le_left _ _))

theorem lt_start_of_mem_drop (hs : Sorted s) (h : b ∈ (live s).drop (insertPos s start)) :
    start < b.start := by
  obtain ⟨i, hi, rfl⟩ := List.mem_drop_iff_getElem.mp h
  rw [length_live] at hi
  rw [getElem_live]
  have hlt : start < (s.blocks (insertPos s start)).start := lt_start_insertPos (by omega)
  rcases Nat.eq_zero_or_pos i with rfl | hi0
  · simpa using hlt
  · exact hlt.trans_le (hs _ _ (by omega) (by omega : insertPos s start + i < s.blockCount))

/-- On a table in address order with room, an insertion is one shift and one write. -/
theorem insertBlockSorted_eq (hs : Sorted s) (hc : s.blockCount < MAX_BLOCKS)
    (r start size actualSize : Nat) :
    insertBlockSorted s r start size actualSize =
      { s with
        blocks := Function.update (shiftUp (insertPos s start) s.blockCount s.blocks)
          (insertPos s start) ⟨start, size, actualSize, .used, r % 256⟩
        blockCount := s.blockCount + 1
        needSort := true } := by
  rw [insertBlockSorted, if_neg (Nat.not_le.mpr hc), ensureBlocksSorted_eq hs]
  rfl

/-- The front of a table after a shift up and one write. -/
theorem map_range_shiftUp (t : Nat → Block) {pos : Nat} (b : Block) (hpos : pos ≤ n) :
    (List.range (n + 1)).map (Function.update (shiftUp pos n t) pos b) =
      ((List.range n).map t).take pos ++ b :: ((List.range n).map t).drop pos := by
  refine List.ext_getElem? fun k => ?_
  rw [getElem?_map_range, List.getElem?_append, List.length_take, List.length_map,
    List.length_range, Nat.min_eq_left hpos]
  by_cases hk : k < pos
  · rw [if_pos (by omega), if_pos hk, List.getElem?_take_of_lt hk, getElem?_map_range,
      if_pos (by omega), Function.update_of_ne (by omega), shiftUp_apply, if_neg (by omega)]
  · rw [if_neg hk]
    by_cases hk' : k = pos
    · rw [if_pos (by omega), hk', Function.update_self, Nat.sub_self]
      rfl
    · obtain ⟨m, rfl⟩ : ∃ m, k = pos + m + 1 := ⟨k - pos - 1, by omega⟩
      rw [show pos + m + 1 - pos = m + 1 by omega, List.getElem?_cons_succ, List.getElem?_drop,
        getElem?_map_range, Function.update_of_ne hk', shiftUp_apply]
      by_cases hm : pos + m < n
      · rw [if_pos (by omega), if_pos (by omega), if_pos hm]
        rfl
      · rw [if_neg (by omega), if_neg hm]

/-- The live blocks after an insertion. -/
theorem live_insertBlockSorted (hs : Sorted s) (hc : s.blockCount < MAX_BLOCKS)
    (r start size actualSize : Nat) :
    live (insertBlockSorted s r start size actualSize) =
      (live s).take (insertPos s start) ++
        ⟨start, size, actualSize, .used, r % 256⟩ :: (live s).drop (insertPos s start) := by
  rw [insertBlockSorted_eq hs hc]
  exact map_range_shiftUp s.blocks _ (insertPos_le s start)

/-- An insertion leaves every entry past the new last one alone. -/
theorem insertBlockSorted_blocks (hs : Sorted s) (hc : s.blockCount < MAX_BLOCKS)
    (r start size actualSize : Nat) (hi : s.blockCount < i) :
    (insertBlockSorted s r start size actualSize).blocks i = s.blocks i := by
  have hpos := insertPos_le s start
  rw [insertBlockSorted_eq hs hc]
  simp only
  rw [Function.update_of_ne (by omega), shiftUp_apply, if_neg (by omega)]

/-! ### Release -/

/-- The front of a table after a shift down. -/
theorem map_range_shiftDown (t : Nat → Block) (b : Block) (hi : i < n) :
    (List.range (n - 1)).map (Function.update (shiftDown (n - 1 - i) i t) (n - 1) b) =
      ((List.range n).map t).eraseIdx i := by
  refine List.ext_getElem? fun k => ?_
  rw [getElem?_map_range, List.getElem?_eraseIdx, getElem?_map_range, getElem?_map_range]
  by_cases hk : k < n - 1
  · rw [if_pos hk, Function.update_of_ne (by omega), shiftDown_apply]
    by_cases hki : k < i
    · rw [if_neg (by omega), if_pos hki, if_pos (by omega)]
    · rw [if_pos (by omega), if_neg hki, if_pos (by omega)]
  · rw [if_neg hk, if_neg (by omega), if_neg (by omega)]

/-- The live blocks after entry `i` is released. -/
theorem live_removeBlock (hi : i < s.blockCount) : live (removeBlock s i) = (live s).eraseIdx i :=
  map_range_shiftDown s.blocks _ hi

theorem removeBlock_free {k : Nat} (hk : s.blockCount ≤ k) :
    (removeBlock s i).blocks k = if k = s.blockCount - 1 then .cleared else s.blocks k := by
  simp only [removeBlock]
  by_cases hk' : k = s.blockCount - 1
  · rw [if_pos hk', hk', Function.update_self]
  · rw [if_neg hk', Function.update_of_ne hk', shiftDown_apply, if_neg (by omega)]

theorem removeBlock_last : (removeBlock s i).blocks (s.blockCount - 1) = .cleared := by
  simp [removeBlock]

/-- The live blocks after the in-place path of `realloc`. -/
theorem live_setSize {newSize : Nat} (hi : i < s.blockCount) :
    live (setSize s i newSize) = (live s).set i { s.blocks i with size := newSize } := by
  refine List.ext_getElem? fun k => ?_
  rw [live, getElem?_map_range, List.getElem?_set, live, getElem?_map_range]
  change (if k < s.blockCount then some (Function.update s.blocks i _ k) else none) = _
  by_cases hk : i = k
  · subst hk
    simp [hi]
  · rw [Function.update_of_ne (Ne.symm hk), if_neg hk]

/-- What `findBlock` finds. -/
theorem findBlock_eq_some {ptr : Nat} (h : findBlock s ptr = some i) :
    i < s.blockCount ∧ (s.blocks i).start = ptr ∧ (s.blocks i).status = .used := by
  refine ⟨List.mem_range.mp (List.mem_of_find?_eq_some h), ?_⟩
  simpa using List.find?_some h

end Kinetis.Allocator
