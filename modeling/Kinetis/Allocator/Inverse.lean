import Kinetis.Allocator.Coarse
import Kinetis.Allocator.Contract

/-!
# Allocator — releases undo allocations

In a table in address order an insertion and the removal of what was inserted are inverse to each
other, and removals commute.  A release is the same for every such table: it filters the block out
of the live ones and takes its size off the usage of its region, down to 0 (`Coarse.memFree_live`,
`Coarse.memFree_regions`).

The usage is a `u32`.  Blocks that run over their neighbours can add up to more than it holds, and
then a release does not give back what the allocation added (`free_undoes_alloc`,
`usage_not_restored`).
-/

namespace Kinetis.Allocator
open Lib

variable {L : Layout} {s s' : State} {r size alignment sz a p q : Nat}

/-! ### One release -/

namespace Coarse

variable {b : Block} {i : Nat}

theorem start_pos (h : Coarse L s) (hb : b ∈ live s) : 0 < b.start := by
  obtain ⟨c, hc, hlo, -⟩ := (h.entry b hb).inside
  exact (L.start_pos hc).trans_le hlo

/-- No two entries start at the same address. -/
theorem index_unique (h : Coarse L s) {j : Nat} (hi : i < s.blockCount) (hj : j < s.blockCount)
    (heq : (s.blocks i).start = (s.blocks j).start) : i = j := by
  rcases Nat.lt_trichotomy i j with hlt | rfl | hlt
  · exact absurd heq (h.start_lt hlt hj).ne
  · rfl
  · exact absurd heq (h.start_lt hlt hi).ne'

theorem findBlock_of_start (h : Coarse L s) (hi : i < s.blockCount) :
    findBlock s (s.blocks i).start = some i := by
  rw [findBlock, List.find?_range_eq_some]
  refine ⟨by simpa using h.used _ (mem_live_of_lt hi), List.mem_range.mpr hi, fun j hj => ?_⟩
  have hne := (h.start_lt hj hi).ne
  simp [hne]

theorem findBlock_eq_none_iff (h : Coarse L s) :
    findBlock s p = none ↔ ∀ b ∈ live s, b.start ≠ p := by
  constructor
  · intro hnone b hb hstart
    obtain ⟨i, hi, rfl⟩ := mem_live.mp hb
    rw [← hstart, h.findBlock_of_start hi] at hnone
    cases hnone
  · intro hall
    rw [findBlock, List.find?_eq_none]
    intro i hi
    have hne := hall _ (mem_live_of_lt (List.mem_range.mp hi))
    simp [hne]

/-- Entry `i` among the others, which start elsewhere. -/
theorem live_split (h : Coarse L s) (hi : i < s.blockCount) :
    ∃ l₁ l₂, live s = l₁ ++ s.blocks i :: l₂ ∧ (live s).eraseIdx i = l₁ ++ l₂ ∧
      (∀ b ∈ l₁, b.start ≠ (s.blocks i).start) ∧ ∀ b ∈ l₂, b.start ≠ (s.blocks i).start := by
  have hlen : i < (live s).length := by simpa using hi
  refine ⟨(live s).take i, (live s).drop (i + 1), ?_, List.eraseIdx_eq_take_drop_succ _ _,
    fun b hb => ?_, fun b hb => ?_⟩
  · conv_lhs => rw [← List.take_append_drop i (live s), List.drop_eq_getElem_cons hlen]
    rw [getElem_live]
  · obtain ⟨j, hj, rfl⟩ := List.mem_take_iff_getElem.mp hb
    rw [getElem_live]
    exact (h.start_lt (Nat.lt_of_lt_of_le hj (Nat.min_le_left _ _)) hi).ne
  · obtain ⟨j, hj, rfl⟩ := List.mem_drop_iff_getElem.mp hb
    rw [length_live] at hj
    have hlt : i < i + 1 + j := by omega
    rw [getElem_live]
    exact (h.start_lt hlt (by omega)).ne'

/-- Dropping entry `i` leaves the blocks that start elsewhere. -/
theorem eraseIdx_live (h : Coarse L s) (hi : i < s.blockCount) :
    (live s).eraseIdx i = (live s).filter fun b => b.start ≠ (s.blocks i).start := by
  obtain ⟨l₁, l₂, hlive, herase, h₁, h₂⟩ := h.live_split hi
  rw [herase, hlive, List.filter_append, List.filter_cons_of_neg (by simp),
    List.filter_eq_self.mpr (by simpa using h₁), List.filter_eq_self.mpr (by simpa using h₂)]

/-- Only entry `i` starts where it does. -/
theorem filter_start_eq (h : Coarse L s) (hi : i < s.blockCount) :
    (live s).filter (fun b => b.start = (s.blocks i).start) = [s.blocks i] := by
  obtain ⟨l₁, l₂, hlive, -, h₁, h₂⟩ := h.live_split hi
  rw [hlive, List.filter_append, List.filter_cons_of_pos (by simp),
    List.filter_eq_nil_iff.mpr (by simpa using h₁), List.filter_eq_nil_iff.mpr (by simpa using h₂)]
  rfl

/-- **The live blocks after a release**, whatever the pointer. -/
theorem memFree_live (h : Coarse L s) (p : Nat) :
    live (memFree s p) = (live s).filter fun b => b.start ≠ p := by
  by_cases hp : p = 0
  · subst hp
    rw [memFree, if_pos rfl, List.filter_eq_self.mpr]
    intro b hb
    simpa using (h.start_pos hb).ne'
  cases hf : findBlock s p with
  | none =>
    rw [memFree, if_neg hp, hf, List.filter_eq_self.mpr]
    simpa using h.findBlock_eq_none_iff.mp hf
  | some i =>
    obtain ⟨hi, rfl, -⟩ := findBlock_eq_some hf
    rw [h.memFree_eq hp hf, ← h.eraseIdx_live hi]
    exact live_removeBlock hi

/-- A pointer that starts no live block is no pointer to free. -/
theorem memFree_of_ne (h : Coarse L s) (hp : ∀ b ∈ live s, b.start ≠ p) : memFree s p = s := by
  rw [memFree]
  split
  · rfl
  · rw [h.findBlock_eq_none_iff.mpr hp]

/-- **Usage after a release**, whatever the pointer. -/
theorem memFree_regions (h : Coarse L s) (p r : Nat) :
    (memFree s p).regions r =
      { s.regions r with
        memoryUsed := (s.regions r).memoryUsed
          - usage r ((live s).filter fun b => b.start = p) } := by
  by_cases hp : ∀ b ∈ live s, b.start ≠ p
  · have hnil : (live s).filter (fun b => b.start = p) = [] :=
      List.filter_eq_nil_iff.mpr (by simpa using hp)
    rw [h.memFree_of_ne hp, hnil]
    rfl
  · push Not at hp
    obtain ⟨b, hb, rfl⟩ := hp
    have hpos := h.start_pos hb
    obtain ⟨i, hi, rfl⟩ := mem_live.mp hb
    rw [h.memFree_eq hpos.ne' (h.findBlock_of_start hi), h.filter_start_eq hi, usage_cons]
    change refund s _ _ r = _
    rw [refund]
    by_cases hr : r = (s.blocks i).regionId
    · rw [hr, Function.update_self, if_pos rfl]
      rfl
    · rw [Function.update_of_ne hr, if_neg (Ne.symm hr)]
      rfl

/-- What a release leaves alone. -/
theorem memFree_rest (h : Coarse L s) (p : Nat) :
    (memFree s p).initialized = s.initialized ∧ (memFree s p).regionCount = s.regionCount ∧
      (memFree s p).mempool = s.mempool ∧ (memFree s p).mem = s.mem ∧
      ∀ i, MAX_BLOCKS ≤ i → (memFree s p).blocks i = s.blocks i := by
  by_cases hp : ∀ b ∈ live s, b.start ≠ p
  · rw [h.memFree_of_ne hp]
    exact ⟨rfl, rfl, rfl, rfl, fun _ _ => rfl⟩
  · push Not at hp
    obtain ⟨b, hb, rfl⟩ := hp
    have hpos := h.start_pos hb
    obtain ⟨i, hi, rfl⟩ := mem_live.mp hb
    rw [h.memFree_eq hpos.ne' (h.findBlock_of_start hi)]
    refine ⟨rfl, rfl, rfl, rfl, fun k hk => ?_⟩
    have hcount := h.count
    rw [removeBlock_free (by simp only; omega)]
    exact if_neg (by simp only; omega)

/-- A release of a live block leaves the table sorted. -/
theorem memFree_needSort (h : Coarse L s) (hb : b ∈ live s) :
    (memFree s b.start).needSort = false := by
  have hpos := h.start_pos hb
  obtain ⟨i, hi, rfl⟩ := mem_live.mp hb
  rw [h.memFree_eq hpos.ne' (h.findBlock_of_start hi)]
  rfl

/-! ### Two releases -/

theorem eq_of_fields {t t' : State} (hblocks : t.blocks = t'.blocks)
    (hcount : t.blockCount = t'.blockCount) (hinit : t.initialized = t'.initialized)
    (hsort : t.needSort = t'.needSort) (hregions : t.regions = t'.regions)
    (hregs : t.regionCount = t'.regionCount) (hpool : t.mempool = t'.mempool)
    (hmem : t.mem = t'.mem) : t = t' := by
  cases t
  cases t'
  subst hblocks hcount hinit hsort hregions hregs hpool hmem
  rfl

/-- Tables with the same live blocks are the same. -/
theorem blocks_eq (h : Coarse L s) (h' : Coarse L s') (hlive : live s' = live s)
    (hrest : ∀ i, MAX_BLOCKS ≤ i → s'.blocks i = s.blocks i) :
    s'.blocks = s.blocks ∧ s'.blockCount = s.blockCount := by
  have hcount : s'.blockCount = s.blockCount := by
    rw [← length_live, hlive, length_live]
  refine ⟨funext fun i => ?_, hcount⟩
  by_cases hi : i < s.blockCount
  · have hget := congrArg (fun l : List Block => l[i]?) hlive
    simpa only [live, getElem?_map_range, hcount, if_pos hi, Option.some.injEq] using hget
  · by_cases hmax : i < MAX_BLOCKS
    · rw [h.cleared i (by omega) hmax, h'.cleared i (by omega) hmax]
    · exact hrest i (by omega)

/-- **Releases commute.** -/
theorem memFree_comm (h : Coarse L s) {c : Block} (hb : b ∈ live s) (hc : c ∈ live s)
    (hne : b.start ≠ c.start) :
    memFree (memFree s b.start) c.start = memFree (memFree s c.start) b.start := by
  have hb' := h.of_memFree b.start
  have hc' := h.of_memFree c.start
  have hcmem : c ∈ live (memFree s b.start) := by
    rw [h.memFree_live]
    exact List.mem_filter.mpr ⟨hc, by simpa using Ne.symm hne⟩
  have hbmem : b ∈ live (memFree s c.start) := by
    rw [h.memFree_live]
    exact List.mem_filter.mpr ⟨hb, by simpa using hne⟩
  have hlive : live (memFree (memFree s b.start) c.start) =
      live (memFree (memFree s c.start) b.start) := by
    rw [hb'.memFree_live, h.memFree_live, hc'.memFree_live, h.memFree_live, List.filter_comm]
  -- a block that starts at `q` survives the release of another `p`
  have hkept : ∀ {p q : Nat}, p ≠ q → ((live s).filter fun b => b.start ≠ p).filter
      (fun b => b.start = q) = (live s).filter fun b => b.start = q := by
    intro p q hpq
    rw [List.filter_filter]
    refine List.filter_congr fun x _ => ?_
    by_cases hx : x.start = q
    · simp [hx, Ne.symm hpq]
    · simp [hx]
  have hregions : (memFree (memFree s b.start) c.start).regions =
      (memFree (memFree s c.start) b.start).regions := by
    funext r
    rw [hb'.memFree_regions, h.memFree_regions, h.memFree_live, hc'.memFree_regions,
      h.memFree_regions, h.memFree_live, hkept hne, hkept (Ne.symm hne)]
    simp only [Nat.sub_right_comm]
  obtain ⟨hi₁, hr₁, hm₁, hd₁, hrest₁⟩ := hb'.memFree_rest c.start
  obtain ⟨hi₂, hr₂, hm₂, hd₂, hrest₂⟩ := h.memFree_rest b.start
  obtain ⟨hi₃, hr₃, hm₃, hd₃, hrest₃⟩ := hc'.memFree_rest b.start
  obtain ⟨hi₄, hr₄, hm₄, hd₄, hrest₄⟩ := h.memFree_rest c.start
  have hsort₁ := hb'.memFree_needSort hcmem
  have hsort₂ := hc'.memFree_needSort hbmem
  obtain ⟨hblocks, hcount⟩ := (hc'.of_memFree b.start).blocks_eq (hb'.of_memFree c.start) hlive
    fun i hi => by rw [hrest₁ i hi, hrest₂ i hi, hrest₃ i hi, hrest₄ i hi]
  exact eq_of_fields hblocks hcount (by rw [hi₁, hi₂, hi₃, hi₄]) (by rw [hsort₁, hsort₂]) hregions
    (by rw [hr₁, hr₂, hr₃, hr₄]) (by rw [hm₁, hm₂, hm₃, hm₄]) (by rw [hd₁, hd₂, hd₃, hd₄])

/-! ### An allocation and its release -/

/-- The other blocks start elsewhere. -/
theorem Slot.start_ne (hslot : Slot L s r sz a) : ∀ b ∈ live s, b.start ≠ a := by
  intro b hb
  rcases hslot.clear b hb with hbefore | hafter
  · exact hbefore.1.ne
  · exact hafter.1.ne'

theorem Slot.committed (h : Coarse L s) (hslot : Slot L s r sz a) (size : Nat) :
    Committed s (Allocator.commit s r a size sz) r a size sz := by
  obtain ⟨c, hc, -⟩ := hslot.inside
  exact h.sorted.committed hslot.room hc a size sz

/-- **The table is restored** when a block just committed is released. -/
theorem memFree_commit_blocks (h : Coarse L s) (hslot : Slot L s r sz a) (hsz : sz < 2 ^ 32)
    (hpos : 0 < sz) (size : Nat) :
    (memFree (Allocator.commit s r a size sz) a).blocks = s.blocks ∧
      (memFree (Allocator.commit s r a size sz) a).blockCount = s.blockCount := by
  have h' := h.commit hslot hsz hpos size
  have hcom := Slot.committed h hslot size
  refine h.blocks_eq (h'.of_memFree a) ?_ fun i hi => ?_
  · rw [h'.memFree_live, hcom.live, List.filter_append, List.filter_cons_of_neg (by simp),
      ← List.filter_append, List.take_append_drop]
    exact List.filter_eq_self.mpr (by simpa using hslot.start_ne)
  · rw [(h'.memFree_rest a).2.2.2.2 i hi]
    exact hcom.past i (Nat.lt_of_lt_of_le hslot.room hi)

/-- **The usage after both**: the sum may have wrapped in between. -/
theorem memFree_commit_used (h : Coarse L s) (hslot : Slot L s r sz a) (hsz : sz < 2 ^ 32)
    (hpos : 0 < sz) (size r' : Nat) :
    ((memFree (Allocator.commit s r a size sz) a).regions r').memoryUsed =
      if r' = r then ((s.regions r).memoryUsed + sz) % 2 ^ 32 - sz
      else (s.regions r').memoryUsed := by
  have h' := h.commit hslot hsz hpos size
  have hcom := Slot.committed h hslot size
  have hnone : ∀ l, l ⊆ live s → l.filter (fun b => b.start = a) = [] := by
    intro l hl
    refine List.filter_eq_nil_iff.mpr fun b hb => ?_
    simpa using hslot.start_ne b (hl hb)
  have hself : (live (Allocator.commit s r a size sz)).filter (fun b => b.start = a) =
      [⟨a, size, sz, .used, r⟩] := by
    rw [hcom.live, List.filter_append, List.filter_cons_of_pos (by simp),
      hnone _ (List.take_subset _ _), hnone _ (List.drop_subset _ _)]
    rfl
  rw [h'.memFree_regions, hself, usage_cons, hcom.regions]
  by_cases hr : r' = r
  · rw [hr, Function.update_self, if_pos rfl, if_pos rfl]
    rfl
  · rw [Function.update_of_ne hr, if_neg (Ne.symm hr), if_neg hr]
    rfl

end Coarse

/-- The block table, `block_count` and every region's `memory_used` are as before. -/
def Restored (s s' : State) : Prop :=
  s'.blocks = s.blocks ∧ s'.blockCount = s.blockCount ∧
    ∀ r, (s'.regions r).memoryUsed = (s.regions r).memoryUsed

/-- **Restored, unless the usage wrapped.** -/
theorem Coarse.restored_iff (h : Coarse L s) (hslot : Coarse.Slot L s r sz a) (hsz : sz < 2 ^ 32)
    (hpos : 0 < sz) (size : Nat) :
    Restored s (memFree (Allocator.commit s r a size sz) a) ↔ (s.regions r).memoryUsed + sz < 2 ^ 32 := by
  obtain ⟨hblocks, hcount⟩ := h.memFree_commit_blocks hslot hsz hpos size
  constructor
  · rintro ⟨-, -, hused⟩
    have hr := hused r
    rw [h.memFree_commit_used hslot hsz hpos size, if_pos rfl] at hr
    omega
  · intro hsum
    refine ⟨hblocks, hcount, fun r' => ?_⟩
    rw [h.memFree_commit_used hslot hsz hpos size]
    split
    · rename_i hr
      rw [hr]
      omega
    · rfl

theorem Restored.resort {s₀ s₁ : State} (hs : Resort s s₀) : Restored s₀ s₁ ↔ Restored s s₁ := by
  obtain ⟨_, rfl⟩ := hs
  exact Iff.rfl

/-- **Releases undo allocations**, in every state that any calls reach.  A successful allocation and
the release of its result restore the table and the usage exactly when the usage of the serving
region and the rounded size add up to less than `2 ^ 32`; a release of anything but the start of a
live block, and a second release, change nothing; and two releases commute. -/
theorem free_undoes_alloc (L : Layout) (s₀ : State) {s : State}
    (h : Run (fun _ _ => True) step (memInitWithConfig s₀ L.configs) s) :
    (∀ size alignment : UInt32, (memAllocAligned s size.toNat alignment.toNat).2 ≠ 0 →
      (Restored s (memFree (memAllocAligned s size.toNat alignment.toNat).1
          (memAllocAligned s size.toNat alignment.toNat).2) ↔
        ∀ r, Coarse.Serving s size.toNat alignment.toNat r →
          (s.regions r).memoryUsed + searchSize size.toNat alignment.toNat < 2 ^ 32)) ∧
    (∀ (r : Int) (size alignment : UInt32),
      (memAllocAlignedFromRegion s r size.toNat alignment.toNat).2 ≠ 0 →
      (Restored s (memFree (memAllocAlignedFromRegion s r size.toNat alignment.toNat).1
          (memAllocAlignedFromRegion s r size.toNat alignment.toNat).2) ↔
        (s.regions r.toNat).memoryUsed + searchSize size.toNat alignment.toNat < 2 ^ 32)) ∧
    memFree s 0 = s ∧
    (∀ p, (∀ i < s.blockCount, (s.blocks i).start ≠ p) → memFree s p = s) ∧
    (∀ p, memFree (memFree s p) p = memFree s p) ∧
    ∀ i j, i < s.blockCount → j < s.blockCount → i ≠ j →
      memFree (memFree s (s.blocks i).start) (s.blocks j).start =
        memFree (memFree s (s.blocks j).start) (s.blocks i).start := by
  have hs := coarse_of_run h
  refine ⟨fun size alignment hne => ?_, fun r size alignment hne => ?_, if_pos rfl,
    fun p hp => ?_, fun p => ?_, fun i j hi hj hij => ?_⟩
  · obtain ⟨s₁, hs₁, ⟨r, a, hserving, hpos, hslot, heq⟩ | heq⟩ :=
      hs.memAllocAligned_cases size.toNat_lt alignment.toNat_lt
    · have hiff := (hs.resort hs₁).restored_iff (Coarse.slot_resort hs₁ hslot)
        (Coarse.searchSize_lt _ _) hpos size.toNat
      rw [heq, ← Restored.resort hs₁, hiff]
      have hsame : s₁.regions = s.regions := by obtain ⟨_, rfl⟩ := hs₁; rfl
      rw [hsame]
      exact ⟨fun hlt r' hr' => hserving.unique hr' ▸ hlt, fun hall => hall r hserving⟩
    · rw [heq] at hne
      exact absurd rfl hne
  · obtain ⟨s₁, hs₁, ⟨a, hpos, hslot, heq⟩ | heq⟩ :=
      hs.memAllocAlignedFromRegion_cases size.toNat_lt alignment.toNat_lt r
    · have hiff := (hs.resort hs₁).restored_iff (Coarse.slot_resort hs₁ hslot)
        (Coarse.searchSize_lt _ _) hpos size.toNat
      have hsame : s₁.regions = s.regions := by obtain ⟨_, rfl⟩ := hs₁; rfl
      rw [heq, ← Restored.resort hs₁, hiff, hsame]
    · rw [heq] at hne
      exact absurd rfl hne
  · refine hs.memFree_of_ne fun b hb => ?_
    obtain ⟨i, hi, rfl⟩ := mem_live.mp hb
    exact hp i hi
  · refine (hs.of_memFree p).memFree_of_ne fun b hb => ?_
    rw [hs.memFree_live] at hb
    simpa using (List.mem_filter.mp hb).2
  · exact hs.memFree_comm (mem_live_of_lt hi) (mem_live_of_lt hj)
      fun heq => hij (hs.index_unique hi hj heq)

theorem free_undoes_alloc_sram :
    Restored (memInitWithConfig .boot sramLayout.configs)
      (memFree (memAllocAlignedFromRegion (memInitWithConfig .boot sramLayout.configs) 0 16 8).1
        (memAllocAlignedFromRegion (memInitWithConfig .boot sramLayout.configs) 0 16 8).2) :=
  ((free_undoes_alloc sramLayout .boot (.refl _)).2.1 0 16 8 (by decide +kernel)).mpr
    (by decide +kernel)

/-! ### Releasing everything -/

/-- **Any releases in a row** leave the live blocks that none of them names. -/
theorem frees_live (h : Inv L s) (h' : Coarse L s) (ps : List Nat) :
    Inv L (ps.foldl memFree s) ∧ Coarse L (ps.foldl memFree s) ∧
      live (ps.foldl memFree s) = (live s).filter fun b => b.start ∉ ps := by
  induction ps generalizing s with
  | nil => exact ⟨h, h', by simp⟩
  | cons p ps ih =>
    obtain ⟨hinv, hcoarse, hlive⟩ := ih (h.of_memFree p) (h'.of_memFree p)
    refine ⟨hinv, hcoarse, ?_⟩
    rw [List.foldl_cons, hlive, h'.memFree_live, List.filter_filter]
    simp only [List.mem_cons, not_or, Bool.decide_and, Bool.and_comm]

/-- **Nothing leaks.**  After any calls that never allocate from a gap that wraps, releases of
every live block, in any order and among any others, leave the table and the usage as
`mem_init_with_config` left them. -/
theorem free_all_empties {s₀ : State} (ps : List Nat)
    (h : Run (fun s k => ¬ Wrapping s k) step (memInitWithConfig s₀ L.configs) s)
    (hall : ∀ b ∈ live s, b.start ∈ ps) :
    (ps.foldl memFree s).blockCount = 0 ∧
    (∀ i < MAX_BLOCKS, (ps.foldl memFree s).blocks i = .cleared) ∧
    ∀ r c, L.configs[r]? = some c →
      (ps.foldl memFree s).regions r = (memInitWithConfig s₀ L.configs).regions r := by
  have hany : Run (fun _ _ => True) step (memInitWithConfig s₀ L.configs) s :=
    h.mono (P := fun _ => True) (fun _ _ _ _ => trivial) (fun _ _ _ _ => trivial) trivial
  obtain ⟨hinv, hcoarse, hlive⟩ := frees_live (inv_of_run h) (coarse_of_run hany) ps
  have hnil : live (ps.foldl memFree s) = [] := by
    rw [hlive, List.filter_eq_nil_iff]
    exact fun b hb => by simpa using hall b hb
  have hcount : (ps.foldl memFree s).blockCount = 0 := by rw [← length_live, hnil]; rfl
  refine ⟨hcount, fun i hi => hcoarse.cleared i (hcount ▸ Nat.zero_le i) hi, fun r c hc => ?_⟩
  rw [hinv.regions r c hc, hnil, (inv_memInitWithConfig L s₀).regions r c hc]
  rfl

theorem free_all_empties_sram :
    let s := step (memInitWithConfig .boot sramLayout.configs) (.allocAligned 16 8)
    (((live s).map Block.start).foldl memFree s).blockCount = 0 :=
  (free_all_empties _
    (.more ((inv_memInitWithConfig sramLayout .boot).not_wrapping_of_low sramLayout_low _) (.refl _))
    fun _ hb => List.mem_map_of_mem hb).1

/-! ### Blocks that run over their neighbours -/

/-- One pool of all but the last of the top `2 ^ 32` bytes. -/
def highLayout : Layout where
  configs := [⟨0xFFFFFFFF00000000, 0xFFFFFFFF⟩]
  nonempty := by decide
  length := by decide
  start := by decide
  noWrap := by decide
  disjoint := by decide

/-- A block of one byte, then two that run to the top: one behind a block that is released again, and
one in the gap that leaves. -/
def crowded : State :=
  [.allocAligned 1 1, .allocAligned 0x80000000 1, .allocAligned 0x40000000 0x40000000,
    .free 0xFFFFFFFF00000001, .allocAligned 0x80000000 0x80000000].foldl step
    (memInitWithConfig .boot highLayout.configs)

/-- **The usage is not restored**: with the gap filled the sizes add up to more than `2 ^ 32`, and
the release clears `memory_used`. -/
theorem usage_not_restored :
    Run (fun _ _ => True) step (memInitWithConfig .boot highLayout.configs) crowded ∧
      (memAllocAligned crowded 0x7FFFFFFF 1).2 ≠ 0 ∧
      ¬ Restored crowded (memFree (memAllocAligned crowded 0x7FFFFFFF 1).1
        (memAllocAligned crowded 0x7FFFFFFF 1).2) := by
  refine ⟨.foldl (fun _ _ => trivial) _ _, by decide +kernel, fun h => ?_⟩
  have hbefore : (crowded.regions 0).memoryUsed = 0xC0000001 := by decide +kernel
  have hafter : ((memFree (memAllocAligned crowded 0x7FFFFFFF 1).1
      (memAllocAligned crowded 0x7FFFFFFF 1).2).regions 0).memoryUsed = 0 := by decide +kernel
  have hsame := h.2.2 0
  rw [hbefore, hafter] at hsame
  cases hsame

end Kinetis.Allocator
