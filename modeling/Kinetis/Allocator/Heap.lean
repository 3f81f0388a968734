import Kinetis.Allocator.Search
import Mathlib.Algebra.BigOperators.Group.List.Basic
import Mathlib.Data.List.Perm.Basic

/-!
# Allocator — heaps

The abstract state of the allocator: a list of blocks in address order, each inside the region
it is tagged with, no two overlapping (`Heap`).  Nothing here mentions the descriptor table.

* Taking blocks away keeps a heap (`Heap.sublist`), and so does adding a block that is clear of
  every other at its place in the order (`Heap.insert`).
* A block that fits in the gaps of its own region is clear of every other region as well, since
  regions are disjoint (`Heap.clear_of_fits`).
* The blocks of one region are packed in it, so they never add up to more than its size
  (`Heap.packed`, `Heap.usage_le`).
-/

namespace Kinetis.Allocator
open Lib

def RegionConfig.stop (c : RegionConfig) : Nat := c.start.toNat + c.size.toNat

/-- Two different regions of a layout do not meet. -/
theorem Layout.apart (L : Layout) {r r' : Nat} {c d : RegionConfig} (hc : L.configs[r]? = some c)
    (hd : L.configs[r']? = some d) (hne : r ≠ r') :
    c.stop ≤ d.start.toNat ∨ d.stop ≤ c.start.toNat := by
  obtain ⟨hr, rfl⟩ := List.getElem?_eq_some_iff.mp hc
  obtain ⟨hr', rfl⟩ := List.getElem?_eq_some_iff.mp hd
  have hall := List.pairwise_iff_getElem.mp L.disjoint
  rcases Nat.lt_or_gt_of_ne hne with hlt | hlt
  · exact hall r r' hr hr' hlt
  · exact (hall r' r hr' hr hlt).symm

theorem Layout.stop_lt (L : Layout) {r : Nat} {c : RegionConfig} (hc : L.configs[r]? = some c) :
    c.stop < 2 ^ 64 :=
  L.noWrap c (List.mem_of_getElem? hc)

theorem Layout.start_pos (L : Layout) {r : Nat} {c : RegionConfig}
    (hc : L.configs[r]? = some c) : 0 < c.start.toNat := by
  have hne := L.start c (List.mem_of_getElem? hc)
  rw [Nat.pos_iff_ne_zero]
  exact fun h0 => hne (UInt64.toNat_inj.mp h0)

/-- The blocks of region `r`. -/
def inRegion (r : Nat) (bs : List Block) : List Block := bs.filter fun b => b.regionId = r

/-- The bytes the blocks of region `r` occupy. -/
def usage (r : Nat) (bs : List Block) : Nat := ((inRegion r bs).map Block.actualSize).sum

/-- A live block: not empty, large enough for its request, and inside the region it names. -/
structure BlockOk (L : Layout) (b : Block) : Prop where
  used    : b.status = .used
  pos     : 0 < b.actualSize
  size_le : b.size ≤ b.actualSize
  inside  : ∃ c, L.configs[b.regionId]? = some c ∧ c.start.toNat ≤ b.start ∧ b.span.stop ≤ c.stop

/-- Blocks in address order, disjoint, each inside the region it names. -/
structure Heap (L : Layout) (bs : List Block) : Prop where
  order : bs.Pairwise fun a b => a.span.stop ≤ b.start
  ok    : ∀ b ∈ bs, BlockOk L b

/-- `b` does not meet `b'`. -/
def Clear (b b' : Block) : Prop := b.span.stop ≤ b'.start ∨ b'.span.stop ≤ b.start

namespace Heap

variable {L : Layout} {bs : List Block} {b : Block} {r : Nat} {c : RegionConfig}

theorem nil (L : Layout) : Heap L [] := ⟨.nil, by simp⟩

theorem sublist (h : Heap L bs) {bs' : List Block} (hs : bs'.Sublist bs) : Heap L bs' :=
  ⟨h.order.sublist hs, fun b hb => h.ok b (hs.subset hb)⟩

/-- The blocks of one region are packed in it. -/
theorem packed (h : Heap L bs) (hc : L.configs[r]? = some c) :
    Packed c.stop c.start.toNat ((inRegion r bs).map Block.span) := by
  refine packed_of_pairwise ?_ (Nat.le_add_right _ _) ?_
  · exact List.pairwise_map.mpr (h.order.sublist List.filter_sublist)
  · rw [List.forall_mem_map]
    intro b hb
    obtain ⟨hmem, hr⟩ := List.mem_filter.mp hb
    obtain ⟨d, hd, hlo, hhi⟩ := (h.ok b hmem).inside
    rw [of_decide_eq_true hr, hc] at hd
    obtain rfl := Option.some.inj hd
    exact ⟨hlo, hhi⟩

/-- The blocks of one region add up to no more than its size. -/
theorem usage_le (h : Heap L bs) (hc : L.configs[r]? = some c) : usage r bs ≤ c.size.toNat := by
  have hsum := (h.packed hc).sum_len_le
  rw [List.map_map] at hsum
  exact Nat.le_of_add_le_add_left hsum

/-- A block in the gaps of its own region is clear of every block. -/
theorem clear_of_fits (h : Heap L bs) {alignment : Nat}
    (hc : L.configs[r]? = some c)
    (hfit : Fits alignment b.actualSize c.start.toNat c.stop ((inRegion r bs).map Block.span)
      b.start) : ∀ b' ∈ bs, Clear b b' := by
  obtain ⟨-, hlo, hhi, hall⟩ := hfit
  intro b' hb'
  by_cases hr : b'.regionId = r
  · exact hall b'.span (List.mem_map_of_mem (List.mem_filter.mpr ⟨hb', by simpa using hr⟩))
  · obtain ⟨d, hd, hdlo, hdhi⟩ := (h.ok b' hb').inside
    rcases L.apart hc hd (Ne.symm hr) with hcd | hdc
    · exact .inl (hhi.trans (hcd.trans hdlo))
    · exact .inr (hdhi.trans (hdc.trans hlo))

/-- A block clear of every other can be added at its place in the order. -/
theorem insert (h : Heap L bs) (hb : BlockOk L b) (hclear : ∀ b' ∈ bs, Clear b b') {pos : Nat}
    (hbefore : ∀ b' ∈ bs.take pos, b'.start ≤ b.start)
    (hafter : ∀ b' ∈ bs.drop pos, b.start < b'.start) :
    Heap L (bs.take pos ++ b :: bs.drop pos) := by
  have hpos := hb.pos
  have hleft : ∀ b' ∈ bs.take pos, b'.span.stop ≤ b.start := by
    intro b' hb'
    rcases hclear b' (List.mem_of_mem_take hb') with hc | hc
    · have := hbefore b' hb'
      rw [Block.span_stop] at hc
      omega
    · exact hc
  have hright : ∀ b' ∈ bs.drop pos, b.span.stop ≤ b'.start := by
    intro b' hb'
    rcases hclear b' (List.mem_of_mem_drop hb') with hc | hc
    · exact hc
    · have := hafter b' hb'
      rw [Block.span_stop] at hc
      omega
  have horder := h.order
  rw [← List.take_append_drop pos bs, List.pairwise_append] at horder
  obtain ⟨htake, hdrop, hcross⟩ := horder
  refine ⟨List.pairwise_append.mpr ⟨htake, List.pairwise_cons.mpr ⟨hright, hdrop⟩, ?_⟩, ?_⟩
  · intro a ha b' hb'
    rcases List.mem_cons.mp hb' with rfl | hb'
    · exact hleft a ha
    · exact hcross a ha b' hb'
  · intro b' hb'
    rcases List.mem_append.mp hb' with hb' | hb'
    · exact h.ok b' (List.mem_of_mem_take hb')
    · rcases List.mem_cons.mp hb' with rfl | hb'
      · exact hb
      · exact h.ok b' (List.mem_of_mem_drop hb')

/-- A block can be replaced by one over the same bytes of the same region. -/
theorem set (h : Heap L bs) {i : Nat} (hi : i < bs.length) (hb : BlockOk L b)
    (hspan : b.span = bs[i].span) : Heap L (bs.set i b) := by
  have hmap : (bs.set i b).map Block.span = bs.map Block.span := by
    rw [List.map_set, hspan, ← List.getElem_map Block.span (h := by simpa using hi),
      List.set_getElem_self]
  refine ⟨?_, fun b' hb' => ?_⟩
  · have horder : (bs.map Block.span).Pairwise fun a b => a.stop ≤ b.start :=
      List.pairwise_map.mpr h.order
    rw [← hmap] at horder
    exact List.pairwise_map.mp horder
  · rcases List.mem_or_eq_of_mem_set hb' with hb' | rfl
    · exact h.ok b' hb'
    · exact hb

/-- No two blocks of a heap start at the same address. -/
theorem start_lt (h : Heap L bs) : bs.Pairwise fun a b => a.start < b.start := by
  refine h.order.imp_of_mem fun {a b} ha _ hab => ?_
  have := (h.ok a ha).pos
  rw [Block.span_stop] at hab
  omega

end Heap

/-! ### Usage -/

theorem usage_perm {bs bs' : List Block} (h : bs.Perm bs') (r : Nat) : usage r bs = usage r bs' :=
  ((h.filter _).map _).sum_eq

theorem usage_cons (r : Nat) (b : Block) (bs : List Block) :
    usage r (b :: bs) = (if b.regionId = r then b.actualSize else 0) + usage r bs := by
  by_cases h : b.regionId = r <;> simp [usage, inRegion, h]

theorem usage_insert (r pos : Nat) (b : Block) (bs : List Block) :
    usage r (bs.take pos ++ b :: bs.drop pos) =
      (if b.regionId = r then b.actualSize else 0) + usage r bs := by
  have hperm : (bs.take pos ++ b :: bs.drop pos).Perm (b :: bs) := by
    refine List.perm_middle.trans ?_
    rw [List.take_append_drop]
  rw [usage_perm hperm, usage_cons]

theorem usage_eraseIdx (r : Nat) {bs : List Block} {i : Nat} (h : i < bs.length) :
    (if bs[i].regionId = r then bs[i].actualSize else 0) + usage r (bs.eraseIdx i) =
      usage r bs := by
  rw [← usage_cons]
  exact usage_perm (List.getElem_cons_eraseIdx_perm h) r

theorem usage_set (r : Nat) {bs : List Block} {i : Nat} (h : i < bs.length) {b : Block}
    (hr : b.regionId = bs[i].regionId) (hsz : b.actualSize = bs[i].actualSize) :
    usage r (bs.set i b) = usage r bs := by
  have hset : i < (bs.set i b).length := by simpa using h
  have hnew := usage_eraseIdx r hset
  have hold := usage_eraseIdx r h
  simp only [List.getElem_set_self, List.eraseIdx_set_eq, hr, hsz] at hnew
  omega

end Kinetis.Allocator
