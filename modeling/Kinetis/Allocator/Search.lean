import Kinetis.Allocator.Table

/-!
# Allocator — the gap search is first fit

The source computes gaps in `u64`.  Over a packed line of blocks that ends below `2 ^ 64`, its
search is `Lib.firstFit`, with one exception: a gap in which the first aligned address `a`
satisfies `a + size = 2 ^ 64`.  The end of the candidate block then wraps to `0`, both bound
checks pass, and the block is handed out although it runs past the end of the gap (`WrapGap`).

* `tryGap_eq_some_iff`: one round of the loop.
* `searchGaps_eq_some_iff`: the loop.  When something fits the answer is the least address that does;
  when nothing fits and a gap wraps the answer is `2 ^ 64 - size`.
-/

namespace Kinetis.Allocator
open Lib

/-! ### The macros -/

theorem isPowerOf2_iff {x : Nat} : isPowerOf2 x = true ↔ ∃ k, x = 2 ^ k := by
  rw [← Nat.isPowerOfTwo, ← Nat.ne_zero_and_sub_one_eq_zero_iff_isPowerOfTwo]
  simp [isPowerOf2]

/-- A power of two that fits in `u32`, and a block size that is a multiple of it. -/
structure Request (size alignment : Nat) : Prop where
  pow  : ∃ k, k < 32 ∧ alignment = 2 ^ k
  pos  : 0 < size
  dvd  : alignment ∣ size

variable {a lo hi : Nat}

namespace Request

variable {size alignment : Nat}

theorem align_pos (h : Request size alignment) : 0 < alignment := by
  obtain ⟨k, -, rfl⟩ := h.pow
  exact Nat.two_pow_pos k

theorem align_le (h : Request size alignment) : alignment ≤ 2 ^ 31 := by
  obtain ⟨k, hk, rfl⟩ := h.pow
  exact Nat.pow_le_pow_right Nat.two_pos (by omega)

theorem align_le_size (h : Request size alignment) : alignment ≤ size := Nat.le_of_dvd h.pos h.dvd

theorem align_dvd_top (h : Request size alignment) : alignment ∣ 2 ^ 64 := by
  obtain ⟨k, hk, rfl⟩ := h.pow
  exact pow_dvd_pow 2 (by omega)

variable {v : Nat}

/-- `ALIGN_UP` when the sum does not wrap. -/
theorem alignUp64_eq (h : Request size alignment) (hv : v + alignment - 1 < 2 ^ 64) :
    alignUp64 v alignment = alignUp v alignment := by
  obtain ⟨k, hk, rfl⟩ := h.pow
  rw [alignUp64, Nat.mod_eq_of_lt hv]
  exact add_and_high_mask (by omega) hv

/-- `ALIGN_UP` when the sum wraps: the result falls below the argument. -/
theorem alignUp64_lt (h : Request size alignment) (hlt : v < 2 ^ 64)
    (hv : 2 ^ 64 ≤ v + alignment - 1) : alignUp64 v alignment < v := by
  have hal := h.align_le
  have hle : alignUp64 v alignment ≤ (v + alignment - 1) % 2 ^ 64 := Nat.and_le_left
  omega

/-- A multiple of the alignment strictly above `2 ^ 64 - alignment` is at least `2 ^ 64`. -/
theorem top_le_of_dvd (h : Request size alignment) (hd : alignment ∣ a)
    (ha : 2 ^ 64 < a + alignment) : 2 ^ 64 ≤ a := by
  by_contra hlt
  have hd' : alignment ∣ 2 ^ 64 - a := Nat.dvd_sub h.align_dvd_top hd
  have := Nat.eq_zero_of_dvd_of_lt hd' (by omega)
  omega

/-- A multiple of the alignment less than one alignment above `2 ^ 64` is `2 ^ 64`. -/
theorem top_eq_of_dvd (h : Request size alignment) (hd : alignment ∣ a) (hge : 2 ^ 64 ≤ a)
    (hlt : a < 2 ^ 64 + alignment) : a = 2 ^ 64 := by
  have hd' : alignment ∣ a - 2 ^ 64 := Nat.dvd_sub hd h.align_dvd_top
  have := Nat.eq_zero_of_dvd_of_lt hd' (by omega)
  omega

end Request

/-! ### One gap -/

/-- The gap `[lo, hi)` is wide enough, and its first aligned block ends at `2 ^ 64`. -/
def WrapAt (size alignment lo hi : Nat) : Prop :=
  lo + size ≤ hi ∧ alignUp lo alignment + size = 2 ^ 64

instance (size alignment lo hi : Nat) : Decidable (WrapAt size alignment lo hi) :=
  inferInstanceAs (Decidable (_ ∧ _))

variable {size alignment : Nat}

/-- **One round of the gap loop.** -/
theorem tryGap_eq_some_iff (h : Request size alignment) (hle : lo ≤ hi) (hhi : hi < 2 ^ 64) :
    tryGap size alignment lo hi = some a ↔ a = alignUp lo alignment ∧
      (alignUp lo alignment + size ≤ hi ∨ WrapAt size alignment lo hi) := by
  have hpos := h.pos
  have hal := h.align_pos
  have hup : lo ≤ alignUp lo alignment := le_alignUp hal
  have hgap : (hi + 2 ^ 64 - lo) % 2 ^ 64 = hi - lo := by omega
  rw [tryGap, hgap]
  by_cases hsmall : hi - lo < size
  · rw [if_pos hsmall]
    constructor
    · intro hc; cases hc
    · rintro ⟨-, hfit | ⟨hw, -⟩⟩ <;> omega
  · simp only [if_neg hsmall, Option.ite_none_right_eq_some, Option.some.injEq]
    by_cases hv : lo + alignment - 1 < 2 ^ 64
    · rw [h.alignUp64_eq hv]
      have hlt : alignUp lo alignment < lo + alignment := alignUp_lt hal
      by_cases hend : alignUp lo alignment + size < 2 ^ 64
      · rw [Nat.mod_eq_of_lt hend]
        constructor
        · rintro ⟨⟨-, hfit⟩, rfl⟩
          exact ⟨rfl, .inl hfit⟩
        · rintro ⟨rfl, hfit | ⟨-, hw⟩⟩
          · exact ⟨⟨hup, hfit⟩, rfl⟩
          · omega
      · have htop := h.top_eq_of_dvd (Nat.dvd_add (dvd_alignUp lo alignment) h.dvd)
          (Nat.not_lt.mp hend) (by omega)
        have hmod : (alignUp lo alignment + size) % 2 ^ 64 = 0 := by rw [htop, Nat.mod_self]
        have hw : WrapAt size alignment lo hi := ⟨by omega, htop⟩
        rw [hmod]
        simp [hup, hw, eq_comm]
    · -- the rounding itself wraps, and nothing aligned is left below `2 ^ 64`
      have hbig : 2 ^ 64 ≤ lo + alignment - 1 := Nat.not_lt.mp hv
      have hdown := h.alignUp64_lt (hle.trans_lt hhi) hbig
      have hreach : 2 ^ 64 ≤ alignUp lo alignment :=
        h.top_le_of_dvd (dvd_alignUp lo alignment) (by omega)
      constructor
      · rintro ⟨⟨hc, -⟩, -⟩
        omega
      · rintro ⟨-, hfit | ⟨-, hw⟩⟩ <;> omega

/-! ### The loop -/

/-- The bytes a block occupies. -/
def Block.span (b : Block) : Span := ⟨b.start, b.actualSize⟩

@[simp] theorem Block.span_start (b : Block) : b.span.start = b.start := rfl
@[simp] theorem Block.span_stop (b : Block) : b.span.stop = b.start + b.actualSize := rfl

/-- Some gap of the line wraps. -/
def WrapGap (size alignment hi : Nat) : Nat → List Span → Prop
  | lo, [] => WrapAt size alignment lo hi
  | lo, b :: bs => WrapAt size alignment lo b.start ∨ WrapGap size alignment hi b.stop bs

/-- Nothing fits at or above a gap that wraps. -/
theorem firstFit_none_of_wrap (h : Request size alignment) {lo' : Nat} {bs : List Span}
    (hp : Packed hi lo bs) (hhi : hi < 2 ^ 64) (hle : lo' ≤ lo)
    (hw : alignUp lo' alignment + size = 2 ^ 64) : firstFit alignment size hi lo bs = none := by
  rw [firstFit_eq_none_iff h.align_pos hp]
  rintro a ⟨hd, hlo, hend, -⟩
  have := alignUp_le h.align_pos hd (hle.trans hlo)
  omega

/-- **The gap loop.** -/
theorem searchGaps_eq_some_iff (h : Request size alignment) (hhi : hi < 2 ^ 64) {bs : List Block}
    (hp : Packed hi lo (bs.map Block.span)) :
    searchGaps size alignment hi lo bs = some a ↔
      firstFit alignment size hi lo (bs.map Block.span) = some a ∨
        firstFit alignment size hi lo (bs.map Block.span) = none ∧
          WrapGap size alignment hi lo (bs.map Block.span) ∧ a + size = 2 ^ 64 := by
  induction bs generalizing lo with
  | nil =>
    have hle : lo ≤ hi := hp.le
    rw [searchGaps, tryGap_eq_some_iff h hle hhi, List.map_nil, firstFit]
    by_cases hfit : alignUp lo alignment + size ≤ hi
    · simp [hfit, eq_comm]
    · simp only [hfit, if_false, false_or, reduceCtorEq, true_and]
      constructor
      · rintro ⟨rfl, hw⟩
        exact ⟨hw, hw.2⟩
      · rintro ⟨hw, ha⟩
        have := hw.2
        exact ⟨by omega, hw⟩
  | cons b bs ih =>
    have hlo : lo ≤ b.start := hp.1
    have hb : b.start < 2 ^ 64 :=
      (Nat.le_add_right b.start b.actualSize).trans_lt (hp.2.le.trans_lt hhi)
    have hmod : (b.start + b.actualSize) % 2 ^ 64 = b.span.stop :=
      Nat.mod_eq_of_lt (hp.2.le.trans_lt hhi)
    have hgap := tryGap_eq_some_iff h (a := alignUp lo alignment) hlo hb
    rw [searchGaps, List.map_cons, firstFit, WrapGap, Block.span_start, hmod]
    by_cases hfit : alignUp lo alignment + size ≤ b.start
    · rw [hgap.mpr ⟨rfl, .inl hfit⟩, if_pos hfit]
      simp
    · rw [if_neg hfit]
      by_cases hw : WrapAt size alignment lo b.start
      · have hle : lo ≤ b.span.stop := hp.1.trans (Nat.le_add_right b.start b.actualSize)
        have hsum := hw.2
        rw [hgap.mpr ⟨rfl, .inr hw⟩, firstFit_none_of_wrap h hp.2 hhi hle hsum]
        simp only [hw, true_or, true_and, Option.some_or, Option.some.injEq, reduceCtorEq,
          false_or]
        omega
      · have hnone : tryGap size alignment lo b.start = none := by
          rw [Option.eq_none_iff_forall_ne_some]
          intro x hx
          exact ((tryGap_eq_some_iff h hlo hb).mp hx).2.elim hfit hw
        rw [hnone, Option.none_or, ih hp.2]
        simp only [hw, false_or]

end Kinetis.Allocator
