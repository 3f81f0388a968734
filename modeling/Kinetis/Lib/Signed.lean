import Mathlib.Logic.Basic
import Mathlib.Algebra.Order.Group.Int

/-!
# Lib — Signed words

Two's-complement words as C computes with them.  A comparison of words is a comparison of the
integers they stand for, and so is a sum or a difference that stays in range.  `clamp` is the
kernel's macro; what it returns lies between its bounds.  A division by zero is a fault: `div64`
returns `none`; and an operation whose result does not fit is one where that is asked for:
`checkedAdd` and the like.
-/

namespace Lib

/-! ### 32 bits -/

theorem toInt_add_of_range {a b : Int32} (hlo : -2 ^ 31 ≤ a.toInt + b.toInt)
    (hhi : a.toInt + b.toInt < 2 ^ 31) : (a + b).toInt = a.toInt + b.toInt := by
  rw [Int32.toInt_add]
  exact Int.bmod_eq_of_le hlo hhi

theorem toInt_sub_of_range {a b : Int32} (hlo : -2 ^ 31 ≤ a.toInt - b.toInt)
    (hhi : a.toInt - b.toInt < 2 ^ 31) : (a - b).toInt = a.toInt - b.toInt := by
  rw [Int32.toInt_sub]
  exact Int.bmod_eq_of_le hlo hhi

theorem toInt_mul_of_range {a b : Int32} (hlo : -2 ^ 31 ≤ a.toInt * b.toInt)
    (hhi : a.toInt * b.toInt < 2 ^ 31) : (a * b).toInt = a.toInt * b.toInt := by
  rw [Int32.toInt_mul]
  exact Int.bmod_eq_of_le hlo hhi

/-- A shift to the right is a division that rounds down. -/
theorem toInt_shiftRight {a b : Int32} {k : Nat} (hb : (b.toBitVec.smod 32).toNat = k) :
    (a >>> b).toInt = a.toInt / 2 ^ k := by
  rw [← Int32.toInt_toBitVec, Int32.toBitVec_shiftRight, BitVec.toInt_sshiftRight', hb,
    Int.shiftRight_eq_div_pow]
  rfl

/-- A value that 32 bits can hold. -/
def Fits32 (x : Int) : Prop := -2 ^ 31 ≤ x ∧ x < 2 ^ 31

instance (x : Int) : Decidable (Fits32 x) := inferInstanceAs (Decidable (_ ∧ _))

/-- The result of an operation, unless its exact value `x` does not fit. -/
def checked (x : Int) (result : Int32) : Option Int32 := if Fits32 x then some result else none

def checkedAdd (a b : Int32) : Option Int32 := checked (a.toInt + b.toInt) (a + b)
def checkedSub (a b : Int32) : Option Int32 := checked (a.toInt - b.toInt) (a - b)
def checkedMul (a b : Int32) : Option Int32 := checked (a.toInt * b.toInt) (a * b)
def checkedNeg (a : Int32) : Option Int32 := checked (-a.toInt) (-a)

theorem checked_eq_some {x : Int} {result r : Int32} :
    checked x result = some r ↔ Fits32 x ∧ result = r := by
  rw [checked]
  split
  · rename_i hfits
    rw [Option.some_inj]
    exact (and_iff_right hfits).symm
  · rename_i hfits
    exact iff_of_false (by rintro ⟨⟩) (fun h => hfits h.1)

theorem checked_of_not_fits {x : Int} (h : ¬ Fits32 x) (result : Int32) :
    checked x result = none := if_neg h

/-! A checked operation whose result fits gives the exact result. -/

section exact
variable {a b : Int32}

theorem checkedAdd_of_fits (h : Fits32 (a.toInt + b.toInt)) :
    checkedAdd a b = some (a + b) ∧ (a + b).toInt = a.toInt + b.toInt :=
  ⟨if_pos h, toInt_add_of_range h.1 h.2⟩

theorem checkedSub_of_fits (h : Fits32 (a.toInt - b.toInt)) :
    checkedSub a b = some (a - b) ∧ (a - b).toInt = a.toInt - b.toInt :=
  ⟨if_pos h, toInt_sub_of_range h.1 h.2⟩

theorem checkedMul_of_fits (h : Fits32 (a.toInt * b.toInt)) :
    checkedMul a b = some (a * b) ∧ (a * b).toInt = a.toInt * b.toInt :=
  ⟨if_pos h, toInt_mul_of_range h.1 h.2⟩

end exact

/-- `clamp(val, lo, hi)`, which is `min((typeof(val))max(val, lo), hi)`. -/
def clamp (val lo hi : Int32) : Int32 :=
  if (if val > lo then val else lo) < hi then (if val > lo then val else lo) else hi

theorem clamp_le (val lo hi : Int32) : clamp val lo hi ≤ hi := by
  rw [clamp]
  generalize (if val > lo then val else lo) = m
  split
  · rename_i hlt
    exact Int32.le_of_lt hlt
  · exact Int32.le_refl hi

theorem le_clamp {lo hi : Int32} (h : lo ≤ hi) (val : Int32) : lo ≤ clamp val lo hi := by
  have hmax : lo ≤ if val > lo then val else lo := by
    split
    · rename_i hlt
      exact Int32.le_of_lt hlt
    · exact Int32.le_refl lo
  rw [clamp]
  generalize (if val > lo then val else lo) = m at hmax
  split
  · exact hmax
  · exact h

/-! ### 64 bits -/

/-- The two tests that keep an accumulator between its limits, upper limit first. -/
def limit (x lo hi : Int64) : Int64 :=
  if (if x > hi then hi else x) < lo then lo else (if x > hi then hi else x)

theorem le_limit (x lo hi : Int64) : lo ≤ limit x lo hi := by
  rw [limit]
  generalize (if x > hi then hi else x) = m
  split
  · exact Int64.le_refl lo
  · rename_i hle
    exact Int64.not_lt.mp hle

theorem limit_le {lo hi : Int64} (h : lo ≤ hi) (x : Int64) : limit x lo hi ≤ hi := by
  have hmin : (if x > hi then hi else x) ≤ hi := by
    split
    · exact Int64.le_refl hi
    · rename_i hle
      exact Int64.not_lt.mp hle
  rw [limit]
  generalize (if x > hi then hi else x) = m at hmin
  split
  · exact h
  · exact hmin

/-- A 64-bit division; by zero it is a fault. -/
def div64 (a b : Int64) : Option Int64 := if b = 0 then none else some (a / b)

theorem div64_of_ne {a b : Int64} (h : b ≠ 0) : div64 a b = some (a / b) := if_neg h

theorem div64_eq_some {a b q : Int64} (h : div64 a b = some q) : q = a / b := by
  unfold div64 at h
  split at h
  · cases h
  · exact (Option.some.inj h).symm

/-- A 64-bit shift to the right. -/
theorem toInt_shiftRight64 {a b : Int64} {k : Nat} (hb : (b.toBitVec.smod 64).toNat = k) :
    (a >>> b).toInt = a.toInt / 2 ^ k := by
  rw [← Int64.toInt_toBitVec, Int64.toBitVec_shiftRight, BitVec.toInt_sshiftRight', hb,
    Int.shiftRight_eq_div_pow]
  rfl

theorem toInt_mul64_of_range {a b : Int64} (hlo : -2 ^ 63 ≤ a.toInt * b.toInt)
    (hhi : a.toInt * b.toInt < 2 ^ 63) : (a * b).toInt = a.toInt * b.toInt := by
  rw [Int64.toInt_mul]
  exact Int.bmod_eq_of_le hlo hhi

/-- A quotient of a number that is not negative by a positive one, narrowed to 32 bits. -/
theorem toInt_narrow_div {a b : Int64} (ha : 0 ≤ a.toInt) (hb : 0 < b.toInt)
    (hlt : a.toInt / b.toInt < 2 ^ 31) : (a / b).toInt32.toInt = a.toInt / b.toInt := by
  have hdiv : (a / b).toInt = a.toInt / b.toInt := by
    rw [Int64.toInt_div_of_ne_left, Int.tdiv_eq_ediv_of_nonneg ha]
    rintro rfl
    exact absurd ha (by decide)
  have hpos : 0 ≤ a.toInt / b.toInt := Int.ediv_nonneg ha (Int.le_of_lt hb)
  rw [Int64.toInt_toInt32, hdiv]
  exact Int.bmod_eq_of_le (by omega) (by omega)

/-- A `u32` converted to `s64`. -/
def widen (x : UInt32) : Int64 := x.toUInt64.toInt64

theorem toInt_widen (x : UInt32) : (widen x).toInt = x.toNat := by
  have hlt := x.toNat_lt
  rw [widen, Int64.toInt, BitVec.toInt_eq_toNat_of_lt]
  · simp
  · simp
    omega

theorem widen_ne_zero {x : UInt32} (h : x.toNat ≠ 0) : widen x ≠ 0 := by
  intro hz
  have hback : (widen x).toUInt64.toNat = x.toNat := by
    rw [widen]
    simp
  rw [hz] at hback
  exact h hback.symm

/-- A positive 32-bit factor and one that is no larger have a product that is not zero. -/
theorem mul_ne_zero_of_pos {k : Int64} {x : Int32} (hk : 0 < k.toInt) (hk' : k.toInt ≤ 2 ^ 31)
    (hx : 0 < x) : k * x.toInt64 ≠ 0 ∧ x.toInt64 * k ≠ 0 := by
  have hx' : 0 < x.toInt := Int32.lt_iff_toInt_lt.mp hx
  have hpos : 0 < k.toInt * x.toInt := Int.mul_pos hk hx'
  have hbound : k.toInt * x.toInt < 2 ^ 31 * 2 ^ 31 :=
    calc k.toInt * x.toInt ≤ 2 ^ 31 * x.toInt := Int.mul_le_mul_of_nonneg_right hk' (Int.le_of_lt hx')
      _ < 2 ^ 31 * 2 ^ 31 := Int.mul_lt_mul_of_pos_left x.toInt_lt (by decide)
  have hprod : (k * x.toInt64).toInt = k.toInt * x.toInt := by
    rw [Int64.toInt_mul, Int32.toInt_toInt64]
    exact Int.bmod_eq_of_le (by omega) (by omega)
  have hne : k * x.toInt64 ≠ 0 := by
    intro hz
    rw [hz] at hprod
    exact Int.ne_of_lt hpos hprod
  exact ⟨hne, fun hz => hne ((Int64.mul_comm _ _).trans hz)⟩

end Lib
