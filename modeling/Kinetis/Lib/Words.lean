import Kinetis.Lib.FirstFit

/-!
# Lib — Words

Masks of fixed-width words, over `Nat`.  `2 ^ w - 2 ^ k` is the `w`-bit word with its low `k`
bits clear; masking with it rounds down to a multiple of `2 ^ k`.  `leNat` is the value of a
byte string, low byte first.
-/

namespace Lib

/-- Masking off the low `k` bits of a `w`-bit word rounds it down to a multiple of `2 ^ k`. -/
theorem and_high_mask {w k x : Nat} (hk : k ≤ w) (hx : x < 2 ^ w) :
    x &&& (2 ^ w - 2 ^ k) = x / 2 ^ k * 2 ^ k := by
  have hpos : 0 < 2 ^ k := Nat.two_pow_pos k
  have hlt : 2 ^ k - 1 < 2 ^ w :=
    (Nat.sub_lt hpos Nat.one_pos).trans_le (Nat.pow_le_pow_right Nat.two_pos hk)
  have hmask : 2 ^ w - 2 ^ k = 2 ^ w - ((2 ^ k - 1) + 1) := by omega
  rw [← Nat.shiftRight_eq_div_pow, ← Nat.shiftLeft_eq, hmask]
  refine Nat.eq_of_testBit_eq fun i => ?_
  rw [Nat.testBit_and, Nat.testBit_two_pow_sub_succ hlt]
  by_cases hi : k ≤ i
  · have hadd : k + (i - k) = i := by omega
    by_cases hw : i < w
    · simp [hi, hw, hadd]
    · have hbit : x.testBit i = false :=
        Nat.testBit_lt_two_pow (hx.trans_le (Nat.pow_le_pow_right Nat.two_pos (by omega)))
      simp [hw, hadd, hbit]
  · have : i < k := by omega
    simp [hi, this]

/-- The C idiom for rounding up to a power of two, when the sum does not overflow. -/
theorem add_and_high_mask {w k x : Nat} (hk : k ≤ w) (hx : x + 2 ^ k - 1 < 2 ^ w) :
    (x + 2 ^ k - 1) &&& (2 ^ w - 2 ^ k) = alignUp x (2 ^ k) :=
  and_high_mask hk hx

/-- The value of a byte string, low byte first. -/
def leNat (bytes : List UInt8) : Nat := bytes.foldr (fun b acc => b.toNat + 256 * acc) 0

/-- The `n` low bytes of `x`, lowest first. -/
def leBytes : Nat → Nat → List UInt8
  | 0, _ => []
  | n + 1, x => UInt8.ofNat x :: leBytes n (x / 256)

@[simp] theorem length_leBytes (n x : Nat) : (leBytes n x).length = n := by
  induction n generalizing x with
  | zero => rfl
  | succ n ih => rw [leBytes, List.length_cons, ih]

theorem leNat_cons (b : UInt8) (bytes : List UInt8) :
    leNat (b :: bytes) = b.toNat + 256 * leNat bytes := rfl

theorem leNat_lt (bytes : List UInt8) : leNat bytes < 256 ^ bytes.length := by
  induction bytes with
  | nil => exact Nat.one_pos
  | cons b bytes ih =>
    have hb := b.toNat_lt
    rw [leNat_cons, List.length_cons]
    omega

theorem leNat_leBytes (n x : Nat) : leNat (leBytes n x) = x % 256 ^ n := by
  induction n generalizing x with
  | zero => rw [Nat.pow_zero, Nat.mod_one]; rfl
  | succ n ih =>
    have hlow : (UInt8.ofNat x).toNat = x % 256 := UInt8.toNat_ofNat'
    rw [leBytes, leNat_cons, ih, hlow, Nat.pow_succ, Nat.mul_comm (256 ^ n), Nat.mod_mul]

/-- Strings of one length have their bytes in common with their values. -/
theorem leNat_inj {bytes bytes' : List UInt8} (hlen : bytes.length = bytes'.length)
    (h : leNat bytes = leNat bytes') : bytes = bytes' := by
  induction bytes generalizing bytes' with
  | nil => exact (List.length_eq_zero_iff.mp hlen.symm).symm
  | cons b bytes ih =>
    cases bytes' with
    | nil => cases hlen
    | cons b' bytes' =>
      have hb := b.toNat_lt
      have hb' := b'.toNat_lt
      rw [leNat_cons, leNat_cons] at h
      have hfirst : b = b' := UInt8.toNat_inj.mp (by omega)
      rw [hfirst, ih (Nat.succ.inj hlen) (by omega)]

end Lib
