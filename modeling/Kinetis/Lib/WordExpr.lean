import Mathlib.Algebra.Order.Group.Nat
import Mathlib.Algebra.Order.Ring.Nat

/-!
# Lib — expressions over 16-bit words

A formula of machine code as a term, so that one can speak of all its intermediate values: `eval` is
its value in 16-bit arithmetic, `exact` its value over the numbers, and `Fits` says that no operation
in it leaves the range of a word.

* `WordExpr.toNat_eval`: the two values are the same for a formula that fits.
-/

namespace Lib

/-- Formulas over the variables `V`. -/
inductive WordExpr (V : Type*) where
  | var (v : V)
  | lit (n : Nat)
  | add (a b : WordExpr V)
  | sub (a b : WordExpr V)
  | mul (a b : WordExpr V)
  | shr (a : WordExpr V) (k : Nat)

namespace WordExpr

variable {V : Type*} (ρ : V → UInt16)

/-- The value in 16-bit arithmetic. -/
def eval : WordExpr V → UInt16
  | .var v => ρ v
  | .lit n => .ofNat n
  | .add a b => a.eval + b.eval
  | .sub a b => a.eval - b.eval
  | .mul a b => a.eval * b.eval
  | .shr a k => a.eval >>> .ofNat k

/-- The value over the numbers. -/
def exact : WordExpr V → Nat
  | .var v => (ρ v).toNat
  | .lit n => n
  | .add a b => a.exact + b.exact
  | .sub a b => a.exact - b.exact
  | .mul a b => a.exact * b.exact
  | .shr a k => a.exact / 2 ^ k

/-- No operation wraps around, and no difference is negative. -/
def Fits : WordExpr V → Prop
  | .var _ => True
  | .lit n => n < 2 ^ 16
  | .add a b => a.Fits ∧ b.Fits ∧ a.exact ρ + b.exact ρ < 2 ^ 16
  | .sub a b => a.Fits ∧ b.Fits ∧ b.exact ρ ≤ a.exact ρ
  | .mul a b => a.Fits ∧ b.Fits ∧ a.exact ρ * b.exact ρ < 2 ^ 16
  | .shr a k => a.Fits ∧ k < 16

variable {ρ}

/-- **A formula that fits is computed exactly.** -/
theorem toNat_eval {e : WordExpr V} (h : e.Fits ρ) : (e.eval ρ).toNat = e.exact ρ := by
  induction e with
  | var v => rfl
  | lit n => exact UInt16.toNat_ofNat_of_lt h
  | add a b iha ihb =>
    obtain ⟨ha, hb, hlt⟩ := h
    rw [eval, UInt16.toNat_add, iha ha, ihb hb, Nat.mod_eq_of_lt hlt, exact]
  | sub a b iha ihb =>
    obtain ⟨ha, hb, hle⟩ := h
    rw [eval, UInt16.toNat_sub_of_le, iha ha, ihb hb, exact]
    rw [UInt16.le_iff_toNat_le, iha ha, ihb hb]
    exact hle
  | mul a b iha ihb =>
    obtain ⟨ha, hb, hlt⟩ := h
    rw [eval, UInt16.toNat_mul, iha ha, ihb hb, Nat.mod_eq_of_lt hlt, exact]
  | shr a k iha =>
    obtain ⟨ha, hk⟩ := h
    have hk' : (UInt16.ofNat k).toNat = k := UInt16.toNat_ofNat_of_lt (Nat.lt_trans hk (by decide))
    rw [eval, UInt16.toNat_shiftRight, iha ha, hk', Nat.mod_eq_of_lt hk,
      Nat.shiftRight_eq_div_pow, exact]

end WordExpr

end Lib
