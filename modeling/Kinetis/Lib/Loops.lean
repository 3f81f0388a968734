import Mathlib.Logic.Function.Iterate
import Mathlib.Order.Basic

/-!
# Lib — Loops

A `while` loop over a state, cut off after a number of steps.  `iterWhile cond step fuel s` is the
state the loop has reached after at most `fuel` steps; the loop has ended there when its condition
fails.  A loop terminates when some number of steps is enough.
-/

namespace Lib

variable {σ : Type*} {cond : σ → Bool} {step : σ → σ} {s : σ}

def iterWhile (cond : σ → Bool) (step : σ → σ) : Nat → σ → σ
  | 0, s => s
  | fuel + 1, s => if cond s then iterWhile cond step fuel (step s) else s

/-- The loop from `s` ends. -/
def Terminates (cond : σ → Bool) (step : σ → σ) (s : σ) : Prop :=
  ∃ fuel, cond (iterWhile cond step fuel s) = false

theorem iterWhile_of_not (h : cond s = false) (fuel : Nat) : iterWhile cond step fuel s = s := by
  cases fuel with
  | zero => rfl
  | succ fuel => rw [iterWhile, h]; rfl

theorem iterWhile_succ (h : cond s = true) (fuel : Nat) :
    iterWhile cond step (fuel + 1) s = iterWhile cond step fuel (step s) := by
  rw [iterWhile, if_pos h]

/-- Steps may be taken in two lots. -/
theorem iterWhile_add (m n : Nat) :
    iterWhile cond step (m + n) s = iterWhile cond step n (iterWhile cond step m s) := by
  induction m generalizing s with
  | zero => rw [Nat.zero_add]; rfl
  | succ m ih =>
    cases hc : cond s with
    | false => rw [iterWhile_of_not hc, iterWhile_of_not hc, iterWhile_of_not hc]
    | true => rw [Nat.succ_add, iterWhile_succ hc, iterWhile_succ hc, ih]

/-- Once its condition fails, it stays where it is. -/
theorem iterWhile_eq_of_stop {k fuel : Nat} (h : ∀ j < k, cond (step^[j] s) = true)
    (hstop : cond (step^[k] s) = false) (hfuel : k ≤ fuel) :
    iterWhile cond step fuel s = step^[k] s := by
  induction k generalizing s fuel with
  | zero => exact iterWhile_of_not hstop fuel
  | succ k ih =>
    obtain ⟨fuel, rfl⟩ : ∃ m, fuel = m + 1 := ⟨fuel - 1, by omega⟩
    have hfirst : cond s = true := h 0 (Nat.zero_lt_succ k)
    rw [iterWhile_succ hfirst]
    refine ih (fun j hj => ?_) hstop (Nat.le_of_succ_le_succ hfuel)
    exact h (j + 1) (Nat.succ_lt_succ hj)

/-- What a step keeps, the loop keeps. -/
theorem iterWhile_invariant {P : σ → Prop} (hstep : ∀ s, P s → cond s = true → P (step s))
    (fuel : Nat) (hs : P s) : P (iterWhile cond step fuel s) := by
  induction fuel generalizing s with
  | zero => exact hs
  | succ fuel ih =>
    cases hc : cond s with
    | false => rwa [iterWhile_of_not hc]
    | true =>
      rw [iterWhile_succ hc]
      exact ih (hstep s hs hc)

/-- A loop whose every step lowers a measure ends, within as many steps as the measure says. -/
theorem iterWhile_ends {P : σ → Prop} (m : σ → Nat)
    (hstep : ∀ s, P s → cond s = true → P (step s) ∧ m (step s) < m s) {fuel : Nat} (hs : P s)
    (hfuel : m s ≤ fuel) : cond (iterWhile cond step fuel s) = false := by
  induction fuel generalizing s with
  | zero =>
    rw [Bool.eq_false_iff]
    intro hc
    have := (hstep s hs hc).2
    omega
  | succ fuel ih =>
    cases hc : cond s with
    | false => rwa [iterWhile_of_not hc]
    | true =>
      obtain ⟨hP, hlt⟩ := hstep s hs hc
      rw [iterWhile_succ hc]
      exact ih hP (by omega)

/-- A loop whose condition holds in every state it reaches does not end. -/
theorem not_terminates {P : σ → Prop} (hstep : ∀ s, P s → P (step s))
    (hcond : ∀ s, P s → cond s = true) (hs : P s) : ¬ Terminates cond step s := by
  rintro ⟨fuel, hend⟩
  have hP : P (iterWhile cond step fuel s) := iterWhile_invariant (fun s hP _ => hstep s hP) fuel hs
  rw [hcond _ hP] at hend
  cases hend

end Lib
