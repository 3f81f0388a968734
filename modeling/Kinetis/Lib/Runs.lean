import Mathlib.Logic.Basic

/-!
# Lib — Runs

The reflexive-transitive closure of a step function whose steps are guarded, and the one
induction every invariant over it uses.  `ok s i` says that input `i` is admitted in state `s`;
a run is a sequence of admitted steps.
-/

namespace Lib

variable {σ ι : Type*}

/-- `s'` is reached from `s` by admitted steps. -/
inductive Run (ok : σ → ι → Prop) (step : σ → ι → σ) : σ → σ → Prop where
  | refl (s : σ) : Run ok step s s
  | more {s s' : σ} {i : ι} (h : ok s i) (t : Run ok step (step s i) s') : Run ok step s s'

namespace Run

variable {ok ok' : σ → ι → Prop} {step : σ → ι → σ} {s s₁ s' : σ}

variable {P : σ → Prop}

/-- **The invariant rule.**  What every admitted step preserves, every run preserves. -/
theorem invariant (hstep : ∀ s i, P s → ok s i → P (step s i)) (h : Run ok step s s') (hs : P s) :
    P s' := by
  induction h with
  | refl => exact hs
  | more hi _ ih => exact ih (hstep _ _ hs hi)

theorem trans (h₁ : Run ok step s s₁) (h₂ : Run ok step s₁ s') : Run ok step s s' := by
  induction h₁ with
  | refl => exact h₂
  | more hi _ ih => exact .more hi (ih h₂)

theorem snoc (h : Run ok step s s₁) {i : ι} (hi : ok s₁ i) : Run ok step s (step s₁ i) :=
  h.trans (.more hi (.refl _))

/-- Inputs taken one after the other, when every step is admitted. -/
theorem foldl (hok : ∀ s i, ok s i) (s : σ) (is : List ι) : Run ok step s (is.foldl step s) := by
  induction is generalizing s with
  | nil => exact .refl s
  | cons i is ih => exact .more (hok s i) (ih (step s i))

/-- What every step preserves, inputs taken one after the other preserve. -/
theorem foldl_invariant (hstep : ∀ s i, P s → P (step s i)) (is : List ι) (hs : P s) :
    P (is.foldl step s) := by
  have hrun : Run (fun _ _ => True) step s (is.foldl step s) := foldl (fun _ _ => trivial) s is
  exact hrun.invariant (fun s i h _ => hstep s i h) hs

/-- Inputs taken one after the other, when those at hand are always admitted. -/
theorem foldl_of_mem {is : List ι} (hok : ∀ s, ∀ i ∈ is, ok s i) (s : σ) :
    Run ok step s (is.foldl step s) := by
  induction is generalizing s with
  | nil => exact .refl s
  | cons i is ih =>
    exact .more (hok s i List.mem_cons_self)
      (ih (fun s j hj => hok s j (List.mem_cons_of_mem _ hj)) (step s i))

/-- A guard that follows from another along an invariant can replace it. -/
theorem mono (hstep : ∀ s i, P s → ok s i → P (step s i)) (hok : ∀ s i, P s → ok s i → ok' s i)
    (h : Run ok step s s') (hs : P s) : Run ok' step s s' := by
  induction h with
  | refl => exact .refl _
  | more hi _ ih => exact .more (hok _ _ hs hi) (ih (hstep _ _ hs hi))

end Run

end Lib
