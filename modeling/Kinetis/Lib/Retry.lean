import Mathlib.Order.Basic

/-!
# Lib — Retry

Something is sent, an answer is waited for, and without one it is sent again, as often as a budget
allows.  `sent i` says that attempt `i` goes out, `answer i` is what comes back for it in time.

* `attempts`: how many attempts go out, from attempt `i` on.
* `answers`: the answers that are taken, which is at most one.
-/

namespace Lib

variable {α : Type*} (sent : Nat → Prop) [DecidablePred sent] (answer : Nat → Option α)

/-- The attempts that go out, of at most `n` from attempt `i` on. -/
def attempts : Nat → Nat → Nat
  | 0, _ => 0
  | n + 1, i =>
    if sent i then
      match answer i with
      | some _ => 1
      | none => attempts n (i + 1) + 1
    else 0

/-- The answers that they bring. -/
def answers : Nat → Nat → List α
  | 0, _ => []
  | n + 1, i =>
    if sent i then
      match answer i with
      | some a => [a]
      | none => answers n (i + 1)
    else []

variable {sent answer} {n i : Nat}

theorem attempts_of_not (h : ¬ sent i) :
    attempts sent answer n i = 0 ∧ answers sent answer n i = [] := by
  cases n with
  | zero => exact ⟨rfl, rfl⟩
  | succ n =>
    rw [attempts, answers, if_neg h, if_neg h]
    exact ⟨rfl, rfl⟩

theorem attempts_of_some (h : sent i) {a : α} (ha : answer i = some a) :
    attempts sent answer (n + 1) i = 1 ∧ answers sent answer (n + 1) i = [a] := by
  rw [attempts, answers, if_pos h, if_pos h, ha]
  exact ⟨rfl, rfl⟩

theorem attempts_of_none (h : sent i) (ha : answer i = none) :
    attempts sent answer (n + 1) i = attempts sent answer n (i + 1) + 1 ∧
      answers sent answer (n + 1) i = answers sent answer n (i + 1) := by
  rw [attempts, answers, if_pos h, if_pos h, ha]
  exact ⟨rfl, rfl⟩

theorem attempts_le : attempts sent answer n i ≤ n := by
  induction n generalizing i with
  | zero => exact Nat.le_refl 0
  | succ n ih =>
    by_cases h : sent i
    · cases ha : answer i with
      | some a => rw [(attempts_of_some h ha).1]; omega
      | none => rw [(attempts_of_none h ha).1]; exact Nat.succ_le_succ ih
    · rw [(attempts_of_not h).1]
      exact Nat.zero_le _

/-- Attempt `j` goes out when all of them up to it do, and none before it was answered. -/
theorem lt_attempts_iff {j : Nat} : j < attempts sent answer n i ↔
    j < n ∧ (∀ t ≤ j, sent (i + t)) ∧ ∀ t < j, answer (i + t) = none := by
  induction n generalizing i j with
  | zero => simp [attempts]
  | succ n ih =>
    by_cases h : sent i
    · cases ha : answer i with
      | some a =>
        rw [(attempts_of_some h ha).1]
        refine ⟨fun hj => ?_, fun ⟨_, _, hnone⟩ => ?_⟩
        · obtain rfl : j = 0 := by omega
          refine ⟨by omega, fun t ht => ?_, fun t ht => absurd ht (Nat.not_lt_zero t)⟩
          obtain rfl : t = 0 := by omega
          exact h
        · by_contra hj
          have := hnone 0 (by omega)
          rw [Nat.add_zero, ha] at this
          cases this
      | none =>
        rw [(attempts_of_none h ha).1]
        cases j with
        | zero =>
          refine ⟨fun _ => ⟨by omega, fun t ht => ?_, fun t ht => absurd ht (Nat.not_lt_zero t)⟩,
            fun _ => by omega⟩
          obtain rfl : t = 0 := by omega
          exact h
        | succ j =>
          rw [Nat.add_lt_add_iff_right, ih, Nat.add_lt_add_iff_right]
          refine and_congr_right fun _ => and_congr ⟨fun hs t ht => ?_, fun hs t ht => ?_⟩
            ⟨fun hs t ht => ?_, fun hs t ht => ?_⟩
          · cases t with
            | zero => exact h
            | succ t => rw [← Nat.succ_add_eq_add_succ]; exact hs t (by omega)
          · rw [Nat.succ_add_eq_add_succ]
            exact hs (t + 1) (by omega)
          · cases t with
            | zero => exact ha
            | succ t => rw [← Nat.succ_add_eq_add_succ]; exact hs t (by omega)
          · rw [Nat.succ_add_eq_add_succ]
            exact hs (t + 1) (by omega)
    · rw [(attempts_of_not h).1]
      refine iff_of_false (Nat.not_lt_zero j) fun hs => h ?_
      exact hs.2.1 0 (Nat.zero_le j)

/-- The attempt that is answered is the last, and its answer the one that is taken. -/
theorem attempts_answered {j : Nat} (hj : j < attempts sent answer n i) {a : α}
    (ha : answer (i + j) = some a) :
    attempts sent answer n i = j + 1 ∧ answers sent answer n i = [a] := by
  induction n generalizing i j with
  | zero => exact absurd hj (Nat.not_lt_zero j)
  | succ n ih =>
    by_cases h : sent i
    · cases hi : answer i with
      | some b =>
        obtain ⟨hone, htaken⟩ := attempts_of_some (n := n) h hi
        obtain rfl : j = 0 := by omega
        rw [Nat.add_zero, hi] at ha
        cases ha
        exact ⟨hone, htaken⟩
      | none =>
        obtain ⟨hnext, htaken⟩ := attempts_of_none (n := n) h hi
        cases j with
        | zero =>
          rw [Nat.add_zero, hi] at ha
          cases ha
        | succ j =>
          rw [hnext, Nat.add_lt_add_iff_right] at hj
          obtain ⟨hlen, hlist⟩ := ih hj (by rw [Nat.succ_add_eq_add_succ]; exact ha)
          rw [hnext, htaken, hlen, hlist]
          exact ⟨rfl, rfl⟩
    · rw [(attempts_of_not h).1] at hj
      exact absurd hj (Nat.not_lt_zero j)

/-- Without an answer, none is taken. -/
theorem answers_eq_nil (h : ∀ j < attempts sent answer n i, answer (i + j) = none) :
    answers sent answer n i = [] := by
  induction n generalizing i with
  | zero => rfl
  | succ n ih =>
    by_cases hs : sent i
    · cases ha : answer i with
      | some a =>
        have := h 0 (by rw [(attempts_of_some hs ha).1]; omega)
        rw [Nat.add_zero, ha] at this
        cases this
      | none =>
        obtain ⟨hnext, htaken⟩ := attempts_of_none (n := n) hs ha
        rw [htaken]
        refine ih fun j hj => ?_
        rw [Nat.succ_add_eq_add_succ]
        exact h (j + 1) (by omega)
    · exact (attempts_of_not hs).2

end Lib
