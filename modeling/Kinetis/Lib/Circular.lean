import Mathlib.Logic.Function.Basic
import Mathlib.Data.List.Basic
import Mathlib.Data.Nat.ModEq

/-!
# Lib — Circular buffers

A stream of elements passes through `n` slots, the element of position `k` through slot `k % n`.
`Holds slots n stream lo hi` says that the slots hold the stretch `[lo, hi)` of the stream; the
lemmas are what a writer at `hi`, a reader at `lo` and the source of the stream do to it.
-/

namespace Lib

variable {α : Type*}

def Holds (slots : Nat → α) (n : Nat) (stream : List α) (lo hi : Nat) : Prop :=
  ∀ k, lo ≤ k → k < hi → stream[k]? = some (slots (k % n))

/-- Positions less than `n` apart have different slots. -/
theorem slot_ne {n a b : Nat} (hab : a < b) (hn : b < a + n) : a % n ≠ b % n := by
  intro heq
  have hdvd : n ∣ b - a := (Nat.modEq_iff_dvd' (Nat.le_of_lt hab)).mp heq
  exact Nat.not_dvd_of_pos_of_lt (by omega) (by omega) hdvd

namespace Holds

variable {slots : Nat → α} {n : Nat} {stream : List α} {lo hi : Nat}

theorem empty (slots : Nat → α) (n : Nat) (stream : List α) (lo : Nat) :
    Holds slots n stream lo lo :=
  fun _ hlo hhi => absurd hhi (Nat.not_lt_of_le hlo)

theorem mono (h : Holds slots n stream lo hi) {lo' hi' : Nat} (hlo : lo ≤ lo') (hhi : hi' ≤ hi) :
    Holds slots n stream lo' hi' :=
  fun k hk hk' => h k (Nat.le_trans hlo hk) (Nat.lt_of_lt_of_le hk' hhi)

/-- The stream goes on. -/
theorem append (h : Holds slots n stream lo hi) (more : List α) :
    Holds slots n (stream ++ more) lo hi := by
  intro k hlo hhi
  have hk := h k hlo hhi
  rw [List.getElem?_append_left (List.getElem?_eq_some_iff.mp hk).1]
  exact hk

/-- **The writer** puts the next element into its slot. -/
theorem write (h : Holds slots n stream lo hi) {b : α} (hb : stream[hi]? = some b)
    (hroom : hi < lo + n) : Holds (Function.update slots (hi % n) b) n stream lo (hi + 1) := by
  intro k hlo hhi
  rcases Nat.lt_succ_iff_lt_or_eq.mp hhi with hlt | rfl
  · rw [Function.update_of_ne (slot_ne hlt (by omega))]
    exact h k hlo hlt
  · rw [Function.update_self]
    exact hb

/-- **The reader** overwrites the slot of an element it has taken. -/
theorem clear (h : Holds slots n stream (lo + 1) hi) (hroom : hi ≤ lo + n) (b : α) :
    Holds (Function.update slots (lo % n) b) n stream (lo + 1) hi := by
  intro k hlo hhi
  rw [Function.update_of_ne (slot_ne hlo (by omega)).symm]
  exact h k hlo hhi

/-- What the reader finds in the first slot is the next element of the stream. -/
theorem take_succ (h : Holds slots n stream lo hi) (hlt : lo < hi) :
    stream.take (lo + 1) = stream.take lo ++ [slots (lo % n)] := by
  rw [List.take_add_one, h lo (Nat.le_refl _) hlt, Option.toList_some]

end Holds

end Lib
