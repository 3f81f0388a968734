import Mathlib.Data.List.Basic

/-!
# Lib — writes into a buffer

A buffer that is filled by writes of single elements, in any order.

* `applyWrites_eq`: writes that reach every place, each with the element that belongs there, leave
  nothing of the buffer they started from.
-/

namespace Lib

variable {α : Type*}

/-- The writes, each an offset and an element, one after the other. -/
def applyWrites (out : List α) (writes : List (Nat × α)) : List α :=
  writes.foldl (fun out w => out.set w.1 w.2) out

variable {target out : List α} {writes : List (Nat × α)}

/-- A place holds what belongs there once it was written, or if it held it before. -/
theorem getElem?_applyWrites {i : Nat} (hlen : out.length = target.length)
    (hval : ∀ w ∈ writes, target[w.1]? = some w.2)
    (hi : i ∈ writes.map Prod.fst ∨ out[i]? = target[i]?) :
    (applyWrites out writes)[i]? = target[i]? := by
  induction writes generalizing out with
  | nil => exact hi.resolve_left List.not_mem_nil
  | cons w writes ih =>
    rw [List.forall_mem_cons] at hval
    refine ih (by rw [List.length_set, hlen]) hval.2 ?_
    by_cases hw : w.1 = i
    · subst hw
      have hlt : w.1 < out.length := by
        rw [hlen]
        exact (List.getElem?_eq_some_iff.mp hval.1).1
      exact .inr (by rw [List.getElem?_set_self hlt, hval.1])
    · rw [List.map_cons, List.mem_cons] at hi
      rw [List.getElem?_set_ne hw]
      exact hi.imp_left fun h => h.resolve_left (Ne.symm hw)

theorem applyWrites_eq (hlen : out.length = target.length)
    (hval : ∀ w ∈ writes, target[w.1]? = some w.2)
    (hall : ∀ i < target.length, i ∈ writes.map Prod.fst) : applyWrites out writes = target := by
  refine List.ext_getElem? fun i => getElem?_applyWrites hlen hval ?_
  rcases Nat.lt_or_ge i target.length with hlt | hge
  · exact .inl (hall i hlt)
  · rw [List.getElem?_eq_none hge, List.getElem?_eq_none (hlen ▸ hge)]
    exact .inr rfl

end Lib
