import Mathlib.Data.List.Nodup
import Mathlib.Logic.Function.Basic

/-!
# Lib — Rings

Doubly linked rings through nodes of any type.  `Path m a l b` says that the pointers of `m` lead
from `a` over the nodes `l` to `b`, and back; a ring is a path from a head to itself that visits no
node twice (`Ring`).

* `Ring.insert`: a node put in before the head is the last of the ring.
* `Ring.unlink`: a node taken out leaves the ring of the others.
* `Ring.frame`: a ring is a matter of its own nodes' pointers.
-/

namespace Lib

/-- The `next` and the `prev` pointer of every node. -/
structure Links (α : Type*) where
  next : α → α
  prev : α → α

namespace Links

variable {α : Type*} [DecidableEq α] (m : Links α)

def setNext (a b : α) : Links α := { m with next := Function.update m.next a b }
def setPrev (a b : α) : Links α := { m with prev := Function.update m.prev a b }

/-- Put `new` between `prev` and `next`. -/
def insert (new prev next : α) : Links α :=
  (((m.setPrev next new).setNext new next).setPrev new prev).setNext prev new

/-- Let `prev` and `next` point to each other. -/
def unlink (prev next : α) : Links α := (m.setPrev next prev).setNext prev next

end Links

variable {α : Type*} {m m' : Links α}

def Path (m : Links α) : α → List α → α → Prop
  | a, [], b => m.next a = b ∧ m.prev b = a
  | a, x :: l, b => m.next a = x ∧ m.prev x = a ∧ Path m x l b

/-- The ring of `head` and the nodes `l`, in this order. -/
structure Ring (m : Links α) (head : α) (l : List α) : Prop where
  nodup : (head :: l).Nodup
  path : Path m head l head

variable {a b : α} {l₁ l₂ : List α}

theorem path_append {x : α} : Path m a (l₁ ++ x :: l₂) b ↔ Path m a l₁ x ∧ Path m x l₂ b := by
  induction l₁ generalizing a with
  | nil => simp [Path, and_assoc]
  | cons y l₁ ih => simp [Path, ih, and_assoc]

/-- A path is a matter of the `next` of its nodes but the last, and the `prev` of those but the
first. -/
theorem Path.frame {l : List α} (h : Path m a l b) (hnext : ∀ c ∈ a :: l, m'.next c = m.next c)
    (hprev : ∀ c, c ∈ l ∨ c = b → m'.prev c = m.prev c) : Path m' a l b := by
  induction l generalizing a with
  | nil =>
    obtain ⟨hn, hp⟩ := h
    exact ⟨(hnext a (List.mem_singleton_self a)).trans hn, (hprev b (.inr rfl)).trans hp⟩
  | cons x l ih =>
    obtain ⟨hn, hp, hrest⟩ := h
    refine ⟨(hnext a List.mem_cons_self).trans hn,
      (hprev x (.inl List.mem_cons_self)).trans hp, ih hrest ?_ ?_⟩
    · intro c hc
      exact hnext c (List.mem_cons_of_mem a hc)
    · rintro c (hc | rfl)
      · exact hprev c (.inl (List.mem_cons_of_mem x hc))
      · exact hprev c (.inr rfl)

variable {c : α}

/-- Forwards: every node of a path is followed by one of it, which leads back. -/
theorem Path.next_mem {l : List α} (h : Path m a l b) (hc : c ∈ a :: l) :
    m.next c ∈ l ++ [b] ∧ m.prev (m.next c) = c := by
  induction l generalizing a with
  | nil =>
    obtain rfl := List.mem_singleton.mp hc
    rw [h.1]
    exact ⟨List.mem_singleton_self b, h.2⟩
  | cons x l ih =>
    obtain ⟨hn, hp, hrest⟩ := h
    rcases List.mem_cons.mp hc with rfl | hc
    · rw [hn]
      exact ⟨List.mem_cons_self, hp⟩
    · obtain ⟨hmem, hback⟩ := ih hrest hc
      exact ⟨List.mem_cons_of_mem x hmem, hback⟩

/-- Backwards. -/
theorem Path.prev_mem_of_mem {l : List α} (h : Path m a l b) (hc : c ∈ l ++ [b]) :
    m.prev c ∈ a :: l ∧ m.next (m.prev c) = c := by
  induction l generalizing a with
  | nil =>
    obtain rfl := List.mem_singleton.mp hc
    rw [h.2]
    exact ⟨List.mem_cons_self, h.1⟩
  | cons x l ih =>
    obtain ⟨hn, hp, hrest⟩ := h
    rcases List.mem_cons.mp hc with rfl | hc
    · rw [hp]
      exact ⟨List.mem_cons_self, hn⟩
    · obtain ⟨hmem, hback⟩ := ih hrest hc
      exact ⟨List.mem_cons_of_mem a hmem, hback⟩

/-- The last node of a path. -/
theorem Path.prev_mem {l : List α} (h : Path m a l b) : m.prev b ∈ a :: l :=
  (h.prev_mem_of_mem (List.mem_append_right l (List.mem_singleton_self b))).1

/-- The first node of a path, `b` where the path has none. -/
theorem Path.next_eq {l : List α} (h : Path m a l b) : m.next a = l.headD b := by
  cases l with
  | nil => exact h.1
  | cons x l => exact h.1

variable {l' : List α}

/-- Two paths to a node that neither meets on its way are one. -/
theorem Path.unique {l : List α} (h : Path m a l b) (h' : Path m a l' b) (hb : b ∉ l)
    (hb' : b ∉ l') : l = l' := by
  induction l generalizing a l' with
  | nil =>
    cases l' with
    | nil => rfl
    | cons y l' => exact absurd (h.1.symm.trans h'.1 ▸ List.mem_cons_self) hb'
  | cons x l ih =>
    cases l' with
    | nil => exact absurd (h'.1.symm.trans h.1 ▸ List.mem_cons_self) hb
    | cons y l' =>
      obtain rfl : x = y := h.1.symm.trans h'.1
      rw [ih h.2.2 h'.2.2 (fun hin => hb (List.mem_cons_of_mem x hin))
        (fun hin => hb' (List.mem_cons_of_mem x hin))]

variable {new e : α}

section Updates

variable [DecidableEq α]

variable {prev next : α}

theorem insert_next (hnew : c ≠ new) (hprev : c ≠ prev) :
    (m.insert new prev next).next c = m.next c := by
  show Function.update (Function.update m.next new next) prev new c = m.next c
  rw [Function.update_of_ne hprev, Function.update_of_ne hnew]

theorem insert_prev (hnew : c ≠ new) (hnext : c ≠ next) :
    (m.insert new prev next).prev c = m.prev c := by
  show Function.update (Function.update m.prev next new) new prev c = m.prev c
  rw [Function.update_of_ne hnew, Function.update_of_ne hnext]

theorem unlink_next (h : c ≠ prev) :
    (m.unlink prev next).next c = m.next c := Function.update_of_ne h _ _

theorem unlink_prev (h : c ≠ next) :
    (m.unlink prev next).prev c = m.prev c := Function.update_of_ne h _ _

theorem insert_next_prev (new prev next : α) : (m.insert new prev next).next prev = new :=
  Function.update_self _ _ _

theorem insert_next_new (h : new ≠ prev) : (m.insert new prev next).next new = next := by
  show Function.update (Function.update m.next new next) prev new new = next
  rw [Function.update_of_ne h, Function.update_self]

theorem insert_prev_new (new prev next : α) : (m.insert new prev next).prev new = prev :=
  Function.update_self _ _ _

theorem insert_prev_next (h : next ≠ new) : (m.insert new prev next).prev next = new := by
  show Function.update (Function.update m.prev next new) new prev next = new
  rw [Function.update_of_ne h, Function.update_self]

theorem unlink_next_prev (prev next : α) : (m.unlink prev next).next prev = next :=
  Function.update_self _ _ _

theorem unlink_prev_next (prev next : α) : (m.unlink prev next).prev next = prev :=
  Function.update_self _ _ _

/-- A node put in before the end of a path is its last. -/
theorem Path.insert {l : List α} (h : Path m a l b) (hnodup : (a :: l).Nodup) (hb : b ∉ l)
    (hnew : new ∉ a :: l) (hne : b ≠ new) : Path (m.insert new (m.prev b) b) a (l ++ [new]) b := by
  have hlast := h.prev_mem
  have hend : Path (m.insert new (m.prev b) b) new [] b :=
    ⟨insert_next_new fun he => hnew (he ▸ hlast), insert_prev_next hne⟩
  refine path_append.mpr ⟨?_, hend⟩
  clear hend hlast
  induction l generalizing a with
  | nil =>
    rw [h.2]
    exact ⟨insert_next_prev _ _ _, insert_prev_new _ _ _⟩
  | cons x l ih =>
    obtain ⟨hn, hp, hrest⟩ := h
    obtain ⟨ha, hx⟩ := List.nodup_cons.mp hnodup
    have hane : a ≠ m.prev b := fun he => ha (he ▸ hrest.prev_mem)
    have hxb : x ≠ b := fun he => hb (he ▸ List.mem_cons_self)
    refine ⟨?_, ?_, ih hrest hx (fun hmem => hb (List.mem_cons_of_mem x hmem))
      fun hmem => hnew (List.mem_cons_of_mem a hmem)⟩
    · rw [insert_next (ne_of_mem_of_not_mem List.mem_cons_self hnew) hane, hn]
    · have hx' : x ∈ a :: x :: l := List.mem_cons_of_mem a List.mem_cons_self
      rw [insert_prev (ne_of_mem_of_not_mem hx' hnew) hxb, hp]

/-- A node taken out of a path leaves the path of the others. -/
theorem Path.unlink (h : Path m a (l₁ ++ e :: l₂) b) (hnodup : (a :: (l₁ ++ e :: l₂)).Nodup)
    (hb : b ∉ l₁ ++ e :: l₂) : Path (m.unlink (m.prev e) (m.next e)) a (l₁ ++ l₂) b := by
  induction l₁ generalizing a with
  | nil =>
    obtain ⟨hn, hp, hrest⟩ := h
    obtain ⟨ha, -⟩ := List.nodup_cons.mp hnodup
    rw [hp, hrest.next_eq]
    cases l₂ with
    | nil => exact ⟨unlink_next_prev _ _, unlink_prev_next _ _⟩
    | cons x l =>
      obtain ⟨hmem, hx⟩ := List.nodup_cons.mp (List.nodup_cons.mp (List.nodup_cons.mp hnodup).2).2
      refine ⟨unlink_next_prev _ _, unlink_prev_next _ _, hrest.2.2.frame ?_ ?_⟩
      · intro c hc
        exact unlink_next fun he => ha (he ▸ List.mem_cons_of_mem e hc)
      · rintro c (hc | rfl)
        · exact unlink_prev (ne_of_mem_of_not_mem hc hmem)
        · have hx' : x ∈ [] ++ e :: x :: l := List.mem_cons_of_mem e List.mem_cons_self
          exact unlink_prev (ne_of_mem_of_not_mem hx' hb).symm
  | cons y l₁ ih =>
    obtain ⟨hn, hp, hrest⟩ := h
    obtain ⟨ha, hy⟩ := List.nodup_cons.mp hnodup
    have hsplit := path_append.mp hrest
    have hane : a ≠ m.prev e := by
      rintro rfl
      rcases List.mem_cons.mp hsplit.1.prev_mem with he | he
      · exact ha (he ▸ List.mem_cons_self)
      · exact ha (List.mem_cons_of_mem y (List.mem_append_left _ he))
    -- what follows `e` is a later node or the end
    have hyne : y ≠ m.next e := by
      rw [hsplit.2.next_eq]
      cases l₂ with
      | nil => exact fun he => hb (he ▸ List.mem_cons_self)
      | cons x l =>
        rintro rfl
        exact (List.nodup_cons.mp hy).1
          (List.mem_append_right _ (List.mem_cons_of_mem e List.mem_cons_self))
    refine ⟨?_, ?_, ih hrest hy fun hmem => hb (List.mem_cons_of_mem y hmem)⟩
    · rw [unlink_next hane, hn]
    · rw [unlink_prev hyne, hp]

end Updates

namespace Ring

variable {head : α} {l : List α}

theorem frame (h : Ring m head l) (hsame : ∀ c ∈ head :: l, m'.next c = m.next c ∧ m'.prev c = m.prev c) :
    Ring m' head l := by
  refine ⟨h.nodup, h.path.frame (fun c hc => (hsame c hc).1) ?_⟩
  rintro c (hc | rfl)
  · exact (hsame c (List.mem_cons_of_mem head hc)).2
  · exact (hsame c List.mem_cons_self).2

theorem mem_turn : c ∈ head :: l ↔ c ∈ l ++ [head] := by
  rw [List.mem_cons, List.mem_append, List.mem_singleton, or_comm]

/-- The neighbours of a node of the ring are nodes of it, and lead back. -/
theorem next_mem (h : Ring m head l) (hc : c ∈ head :: l) :
    m.next c ∈ head :: l ∧ m.prev (m.next c) = c := by
  obtain ⟨hmem, hback⟩ := h.path.next_mem hc
  exact ⟨mem_turn.mpr hmem, hback⟩

theorem prev_mem (h : Ring m head l) (hc : c ∈ head :: l) :
    m.prev c ∈ head :: l ∧ m.next (m.prev c) = c := h.path.prev_mem_of_mem (mem_turn.mp hc)

theorem head_notMem (h : Ring m head l) : head ∉ l := (List.nodup_cons.mp h.nodup).1

/-- No node but a head alone is its own neighbour. -/
theorem next_ne (h : Ring m head l) (hc : c ∈ l) : m.next c ≠ c := by
  obtain ⟨l₁, l₂, rfl⟩ := List.append_of_mem hc
  obtain ⟨hhead, hnodup⟩ := List.nodup_cons.mp h.nodup
  rw [(path_append.mp h.path).2.next_eq]
  cases l₂ with
  | nil =>
    rintro rfl
    exact hhead (List.mem_append_right l₁ List.mem_cons_self)
  | cons x l₂ =>
    rintro rfl
    exact (List.nodup_cons.mp (List.nodup_append.mp hnodup).2.1).1 List.mem_cons_self

/-- The pointers determine the nodes of a ring and their order. -/
theorem unique (h : Ring m head l) (h' : Ring m head l') : l = l' :=
  h.path.unique h'.path h.head_notMem h'.head_notMem

variable [DecidableEq α]

theorem insert (h : Ring m head l) (hnew : new ∉ head :: l) :
    Ring (m.insert new (m.prev head) head) head (l ++ [new]) := by
  refine ⟨?_, h.path.insert h.nodup h.head_notMem hnew fun he => hnew (he ▸ List.mem_cons_self)⟩
  exact List.nodup_append.mpr ⟨h.nodup, List.nodup_singleton new, fun a ha b hb => by
    rw [List.mem_singleton.mp hb]; exact ne_of_mem_of_not_mem ha hnew⟩

/-- A node `c` of a ring whose own pointers were reset, while its neighbours' still lead to it: no
ring is left that has all the nodes, and none is made by putting `c` in before the head. -/
theorem not_reinserted (h : Ring m head l) (hc : c ∈ l) (hself : m'.next c = c)
    (hsame : ∀ x ∈ head :: l, x ≠ c → m'.next x = m.next x ∧ m'.prev x = m.prev x)
    (hsub : ∀ x ∈ l, x ∈ l') :
    ¬ Ring m' head l' ∧
      (m'.prev head ≠ c → ¬ Ring (m'.insert c (m'.prev head) head) head l') := by
  refine ⟨fun hring => hring.next_ne (hsub c hc) hself, fun hlast hring => ?_⟩
  have hcmem : c ∈ head :: l := List.mem_cons_of_mem head hc
  have hhead : head ≠ c := fun he => h.head_notMem (he ▸ hc)
  obtain ⟨hpmem, hpnext⟩ := h.prev_mem hcmem
  have hpc : m.prev c ≠ c := by
    intro he
    rw [he] at hpnext
    exact h.next_ne hc hpnext
  obtain ⟨-, hlnext⟩ := h.prev_mem (List.mem_cons_self (a := head) (l := l))
  rw [(hsame head List.mem_cons_self hhead).2] at hlast hring
  -- the node before `c` and the last node are not the same: they lead to different nodes
  have hne : m.prev c ≠ m.prev head := by
    intro he
    rw [← he, hpnext] at hlnext
    exact hhead hlnext.symm
  have hin : m.prev c ∈ head :: l' := by
    rcases List.mem_cons.mp hpmem with he | hin
    · rw [he]
      exact List.mem_cons_self
    · exact List.mem_cons_of_mem head (hsub _ hin)
  have hback := (hring.next_mem hin).2
  rw [insert_next hpc hne, (hsame _ hpmem hpc).1, hpnext, insert_prev_new] at hback
  exact hne hback.symm

theorem unlink (h : Ring m head (l₁ ++ e :: l₂)) :
    Ring (m.unlink (m.prev e) (m.next e)) head (l₁ ++ l₂) := by
  refine ⟨?_, h.path.unlink h.nodup h.head_notMem⟩
  exact h.nodup.sublist
    (List.Sublist.cons_cons head ((List.sublist_cons_self e l₂).append_left l₁))

end Ring

end Lib
