import Kinetis.TimTask.Model
import Mathlib.Data.Fintype.Basic

/-!
# Timer tasks — the lists as lists

What the pointers stand for: for each head the tasks linked behind it, in order (`Lists`).
`Linked m live L` says that the pointers `m` are the rings of `L`, behind the heads that are set
up, and that no task is in two of the priority and suspend lists.

Each list function is then an operation on `L`: `listDel` of a linked node takes the task out of
its list (`Linked.listDel`), `listAddTail` of an unlinked one puts it at the end
(`Linked.listAddTail`), and both leave the nodes of all other lists alone.
-/

namespace Kinetis.TimTask
open Lib

variable {T : Type}

/-- The node by which a task is linked behind `h`. -/
def Head.node (h : Head) (t : T) : Node T :=
  match h with
  | .main => .mainList t
  | .suspend | .priority _ => .list t

abbrev Lists (T : Type) := Head → List T

@[simp] theorem Head.mapped_node (h : Head) (t : T) : (h.node t).mapped = true := by
  cases h <;> rfl

theorem Head.node_ne_head (h h' : Head) (t : T) : h.node t ≠ .head h' := by
  cases h <;> exact nofun

/-- Both heads link tasks by the same node. -/
def Head.alike (h h' : Head) : Prop := h = .main ↔ h' = .main

theorem Head.node_eq_iff {h h' : Head} {t t' : T} :
    h.node t = h'.node t' ↔ h.alike h' ∧ t = t' := by
  cases h <;> cases h' <;> simp [node, alike]

theorem Head.suspend_ne : Head.suspend ≠ .main := nofun
theorem Head.priority_ne (p : Fin 3) : Head.priority p ≠ .main := nofun

theorem Head.node_list {h : Head} (hq : h ≠ .main) (t : T) : h.node t = .list t := by
  cases h with
  | main => exact absurd rfl hq
  | suspend => rfl
  | priority p => rfl

theorem Head.alike_of_ne {h h' : Head} (hq : h ≠ .main) (hq' : h' ≠ .main) : h.alike h' :=
  ⟨fun he => absurd he hq, fun he => absurd he hq'⟩

/-- The nodes of the ring behind `h`. -/
def Lists.nodes (L : Lists T) (h : Head) : List (Node T) := .head h :: (L h).map h.node

structure Linked (m : Links (Node T)) (live : Head → Prop) (L : Lists T) : Prop where
  ring : ∀ h, live h → Ring m (.head h) ((L h).map h.node)
  empty : ∀ h, ¬ live h → L h = []
  apart : ∀ {h h' t}, h.alike h' → t ∈ L h → t ∈ L h' → h = h'

variable {m m' : Links (Node T)} {live : Head → Prop} {L : Lists T} {h h' : Head} {t : T}

theorem mem_nodes_node {L : Lists T} : h.node t ∈ L.nodes h' ↔ h.alike h' ∧ t ∈ L h' := by
  rw [Lists.nodes, List.mem_cons, List.mem_map]
  constructor
  · rintro (heq | ⟨t', ht', heq⟩)
    · exact absurd heq (Head.node_ne_head h h' t)
    · obtain ⟨halike, rfl⟩ := Head.node_eq_iff.mp heq
      exact ⟨halike.symm, ht'⟩
  · rintro ⟨halike, ht⟩
    exact .inr ⟨t, ht, Head.node_eq_iff.mpr ⟨halike.symm, rfl⟩⟩

variable {c : Node T}

theorem mapped_of_mem_nodes (hc : c ∈ L.nodes h) : c.mapped = true := by
  rcases List.mem_cons.mp hc with rfl | hc
  · rfl
  · obtain ⟨t, -, rfl⟩ := List.mem_map.mp hc
    exact h.mapped_node t

namespace Linked

theorem nodup (hl : Linked m live L) (h : Head) : (L h).Nodup := by
  by_cases hlive : live h
  · exact List.Nodup.of_map h.node (List.nodup_cons.mp (hl.ring h hlive).nodup).2
  · rw [hl.empty h hlive]
    exact List.nodup_nil

/-- The rings have no node in common. -/
theorem disjoint (hl : Linked m live L) (hc : c ∈ L.nodes h) (hc' : c ∈ L.nodes h') : h = h' := by
  rcases List.mem_cons.mp hc with rfl | hc
  · rcases List.mem_cons.mp hc' with heq | hc'
    · exact Node.head.inj heq
    · obtain ⟨t, -, heq⟩ := List.mem_map.mp hc'
      exact absurd heq (Head.node_ne_head h' h t)
  · obtain ⟨t, ht, rfl⟩ := List.mem_map.mp hc
    obtain ⟨halike, ht'⟩ := mem_nodes_node.mp hc'
    exact hl.apart halike ht ht'

/-- The pointers determine the lists. -/
theorem unique {L' : Lists T} (hl : Linked m live L) (hl' : Linked m live L') : L = L' := by
  funext h
  by_cases hlive : live h
  · have hnodes := (hl.ring h hlive).unique (hl'.ring h hlive)
    refine List.map_injective_iff.mpr ?_ hnodes
    intro t t' heq
    exact (Head.node_eq_iff.mp heq).2
  · rw [hl.empty h hlive, hl'.empty h hlive]

/-- What changes no node of a ring changes no ring. -/
theorem frame (hl : Linked m live L)
    (hsame : ∀ h, ∀ c ∈ L.nodes h, m'.next c = m.next c ∧ m'.prev c = m.prev c) :
    Linked m' live L :=
  ⟨fun h hlive => (hl.ring h hlive).frame (hsame h), hl.empty, hl.apart⟩

/-- One ring is changed, inside its nodes and a node of no ring. -/
theorem update (hl : Linked m live L) {l : List T}
    (hring : Ring m' (.head h) (l.map h.node))
    (hsame : ∀ h' ≠ h, ∀ c ∈ L.nodes h', m'.next c = m.next c ∧ m'.prev c = m.prev c)
    (hlive : live h) (hapart : ∀ h' t, h.alike h' → t ∈ l → t ∈ L h' → h = h') :
    Linked m' live (Function.update L h l) := by
  refine ⟨?_, ?_, ?_⟩
  · intro h' hlive'
    by_cases heq : h' = h
    · subst heq
      rw [Function.update_self]
      exact hring
    · rw [Function.update_of_ne heq]
      exact (hl.ring h' hlive').frame (hsame h' heq)
  · intro h' hdead
    have hne : h' ≠ h := by
      rintro rfl
      exact hdead hlive
    rw [Function.update_of_ne hne]
    exact hl.empty h' hdead
  · intro h₁ h₂ t halike ht₁ ht₂
    by_cases h₁e : h₁ = h
    · subst h₁e
      by_cases h₂e : h₂ = h₁
      · exact h₂e.symm
      · rw [Function.update_self] at ht₁
        rw [Function.update_of_ne h₂e] at ht₂
        exact hapart h₂ t halike ht₁ ht₂
    · rw [Function.update_of_ne h₁e] at ht₁
      by_cases h₂e : h₂ = h
      · subst h₂e
        rw [Function.update_self] at ht₂
        exact (hapart h₁ t halike.symm ht₂ ht₁).symm
      · rw [Function.update_of_ne h₂e] at ht₂
        exact hl.apart halike ht₁ ht₂

end Linked

/-! ### Taking a node out, putting one in -/

/-- `L` with `t` as the last behind `h`. -/
def Lists.append (L : Lists T) (h : Head) (t : T) : Lists T := Function.update L h (L h ++ [t])

variable {u : T}

theorem Lists.mem_append : u ∈ L.append h t h' ↔ u ∈ L h' ∨ h' = h ∧ u = t := by
  rw [append]
  by_cases heq : h' = h
  · subst heq
    simp
  · simp [heq]

variable [DecidableEq T]

/-- `L` without `t` behind `h`. -/
def Lists.remove (L : Lists T) (h : Head) (t : T) : Lists T :=
  Function.update L h ((L h).erase t)

theorem Lists.mem_of_mem_remove (hu : u ∈ L.remove h t h') : u ∈ L h' := by
  rw [remove] at hu
  by_cases heq : h' = h
  · subst heq
    rw [Function.update_self] at hu
    exact List.mem_of_mem_erase hu
  · rwa [Function.update_of_ne heq] at hu

theorem Lists.mem_remove_of_ne (hu : u ∈ L h') (hne : h' = h → u ≠ t) : u ∈ L.remove h t h' := by
  rw [remove]
  by_cases heq : h' = h
  · subst heq
    rw [Function.update_self]
    exact (List.mem_erase_of_ne (hne rfl)).mpr hu
  · rwa [Function.update_of_ne heq]

theorem Lists.mem_nodes_of_remove (hc : c ∈ (L.remove h t).nodes h') : c ∈ L.nodes h' := by
  rcases List.mem_cons.mp hc with rfl | hc
  · exact List.mem_cons_self
  · obtain ⟨u, hu, rfl⟩ := List.mem_map.mp hc
    exact List.mem_cons_of_mem _ (List.mem_map_of_mem (mem_of_mem_remove hu))

namespace Linked

theorem listDelEntry (hl : Linked m live L) (hlive : live h) (ht : t ∈ L h) :
    ∃ m', TimTask.listDelEntry m (h.node t) = some m' ∧ Linked m' live (L.remove h t) ∧
      ∀ c ∉ L.nodes h, m'.next c = m.next c ∧ m'.prev c = m.prev c := by
  have hring := hl.ring h hlive
  have hmem : h.node t ∈ L.nodes h := List.mem_cons_of_mem _ (List.mem_map_of_mem ht)
  obtain ⟨hnext, hback⟩ := hring.next_mem hmem
  obtain ⟨hprev, hforth⟩ := hring.prev_mem hmem
  have hvalid : listDelEntryValid m (h.node t) = some true := by
    have hn := mapped_of_mem_nodes hnext
    have hp := mapped_of_mem_nodes hprev
    rw [listDelEntryValid, if_neg (by rintro heq; rw [heq] at hn; cases hn),
      if_neg (by rintro heq; rw [heq] at hp; cases hp), if_neg (by simp [hp]),
      if_neg (by simp [hforth]), if_neg (by simp [hn]), if_neg (by simp [hback])]
  have hoff : ∀ c ∉ L.nodes h,
      (m.unlink (m.prev (h.node t)) (m.next (h.node t))).next c = m.next c ∧
      (m.unlink (m.prev (h.node t)) (m.next (h.node t))).prev c = m.prev c := fun c hc =>
    ⟨unlink_next (ne_of_mem_of_not_mem hprev hc).symm,
      unlink_prev (ne_of_mem_of_not_mem hnext hc).symm⟩
  refine ⟨m.unlink (m.prev (h.node t)) (m.next (h.node t)), ?_, ?_, hoff⟩
  · rw [TimTask.listDelEntry, hvalid]
    rfl
  · obtain ⟨l₁, l₂, heq⟩ := List.append_of_mem ht
    have hnot : t ∉ l₁ := by
      have hnodup := hl.nodup h
      rw [heq] at hnodup
      exact fun hin => (List.nodup_append.mp hnodup).2.2 t hin t List.mem_cons_self rfl
    have herase : (L h).erase t = l₁ ++ l₂ := by
      rw [heq, List.erase_append_right _ hnot, List.erase_cons_head]
    refine hl.update ?_ ?_ hlive ?_
    · rw [herase, List.map_append]
      rw [heq, List.map_append] at hring
      exact hring.unlink
    · intro h' hne c hc
      exact hoff c fun hin => hne (hl.disjoint hc hin)
    · intro h' t' halike ht' hin
      exact hl.apart halike (List.mem_of_mem_erase ht') hin

/-- Pointers of a node that is in no ring. -/
theorem offRing (hl : Linked m live L) {e : Node T} (he : ∀ h, e ∉ L.nodes h) (next prev : Node T) :
    Linked ((m.setNext e next).setPrev e prev) live L := by
  refine hl.frame fun h c hc => ?_
  have hne : c ≠ e := ne_of_mem_of_not_mem hc (he h)
  exact ⟨Function.update_of_ne hne _ _, Function.update_of_ne hne _ _⟩

/-- The priority heads set up. -/
theorem initPriorityHeads (hl : Linked m live L) (hmain : live .main) (hsuspend : live .suspend)
    (hdead : ∀ p, ¬ live (.priority p)) :
    Linked (TimTask.initPriorityHeads m) (fun _ => True) L := by
  have hne : ∀ c : Node T, (∀ p, c ≠ .head (.priority p)) →
      (TimTask.initPriorityHeads m).next c = m.next c ∧
      (TimTask.initPriorityHeads m).prev c = m.prev c := by
    intro c hc
    simp [TimTask.initPriorityHeads, initListHead, Links.setNext, Links.setPrev, hc]
  have hold : ∀ h, live h → Ring (TimTask.initPriorityHeads m) (.head h) ((L h).map h.node) := by
    intro h hlive
    refine (hl.ring h hlive).frame fun c hc => hne c ?_
    rintro p rfl
    rcases List.mem_cons.mp hc with heq | hc
    · exact hdead p (Node.head.inj heq ▸ hlive)
    · obtain ⟨t, -, heq⟩ := List.mem_map.mp hc
      exact Head.node_ne_head h _ t heq
  refine ⟨fun h _ => ?_, fun h hfalse => absurd trivial hfalse, hl.apart⟩
  cases h with
  | main => exact hold .main hmain
  | suspend => exact hold .suspend hsuspend
  | priority p =>
    rw [hl.empty _ (hdead p)]
    refine ⟨List.nodup_singleton _, ?_⟩
    match p with
    | 0 | 1 | 2 => exact ⟨rfl, rfl⟩

theorem notMem_remove (hl : Linked m live L) (ht : t ∈ L h) (halike : h.alike h') :
    t ∉ L.remove h t h' := by
  intro hin
  obtain rfl := hl.apart halike ht (Lists.mem_of_mem_remove hin)
  rw [Lists.remove, Function.update_self] at hin
  exact (hl.nodup h).not_mem_erase hin

theorem node_notMem_remove (hl : Linked m live L) (ht : t ∈ L h) (h' : Head) :
    h.node t ∉ (L.remove h t).nodes h' := by
  intro hmem
  obtain ⟨halike, hin⟩ := mem_nodes_node.mp hmem
  exact hl.notMem_remove ht halike hin

/-- **`list_del` of a linked node.** -/
theorem listDel (hl : Linked m live L) (hlive : live h) (ht : t ∈ L h) :
    ∃ m', TimTask.listDel m (h.node t) = some m' ∧ Linked m' live (L.remove h t) ∧
      (m'.next (h.node t) = .poison1 ∧ m'.prev (h.node t) = .poison2) ∧
      ∀ c ∉ L.nodes h, m'.next c = m.next c ∧ m'.prev c = m.prev c := by
  obtain ⟨m₁, heq, hl₁, hoff⟩ := hl.listDelEntry hlive ht
  refine ⟨_, by rw [TimTask.listDel, heq]; rfl, hl₁.offRing (hl.node_notMem_remove ht) _ _,
    ⟨Function.update_self _ _ _, Function.update_self _ _ _⟩, ?_⟩
  intro c hc
  have hne : c ≠ h.node t := by
    rintro rfl
    exact hc (mem_nodes_node.mpr ⟨Iff.rfl, ht⟩)
  obtain ⟨hn, hp⟩ := hoff c hc
  exact ⟨(Function.update_of_ne hne _ _).trans hn, (Function.update_of_ne hne _ _).trans hp⟩

/-- **`list_add_tail` of a node that is in no list.** -/
theorem listAddTail (hl : Linked m live L) (hlive : live h) (hnew : ∀ h', h.node t ∉ L.nodes h') :
    ∃ m', TimTask.listAddTail m (h.node t) (.head h) = some m' ∧ Linked m' live (L.append h t) ∧
      ∀ c ∉ L.nodes h, c ≠ h.node t → m'.next c = m.next c ∧ m'.prev c = m.prev c := by
  have hring := hl.ring h hlive
  have hhead : Node.head h ∈ L.nodes h := List.mem_cons_self
  obtain ⟨hprev, hforth⟩ := hring.prev_mem hhead
  have hvalid : listAddValid m (h.node t) (m.prev (.head h)) (.head h) = some true := by
    have hp := mapped_of_mem_nodes hprev
    rw [listAddValid, if_neg (by simp [Node.mapped]), if_neg (by simp), if_neg (by simp [hp]),
      if_neg (by simp [hforth]), if_neg]
    rintro (heq | heq)
    · exact hnew h (heq ▸ hprev)
    · exact Head.node_ne_head h h t heq
  have hoff : ∀ c ∉ L.nodes h, c ≠ h.node t →
      (m.insert (h.node t) (m.prev (.head h)) (.head h)).next c = m.next c ∧
      (m.insert (h.node t) (m.prev (.head h)) (.head h)).prev c = m.prev c := fun c hc hne =>
    ⟨insert_next hne (ne_of_mem_of_not_mem hprev hc).symm,
      insert_prev hne (ne_of_mem_of_not_mem hhead hc).symm⟩
  refine ⟨m.insert (h.node t) (m.prev (.head h)) (.head h), ?_, ?_, hoff⟩
  · rw [TimTask.listAddTail, hvalid]
    rfl
  · refine hl.update ?_ ?_ hlive ?_
    · rw [List.map_append]
      exact hring.insert (hnew h)
    · intro h' hne c hc
      exact hoff c (fun hin => hne (hl.disjoint hc hin)) (ne_of_mem_of_not_mem hc (hnew h'))
    · intro h' t' halike ht' hin
      rcases List.mem_append.mp ht' with ht' | ht'
      · exact hl.apart halike ht' hin
      · obtain rfl := List.mem_singleton.mp ht'
        exact absurd (mem_nodes_node.mpr ⟨halike, hin⟩) (hnew h')

/-- **`list_move_tail` of a linked node**, behind a head that links tasks by the same node. -/
theorem listMoveTail (hl : Linked m live L) (hlive : live h) (hlive' : live h')
    (halike : h.alike h') (ht : t ∈ L h) :
    ∃ m', TimTask.listMoveTail m (h.node t) (.head h') = some m' ∧
      Linked m' live ((L.remove h t).append h' t) ∧
      ∀ c ∉ L.nodes h, c ∉ L.nodes h' → m'.next c = m.next c ∧ m'.prev c = m.prev c := by
  have hnode : h.node t = h'.node t := Head.node_eq_iff.mpr ⟨halike, rfl⟩
  obtain ⟨m₁, heq, hl₁, hoff⟩ := hl.listDelEntry hlive ht
  have hnew : ∀ h₀, h'.node t ∉ (L.remove h t).nodes h₀ := by
    rw [← hnode]
    exact hl.node_notMem_remove ht
  obtain ⟨m₂, heq₂, hl₂, hoff₂⟩ := hl₁.listAddTail hlive' hnew
  refine ⟨m₂, ?_, hl₂, ?_⟩
  · rw [TimTask.listMoveTail, heq, hnode]
    exact heq₂
  · intro c hc hc'
    have hne : c ≠ h'.node t := by
      rintro rfl
      exact hc (mem_nodes_node.mpr ⟨halike.symm, ht⟩)
    obtain ⟨hn, hp⟩ := hoff c hc
    obtain ⟨hn₂, hp₂⟩ := hoff₂ c (fun hin => hc' (Lists.mem_nodes_of_remove hin)) hne
    exact ⟨hn₂.trans hn, hp₂.trans hp⟩

end Linked

end Kinetis.TimTask
