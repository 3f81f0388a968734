import Kinetis.Rtc.TaskLists
import Kinetis.TimTask.Loop

/-!
# Rtc — a pass over the calendar tasks

`rtc_task_loop` walks the active tasks with `list_for_each_entry_safe`, which has saved the next node
before it runs a callback.  A callback that drops or suspends by its own callback takes out its own
task, or one before it that has the same callback: never the saved node.

* `act_turn`, `settle_turn`: what the two parts of a turn leave of the lists;
* `Walk.At.run`: the pass comes to its end, and unlinks no task twice unless a one-shot task drops
  itself, which the loop then unlinks again;
* `rtc_task_lists`: this, and what dropping does, after every sequence of calls.
-/

namespace Kinetis.Rtc
open Lib
open TimTask (Node Head Linked Behind listDel)

variable {T C : Type} [DecidableEq T] [DecidableEq C]
variable {q : Queue T C} {L : TimTask.Lists T} {h : Head} {t : T}

/-! ### The loop -/

/-- What a callback does to its own task, by way of its callback. -/
inductive Action where
  | nothing
  | drop
  | suspend
  deriving DecidableEq, Repr

/-- The tasks, the locals of `rtc_task_loop`, the number of callbacks run, and the tasks that were
given to `list_del`. -/
structure Walk (T C : Type) where
  queue   : Queue T C
  pos     : Node T
  n       : Node T
  runs    : Nat
  deleted : List T

/-- The callback of `t`, and the tasks it gives to `list_del`. -/
def Queue.act (fuel : Nat) (q : Queue T C) (t : T) : Action → Option (Queue T C × List T)
  | .nothing => some (q, [])
  | .drop =>
    (q.find rtcTaskHead (q.task t).callback fuel).bind fun found =>
      (q.rtcTaskDrop fuel (q.task t).callback).map fun r => (r.2, found.toList)
  | .suspend => (q.rtcTaskSuspend fuel (q.task t).callback).map fun r => (r.2, [])

/-- The end of the body: a new expiry, or the end of a one-shot task. -/
def Queue.settle (cur : Tm) (q : Queue T C) (t : T) : Option (Queue T C × List T) :=
  if (q.task t).autoLoad then
    some ({ q with
      task := Function.update q.task t { q.task t with
        expired := rtcTaskUpdateTime cur (q.task t).interval } }, [])
  else (listDel q.links (.list t)).map fun m => ({ q with links := m }, [t])

section loop

variable (env : Nat → T → Action) (fuel : Nat) (cur : Tm)

/-- The body of the loop. -/
def Walk.visit (w : Walk T C) (t : T) : Option (Walk T C) :=
  if rtcTaskExpired cur (w.queue.task t).expired then
    (w.queue.act fuel t (env w.runs t)).bind fun r =>
      (r.1.settle cur t).map fun r' =>
        { w with queue := r'.1, runs := w.runs + 1, deleted := w.deleted ++ r.2 ++ r'.2 }
  else some w

/-- `pos = n, n = list_next_entry(n)`. -/
def Walk.advance (w : Walk T C) : Option (Walk T C) :=
  if w.n.mapped then some { w with pos := w.n, n := w.queue.links.next w.n } else none

/-- A round of the loop, if it is not over. -/
def Walk.step (w : Walk T C) : Option (Walk T C) :=
  match w.pos with
  | .list t => (w.visit env fuel cur t).bind Walk.advance
  | .head h => if h = rtcTaskHead then some w else none
  | _ => none

/-- `rtc_task_loop`, after `k` rounds. -/
def Queue.rtcTaskLoop (q : Queue T C) : Nat → Option (Walk T C)
  | 0 =>
    let pos := q.links.next (.head rtcTaskHead)
    if pos.mapped then some ⟨q, pos, q.links.next pos, 0, []⟩ else none
  | k + 1 => (q.rtcTaskLoop k).bind (Walk.step env fuel cur)

end loop

/-! ### One task's turn -/

variable {ahead : List T} {n : Node T} {m : Links (Node T)}

/-- Taking out a task that is not ahead leaves the tasks ahead. -/
theorem Behind.remove_behind (hb : Behind 0 n L ahead) (ht : t ∉ ahead) (h : Head) :
    Behind 0 n (L.remove h t) ahead := by
  obtain ⟨⟨l, hsplit⟩, hnode⟩ := hb
  refine ⟨?_, hnode⟩
  by_cases hh : h = rtcTaskHead
  · subst hh
    rw [TimTask.Lists.remove, Function.update_self, hsplit]
    by_cases hin : t ∈ l
    · exact ⟨l.erase t, List.erase_append_left _ hin⟩
    · exact ⟨l, by rw [List.erase_append_right _ hin, List.erase_of_not_mem ht]⟩
  · rw [TimTask.Lists.remove, Function.update_of_ne (Ne.symm hh)]
    exact ⟨l, hsplit⟩

omit [DecidableEq T] in
theorem Behind.next_behind {rest : List T} (hl : Linked m Live L) (hb : Behind 0 n L (t :: rest)) :
    m.next n = (rest.map .list).headD (.head rtcTaskHead) := by
  obtain ⟨⟨l, hsplit⟩, hnode⟩ := hb
  have hpath := (hl.ring rtcTaskHead (.inl rfl)).path
  rw [hsplit, List.map_append] at hpath
  rw [hnode]
  exact (path_append.mp hpath).2.next_eq

omit [DecidableEq T] in
/-- The first task with the callback of `t` is `t` or comes before it. -/
theorem find_notMem_ahead {p : T → Bool} {l rest : List T} {u : T} (hnodup : (l ++ t :: rest).Nodup)
    (ht : p t = true) (hfind : (l ++ t :: rest).find? p = some u) : u ∉ rest := by
  rw [List.find?_append, List.find?_cons_of_pos ht] at hfind
  have hmem : u ∈ l ++ [t] := by
    cases hl : l.find? p with
    | none =>
      rw [hl] at hfind
      cases hfind
      exact List.mem_append_right _ List.mem_cons_self
    | some v =>
      rw [hl] at hfind
      cases hfind
      exact List.mem_append_left _ (List.mem_of_find?_eq_some hl)
  rw [List.append_cons] at hnodup
  exact fun hin => (List.nodup_append.mp hnodup).2.2 u hmem u hin rfl

/-- What part of a turn leaves of the lists: rings, the tasks ahead, no task more, and those given to
`list_del` are out. -/
structure Turn (L : TimTask.Lists T) (ahead : List T) (n : Node T) (m : Links (Node T))
    (deleted : List T) (L' : TimTask.Lists T) : Prop where
  linked : Linked m Live L'
  behind : Behind 0 n L' ahead
  size   : size L' ≤ size L
  mem    : ∀ {h x}, x ∈ L' h → ∃ h', x ∈ L h'
  gone   : ∀ x ∈ deleted, ∀ h, x ∉ L' h

omit [DecidableEq T] in
theorem Turn.refl (hl : Linked m Live L) (hb : Behind 0 n L ahead) : Turn L ahead n m [] L :=
  ⟨hl, hb, Nat.le_refl _, fun hx => ⟨_, hx⟩, List.forall_mem_nil _⟩

/-- A linked task is taken out. -/
theorem Turn.del (hl : Linked m Live L) (hb : Behind 0 n L ahead) (ht : t ∈ L h) (hn : t ∉ ahead)
    {m' : Links (Node T)} (hl' : Linked m' Live (L.remove h t)) :
    Turn L ahead n m' [t] (L.remove h t) := by
  have hlive := live_of_mem hl ht
  have hsize := size_remove hlive ht
  refine ⟨hl', Behind.remove_behind hb hn h, by omega,
    fun hx => ⟨_, TimTask.Lists.mem_of_mem_remove hx⟩, ?_⟩
  intro x hx h' hin
  obtain rfl := List.mem_singleton.mp hx
  exact hl.notMem_remove ht
    (Head.alike_of_ne hlive.ne_main (live_of_mem hl' hin).ne_main) hin

section turn

variable {fuel : Nat} {l : List T}

/-- **The callback**: what it drops or suspends is its own task or one before it. -/
theorem act_turn (hl : Linked q.links Live L) (hfuel : size L < fuel)
    (hsplit : L rtcTaskHead = l ++ t :: ahead) (hb : Behind 0 n L ahead) (a : Action) :
    ∃ m deleted L', q.act fuel t a = some ({ q with links := m }, deleted) ∧
      Turn L ahead n m deleted L' ∧ deleted.Nodup ∧ (∀ x ∈ deleted, ∃ h, x ∈ L h) ∧
      ((∃ h, t ∈ L' h) ∨ a = .drop ∧ m.next (.list t) = .poison1 ∧ t ∈ deleted) := by
  have ht : t ∈ L rtcTaskHead := by
    rw [hsplit]
    exact List.mem_append_right _ List.mem_cons_self
  have hlen : (L rtcTaskHead).length < fuel :=
    Nat.lt_of_le_of_lt (Live.length_le (.inl rfl) L) hfuel
  -- the search of the callback finds a task that is not ahead
  obtain ⟨u, hfind⟩ : ∃ u, (L rtcTaskHead).find?
      (fun x => (q.task x).callback = (q.task t).callback) = some u :=
    Option.isSome_iff_exists.mp (List.find?_isSome.mpr ⟨t, ht, decide_eq_true rfl⟩)
  have hu := List.mem_of_find?_eq_some hfind
  have hbefore : u ∉ ahead := by
    have hnodup := hl.nodup rtcTaskHead
    rw [hsplit] at hnodup hfind
    exact find_notMem_ahead hnodup (decide_eq_true rfl) hfind
  cases a with
  | nothing =>
    exact ⟨q.links, [], L, rfl, .refl hl hb, List.nodup_nil, List.forall_mem_nil _, .inl ⟨_, ht⟩⟩
  | drop =>
    obtain ⟨m, heq, hl', hpoison, -⟩ := rtcTaskDrop_of_found hl hlen hfind
    refine ⟨m, [u], _, ?_, Turn.del hl hb hu hbefore hl', List.nodup_singleton u, ?_, ?_⟩
    · rw [Queue.act, find_linked hl (.inl rfl) _ hlen, hfind, heq]
      rfl
    · intro x hx
      exact ⟨_, List.mem_singleton.mp hx ▸ hu⟩
    · by_cases hut : u = t
      · subst hut
        exact .inr ⟨rfl, hpoison, List.mem_cons_self⟩
      · exact .inl ⟨rtcTaskHead, TimTask.Lists.mem_remove_of_ne ht fun _ => Ne.symm hut⟩
  | suspend =>
    obtain ⟨m, heq, hl'⟩ := move_of_found hl (.inl rfl) (.inr rfl) hlen hfind
    have hremove := size_remove (.inl rfl) hu
    refine ⟨m, [], (L.remove rtcTaskHead u).append rtcTaskSuspendHead u, ?_, ⟨hl', ?_, ?_, ?_, ?_⟩,
      List.nodup_nil, List.forall_mem_nil _, .inl ?_⟩
    · rw [Queue.act, Queue.rtcTaskSuspend, heq]
      rfl
    · obtain ⟨⟨l', hl₁⟩, hnode⟩ := Behind.remove_behind hb hbefore rtcTaskHead
      refine ⟨⟨l', ?_⟩, hnode⟩
      exact hl₁
    · rw [size_append (.inr rfl)]
      omega
    · intro h x hx
      rcases TimTask.Lists.mem_append.mp hx with hx | ⟨-, rfl⟩
      · exact ⟨_, TimTask.Lists.mem_of_mem_remove hx⟩
      · exact ⟨_, hu⟩
    · intro x hx
      cases hx
    · by_cases hut : u = t
      · subst hut
        exact ⟨rtcTaskSuspendHead, TimTask.Lists.mem_append.mpr (.inr ⟨rfl, rfl⟩)⟩
      · exact ⟨rtcTaskHead, TimTask.Lists.mem_append.mpr
          (.inl (TimTask.Lists.mem_remove_of_ne ht fun _ => Ne.symm hut))⟩

/-- `list_del` of a node that is out already: the check sees the poison. -/
theorem listDel_poisoned (hnext : m.next (.list t) = .poison1) :
    listDel m (.list t) = some ((m.setNext (.list t) .poison1).setPrev (.list t) .poison2) := by
  have hvalid : TimTask.listDelEntryValid m (.list t) = some false := by
    rw [TimTask.listDelEntryValid, hnext, if_pos rfl]
  rw [listDel, TimTask.listDelEntry, hvalid]
  rfl

omit [DecidableEq C] in
/-- **The end of the turn.** -/
theorem settle_turn (cur : Tm) (hl : Linked q.links Live L) (hb : Behind 0 n L ahead)
    (hn : t ∉ ahead)
    (hwhere : (∃ h, t ∈ L h) ∨ q.links.next (.list t) = .poison1 ∧ ∀ h, t ∉ L h) :
    ∃ q' deleted L', q.settle cur t = some (q', deleted) ∧
      (∀ x, (q'.task x).autoLoad = (q.task x).autoLoad) ∧ Turn L ahead n q'.links deleted L' ∧
      (deleted = [] ∨ (q.task t).autoLoad = false ∧ deleted = [t]) := by
  rw [Queue.settle]
  split
  · refine ⟨_, _, L, rfl, fun x => ?_, .refl hl hb, .inl rfl⟩
    by_cases hx : x = t
    · subst hx
      dsimp only
      rw [Function.update_self]
    · dsimp only
      rw [Function.update_of_ne hx]
  · rename_i hauto
    rcases hwhere with ⟨h, ht⟩ | ⟨hnext, hout⟩
    · have hlive := live_of_mem hl ht
      obtain ⟨m', hdel, hl', -⟩ := hl.listDel hlive ht
      rw [hlive.node] at hdel
      rw [hdel]
      exact ⟨_, _, _, rfl, fun _ => rfl, Turn.del hl hb ht hn hl',
        .inr ⟨Bool.eq_false_of_not_eq_true hauto, rfl⟩⟩
    · rw [listDel_poisoned hnext]
      have hoff : ∀ h, Node.list t ∉ L.nodes h := by
        intro h hin
        have hmem : rtcTaskHead.node t ∈ L.nodes h := hin
        exact hout h (TimTask.mem_nodes_node.mp hmem).2
      refine ⟨_, _, L, rfl, fun _ => rfl, ⟨hl.offRing hoff _ _, hb, Nat.le_refl _,
        fun hx => ⟨_, hx⟩, ?_⟩, .inr ⟨Bool.eq_false_of_not_eq_true hauto, rfl⟩⟩
      intro x hx
      obtain rfl := List.mem_singleton.mp hx
      exact hout

end turn

/-! ### A pass -/

/-- No one-shot task drops itself. -/
def NoSelfDrop (env : Nat → T → Action) (q : Queue T C) : Prop :=
  ∀ k t, (q.task t).autoLoad = false → env k t ≠ .drop

/-- The walk is at the tasks `ahead`: the rings, the place, and what was given to `list_del`. -/
structure Walk.At (env : Nat → T → Action) (fuel : Nat) (start : Queue T C) (w : Walk T C)
    (L : TimTask.Lists T) (ahead : List T) : Prop where
  linked : Linked w.queue.links Live L
  size   : Rtc.size L < fuel
  place  : Behind 0 w.pos L ahead
  next   : ∀ t rest, ahead = t :: rest → w.n = (rest.map .list).headD (.head rtcTaskHead)
  auto   : ∀ t, (w.queue.task t).autoLoad = (start.task t).autoLoad
  gone   : ∀ x ∈ w.deleted, ∀ h, x ∉ L h
  once   : NoSelfDrop env start → w.deleted.Nodup

section pass

variable {env : Nat → T → Action} {fuel : Nat} {start : Queue T C} {w : Walk T C} {rest : List T}

/-- **The body** keeps the tasks ahead. -/
theorem Walk.At.visit (cur : Tm) (hw : w.At env fuel start L (t :: rest)) :
    ∃ w' L', w.visit env fuel cur t = some w' ∧ w'.n = w.n ∧
      Linked w'.queue.links Live L' ∧ Rtc.size L' < fuel ∧ Behind 0 w'.n L' rest ∧
      (∀ t, (w'.queue.task t).autoLoad = (start.task t).autoLoad) ∧
      (∀ x ∈ w'.deleted, ∀ h, x ∉ L' h) ∧ (NoSelfDrop env start → w'.deleted.Nodup) := by
  obtain ⟨⟨l, hsplit⟩, -⟩ := hw.place
  have hb : Behind 0 w.n L rest :=
    ⟨⟨l ++ [t], by rw [hsplit, List.append_assoc]; rfl⟩, hw.next t rest rfl⟩
  have hn : t ∉ rest := by
    have hnodup := hw.linked.nodup rtcTaskHead
    rw [hsplit] at hnodup
    exact (List.nodup_cons.mp (List.nodup_append.mp hnodup).2.1).1
  rw [Walk.visit]
  split
  · obtain ⟨m, deleted, L₁, hact, hturn, hnodup, hold, hwhere⟩ :=
      act_turn hw.linked hw.size hsplit hb (env w.runs t)
    have hwhere' : (∃ h, t ∈ L₁ h) ∨ m.next (.list t) = .poison1 ∧ ∀ h, t ∉ L₁ h := by
      rcases hwhere with hin | ⟨-, hpoison, hdel⟩
      · exact .inl hin
      · exact .inr ⟨hpoison, hturn.gone t hdel⟩
    obtain ⟨q₂, deleted₂, L₂, hsettle, hauto, hturn₂, hdel₂⟩ :=
      settle_turn (q := { w.queue with links := m }) cur hturn.linked hturn.behind hn hwhere'
    rw [hact, Option.bind_some, hsettle]
    refine ⟨_, L₂, rfl, rfl, hturn₂.linked, ?_, hturn₂.behind, ?_, ?_, fun hno => ?_⟩
    · have h₁ := hturn.size
      have h₂ := hturn₂.size
      have h₀ := hw.size
      omega
    · intro x
      exact (hauto x).trans (hw.auto x)
    · intro x hx h hin
      obtain ⟨h₁, hin₁⟩ := hturn₂.mem hin
      obtain ⟨h₀, hin₀⟩ := hturn.mem hin₁
      rcases List.mem_append.mp hx with hx | hx
      · rcases List.mem_append.mp hx with hx | hx
        · exact hw.gone x hx h₀ hin₀
        · exact hturn.gone x hx h₁ hin₁
      · exact hturn₂.gone x hx h hin
    · -- what is unlinked now was linked, so it was not unlinked before
      have hfirst : (w.deleted ++ deleted).Nodup := by
        refine List.nodup_append.mpr ⟨hw.once hno, hnodup, ?_⟩
        rintro x hx y hy rfl
        obtain ⟨h₀, hin₀⟩ := hold x hy
        exact hw.gone x hx h₀ hin₀
      rcases hdel₂ with rfl | ⟨hshot, rfl⟩
      · change (w.deleted ++ deleted ++ []).Nodup
        rw [List.append_nil]
        exact hfirst
      · have hlinked : ∃ h, t ∈ L₁ h := by
          rcases hwhere with hin | ⟨hdrop, -⟩
          · exact hin
          · exact absurd hdrop (hno _ t ((hw.auto t).symm.trans hshot))
        obtain ⟨h₁, hin₁⟩ := hlinked
        obtain ⟨h₀, hin₀⟩ := hturn.mem hin₁
        refine List.nodup_append.mpr ⟨hfirst, List.nodup_singleton t, ?_⟩
        intro x hx y hy
        obtain rfl := List.mem_singleton.mp hy
        rintro rfl
        rcases List.mem_append.mp hx with hx | hx
        · exact hw.gone x hx h₀ hin₀
        · exact hturn.gone x hx h₁ hin₁
  · exact ⟨w, L, rfl, rfl, hw.linked, hw.size, hb, hw.auto, hw.gone, hw.once⟩

omit [DecidableEq T] in
theorem Behind.mapped_behind (hb : Behind 0 n L ahead) : n.mapped = true := by
  rw [hb.node]
  cases ahead with
  | nil => rfl
  | cons u rest => rfl

/-- **A round.** -/
theorem Walk.At.step (cur : Tm) (hw : w.At env fuel start L (t :: rest)) :
    ∃ w' L', w.step env fuel cur = some w' ∧ w'.At env fuel start L' rest := by
  obtain ⟨w', L', hvisit, hn, hl, hsize, hb, hauto, hgone, honce⟩ := hw.visit cur
  have hpos : w.pos = .list t := hw.place.node
  refine ⟨{ w' with pos := w'.n, n := w'.queue.links.next w'.n }, L', ?_, hl, hsize, hb, ?_, hauto,
    hgone, honce⟩
  · rw [Walk.step, hpos]
    dsimp only
    rw [hvisit, Option.bind_some, Walk.advance, if_pos (Behind.mapped_behind hb)]
  · rintro u rest' rfl
    exact Behind.next_behind hl hb

/-- The end of the pass. -/
theorem Walk.At.stop (cur : Tm) (hw : w.At env fuel start L []) :
    w.pos = .head rtcTaskHead ∧ w.step env fuel cur = some w := by
  have hpos : w.pos = .head rtcTaskHead := hw.place.node
  refine ⟨hpos, ?_⟩
  rw [Walk.step, hpos]
  dsimp only
  rw [if_pos rfl]

/-- **A pass**, round by round. -/
theorem Walk.At.run (env : Nat → T → Action) (cur : Tm) (hl : Linked q.links Live L)
    (hfuel : Rtc.size L < fuel) (k : Nat) :
    ∃ w L', q.rtcTaskLoop env fuel cur k = some w ∧
      w.At env fuel q L' ((L rtcTaskHead).drop k) := by
  induction k with
  | zero =>
    have hb : Behind 0 (q.links.next (.head rtcTaskHead)) L (L rtcTaskHead) :=
      ⟨⟨[], rfl⟩, (hl.ring rtcTaskHead (.inl rfl)).path.next_eq⟩
    refine ⟨⟨q, q.links.next (.head rtcTaskHead), q.links.next (q.links.next (.head rtcTaskHead)),
      0, []⟩, L, ?_, hl, hfuel, hb, ?_, fun _ => rfl, ?_, fun _ => List.nodup_nil⟩
    · rw [Queue.rtcTaskLoop, if_pos (Behind.mapped_behind hb)]
    · intro t rest heq
      rw [List.drop_zero] at heq
      rw [heq] at hb
      exact Behind.next_behind hl hb
    · intro x hx
      cases hx
  | succ k ih =>
    obtain ⟨w, L', heq, hw⟩ := ih
    rw [Queue.rtcTaskLoop, heq]
    cases hdrop : (L rtcTaskHead).drop k with
    | nil =>
      rw [hdrop] at hw
      have hnil : (L rtcTaskHead).drop (k + 1) = [] := by
        rw [← List.drop_drop, hdrop, List.drop_nil]
      rw [hnil]
      exact ⟨w, L', (hw.stop cur).2, hw⟩
    | cons t rest =>
      rw [hdrop] at hw
      have hrest : (L rtcTaskHead).drop (k + 1) = rest := by
        rw [← List.drop_drop, hdrop]
        rfl
      rw [hrest]
      exact hw.step cur

end pass

/-- **The calendar tasks.**  Every sequence of calls that adds no registered task returns.  Then
dropping a callback is right, for every callback, exactly when an active task has it or no suspended
one does; and a pass of the loop, whatever its callbacks drop or suspend of their own, comes to its
end and leaves two rings, and unlinks no task twice if no one-shot task drops itself. -/
theorem rtc_task_lists (fuel : Nat) (cs : List (Call T C)) (hfuel : cs.length < fuel)
    (hfits : (Queue.boot : Queue T C).Fits fuel cs) :
    ∃ q, (Queue.boot : Queue T C).calls fuel cs = some q ∧
      (∀ callback, DropOk fuel q callback ↔
        ((∃ t, q.In rtcTaskSuspendHead t ∧ (q.task t).callback = callback) →
          ∃ t, q.In rtcTaskHead t ∧ (q.task t).callback = callback)) ∧
      ∀ (env : Nat → T → Action) (cur : Tm), ∃ rounds, ∀ k ≥ rounds,
        ∃ w L, q.rtcTaskLoop env fuel cur k = some w ∧ w.pos = .head rtcTaskHead ∧
          Linked w.queue.links Live L ∧ (NoSelfDrop env q → w.deleted.Nodup) := by
  have hzero : size (fun _ => [] : TimTask.Lists T) = 0 := rfl
  obtain ⟨q, L, heq, hl, hsize⟩ := calls_linked boot_linked (by omega) hfits
  refine ⟨q, heq, rtcTaskDrop_iff hl (by omega), fun env cur => ⟨(L rtcTaskHead).length, ?_⟩⟩
  intro k hk
  obtain ⟨w, L', hloop, hw⟩ := Walk.At.run env cur hl (by omega : size L < fuel) k
  rw [List.drop_eq_nil_of_le hk] at hw
  exact ⟨w, L', hloop, (hw.stop cur).1, hw.linked, hw.once⟩

/-- The first second of a year. -/
def newYear : Tm := ⟨⟨2024, 1, 1⟩, 0, 0, 0⟩

/-- A task that runs after a second. -/
def addSecond (autoLoad : Bool) : Call Unit Unit :=
  .add newYear (some ()) ⟨⟨0, 0, 0⟩, 0, 0, 1⟩ autoLoad (some ())

theorem rtc_task_lists_suspend :
    ∃ q, (Queue.boot : Queue Unit Unit).calls 3 [addSecond true, .suspend (some ())] = some q ∧
      (∀ callback, DropOk 3 q callback ↔
        ((∃ t, q.In rtcTaskSuspendHead t ∧ (q.task t).callback = callback) →
          ∃ t, q.In rtcTaskHead t ∧ (q.task t).callback = callback)) := by
  have hfits : (Queue.boot : Queue Unit Unit).Fits 3 [addSecond true, .suspend (some ())] := by
    refine ⟨fun _ t _ _ _ _ hreg => ?_, fun _ _ _ => ⟨fun _ _ _ _ _ hc => ?_, fun _ _ _ => trivial⟩⟩
    · obtain ⟨h, ht⟩ := (registered_iff boot_linked).mp hreg
      cases ht
    · cases hc
  obtain ⟨q, heq, hdrop, -⟩ := rtc_task_lists 3 _ (by decide) hfits
  exact ⟨q, heq, hdrop⟩

/-- **A suspended task cannot be dropped**, and is still there to be resumed; and **a one-shot task
that drops itself** is unlinked twice. -/
theorem suspended_not_dropped :
    (((Queue.boot : Queue Unit Unit).calls 3 [addSecond true, .suspend (some ())]).bind fun q =>
      (q.rtcTaskDrop 3 (some ())).map fun r => (r.1, (r.2.rtcTaskResume 3 (some ())).map Prod.fst)) =
        some (some .einval, some none) ∧
    (((Queue.boot : Queue Unit Unit).calls 3 [addSecond false]).bind fun q =>
      (q.rtcTaskLoop (fun _ _ => .drop) 3 ⟨⟨2024, 1, 1⟩, 0, 0, 1⟩ 1).map fun w =>
        (w.pos, w.deleted)) = some (.head rtcTaskHead, [(), ()]) := by
  decide +kernel

end Kinetis.Rtc
