import Kinetis.TimTask.Lists

/-!
# Timer tasks — which tasks are linked where

The invariant of the task lists (`Inv`): the pointers are the rings of some lists `L`, every
registered task is in the main list and in one of the priority and suspend lists, and the nodes of
the other tasks are zero (never added) or poisoned (dropped).

Each function keeps it when it is called on a task of the right status (`Call.Fits`), and breaks it
or faults otherwise.
-/

namespace Kinetis.TimTask
open Lib

variable {T : Type} {L : Lists T} {r : Prog T} {t : T} {h : Head}

/-- The heads that are set up. -/
def Sched.live (s : Sched T) (h : Head) : Prop := s.init = true ∨ h = .main ∨ h = .suspend

/-- The pointers in the nodes of a task that is not registered. -/
def Status.idle : Status → Option (Node T × Node T)
  | .fresh => some (.null, .null)
  | .dropped => some (.poison1, .poison2)
  | .registered => none

structure Inv (r : Prog T) (L : Lists T) : Prop where
  linked : Linked r.sched.links r.sched.live L
  mem : ∀ {h t}, t ∈ L h → r.status t = .registered
  main : ∀ {t}, r.status t = .registered → t ∈ L .main
  queued : ∀ {t}, r.status t = .registered → ∃ h, h ≠ .main ∧ t ∈ L h
  idle : ∀ {t n p}, (r.status t).idle = some (n, p) → ∀ h : Head,
    r.sched.links.next (h.node t) = n ∧ r.sched.links.prev (h.node t) = p
  init : ∀ {t}, r.status t ≠ .fresh → r.sched.init = true
  level : ∀ t, (r.sched.task t).priority < MAX_PRIORITY_LEVELS
  priority : ∀ {p t}, t ∈ L (.priority p) → (r.sched.task t).priority = p
  timed : ∀ {t}, r.status t = .registered → 0 < (r.sched.task t).intervalUs

theorem ne_registered_of_idle {st : Status} {n p : Node T} (h : st.idle = some (n, p)) :
    st ≠ .registered := by
  rintro rfl
  cases h

namespace Inv

/-- The nodes of a task that is not registered are in no list. -/
theorem off (hi : Inv r L) (hr : r.status t ≠ .registered) (h h' : Head) :
    h.node t ∉ L.nodes h' := by
  intro hmem
  exact hr (hi.mem (mem_nodes_node.mp hmem).2)


/-- A head with a task behind it is set up. -/
theorem live_of_mem (hi : Inv r L) (ht : t ∈ L h) : r.sched.live h := by
  by_contra hdead
  rw [hi.linked.empty h hdead] at ht
  cases ht

theorem init_of_mem (hi : Inv r L) (ht : t ∈ L h) : r.sched.init = true := by
  refine hi.init (t := t) ?_
  rw [hi.mem ht]
  exact nofun

/-- The fields of the tasks, but for their priority. -/
theorem retask (hi : Inv r L) {task' : T → Task}
    (htask : ∀ t, (task' t).priority = (r.sched.task t).priority)
    (htimed : ∀ t, 0 < (r.sched.task t).intervalUs → 0 < (task' t).intervalUs) :
    Inv ⟨{ r.sched with task := task' }, r.status⟩ L := by
  refine ⟨hi.linked, hi.mem, hi.main, hi.queued, hi.idle, hi.init, ?_, ?_,
    fun ht => htimed _ (hi.timed ht)⟩
  · intro t
    exact (htask t).trans_lt (hi.level t)
  · intro p t ht
    exact (htask t).trans (hi.priority ht)

variable [DecidableEq T]

theorem setTask (hi : Inv r L) (t : T) (f : Task → Task) (hf : ∀ k, (f k).priority = k.priority)
    (hf' : ∀ k, (f k).intervalUs = k.intervalUs) : Inv ⟨r.sched.setTask t f, r.status⟩ L :=
  hi.retask (Sched.setTask_field Task.priority hf r.sched t) fun x hx =>
    hx.trans_eq (Sched.setTask_field Task.intervalUs hf' r.sched t x).symm

/-- **Moving** a registered task to the end of a priority list or of the suspend list. -/
theorem move (hi : Inv r L) (hq : h ≠ .main) (ht : t ∈ L h) {h' : Head} (hq' : h' ≠ .main)
    {m' : Links (Node T)} {task' : T → Task}
    (hl : Linked m' r.sched.live ((L.remove h t).append h' t))
    (hoff : ∀ c ∉ L.nodes h, c ∉ L.nodes h' → m'.next c = r.sched.links.next c ∧
      m'.prev c = r.sched.links.prev c)
    (htask : ∀ u ≠ t, task' u = r.sched.task u) (hlevel : (task' t).priority < MAX_PRIORITY_LEVELS)
    (hprio : ∀ p, h' = .priority p → (task' t).priority = p)
    (hinterval : (task' t).intervalUs = (r.sched.task t).intervalUs) :
    Inv ⟨⟨m', r.sched.init, task'⟩, r.status⟩ ((L.remove h t).append h' t) := by
  refine ⟨hl, ?_, ?_, ?_, ?_, hi.init, ?_, ?_, ?_⟩
  · intro h₀ u hu
    rcases Lists.mem_append.mp hu with hu | ⟨-, rfl⟩
    · exact hi.mem (Lists.mem_of_mem_remove hu)
    · exact hi.mem ht
  · intro u hu
    exact Lists.mem_append.mpr (.inl (Lists.mem_remove_of_ne (hi.main hu) fun he => absurd he.symm hq))
  · intro u hu
    by_cases hut : u = t
    · exact ⟨h', hq', Lists.mem_append.mpr (.inr ⟨rfl, hut⟩)⟩
    · obtain ⟨h₀, hne, hmem⟩ := hi.queued hu
      exact ⟨h₀, hne, Lists.mem_append.mpr (.inl (Lists.mem_remove_of_ne hmem fun _ => hut))⟩
  · intro u n p hu h₀
    have hreg := ne_registered_of_idle hu
    obtain ⟨hn, hp⟩ := hoff _ (hi.off hreg h₀ h) (hi.off hreg h₀ h')
    exact ⟨hn.trans (hi.idle hu h₀).1, hp.trans (hi.idle hu h₀).2⟩
  · intro u
    by_cases hut : u = t
    · rw [hut]
      exact hlevel
    · show (task' u).priority < _
      rw [htask u hut]
      exact hi.level u
  · intro p u hu
    rcases Lists.mem_append.mp hu with hu | ⟨heq, rfl⟩
    · have hut : u ≠ t := by
        rintro rfl
        exact hi.linked.notMem_remove ht (Head.alike_of_ne hq (Head.priority_ne p)) hu
      show (task' u).priority = p
      rw [htask u hut]
      exact hi.priority (Lists.mem_of_mem_remove hu)
    · exact hprio p heq.symm
  · intro u hu
    show 0 < (task' u).intervalUs
    by_cases hut : u = t
    · rw [hut, hinterval]
      exact hi.timed (hi.mem ht)
    · rw [htask u hut]
      exact hi.timed hu

theorem suspend (hi : Inv r L) (hq : h ≠ .main) (ht : t ∈ L h) :
    ∃ r', r.call (.suspend (some t)) = some r' ∧ Inv r' ((L.remove h t).append .suspend t) ∧
      r'.status = r.status ∧ r'.sched.task = r.sched.task := by
  obtain ⟨m', heq, hl, hoff⟩ := hi.linked.listMoveTail (hi.live_of_mem ht) (.inr (.inr rfl))
    (Head.alike_of_ne hq Head.suspend_ne) ht
  rw [Head.node_list hq] at heq
  refine ⟨⟨{ r.sched with links := m' }, r.status⟩, ?_, ?_, rfl, rfl⟩
  · simp only [Prog.call, timTaskSuspend, Option.bind_eq_bind, Option.bind_some, heq]
    rfl
  · exact hi.move hq ht Head.suspend_ne hl hoff (fun _ _ => rfl) (hi.level t) nofun rfl

/-- The priority list that a task is resumed to. -/
def home (hi : Inv r L) (t : T) : Head := .priority ⟨(r.sched.task t).priority, hi.level t⟩

theorem resume (hi : Inv r L) (hq : h ≠ .main) (ht : t ∈ L h) :
    ∃ r', r.call (.resume (some t)) = some r' ∧ Inv r' ((L.remove h t).append (hi.home t) t) ∧
      r'.status = r.status ∧ r'.sched.task = r.sched.task := by
  have hhome : hi.home t ≠ .main := Head.priority_ne _
  obtain ⟨m', heq, hl, hoff⟩ := hi.linked.listMoveTail (hi.live_of_mem ht)
    (.inl (hi.init_of_mem ht)) (Head.alike_of_ne hq hhome) ht
  rw [Head.node_list hq, home] at heq
  refine ⟨⟨{ r.sched with links := m' }, r.status⟩, ?_, ?_, rfl, rfl⟩
  · simp only [Prog.call, timTaskResume, dif_pos (hi.level t), Option.bind_eq_bind, heq]
    rfl
  · refine hi.move hq ht hhome hl hoff (fun _ _ => rfl) (hi.level t) ?_ rfl
    intro p hp
    exact congrArg Fin.val (Head.priority.inj hp)

theorem setPriority (hi : Inv r L) (hq : h ≠ .main) (ht : t ∈ L h) (p : Fin 3) :
    ∃ r', r.call (.setPriority (some t) p) = some r' ∧
      Inv r' ((L.remove h t).append (.priority p) t) ∧ r'.status = r.status ∧
      r'.sched.task = Function.update r.sched.task t { r.sched.task t with priority := p } := by
  have hnode : h.node t = (Head.priority p).node t := Head.node_list hq t
  obtain ⟨m₁, heq₁, hl₁, -, hoff₁⟩ := hi.linked.listDel (hi.live_of_mem ht) ht
  have hnew : ∀ h', (Head.priority p).node t ∉ (L.remove h t).nodes h' := by
    rw [← hnode]
    exact hi.linked.node_notMem_remove ht
  obtain ⟨m₂, heq₂, hl₂, hoff₂⟩ := hl₁.listAddTail (.inl (hi.init_of_mem ht)) hnew
  rw [Head.node_list hq] at heq₁
  refine ⟨⟨⟨m₂, r.sched.init,
    Function.update r.sched.task t { r.sched.task t with priority := p }⟩, r.status⟩, ?_, ?_, rfl, rfl⟩
  · have hadd : listAddTail m₁ (.list t) (.head (.priority p)) = some m₂ := heq₂
    simp only [Prog.call, timTaskSetPriority, dif_pos (show (p : Nat) < MAX_PRIORITY_LEVELS from p.2),
      Option.bind_eq_bind, heq₁, Option.bind_some, hadd]
    rfl
  · refine hi.move hq ht (Head.priority_ne p) hl₂ ?_ ?_ ?_ ?_ ?_
    · intro c hc hc'
      have hne : c ≠ (Head.priority p).node t := by
        rw [← hnode]
        rintro rfl
        exact hc (mem_nodes_node.mpr ⟨Iff.rfl, ht⟩)
      obtain ⟨hn₁, hp₁⟩ := hoff₁ c hc
      obtain ⟨hn₂, hp₂⟩ := hoff₂ c (fun hin => hc' (Lists.mem_nodes_of_remove hin)) hne
      exact ⟨hn₂.trans hn₁, hp₂.trans hp₁⟩
    · intro u hu
      exact Function.update_of_ne hu _ _
    · rw [Function.update_self]
      exact p.2
    · intro p' hp'
      rw [Function.update_self]
      exact congrArg Fin.val (Head.priority.inj hp')
    · rw [Function.update_self]

/-- A task is taken out of all lists. -/
theorem drop (hi : Inv r L) (hq : h ≠ .main) (ht : t ∈ L h) :
    ∃ r', r.call (.drop (some t)) = some r' ∧ Inv r' ((L.remove h t).remove .main t) ∧
      r'.status = Function.update r.status t .dropped ∧ r'.sched.task = r.sched.task := by
  have hmain : t ∈ L.remove h t .main :=
    Lists.mem_remove_of_ne (hi.main (hi.mem ht)) fun he => absurd he.symm hq
  obtain ⟨m₁, heq₁, hl₁, hpoison₁, hoff₁⟩ := hi.linked.listDel (hi.live_of_mem ht) ht
  obtain ⟨m₂, heq₂, hl₂, hpoison₂, hoff₂⟩ := hl₁.listDel (.inr (.inl rfl)) hmain
  rw [Head.node_list hq] at heq₁ hpoison₁
  refine ⟨⟨{ r.sched with links := m₂ }, Function.update r.status t .dropped⟩, ?_, ?_, rfl, rfl⟩
  · have hdel : listDel m₁ (.mainList t) = some m₂ := heq₂
    simp only [Prog.call, timTaskDrop, Option.bind_eq_bind, heq₁, Option.bind_some, hdel]
    rfl
  -- what is left in a list is another task, and was there before
  have hmem : ∀ {h' : Head} {u : T}, u ∈ (L.remove h t).remove .main t h' → u ∈ L h' ∧ u ≠ t := by
    intro h' u hu
    have hu₁ := Lists.mem_of_mem_remove hu
    refine ⟨Lists.mem_of_mem_remove hu₁, ?_⟩
    rintro rfl
    by_cases hm : h' = .main
    · subst hm
      exact hl₁.notMem_remove hmain Iff.rfl hu
    · exact hi.linked.notMem_remove ht (Head.alike_of_ne hq hm) hu₁
  have hother : ∀ {u : T}, Function.update r.status t .dropped u = .registered →
      u ≠ t ∧ r.status u = .registered := by
    intro u hu
    by_cases hne : u = t
    · rw [hne, Function.update_self] at hu
      cases hu
    · rw [Function.update_of_ne hne] at hu
      exact ⟨hne, hu⟩
  refine ⟨hl₂, ?_, ?_, ?_, ?_, ?_, hi.level, ?_, fun hu => hi.timed (hother hu).2⟩
  · intro h' u hu
    obtain ⟨hu, hne⟩ := hmem hu
    exact (Function.update_of_ne hne _ _).trans (hi.mem hu)
  · intro u hu
    obtain ⟨hne, hu⟩ := hother hu
    exact Lists.mem_remove_of_ne (Lists.mem_remove_of_ne (hi.main hu) fun _ => hne) fun _ => hne
  · intro u hu
    obtain ⟨hne, hu⟩ := hother hu
    obtain ⟨h', hq', hin⟩ := hi.queued hu
    exact ⟨h', hq', Lists.mem_remove_of_ne (Lists.mem_remove_of_ne hin fun _ => hne) fun _ => hne⟩
  · intro u n p hu h₀
    change (Function.update r.status t .dropped u).idle = some (n, p) at hu
    by_cases hne : u = t
    · rw [hne, Function.update_self] at hu
      cases hu
      rw [hne]
      by_cases hm : h₀ = .main
      · rw [hm]
        exact hpoison₂
      · obtain ⟨hn, hp⟩ := hoff₂ (h₀.node t) fun hin => hm ((mem_nodes_node.mp hin).1.mpr rfl)
        rw [Head.node_list hm] at hn hp ⊢
        exact ⟨hn.trans hpoison₁.1, hp.trans hpoison₁.2⟩
    · rw [Function.update_of_ne hne] at hu
      have hreg := ne_registered_of_idle hu
      obtain ⟨hn₁, hp₁⟩ := hoff₁ _ (hi.off hreg h₀ h)
      obtain ⟨hn₂, hp₂⟩ := hoff₂ (h₀.node u) fun hin =>
        hi.off hreg h₀ .main (Lists.mem_nodes_of_remove hin)
      obtain ⟨hn, hp⟩ := hi.idle hu h₀
      exact ⟨hn₂.trans (hn₁.trans hn), hp₂.trans (hp₁.trans hp)⟩
  · intro u _
    exact hi.init_of_mem ht
  · intro p u hu
    exact hi.priority (hmem hu).1

/-- The nodes of a task that was dropped are poisoned: they are not unlinked again. -/
theorem listDelEntry_dropped (hi : Inv r L) (hd : r.status t = .dropped) (h : Head) :
    listDelEntry r.sched.links (h.node t) = some r.sched.links := by
  obtain ⟨hn, -⟩ := hi.idle (n := .poison1) (p := .poison2) (by rw [hd]; rfl) h
  have hvalid : listDelEntryValid r.sched.links (h.node t) = some false := by
    rw [listDelEntryValid, if_pos hn]
  rw [listDelEntry, hvalid]
  rfl

theorem listDel_dropped (hi : Inv r L) (hd : r.status t = .dropped) (h : Head) :
    listDel r.sched.links (h.node t) = some r.sched.links := by
  obtain ⟨hn, hp⟩ := hi.idle (n := .poison1) (p := .poison2) (by rw [hd]; rfl) h
  rw [listDel, hi.listDelEntry_dropped hd h]
  show some ((r.sched.links.setNext (h.node t) .poison1).setPrev (h.node t) .poison2) = _
  rw [Links.setNext, Links.setPrev]
  simp only [← hn, ← hp, Function.update_eq_self]

/-- A task that was dropped is dropped again: nothing changes. -/
theorem dropAgain (hi : Inv r L) (hd : r.status t = .dropped) :
    r.call (.drop (some t)) = some r := by
  have hlist : listDel r.sched.links (.list t) = some r.sched.links := hi.listDel_dropped hd .suspend
  have hmain : listDel r.sched.links (.mainList t) = some r.sched.links := hi.listDel_dropped hd .main
  simp only [Prog.call, timTaskDrop, Option.bind_eq_bind, hlist, Option.bind_some, hmain]
  show some (Prog.mk r.sched (Function.update r.status t .dropped)) = some r
  rw [← hd, Function.update_eq_self]

/-- The lists once the heads are set up. -/
theorem setup (hi : Inv r L) :
    ∃ m', (if r.sched.init = false then initPriorityHeads r.sched.links else r.sched.links) = m' ∧
      Linked m' (fun _ => True) L ∧
      ∀ c, (∀ h, c ≠ .head h) → m'.next c = r.sched.links.next c ∧
        m'.prev c = r.sched.links.prev c := by
  by_cases hinit : r.sched.init = false
  · refine ⟨_, if_pos hinit, hi.linked.initPriorityHeads (.inr (.inl rfl)) (.inr (.inr rfl)) ?_, ?_⟩
    · rintro p (hlive | hlive | hlive)
      · rw [hinit] at hlive
        cases hlive
      · cases hlive
      · cases hlive
    · intro c hc
      simp [initPriorityHeads, initListHead, Links.setNext, Links.setPrev, hc]
  · refine ⟨_, if_neg hinit, ?_, fun c _ => ⟨rfl, rfl⟩⟩
    have hlive : ∀ h, r.sched.live h := fun h => .inl (Bool.eq_true_of_not_eq_false hinit)
    exact ⟨fun h _ => hi.linked.ring h (hlive h), fun h hfalse => absurd trivial hfalse,
      hi.linked.apart⟩

/-- **Adding** a task that is not registered. -/
theorem add (hi : Inv r L) (hr : r.status t ≠ .registered) (now : Int) {intervalUs : Nat}
    (autoLoad : Bool) (hint : ¬ (intervalUs = 0 ∨ 3600000000 < intervalUs)) :
    ∃ r', r.call (.add now (some t) intervalUs autoLoad true) = some r' ∧
      Inv r' ((L.append (.priority 1) t).append .main t) ∧
      r'.status = Function.update r.status t .registered := by
  obtain ⟨m₀, hm₀, hl₀, hoff₀⟩ := hi.setup
  have hnot : ∀ h h' : Head, h.node t ∉ L.nodes h' := hi.off hr
  have hl₁ := hl₀.offRing (hnot (.priority 1)) (.list t) (.list t)
  have hl₂ := hl₁.offRing (hnot .main) (.mainList t) (.mainList t)
  obtain ⟨m₃, heq₃, hl₃, hoff₃⟩ := hl₂.listAddTail (h := .priority 1) trivial (hnot (.priority 1))
  have hmain : ∀ h', Head.main.node t ∉ (L.append (.priority 1) t).nodes h' := by
    intro h' hin
    obtain ⟨halike, hin⟩ := mem_nodes_node.mp hin
    rcases Lists.mem_append.mp hin with hin | ⟨rfl, -⟩
    · exact hr (hi.mem hin)
    · exact Head.priority_ne 1 (halike.mp rfl)
  obtain ⟨m₄, heq₄, hl₄, hoff₄⟩ := hl₃.listAddTail (h := .main) trivial hmain
  refine ⟨⟨⟨m₄, true, Function.update r.sched.task t ⟨now + intervalUs, intervalUs, autoLoad, 1, 0⟩⟩,
    Function.update r.status t .registered⟩, ?_, ?_, rfl⟩
  · have hadd₃ : listAddTail (initListHead (initListHead m₀ (.list t)) (.mainList t)) (.list t)
        (.head (.priority 1)) = some m₃ := heq₃
    have hadd₄ : listAddTail m₃ (.mainList t) (.head .main) = some m₄ := heq₄
    simp only [Prog.call, timTaskAdd, if_neg hint, hm₀, hadd₃, hadd₄, Option.bind_eq_bind,
      Option.bind_some, if_neg (show ¬ true = false from nofun),
      if_neg (show ¬ (1 : Nat) = 0 from nofun), if_pos]
    rfl
  -- what is in a list is `t`, or was there before
  have hmem : ∀ {h' : Head} {u : T}, u ∈ (L.append (.priority 1) t).append .main t h' →
      u ∈ L h' ∨ u = t ∧ (h' = .priority 1 ∨ h' = .main) := by
    intro h' u hu
    rcases Lists.mem_append.mp hu with hu | ⟨hh, rfl⟩
    · rcases Lists.mem_append.mp hu with hu | ⟨hh, rfl⟩
      · exact .inl hu
      · exact .inr ⟨rfl, .inl hh⟩
    · exact .inr ⟨rfl, .inr hh⟩
  have hold : ∀ {h' : Head} {u : T}, u ∈ L h' → u ∈ (L.append (.priority 1) t).append .main t h' :=
    fun hu => Lists.mem_append.mpr (.inl (Lists.mem_append.mpr (.inl hu)))
  have hne_of : ∀ {h' : Head} {u : T}, u ∈ L h' → u ≠ t := by
    rintro h' u hu rfl
    exact hr (hi.mem hu)
  refine ⟨⟨fun h _ => hl₄.ring h trivial, fun h hdead => absurd (.inl rfl) hdead, hl₄.apart⟩,
    ?_, ?_, ?_, ?_, fun _ => rfl, ?_, ?_, ?_⟩
  · intro h' u hu
    rcases hmem hu with hu | ⟨rfl, -⟩
    · exact (Function.update_of_ne (hne_of hu) _ _).trans (hi.mem hu)
    · exact Function.update_self _ _ _
  · intro u hu
    by_cases hne : u = t
    · exact Lists.mem_append.mpr (.inr ⟨rfl, hne⟩)
    · exact hold (hi.main ((Function.update_of_ne hne _ _).symm.trans hu))
  · intro u hu
    by_cases hne : u = t
    · exact ⟨.priority 1, Head.priority_ne 1,
        Lists.mem_append.mpr (.inl (Lists.mem_append.mpr (.inr ⟨rfl, hne⟩)))⟩
    · obtain ⟨h', hq', hin⟩ := hi.queued ((Function.update_of_ne hne _ _).symm.trans hu)
      exact ⟨h', hq', hold hin⟩
  · intro u n p hu h₀
    change (Function.update r.status t .registered u).idle = some (n, p) at hu
    by_cases hne : u = t
    · rw [hne, Function.update_self] at hu
      cases hu
    · rw [Function.update_of_ne hne] at hu
      have hreg := ne_registered_of_idle hu
      have hnode : ∀ h : Head, h₀.node u ≠ h.node t := fun h heq =>
        hne (Head.node_eq_iff.mp heq).2
      obtain ⟨hn₄, hp₄⟩ := hoff₄ (h₀.node u)
        (fun hin => hreg (by
          rcases Lists.mem_append.mp (mem_nodes_node.mp hin).2 with hin | ⟨-, rfl⟩
          · exact hi.mem hin
          · exact absurd rfl hne)) (hnode .main)
      obtain ⟨hn₃, hp₃⟩ := hoff₃ _ (hi.off hreg h₀ (.priority 1)) (hnode (.priority 1))
      obtain ⟨hn₀, hp₀⟩ := hoff₀ (h₀.node u) fun h => Head.node_ne_head h₀ h u
      obtain ⟨hn, hp⟩ := hi.idle hu h₀
      refine ⟨hn₄.trans (hn₃.trans ?_), hp₄.trans (hp₃.trans ?_)⟩
      · exact (Function.update_of_ne (hnode .main) _ _).trans
          ((Function.update_of_ne (hnode (.priority 1)) _ _).trans (hn₀.trans hn))
      · exact (Function.update_of_ne (hnode .main) _ _).trans
          ((Function.update_of_ne (hnode (.priority 1)) _ _).trans (hp₀.trans hp))
  · intro u
    change (Function.update r.sched.task t _ u).priority < _
    by_cases hne : u = t
    · rw [hne, Function.update_self]
      exact show 1 < MAX_PRIORITY_LEVELS by decide
    · rw [Function.update_of_ne hne]
      exact hi.level u
  · intro p u hu
    change (Function.update r.sched.task t _ u).priority = _
    rcases hmem hu with hu | ⟨rfl, hh | hh⟩
    · rw [Function.update_of_ne (hne_of hu)]
      exact hi.priority hu
    · obtain rfl := Head.priority.inj hh
      rw [Function.update_self]
      rfl
    · cases hh
  · intro u hu
    change Function.update r.status t .registered u = .registered at hu
    show 0 < (Function.update r.sched.task t _ u).intervalUs
    by_cases hne : u = t
    · rw [hne, Function.update_self]
      show 0 < intervalUs
      omega
    · rw [Function.update_of_ne hne] at hu ⊢
      exact hi.timed hu

theorem setInterval (hi : Inv r L) (u : Option T) (newInterval : Nat) :
    ∃ r', r.call (.setInterval u newInterval) = some r' ∧ Inv r' L ∧ r'.status = r.status ∧
      ∀ t, ∃ i, (0 < (r.sched.task t).intervalUs → 0 < i) ∧
        r'.sched.task t = { r.sched.task t with intervalUs := i } := by
  cases u with
  | none => exact ⟨r, rfl, hi, rfl, fun t => ⟨_, id, rfl⟩⟩
  | some u =>
    by_cases hint : newInterval = 0 ∨ 3600000000 < newInterval
    · refine ⟨r, ?_, hi, rfl, fun t => ⟨_, id, rfl⟩⟩
      simp only [Prog.call, timTaskSetInterval, if_pos hint]
      rfl
    · have hfields : ∀ t, ∃ i, (0 < (r.sched.task t).intervalUs → 0 < i) ∧
          (r.sched.setTask u fun k => { k with intervalUs := newInterval }).task t =
            { r.sched.task t with intervalUs := i } := by
        intro t
        by_cases hne : t = u
        · subst hne
          exact ⟨newInterval, fun _ => by omega, Function.update_self _ _ _⟩
        · exact ⟨(r.sched.task t).intervalUs, id, Function.update_of_ne hne _ _⟩
      refine ⟨⟨r.sched.setTask u fun k => { k with intervalUs := newInterval }, r.status⟩, ?_,
        hi.retask (fun t => ?_) fun t ht => ?_, rfl, hfields⟩
      · simp only [Prog.call, timTaskSetInterval, if_neg hint]
        rfl
      · obtain ⟨i, -, hi'⟩ := hfields t
        have hprio := congrArg Task.priority hi'
        exact hprio
      · obtain ⟨i, hpos, hi'⟩ := hfields t
        have hint := congrArg Task.intervalUs hi'
        exact (hpos ht).trans_eq hint.symm

theorem start : Inv (Prog.start (T := T)) fun _ => [] := by
  refine ⟨⟨?_, fun _ _ => rfl, nofun⟩, nofun, nofun, nofun, ?_, fun h => absurd rfl h,
    fun _ => show 0 < MAX_PRIORITY_LEVELS by decide, nofun, nofun⟩
  · rintro h (hlive | rfl | rfl)
    · cases hlive
    · exact ⟨List.nodup_singleton _, rfl, rfl⟩
    · exact ⟨List.nodup_singleton _, rfl, rfl⟩
  · intro t n p hidle h
    cases hidle
    cases h <;> exact ⟨rfl, rfl⟩

end Inv

/-! ### Which calls fit -/

/-- The call is made on a task of the right status: `tim_task_add` on one that is not registered,
`tim_task_drop` on one that was added before, the others on a registered one.  A call that is
refused for its arguments always fits. -/
def Call.Fits (r : Prog T) : Call T → Prop
  | .add _ (some t) intervalUs _ true =>
    0 < intervalUs → intervalUs ≤ 3600000000 → r.status t ≠ .registered
  | .add .. => True
  | .drop (some t) => r.status t ≠ .fresh
  | .drop none => True
  | .suspend (some t) => r.status t = .registered
  | .suspend none => False
  | .resume (some t) => r.status t = .registered
  | .resume none => True
  | .setPriority (some t) newPriority =>
    newPriority < MAX_PRIORITY_LEVELS → r.status t = .registered
  | .setPriority none _ => True
  | .setInterval .. => True

variable [DecidableEq T]

/-- **One call.**  A call that fits does not fault, and keeps the invariant. -/
theorem Inv.call (hi : Inv r L) {c : Call T} (hc : c.Fits r) :
    ∃ r' L', r.call c = some r' ∧ Inv r' L' := by
  cases c with
  | add now u intervalUs autoLoad callback =>
    cases u with
    | none => exact ⟨r, L, rfl, hi⟩
    | some t =>
      cases callback with
      | false => exact ⟨r, L, rfl, hi⟩
      | true =>
        by_cases hint : intervalUs = 0 ∨ 3600000000 < intervalUs
        · refine ⟨r, L, ?_, hi⟩
          simp only [Prog.call, timTaskAdd, if_pos hint]
          rfl
        · obtain ⟨r', heq, hi', -⟩ := hi.add (hc (by omega) (by omega)) now autoLoad hint
          exact ⟨r', _, heq, hi'⟩
  | drop u =>
    cases u with
    | none => exact ⟨r, L, rfl, hi⟩
    | some t =>
      by_cases hd : r.status t = .registered
      · obtain ⟨h, hq, ht⟩ := hi.queued hd
        obtain ⟨r', heq, hi', -⟩ := hi.drop hq ht
        exact ⟨r', _, heq, hi'⟩
      · refine ⟨r, L, hi.dropAgain ?_, hi⟩
        cases hs : r.status t with
        | fresh => exact absurd hs hc
        | registered => exact absurd hs hd
        | dropped => rfl
  | suspend u =>
    cases u with
    | none => exact hc.elim
    | some t =>
      obtain ⟨h, hq, ht⟩ := hi.queued hc
      obtain ⟨r', heq, hi', -⟩ := hi.suspend hq ht
      exact ⟨r', _, heq, hi'⟩
  | resume u =>
    cases u with
    | none => exact ⟨r, L, rfl, hi⟩
    | some t =>
      obtain ⟨h, hq, ht⟩ := hi.queued hc
      obtain ⟨r', heq, hi', -⟩ := hi.resume hq ht
      exact ⟨r', _, heq, hi'⟩
  | setPriority u p =>
    cases u with
    | none => exact ⟨r, L, rfl, hi⟩
    | some t =>
      by_cases hp : p < MAX_PRIORITY_LEVELS
      · obtain ⟨h, hq, ht⟩ := hi.queued (hc hp)
        obtain ⟨r', heq, hi', -⟩ := hi.setPriority hq ht ⟨p, hp⟩
        exact ⟨r', _, heq, hi'⟩
      · refine ⟨r, L, ?_, hi⟩
        simp only [Prog.call, timTaskSetPriority, dif_neg hp]
        rfl
  | setInterval u newInterval =>
    obtain ⟨r', heq, hi', -⟩ := hi.setInterval u newInterval
    exact ⟨r', L, heq, hi'⟩

end Kinetis.TimTask
