import Kinetis.TimTask.Loop

/-!
# Timer tasks — a whole pass

The invariant of the walk (`OnList`): the current node is the first of the tasks `ahead`, the end
of the list being walked; a task that was due at the start has run, was withdrawn by a callback, or
is still pending.  Each round keeps it and makes `weight` smaller: a turn takes away a due task, and
between turns the walk moves on.
-/

namespace Kinetis.TimTask
open Lib

variable {T : Type} {p : Fin 3} {L : Lists T} {ahead : List T}

/-- The tasks of one list are registered tasks. -/
theorem Inv.length_le {r : Prog T} (hi : Inv r L) (h : Head) : (L h).length ≤ (L .main).length :=
  ((hi.linked.nodup h).subperm fun _ hx => hi.main (hi.mem hx)).length_le

variable {n : Node T} {t : T} {rest : List T} {k : Nat}

/-- The node after the one that `Behind` points to. -/
theorem Behind.next_eq {r : Prog T} (hi : Inv r L) (hb : Behind p n L ahead)
    (hlive : r.sched.live (.priority p)) (heq : ahead = t :: rest) :
    r.sched.links.next n = (rest.map .list).headD (.head (.priority p)) := by
  obtain ⟨l, hl⟩ := hb.split
  have hring := (hi.linked.ring (.priority p) hlive).path
  rw [hl, heq, List.map_append] at hring
  rw [hb.node, heq]
  exact (path_append.mp hring).2.next_eq

theorem Behind.mapped (hb : Behind p n L ahead) : n.mapped = true := by
  rw [hb.node]
  cases ahead <;> rfl

variable [DecidableEq T]

/-- `pos` and `n` stand at the tasks `ahead`. -/
structure Walk.At (w : Walk T) (p : Fin 3) (L : Lists T) (ahead : List T) : Prop where
  priority : w.priority = p
  pos : Behind p w.pos L ahead
  next : ∀ t rest, ahead = t :: rest → w.n = (rest.map .list).headD (.head (.priority p))

/-- No task has run twice; one that has run is not due any more; and one that was due has run, was
withdrawn, or is pending. -/
structure Accounts (now : Int) (due : T → Prop) (w : Walk T) (pending : T → Prop) : Prop where
  once : ∀ x, w.trace.count (.run x) ≤ 1
  served : ∀ x, .run x ∈ w.trace → w.prog.status x = .registered →
    now < (w.prog.sched.task x).timeout
  settled : ∀ x, due x →
    .run x ∈ w.trace ∨ (∃ c, .call c ∈ w.trace ∧ c.Withdraws x) ∨ pending x

/-- The number of due tasks. -/
def dueCount (now : Int) (r : Prog T) (L : Lists T) : Nat :=
  ((L .main).filter fun x => (r.sched.task x).timeout ≤ now).length

def weight (now : Int) (r : Prog T) (L : Lists T) (N : Nat) (p : Fin 3) (ahead : List T) : Nat :=
  dueCount now r L * (4 * (N + 1)) + (3 - p) * (N + 1) + ahead.length

/-- The walk is at the tasks `ahead` of the list of priority `p`, with at most `N` tasks in all. -/
structure OnList (now : Int) (due : T → Prop) (N : Nat) (w : Walk T) (p : Fin 3) (L : Lists T)
    (ahead : List T) : Prop where
  inv : Inv w.prog L
  init : w.prog.sched.init = true
  place : w.At p L ahead
  accounts : Accounts now due w (Pending now w.prog L p ahead)
  size : (L .main).length ≤ N

/-- The walk is over. -/
structure Over (now : Int) (due : T → Prop) (w : Walk T) : Prop where
  priority : w.priority = MAX_PRIORITY_LEVELS
  accounts : Accounts now due w fun _ => False

variable {now : Int} {due : T → Prop} {N : Nat} {w : Walk T} {env : Env T}

/-- **The start of a list.** -/
theorem OnList.enter (hi : Inv w.prog L) (hinit : w.prog.sched.init = true)
    (hsize : (L .main).length ≤ N) {q : Fin 3}
    (hacc : Accounts now due w fun x => (w.prog.sched.task x).timeout ≤ now ∧
      ∃ q' : Fin 3, q ≤ q' ∧ x ∈ L (.priority q')) :
    ∃ w', w.enter q = some w' ∧ w'.prog = w.prog ∧
      OnList now due N w' q L (L (.priority q)) := by
  have hlive : w.prog.sched.live (.priority q) := .inl hinit
  have hb : Behind q (w.prog.sched.links.next (.head (.priority q))) L (L (.priority q)) :=
    ⟨⟨[], rfl⟩, (hi.linked.ring _ hlive).path.next_eq⟩
  have hq : (q : Nat) < MAX_PRIORITY_LEVELS := q.2
  refine ⟨{ w with
    priority := q
    pos := w.prog.sched.links.next (.head (.priority q))
    n := w.prog.sched.links.next (w.prog.sched.links.next (.head (.priority q))) }, ?_, rfl, hi,
    hinit, ⟨rfl, hb, fun t rest heq => hb.next_eq hi hlive heq⟩, ⟨hacc.once, hacc.served, ?_⟩,
    hsize⟩
  · rw [Walk.enter, dif_pos hq]
    exact if_pos hb.mapped
  intro x hx
  rcases hacc.settled x hx with hran | hout | ⟨hdue, q', hle, hin⟩
  · exact .inl hran
  · exact .inr (.inl hout)
  · refine .inr (.inr ⟨hdue, ?_⟩)
    rcases Fin.eq_or_lt_of_le hle with rfl | hlt
    · exact .inl hin
    · exact .inr ⟨q', hlt, hin⟩

/-- **The end of a list**: the walk enters the next one, or is over. -/
theorem OnList.step_end (env : Env T) (ho : OnList now due N w p L []) :
    ∃ w', w.step env now = some w' ∧
      (Over now due w' ∨ w'.prog = w.prog ∧ ∃ q : Fin 3, (p : Nat) < q ∧
        OnList now due N w' q L (L (.priority q))) := by
  have hstep : w.step env now = w.enter (p + 1) := by
    have hp : ¬ MAX_PRIORITY_LEVELS ≤ w.priority := by
      rw [ho.place.priority]
      exact Nat.not_le.mpr p.2
    rw [Walk.step, if_neg hp, ho.place.pos.node]
    show (if (p : Nat) = w.priority then w.enter (w.priority + 1) else none) = _
    rw [ho.place.priority, if_pos rfl]
  have hpend : ∀ x, Pending now w.prog L p [] x →
      (w.prog.sched.task x).timeout ≤ now ∧ ∃ q' : Fin 3, (p : Nat) < q' ∧ x ∈ L (.priority q') := by
    rintro x ⟨hdue, hin | hin⟩
    · cases hin
    · exact ⟨hdue, hin⟩
  rw [hstep]
  by_cases hlast : (p : Nat) + 1 < MAX_PRIORITY_LEVELS
  · have hacc : Accounts now due w fun x => (w.prog.sched.task x).timeout ≤ now ∧
        ∃ q' : Fin 3, (⟨p + 1, hlast⟩ : Fin 3) ≤ q' ∧ x ∈ L (.priority q') := by
      refine ⟨ho.accounts.once, ho.accounts.served, fun x hx => ?_⟩
      rcases ho.accounts.settled x hx with hran | hout | hx
      · exact .inl hran
      · exact .inr (.inl hout)
      · obtain ⟨hdue, q', hlt, hin⟩ := hpend x hx
        exact .inr (.inr ⟨hdue, q', hlt, hin⟩)
    obtain ⟨w', heq, hprog, ho'⟩ := OnList.enter ho.inv ho.init ho.size hacc
    exact ⟨w', heq, .inr ⟨hprog, _, Nat.lt_succ_self _, ho'⟩⟩
  · refine ⟨{ w with priority := p + 1 }, by rw [Walk.enter, dif_neg hlast], .inl ⟨?_, ?_⟩⟩
    · show (p : Nat) + 1 = MAX_PRIORITY_LEVELS
      rw [MAX_PRIORITY_LEVELS] at *
      omega
    · refine ⟨ho.accounts.once, ho.accounts.served, fun x hx => ?_⟩
      rcases ho.accounts.settled x hx with hran | hout | hx
      · exact .inl hran
      · exact .inr (.inl hout)
      · obtain ⟨-, q', hlt, -⟩ := hpend x hx
        rw [MAX_PRIORITY_LEVELS] at hlast
        omega

/-- `advance`, once the body has left the walk behind the saved node. -/
theorem OnList.advance (hi : Inv w.prog L)
    (hinit : w.prog.sched.init = true) (hp : w.priority = p) (hb : Behind p w.n L ahead)
    (hsize : (L .main).length ≤ N)
    (hacc : Accounts now due w (Pending now w.prog L p ahead)) :
    ∃ w', w.advance = some w' ∧ w'.prog = w.prog ∧ OnList now due N w' p L ahead :=
  ⟨{ w with pos := w.n, n := w.prog.sched.links.next w.n }, if_pos hb.mapped, rfl, hi,
    hinit, ⟨hp, hb, fun _ _ heq => hb.next_eq hi (.inl hinit) heq⟩, ⟨hacc.once, hacc.served, hacc.settled⟩,
    hsize⟩

variable {r' : Prog T} {L' : Lists T}

/-- A turn takes `t` from the due tasks. -/
theorem Turned.dueCount_lt {r : Prog T} (hi : Inv r L) (hi' : Inv r' L')
    (ht : r.status t = .registered) (hdue : (r.sched.task t).timeout ≤ now)
    (hturn : Turned now t r r') : dueCount now r' L' < dueCount now r L := by
  have hmem : t ∈ (L .main).filter fun x => (r.sched.task x).timeout ≤ now :=
    List.mem_filter.mpr ⟨hi.main ht, decide_eq_true hdue⟩
  have hsub : ((L' .main).filter fun x => (r'.sched.task x).timeout ≤ now) ⊆
      ((L .main).filter fun x => (r.sched.task x).timeout ≤ now).erase t := by
    intro x hx
    obtain ⟨hin, hx⟩ := List.mem_filter.mp hx
    have hreg := hi'.mem hin
    have hxt : x ≠ t := by
      rintro rfl
      exact absurd (of_decide_eq_true hx) (not_le.mpr (hturn.served hreg))
    refine (List.mem_erase_of_ne hxt).mpr (List.mem_filter.mpr ⟨hi.main (hturn.registered hreg), ?_⟩)
    rw [← hturn.timeout x hxt]
    exact hx
  have hle := (((hi'.linked.nodup .main).filter _).subperm hsub).length_le
  rw [List.length_erase_of_mem hmem] at hle
  have hpos := List.length_pos_of_mem hmem
  rw [dueCount, dueCount]
  omega

/-- The accounts after a turn. -/
theorem Accounts.turn {ahead' : List T}
    (hacc : Accounts now due w (Pending now w.prog L p (t :: rest)))
    (hdue : (w.prog.sched.task t).timeout ≤ now) (hreg : w.prog.status t = .registered)
    (hturn : Turned now t w.prog r')
    (hpend : ∀ y ≠ t, Pending now w.prog L p rest y →
      (∀ c ∈ env.callback w.runs t, ¬ c.Withdraws y) → Pending now r' L' p ahead' y) :
    Accounts now due { w with
      prog := r'
      runs := w.runs + 1
      trace := w.trace ++ .run t :: (env.callback w.runs t).map .call }
      (Pending now r' L' p ahead') := by
  have hnone : ∀ x, ((env.callback w.runs t).map Event.call).count (.run x) = 0 := by
    intro x
    refine List.count_eq_zero.mpr fun hmem => ?_
    obtain ⟨c, -, hc⟩ := List.mem_map.mp hmem
    cases hc
  refine ⟨?_, ?_, ?_⟩
  · intro x
    rw [List.count_append, List.count_cons, hnone]
    by_cases hx : x = t
    · -- a task that has run is not due, so this is its first run
      have hno : w.trace.count (.run t) = 0 := List.count_eq_zero.mpr fun hmem =>
        absurd hdue (not_le.mpr (hacc.served t hmem hreg))
      subst hx
      simp [hno]
    · have hne : ¬ (Event.run t : Event T) = .run x := fun he => hx (Event.run.inj he).symm
      simp [hne, hacc.once x]
  · intro x hmem hx
    by_cases hxt : x = t
    · subst hxt
      exact hturn.served hx
    · rw [hturn.timeout x hxt]
      refine hacc.served x ?_ (hturn.registered hx)
      rcases List.mem_append.mp hmem with hmem | hmem
      · exact hmem
      · rcases List.mem_cons.mp hmem with he | hmem
        · exact absurd (Event.run.inj he) hxt
        · obtain ⟨c, -, hc⟩ := List.mem_map.mp hmem
          cases hc
  · intro x hx
    rcases hacc.settled x hx with hran | ⟨c, hc, hw⟩ | ⟨hxdue, hin⟩
    · exact .inl (List.mem_append_left _ hran)
    · exact .inr (.inl ⟨c, List.mem_append_left _ hc, hw⟩)
    · by_cases hxt : x = t
      · subst hxt
        exact .inl (List.mem_append_right _ List.mem_cons_self)
      · by_cases hw : ∃ c ∈ env.callback w.runs t, c.Withdraws x
        · obtain ⟨c, hc, hw⟩ := hw
          exact .inr (.inl ⟨c, List.mem_append_right _
            (List.mem_cons_of_mem _ (List.mem_map_of_mem hc)), hw⟩)
        · refine .inr (.inr (hpend x hxt ⟨hxdue, ?_⟩ fun c hc hcw => hw ⟨c, hc, hcw⟩))
          rcases hin with hin | hin
          · exact .inl ((List.mem_cons.mp hin).resolve_left hxt)
          · exact .inr hin

/-- **A round at a task.** -/
theorem OnList.step_task (ho : OnList now due N w p L (t :: rest))
    (hclock : ∀ k, now ≤ env.ktime k)
    (hok : (w.prog.sched.task t).timeout ≤ now →
      w.prog.All (fun r c => c.Permitted r ∧ c.Keeps now w t r) (env.callback w.runs t)) :
    ∃ w' L' ahead', w.step env now = some w' ∧ OnList now due N w' p L' ahead' ∧
      (w'.prog = w.prog ∧ L' = L ∧ ahead' = rest ∨
        dueCount now w'.prog L' < dueCount now w.prog L) := by
  obtain ⟨l, hl⟩ := ho.place.pos.split
  have hin : t ∈ L (.priority p) := by
    rw [hl]
    exact List.mem_append_right l List.mem_cons_self
  have hreg := ho.inv.mem hin
  have hn : w.n = (rest.map .list).headD (.head (.priority p)) := ho.place.next t rest rfl
  have hb : Behind p w.n L rest := ⟨⟨l ++ [t], by rw [hl, List.append_assoc]; rfl⟩, hn⟩
  have hstep : w.step env now = (w.visit env now t).bind Walk.advance := by
    have hp : ¬ MAX_PRIORITY_LEVELS ≤ w.priority := by
      rw [ho.place.priority]
      exact Nat.not_le.mpr p.2
    rw [Walk.step, if_neg hp, ho.place.pos.node]
    rfl
  -- the saved node is not the node of `t`
  have hnt : w.n ≠ .list t := by
    have hnodup := ho.inv.linked.nodup (.priority p)
    rw [hl] at hnodup
    have hrest := (List.nodup_cons.mp (List.nodup_append.mp hnodup).2.1).1
    rw [hn]
    cases rest with
    | nil => exact nofun
    | cons u rest =>
      intro he
      exact hrest (Node.list.inj he ▸ List.mem_cons_self)
  rw [hstep]
  by_cases hdue : (w.prog.sched.task t).timeout ≤ now
  · obtain ⟨r', L', a', heq, hi', hb', hturn, hpend⟩ := ho.inv.runTask now ho.place.priority hb
      hreg hnt hclock (hok hdue)
    have hinit' : r'.sched.init = true := hi'.init (t := t) fun hf => by
      rw [hturn.fresh hf] at hreg
      cases hreg
    have hsize : (L' .main).length ≤ N := by
      refine Nat.le_trans ?_ ho.size
      exact ((hi'.linked.nodup .main).subperm fun x hx =>
        ho.inv.main (hturn.registered (hi'.mem hx))).length_le
    have hvisit : w.visit env now t = some { w with
        prog := r'
        runs := w.runs + 1
        trace := w.trace ++ .run t :: (env.callback w.runs t).map .call } := by
      rw [Walk.visit, if_pos hdue, heq]
      rfl
    rw [hvisit]
    have hacc := ho.accounts.turn hdue hreg hturn hpend
    obtain ⟨w', hadv, hprog, ho'⟩ := OnList.advance
      (w := { w with prog := r', runs := w.runs + 1,
                     trace := w.trace ++ .run t :: (env.callback w.runs t).map .call })
      hi' hinit' ho.place.priority hb' hsize hacc
    refine ⟨w', L', a', hadv, ho', .inr ?_⟩
    rw [hprog]
    exact hturn.dueCount_lt ho.inv hi' hreg hdue
  · -- not due: only `pos` moves on
    have hvisit : w.visit env now t = some w := if_neg hdue
    rw [hvisit]
    have hacc : Accounts now due w (Pending now w.prog L p rest) := by
      refine ⟨ho.accounts.once, ho.accounts.served, fun x hx => ?_⟩
      rcases ho.accounts.settled x hx with hran | hout | ⟨hx, hin | hin⟩
      · exact .inl hran
      · exact .inr (.inl hout)
      · rcases List.mem_cons.mp hin with rfl | hin
        · exact absurd hx hdue
        · exact .inr (.inr ⟨hx, .inl hin⟩)
      · exact .inr (.inr ⟨hx, .inr hin⟩)
    obtain ⟨w', heq, hprog, ho'⟩ := OnList.advance ho.inv ho.init ho.place.priority hb ho.size hacc
    exact ⟨w', L, rest, heq, ho', .inl ⟨hprog, rfl, rfl⟩⟩

/-! ### The pass -/

/-- The task is linked in the suspend list. -/
def Suspended (r : Prog T) (x : T) : Prop := ∃ L, Arranged r L ∧ x ∈ L .suspend

/-- The task is registered, due, and not suspended. -/
def DueIn (now : Int) (r : Prog T) (x : T) : Prop :=
  r.status x = .registered ∧ (r.sched.task x).timeout ≤ now ∧ ¬ Suspended r x

/-- The current node is the head of the list being walked, or a task linked in it. -/
def Walk.OnLiveNode (w : Walk T) : Prop :=
  ∃ L p, Arranged w.prog L ∧ w.priority = (p : Fin 3) ∧
    (w.pos = .head (.priority p) ∨ ∃ t ∈ L (.priority p), w.pos = .list t)

theorem OnList.onLiveNode (ho : OnList now due N w p L ahead) : w.OnLiveNode := by
  refine ⟨L, p, ho.inv.arranged, ho.place.priority, ?_⟩
  have hnode := ho.place.pos.node
  obtain ⟨l, hl⟩ := ho.place.pos.split
  cases ahead with
  | nil => exact .inl hnode
  | cons t rest =>
    refine .inr ⟨t, ?_, hnode⟩
    rw [hl]
    exact List.mem_append_right l List.mem_cons_self

/-- The walk is over, or at some place of a list. -/
def Good (now : Int) (due : T → Prop) (N : Nat) (w : Walk T) : Prop :=
  Over now due w ∨ ∃ p L ahead, OnList now due N w p L ahead

/-- **The first round.** -/
theorem Inv.walkStart (now : Int) {r : Prog T} (hi : Inv r L) :
    ∃ w, Walk.start r = some w ∧ Good now (DueIn now r) (L .main).length w := by
  -- a due task is in one of the priority lists
  have hprio : ∀ x, DueIn now r x → ∃ q : Fin 3, x ∈ L (.priority q) := by
    rintro x ⟨hreg, -, hsus⟩
    obtain ⟨h, hq, hin⟩ := hi.queued hreg
    cases h with
    | main => exact absurd rfl hq
    | suspend => exact absurd ⟨L, hi.arranged, hin⟩ hsus
    | priority q => exact ⟨q, hin⟩
  by_cases hinit : r.sched.init = false
  · refine ⟨_, if_pos hinit, .inl ⟨rfl, fun x => Nat.zero_le _, nofun, ?_⟩⟩
    intro x hx
    obtain ⟨q, hin⟩ := hprio x hx
    rw [hi.init_of_mem hin] at hinit
    cases hinit
  · have hacc : Accounts now (DueIn now r) ⟨r, 0, .null, .null, 0, []⟩ fun x =>
        (r.sched.task x).timeout ≤ now ∧ ∃ q' : Fin 3, 0 ≤ q' ∧ x ∈ L (.priority q') := by
      refine ⟨fun x => Nat.zero_le _, nofun, fun x hx => ?_⟩
      obtain ⟨q, hin⟩ := hprio x hx
      exact .inr (.inr ⟨hx.2.1, q, Fin.zero_le q, hin⟩)
    obtain ⟨w, heq, -, ho⟩ := OnList.enter hi (Bool.eq_true_of_not_eq_false hinit) (Nat.le_refl _)
      hacc
    exact ⟨w, (if_neg hinit).trans heq, .inr ⟨0, L, _, ho⟩⟩

/-- `P` holds of every call of every callback that the pass runs, when it is made. -/
def Callbacks (env : Env T) (now : Int) (r : Prog T) (P : Walk T → T → Prog T → Call T → Prop) :
    Prop :=
  ∀ k w t, timTaskLoop env now r k = some w → w.priority < MAX_PRIORITY_LEVELS →
    w.pos = .list t → (w.prog.sched.task t).timeout ≤ now →
    w.prog.All (P w t) (env.callback w.runs t)

section Pass

variable {r : Prog T} (hclock : ∀ k, now ≤ env.ktime k)
  (hok : Callbacks env now r fun w t r c => c.Permitted r ∧ c.Keeps now w t r)
include hclock hok

/-- **A round** of the pass, from any place of a list. -/
theorem OnList.round (heq : timTaskLoop env now r k = some w) (ho : OnList now due N w p L ahead) :
    ∃ w', w.step env now = some w' ∧ (Over now due w' ∨ ∃ p' L' ahead',
      OnList now due N w' p' L' ahead' ∧
      weight now w'.prog L' N p' ahead' < weight now w.prog L N p ahead) := by
  cases ahead with
  | nil =>
    obtain ⟨w', hstep, hover | ⟨hprog, q, hlt, ho'⟩⟩ := ho.step_end env
    · exact ⟨w', hstep, .inl hover⟩
    · refine ⟨w', hstep, .inr ⟨q, L, _, ho', ?_⟩⟩
      have hlen := Nat.le_trans (ho.inv.length_le (.priority q)) ho.size
      have hmul : (3 - (q : Nat) + 1) * (N + 1) ≤ (3 - (p : Nat)) * (N + 1) :=
        Nat.mul_le_mul_right _ (by omega)
      rw [Nat.add_one_mul] at hmul
      rw [weight, weight, hprog]
      omega
  | cons t rest =>
    have hpos : w.pos = .list t := ho.place.pos.node
    have hlt : w.priority < MAX_PRIORITY_LEVELS := by
      rw [ho.place.priority]
      exact p.2
    obtain ⟨w', L', a', hstep, ho', ⟨hprog, rfl, rfl⟩ | hdue⟩ :=
      ho.step_task hclock (hok k w t heq hlt hpos)
    · refine ⟨w', hstep, .inr ⟨p, _, _, ho', ?_⟩⟩
      rw [weight, weight, hprog, List.length_cons]
      omega
    · refine ⟨w', hstep, .inr ⟨p, _, _, ho', ?_⟩⟩
      obtain ⟨l, hl⟩ := ho'.place.pos.split
      have hlen := Nat.le_trans (ho'.inv.length_le (.priority p)) ho'.size
      rw [hl, List.length_append] at hlen
      have hmul := Nat.mul_le_mul_right (4 * (N + 1)) (Nat.succ_le_of_lt hdue)
      rw [Nat.succ_mul] at hmul
      rw [weight, weight]
      omega

/-- **Every round** of the pass. -/
theorem good_of_start {w₀ : Walk T} (hstart : Walk.start r = some w₀) (hgood : Good now due N w₀)
    (k : Nat) : ∃ w, timTaskLoop env now r k = some w ∧ Good now due N w := by
  induction k with
  | zero => exact ⟨w₀, hstart, hgood⟩
  | succ k ih =>
    obtain ⟨w, heq, hover | ⟨p, L, ahead, ho⟩⟩ := ih
    · refine ⟨w, ?_, .inl hover⟩
      rw [timTaskLoop, heq]
      exact if_pos (Nat.le_of_eq hover.priority.symm)
    · obtain ⟨w', hstep, hnext⟩ := ho.round hclock hok heq
      refine ⟨w', by rw [timTaskLoop, heq]; exact hstep, ?_⟩
      rcases hnext with hover | ⟨p', L', a', ho', -⟩
      · exact .inl hover
      · exact .inr ⟨p', L', a', ho'⟩

/-- **The pass ends.** -/
theorem over_of_onList (m : Nat) (heq : timTaskLoop env now r k = some w)
    (ho : OnList now due N w p L ahead) (hm : weight now w.prog L N p ahead ≤ m) :
    ∃ k' w', timTaskLoop env now r k' = some w' ∧ Over now due w' := by
  induction m generalizing k w p L ahead with
  | zero =>
    -- in a list the weight is positive
    have hpos : 0 < (3 - (p : Nat)) * (N + 1) := Nat.mul_pos (by omega) (Nat.succ_pos N)
    rw [weight] at hm
    omega
  | succ m ih =>
    obtain ⟨w', hstep, hnext⟩ := ho.round hclock hok heq
    have heq' : timTaskLoop env now r (k + 1) = some w' := by
      rw [timTaskLoop, heq]
      exact hstep
    rcases hnext with hover | ⟨p', L', a', ho', hlt⟩
    · exact ⟨k + 1, w', heq', hover⟩
    · exact ih heq' ho' (by omega)

end Pass

/-- **One pass of `tim_task_loop`**, over the tasks registered by any sequence of calls that fit,
with callbacks that act on registered tasks only and keep the walk's place in its lists.  It never
leaves the list it walks, it ends, it runs no task twice, and a task that was due at its start and
not suspended has run once, or was suspended or dropped by a callback and has not run. -/
theorem pass_runs_due (T : Type) [DecidableEq T] (env : Env T) (now : Int) (cs : List (Call T))
    (r : Prog T) (hcs : (Prog.start : Prog T).AllFit cs)
    (hr : (Prog.start : Prog T).calls cs = some r) (hclock : ∀ k, now ≤ env.ktime k)
    (hperm : Callbacks env now r fun _ _ r c => c.Permitted r)
    (hkeep : Callbacks env now r fun w t r c => c.Keeps now w t r) :
    (∀ k, ∃ w, timTaskLoop env now r k = some w ∧
      (w.priority < MAX_PRIORITY_LEVELS → w.OnLiveNode)) ∧
    ∃ k w, timTaskLoop env now r k = some w ∧ w.priority = MAX_PRIORITY_LEVELS ∧
      (∀ x, w.trace.count (.run x) ≤ 1) ∧
      ∀ x, DueIn now r x → w.trace.count (.run x) = 1 ∨
        w.trace.count (.run x) = 0 ∧ ∃ c, .call c ∈ w.trace ∧ c.Withdraws x := by
  obtain ⟨r', L, heq, hi⟩ := Inv.start.calls hcs
  obtain rfl : r' = r := Option.some.inj (heq.symm.trans hr)
  obtain ⟨w₀, hstart, hgood⟩ := hi.walkStart now
  have hok : Callbacks env now r' fun w t r c => c.Permitted r ∧ c.Keeps now w t r :=
    fun k w t hk hp hpos hdue => (hperm k w t hk hp hpos hdue).and (hkeep k w t hk hp hpos hdue)
  refine ⟨?_, ?_⟩
  · intro k
    obtain ⟨w, hw, hover | ⟨p, L, ahead, ho⟩⟩ := good_of_start hclock hok hstart hgood k
    · refine ⟨w, hw, fun hlt => ?_⟩
      rw [hover.priority] at hlt
      exact absurd hlt (Nat.lt_irrefl _)
    · exact ⟨w, hw, fun _ => ho.onLiveNode⟩
  · obtain ⟨k, w, hw, hover⟩ : ∃ k w, timTaskLoop env now r' k = some w ∧
        Over now (DueIn now r') w := by
      rcases hgood with hover | ⟨p, L, ahead, ho⟩
      · exact ⟨0, w₀, hstart, hover⟩
      · exact over_of_onList hclock hok _ (k := 0) hstart ho (Nat.le_refl _)
    refine ⟨k, w, hw, hover.priority, hover.accounts.once, fun x hx => ?_⟩
    by_cases hran : .run x ∈ w.trace
    · exact .inl (Nat.le_antisymm (hover.accounts.once x) (List.count_pos_iff.mpr hran))
    · refine .inr ⟨List.count_eq_zero.mpr hran, ?_⟩
      rcases hover.accounts.settled x hx with hmem | hout | hfalse
      · exact absurd hmem hran
      · exact hout
      · exact hfalse.elim

/-! ### The simulated motor -/

/-- Two tasks of the stator. -/
inductive StatorTask where
  | fakePulseTask
  | simTask
  deriving DecidableEq, Repr

/-- The calls of `motor_simulation`. -/
def motorSimulation (periodUs : Nat) : List (Call StatorTask) :=
  if 0 < periodUs then
    [.setInterval (some .fakePulseTask) periodUs, .resume (some .fakePulseTask)]
  else [.suspend (some .fakePulseTask)]

/-- The callbacks of the two tasks, with the motor at one turn in `periodUs`, or at rest. -/
def statorEnv (periodUs : Nat) : Env StatorTask where
  callback _ t :=
    match t with
    | .fakePulseTask => []
    | .simTask => motorSimulation periodUs
  ktime _ := 100000

/-- The two tasks, added at the time `0`. -/
def addTasks (ts : List StatorTask) : List (Call StatorTask) :=
  ts.map fun t => .add 0 (some t) 66667 true true

/-- The program once the tasks are added. -/
def statorProg (ts : List StatorTask) : Prog StatorTask :=
  ((Prog.start : Prog StatorTask).calls (addTasks ts)).getD Prog.start

variable {o : Option (Walk T)}

/-- After the last list, and after a fault, nothing happens any more. -/
theorem timTaskLoop_stays {r : Prog T} (h : timTaskLoop env now r k = o)
    (ho : ∀ w, o = some w → MAX_PRIORITY_LEVELS ≤ w.priority) (j : Nat) :
    timTaskLoop env now r (j + k) = o := by
  induction j with
  | zero => rw [Nat.zero_add, h]
  | succ j ih =>
    rw [Nat.succ_add, timTaskLoop, ih]
    cases o with
    | none => rfl
    | some w => exact if_pos (ho w rfl)

/-- What is to be checked of a pass that is over, or has faulted, after `n` rounds. -/
theorem Callbacks.of_rounds {r : Prog T} {P : Walk T → T → Prog T → Call T → Prop} (n : Nat)
    (hend : timTaskLoop env now r n = o)
    (ho : ∀ w, o = some w → MAX_PRIORITY_LEVELS ≤ w.priority)
    (h : ∀ k < n, ∀ w t, timTaskLoop env now r k = some w → w.pos = .list t →
      w.prog.All (P w t) (env.callback w.runs t)) : Callbacks env now r P := by
  intro k w t hk hp hpos _
  rcases Nat.lt_or_ge k n with hlt | hge
  · exact h k hlt w t hk hpos
  · obtain ⟨j, rfl⟩ := Nat.exists_eq_add_of_le' hge
    rw [timTaskLoop_stays hend ho] at hk
    exact absurd hp (Nat.not_lt.mpr (ho w hk))

/-- The motor at speed: its simulation resumes the pulse task, which stands before it. -/
theorem pass_runs_due_motor :
    (∀ k, ∃ w, timTaskLoop (statorEnv 50000) 90000 (statorProg [.fakePulseTask, .simTask]) k =
        some w ∧ (w.priority < MAX_PRIORITY_LEVELS → w.OnLiveNode)) ∧
    ∃ k w, timTaskLoop (statorEnv 50000) 90000 (statorProg [.fakePulseTask, .simTask]) k =
        some w ∧ w.priority = MAX_PRIORITY_LEVELS ∧ (∀ x, w.trace.count (.run x) ≤ 1) ∧
      ∀ x, DueIn 90000 (statorProg [.fakePulseTask, .simTask]) x →
        w.trace.count (.run x) = 1 ∨
          w.trace.count (.run x) = 0 ∧ ∃ c, .call c ∈ w.trace ∧ c.Withdraws x := by
  refine pass_runs_due StatorTask (statorEnv 50000) 90000 (addTasks [.fakePulseTask, .simTask])
    (statorProg [.fakePulseTask, .simTask]) ⟨fun _ _ => nofun, fun _ _ => nofun, trivial⟩ rfl
    (fun _ => show (90000 : Int) ≤ 100000 by decide) ?_ ?_
  · refine Callbacks.of_rounds 5 rfl (fun w hw => by cases hw; decide) fun k hk w t hw hpos => ?_
    match k with
    | 0 | 3 | 4 => cases hw; cases hpos
    | 1 => cases hw; cases hpos; exact trivial
    | 2 => cases hw; cases hpos; exact ⟨rfl, rfl, trivial⟩
  · refine Callbacks.of_rounds 5 rfl (fun w hw => by cases hw; decide) fun k hk w t hw hpos => ?_
    match k with
    | 0 | 3 | 4 => cases hw; cases hpos
    | 1 => cases hw; cases hpos; exact trivial
    | 2 => cases hw; cases hpos; exact ⟨trivial, nofun, trivial⟩

/-- **The saved node suspended.**  The motor at rest, and the pulse task after its simulation: the
simulation suspends the task of the saved node, the walk goes on in the suspend list, and takes its
head for a task. -/
theorem suspended_successor_lost :
    (Prog.start : Prog StatorTask).AllFit (addTasks [.simTask, .fakePulseTask]) ∧
      (Prog.start : Prog StatorTask).calls (addTasks [.simTask, .fakePulseTask]) =
        some (statorProg [.simTask, .fakePulseTask]) ∧
      Callbacks (statorEnv 0) 90000 (statorProg [.simTask, .fakePulseTask])
        (fun _ _ r c => c.Permitted r) ∧
      timTaskLoop (statorEnv 0) 90000 (statorProg [.simTask, .fakePulseTask]) 4 = none := by
  refine ⟨⟨fun _ _ => nofun, fun _ _ => nofun, trivial⟩, rfl, ?_, rfl⟩
  refine Callbacks.of_rounds 4 rfl nofun fun k hk w t hw hpos => ?_
  match k with
  | 0 | 3 => cases hw; cases hpos
  | 1 => cases hw; cases hpos; exact ⟨rfl, trivial⟩
  | 2 => cases hw; cases hpos; exact trivial

end Kinetis.TimTask
