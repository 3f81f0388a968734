import Kinetis.TimTask.WellFormed

/-!
# Timer tasks — one pass of the loop

`tim_task_loop` walks the three priority lists with `list_for_each_entry_safe`, which saves the
node after the current one, `n`, before the body runs, and goes on from there.  The body may run a
callback, and the callback may move tasks about.

A node that is not a task's, followed as if it were one, is a fault of the model (`none`).

* `pass_runs_due`: as long as no callback moves the task of the saved node, or takes a due task to a
  place that is already passed, the pass ends, stays on the list it walks, and runs every due task
  once.
* `suspended_successor_lost`: a callback that suspends the task after its own leads the loop off
  the list.
-/

namespace Kinetis.TimTask
open Lib

variable {T : Type} [DecidableEq T]

/-! ### The loop -/

/-- What a pass is given from outside, by the number of callbacks run before: the calls each
callback makes, and the time at its end. -/
structure Env (T : Type) where
  callback : Nat → T → List (Call T)
  ktime : Nat → Int

inductive Event (T : Type) where
  | run (t : T)
  | call (c : Call T)
  deriving DecidableEq

/-- The program, the locals of `tim_task_loop`, and what happened. -/
structure Walk (T : Type) where
  prog : Prog T
  priority : Nat
  pos : Node T
  n : Node T
  runs : Nat
  trace : List (Event T)

variable (env : Env T) (now : Int)

/-- The body for a task that is due. -/
def Walk.runTask (w : Walk T) (t : T) : Option (Prog T) := do
  let r ← w.prog.calls (env.callback w.runs t)
  let s := r.sched.setTask t fun k => { k with executionCount := (k.executionCount + 1) % 2 ^ 32 }
  if (s.task t).autoLoad then
    return ⟨s.setTask t fun k => { k with timeout := env.ktime w.runs + k.intervalUs }, r.status⟩
  else (Prog.mk s r.status).call (.drop (some t))

def Walk.visit (w : Walk T) (t : T) : Option (Walk T) :=
  if (w.prog.sched.task t).timeout ≤ now then do
    let r ← w.runTask env t
    return { w with
      prog := r
      runs := w.runs + 1
      trace := w.trace ++ .run t :: (env.callback w.runs t).map .call }
  else some w

/-- `pos = n, n = list_next_entry(n)`. -/
def Walk.advance (w : Walk T) : Option (Walk T) :=
  if w.n.mapped then some { w with pos := w.n, n := w.prog.sched.links.next w.n } else none

/-- The start of the list of priority `p`; after the last one the pass is over. -/
def Walk.enter (w : Walk T) (p : Nat) : Option (Walk T) :=
  if h : p < MAX_PRIORITY_LEVELS then
    let pos := w.prog.sched.links.next (.head (.priority ⟨p, h⟩))
    if pos.mapped then
      some { w with priority := p, pos := pos, n := w.prog.sched.links.next pos }
    else none
  else some { w with priority := p }

def Walk.step (w : Walk T) : Option (Walk T) :=
  if MAX_PRIORITY_LEVELS ≤ w.priority then some w
  else
    match w.pos with
    | .list t => (w.visit env now t).bind Walk.advance
    | .head (.priority p) => if (p : Nat) = w.priority then w.enter (w.priority + 1) else none
    | _ => none

def Walk.start (r : Prog T) : Option (Walk T) :=
  if r.sched.init = false then some ⟨r, MAX_PRIORITY_LEVELS, .null, .null, 0, []⟩
  else Walk.enter ⟨r, 0, .null, .null, 0, []⟩ 0

/-- `tim_task_loop`, after `k` rounds. -/
def timTaskLoop (r : Prog T) : Nat → Option (Walk T)
  | 0 => Walk.start r
  | k + 1 => (timTaskLoop r k).bind (Walk.step env now)

/-! ### What callbacks may do -/

/-- The calls a callback may make: on a registered task, and none that adds one. -/
def Call.Permitted (r : Prog T) : Call T → Prop
  | .drop (some x) | .suspend (some x) | .resume (some x) | .setPriority (some x) _
  | .setInterval (some x) _ => r.status x = .registered
  | _ => False

/-- The call, made by the callback of `t` with `n` saved, does not move the task of `n`, and moves
no due task but `t` to a list, or to the end of a list, that is already passed. -/
def Call.Keeps (now : Int) (w : Walk T) (t : T) (r : Prog T) : Call T → Prop
  | .drop (some x) | .suspend (some x) | .resume (some x) => w.n ≠ .list x
  | .setPriority (some x) p =>
    p < MAX_PRIORITY_LEVELS → w.n ≠ .list x ∧
      (x = t ∨ now < (r.sched.task x).timeout ∨ w.priority < p ∨
        w.priority = p ∧ ∀ h, w.n ≠ .head h)
  | _ => True

/-! ### The place in the list -/

variable {L : Lists T} {r : Prog T} {t : T} {h : Head}

/-- The tasks `ahead` are the end of the list of priority `p`, and `n` is their first node. -/
structure Behind (p : Fin 3) (n : Node T) (L : Lists T) (ahead : List T) : Prop where
  split : ∃ l, L (.priority p) = l ++ ahead
  node : n = (ahead.map .list).headD (.head (.priority p))

namespace Behind

variable {p : Fin 3} {n : Node T} {ahead : List T}

omit [DecidableEq T] in
theorem ne_head (hb : Behind p n L ahead) (hne : ahead ≠ []) (h : Head) : n ≠ .head h := by
  obtain ⟨u, l, rfl⟩ := List.exists_cons_of_ne_nil hne
  rw [hb.node]
  exact nofun

theorem remove (hb : Behind p n L ahead) {x : T} (hn : n ≠ .list x) (h : Head) :
    ∃ ahead', Behind p n (L.remove h x) ahead' ∧ ∀ y ∈ ahead, y ≠ x → y ∈ ahead' := by
  obtain ⟨⟨l, hl⟩, hnode⟩ := hb
  by_cases hh : h = .priority p
  · subst hh
    by_cases hx : x ∈ l
    · refine ⟨ahead, ⟨⟨l.erase x, ?_⟩, hnode⟩, fun y hy _ => hy⟩
      rw [Lists.remove, Function.update_self, hl, List.erase_append_left _ hx]
    · refine ⟨ahead.erase x, ⟨⟨l, ?_⟩, ?_⟩, fun y hy hne => (List.mem_erase_of_ne hne).mpr hy⟩
      · rw [Lists.remove, Function.update_self, hl, List.erase_append_right _ hx]
      · -- `x` is not the first of them
        cases ahead with
        | nil => exact hnode
        | cons u ahead =>
          have hux : u ≠ x := by
            rintro rfl
            exact hn hnode
          rw [List.erase_cons_tail (by simpa using hux)]
          exact hnode
  · refine ⟨ahead, ⟨⟨l, ?_⟩, hnode⟩, fun y hy _ => hy⟩
    rw [Lists.remove, Function.update_of_ne (Ne.symm hh)]
    exact hl

omit [DecidableEq T] in
theorem append (hb : Behind p n L ahead) (x : T) (h : Head) :
    ∃ ahead', Behind p n (L.append h x) ahead' ∧ (∀ y ∈ ahead, y ∈ ahead') ∧
      (h = .priority p → (∀ h, n ≠ .head h) → x ∈ ahead') := by
  obtain ⟨⟨l, hl⟩, hnode⟩ := hb
  by_cases hh : h = .priority p
  · subst hh
    cases ahead with
    | nil =>
      refine ⟨[], ⟨⟨l ++ [x], ?_⟩, hnode⟩, fun y hy => hy, fun _ hne => absurd hnode (hne _)⟩
      rw [Lists.append, Function.update_self, hl, List.append_nil, List.append_nil]
    | cons u ahead =>
      refine ⟨u :: ahead ++ [x], ⟨⟨l, ?_⟩, hnode⟩, fun y hy => List.mem_append_left _ hy,
        fun _ _ => List.mem_append_right _ (List.mem_singleton_self x)⟩
      rw [Lists.append, Function.update_self, hl, List.append_assoc]
  · refine ⟨ahead, ⟨⟨l, ?_⟩, hnode⟩, fun y hy => hy, fun he => absurd he hh⟩
    rw [Lists.append, Function.update_of_ne (Ne.symm hh)]
    exact hl

theorem move (hb : Behind p n L ahead) {x : T} (hn : n ≠ .list x) (h h' : Head) :
    ∃ ahead', Behind p n ((L.remove h x).append h' x) ahead' ∧
      (∀ y ∈ ahead, y ≠ x → y ∈ ahead') ∧
      (h' = .priority p → (∀ h, n ≠ .head h) → x ∈ ahead') := by
  obtain ⟨a₁, hb₁, hsub₁⟩ := hb.remove hn h
  obtain ⟨a₂, hb₂, hsub₂, hlast⟩ := hb₁.append x h'
  exact ⟨a₂, hb₂, fun y hy hne => hsub₂ y (hsub₁ y hy hne), hlast⟩

end Behind

/-! ### One call of a callback -/

/-- A due task that the pass still comes to: among the tasks `ahead`, or in a later list. -/
def Pending (now : Int) (r : Prog T) (L : Lists T) (p : Nat) (ahead : List T) (x : T) : Prop :=
  (r.sched.task x).timeout ≤ now ∧ (x ∈ ahead ∨ ∃ q : Fin 3, p < q ∧ x ∈ L (.priority q))

/-- What calls that add no task leave alone. -/
structure Quiet (r r' : Prog T) : Prop where
  timeout : ∀ x, (r'.sched.task x).timeout = (r.sched.task x).timeout
  registered : ∀ {x}, r'.status x = .registered → r.status x = .registered
  fresh : ∀ {x}, r'.status x = .fresh → r.status x = .fresh

omit [DecidableEq T] in
theorem Quiet.refl (r : Prog T) : Quiet r r := ⟨fun _ => rfl, id, id⟩

omit [DecidableEq T] in
theorem Quiet.trans {r₁ r₂ r₃ : Prog T} (h : Quiet r₁ r₂) (h' : Quiet r₂ r₃) : Quiet r₁ r₃ :=
  ⟨fun x => (h'.timeout x).trans (h.timeout x),
    fun hx => h.registered (h'.registered hx), fun hx => h.fresh (h'.fresh hx)⟩

omit [DecidableEq T] in
theorem Quiet.of_task {r r' : Prog T} (hs : r'.status = r.status)
    (ht : r'.sched.task = r.sched.task) : Quiet r r' := by
  refine ⟨fun x => ?_, fun hx => ?_, fun hx => ?_⟩
  · rw [ht]
  · rwa [hs] at hx
  · rwa [hs] at hx

/-- The call takes `x` out of the priority lists. -/
def Call.Withdraws (c : Call T) (x : T) : Prop := c = .suspend (some x) ∨ c = .drop (some x)

section Calls

variable {p : Fin 3} {ahead : List T}

/-- A move of `x` keeps every other task pending, and `x` where it is moved ahead. -/
theorem Pending.move {r' : Prog T} {h' : Head} {ahead' : List T} {x y : T}
    (hy : Pending now r L p ahead y)
    (htask : (r'.sched.task y).timeout = (r.sched.task y).timeout)
    (hsub : ∀ y ∈ ahead, y ≠ x → y ∈ ahead')
    (hx : y = x → x ∈ ahead' ∨ ∃ q : Fin 3, p < q ∧ h' = .priority q) :
    Pending now r' ((L.remove h x).append h' x) p ahead' y := by
  refine ⟨htask ▸ hy.1, ?_⟩
  by_cases hyx : y = x
  · subst hyx
    rcases hx rfl with hin | ⟨q, hq, rfl⟩
    · exact .inl hin
    · exact .inr ⟨q, hq, Lists.mem_append.mpr (.inr ⟨rfl, rfl⟩)⟩
  · rcases hy.2 with hin | ⟨q, hq, hin⟩
    · exact .inl (hsub y hin hyx)
    · exact .inr ⟨q, hq, Lists.mem_append.mpr (.inl (Lists.mem_remove_of_ne hin fun _ => hyx))⟩

/-- **One call** that is permitted and keeps the place in the list. -/
theorem Inv.loopCall (hi : Inv r L) {w : Walk T} (hp : w.priority = p)
    (hb : Behind p w.n L ahead) {c : Call T} (hperm : c.Permitted r) (hkeep : c.Keeps now w t r) :
    ∃ r' L' ahead', r.call c = some r' ∧ Inv r' L' ∧ Behind p w.n L' ahead' ∧ Quiet r r' ∧
      ∀ y ≠ t, Pending now r L p ahead y → ¬ c.Withdraws y → Pending now r' L' p ahead' y := by
  cases c with
  | add now u intervalUs autoLoad callback => exact hperm.elim
  | drop u =>
    rcases u with _ | x
    · exact hperm.elim
    obtain ⟨h, hq, hx⟩ := hi.queued hperm
    obtain ⟨r', heq, hi', hs, ht⟩ := hi.drop hq hx
    obtain ⟨a₁, hb₁, hsub₁⟩ := hb.remove hkeep h
    obtain ⟨a₂, hb₂, hsub₂⟩ := hb₁.remove hkeep .main
    refine ⟨r', _, a₂, heq, hi', hb₂, ⟨fun y => by rw [ht], ?_, ?_⟩, ?_⟩
    · intro y hy
      rw [hs] at hy
      by_cases hyx : y = x
      · rw [hyx]; exact hperm
      · rwa [Function.update_of_ne hyx] at hy
    · intro y hy
      rw [hs] at hy
      by_cases hyx : y = x
      · rw [hyx, Function.update_self] at hy
        cases hy
      · rwa [Function.update_of_ne hyx] at hy
    · intro y _ hy hno
      have hyx : y ≠ x := by
        rintro rfl
        exact hno (.inr rfl)
      refine ⟨by rw [ht]; exact hy.1, ?_⟩
      rcases hy.2 with hin | ⟨q, hq, hin⟩
      · exact .inl (hsub₂ y (hsub₁ y hin hyx) hyx)
      · exact .inr ⟨q, hq, Lists.mem_remove_of_ne
          (Lists.mem_remove_of_ne hin fun _ => hyx) fun _ => hyx⟩
  | suspend u =>
    rcases u with _ | x
    · exact hperm.elim
    obtain ⟨h, hq, hx⟩ := hi.queued hperm
    obtain ⟨r', heq, hi', hs, ht⟩ := hi.suspend hq hx
    obtain ⟨a', hb', hsub, -⟩ := hb.move hkeep h .suspend
    refine ⟨r', _, a', heq, hi', hb', .of_task hs ht, ?_⟩
    intro y _ hy hno
    refine hy.move now (by rw [ht]) hsub ?_
    rintro rfl
    exact absurd (.inl rfl) hno
  | resume u =>
    rcases u with _ | x
    · exact hperm.elim
    obtain ⟨h, hq, hx⟩ := hi.queued hperm
    obtain ⟨r', heq, hi', hs, ht⟩ := hi.resume hq hx
    obtain ⟨a', hb', hsub, hlast⟩ := hb.move hkeep h (hi.home x)
    refine ⟨r', _, a', heq, hi', hb', .of_task hs ht, ?_⟩
    intro y _ hy _
    refine hy.move now (by rw [ht]) hsub ?_
    rintro rfl
    -- a pending task is resumed to the list it is in
    have hhome : ∀ {q : Fin 3}, y ∈ L (.priority q) → hi.home y = .priority q := by
      intro q hin
      rw [Inv.home]
      exact congrArg Head.priority (Fin.ext (hi.priority hin))
    rcases hy.2 with hin | ⟨q, hq, hin⟩
    · obtain ⟨l, hl⟩ := hb.split
      refine .inl (hlast (hhome ?_) (hb.ne_head (List.ne_nil_of_mem hin)))
      rw [hl]
      exact List.mem_append_right l hin
    · exact .inr ⟨q, hq, hhome hin⟩
  | setPriority u q =>
    rcases u with _ | x
    · exact hperm.elim
    by_cases hlt : q < MAX_PRIORITY_LEVELS
    · obtain ⟨hn, hahead⟩ := hkeep hlt
      obtain ⟨h, hq, hx⟩ := hi.queued hperm
      obtain ⟨r', heq, hi', hs, ht⟩ := hi.setPriority hq hx ⟨q, hlt⟩
      obtain ⟨a', hb', hsub, hlast⟩ := hb.move hn h (.priority ⟨q, hlt⟩)
      have htask : ∀ y, (r'.sched.task y).timeout = (r.sched.task y).timeout := by
        intro y
        rw [ht]
        by_cases hyx : y = x
        · subst hyx
          rw [Function.update_self]
        · rw [Function.update_of_ne hyx]
      refine ⟨r', _, a', heq, hi', hb', ⟨htask, fun hy => by rwa [hs] at hy,
        fun hy => by rwa [hs] at hy⟩, ?_⟩
      intro y hyt hy _
      refine hy.move now (htask y) hsub ?_
      rintro rfl
      rcases hahead with he | hlate | hlater | ⟨hsame, hne⟩
      · exact absurd he hyt
      · exact absurd hy.1 (not_le.mpr hlate)
      · refine .inr ⟨⟨q, hlt⟩, ?_, rfl⟩
        show (p : Nat) < q
        rw [← hp]
        exact hlater
      · refine .inl (hlast (congrArg Head.priority (Fin.ext ?_)) hne)
        exact hsame.symm.trans hp
    · refine ⟨r, L, ahead, ?_, hi, hb, .refl r, fun y _ hy _ => hy⟩
      simp only [Prog.call, timTaskSetPriority, dif_neg hlt]
      rfl
  | setInterval u newInterval =>
    obtain ⟨r', heq, hi', hs, htask⟩ := hi.setInterval u newInterval
    have htimeout : ∀ y, (r'.sched.task y).timeout = (r.sched.task y).timeout := by
      intro y
      obtain ⟨i, -, heq'⟩ := htask y
      rw [heq']
    exact ⟨r', L, ahead, heq, hi', hb, ⟨htimeout, fun hy => by rwa [hs] at hy,
      fun hy => by rwa [hs] at hy⟩, fun y _ hy _ => ⟨htimeout y ▸ hy.1, hy.2⟩⟩

/-- **The calls of a callback.** -/
theorem Inv.loopCalls (hi : Inv r L) {w : Walk T} (hp : w.priority = p)
    (hb : Behind p w.n L ahead) {cs : List (Call T)}
    (hcs : r.All (fun r c => c.Permitted r ∧ c.Keeps now w t r) cs) :
    ∃ r' L' ahead', r.calls cs = some r' ∧ Inv r' L' ∧ Behind p w.n L' ahead' ∧ Quiet r r' ∧
      ∀ y ≠ t, Pending now r L p ahead y → (∀ c ∈ cs, ¬ c.Withdraws y) →
        Pending now r' L' p ahead' y := by
  induction cs generalizing r L ahead with
  | nil => exact ⟨r, L, ahead, rfl, hi, hb, .refl r, fun y _ hy _ => hy⟩
  | cons c cs ih =>
    obtain ⟨⟨hperm, hkeep⟩, hrest⟩ := hcs
    obtain ⟨r₁, L₁, a₁, heq₁, hi₁, hb₁, hquiet₁, hpend₁⟩ := hi.loopCall now hp hb hperm hkeep
    rw [heq₁] at hrest
    obtain ⟨r₂, L₂, a₂, heq₂, hi₂, hb₂, hquiet₂, hpend₂⟩ := ih hi₁ hb₁ hrest
    refine ⟨r₂, L₂, a₂, ?_, hi₂, hb₂, hquiet₁.trans hquiet₂, ?_⟩
    · rw [Prog.calls, heq₁]
      exact heq₂
    · intro y hyt hy hno
      exact hpend₂ y hyt (hpend₁ y hyt hy (hno c List.mem_cons_self))
        fun c' hc' => hno c' (List.mem_cons_of_mem c hc')

/-- What the turn of a due task `t` comes to: it is not due again, and nothing becomes due. -/
structure Turned (now : Int) (t : T) (r r' : Prog T) : Prop where
  served : r'.status t = .registered → now < (r'.sched.task t).timeout
  timeout : ∀ x ≠ t, (r'.sched.task x).timeout = (r.sched.task x).timeout
  registered : ∀ {x}, r'.status x = .registered → r.status x = .registered
  fresh : ∀ {x}, r'.status x = .fresh → r.status x = .fresh

/-- **The turn of a due task.** -/
theorem Inv.runTask {env : Env T} {w : Walk T} (hi : Inv w.prog L) (hp : w.priority = p)
    (hb : Behind p w.n L ahead) (ht : w.prog.status t = .registered) (hn : w.n ≠ .list t)
    (hclock : ∀ k, now ≤ env.ktime k)
    (hcs : w.prog.All (fun r c => c.Permitted r ∧ c.Keeps now w t r) (env.callback w.runs t)) :
    ∃ r' L' ahead', w.runTask env t = some r' ∧ Inv r' L' ∧ Behind p w.n L' ahead' ∧
      Turned now t w.prog r' ∧
      ∀ y ≠ t, Pending now w.prog L p ahead y → (∀ c ∈ env.callback w.runs t, ¬ c.Withdraws y) →
        Pending now r' L' p ahead' y := by
  obtain ⟨r₁, L₁, a₁, heq₁, hi₁, hb₁, hquiet, hpend⟩ := hi.loopCalls now hp hb hcs
  obtain ⟨s, hs⟩ : ∃ s, (r₁.sched.setTask t fun k =>
    { k with executionCount := (k.executionCount + 1) % 2 ^ 32 }) = s := ⟨_, rfl⟩
  have htimeout : ∀ x, (s.task x).timeout = (r₁.sched.task x).timeout := fun x => by
    rw [← hs, Sched.setTask_field Task.timeout (by exact fun _ => rfl)]
  have hi₂ : Inv ⟨s, r₁.status⟩ L₁ := by
    rw [← hs]
    exact hi₁.setTask t _ (fun _ => rfl) fun _ => rfl
  have hpend₂ : ∀ y ≠ t, Pending now w.prog L p ahead y →
      (∀ c ∈ env.callback w.runs t, ¬ c.Withdraws y) → Pending now ⟨s, r₁.status⟩ L₁ p a₁ y := by
    intro y hyt hy hno
    obtain ⟨hdue, hin⟩ := hpend y hyt hy hno
    exact ⟨(htimeout y).trans_le hdue, hin⟩
  by_cases hauto : (s.task t).autoLoad
  · -- the next time is set
    refine ⟨⟨s.setTask t fun k => { k with timeout := env.ktime w.runs + k.intervalUs }, r₁.status⟩,
      L₁, a₁, ?_, hi₂.setTask t _ (fun _ => rfl) fun _ => rfl, hb₁,
      ⟨?_, ?_, hquiet.registered, hquiet.fresh⟩, ?_⟩
    · simp only [Walk.runTask, heq₁, Option.bind_eq_bind, Option.bind_some, hs, if_pos hauto]
      rfl
    · intro hreg
      have hpos : 0 < (s.task t).intervalUs := hi₂.timed hreg
      have hnow := hclock w.runs
      rw [Sched.setTask_task_self]
      show now < env.ktime w.runs + (s.task t).intervalUs
      omega
    · intro x hx
      rw [Sched.setTask_task_of_ne s hx, htimeout, hquiet.timeout]
    · intro y hyt hy hno
      obtain ⟨hdue, hin⟩ := hpend₂ y hyt hy hno
      refine ⟨?_, hin⟩
      rw [Sched.setTask_task_of_ne s hyt]
      exact hdue
  · -- the task is dropped, unless its callback has done so
    have heq : w.runTask env t = (Prog.mk s r₁.status).call (.drop (some t)) := by
      simp only [Walk.runTask, heq₁, Option.bind_eq_bind, Option.bind_some, hs, if_neg hauto]
    by_cases hreg : r₁.status t = .registered
    · obtain ⟨h, hq, hin⟩ := hi₂.queued hreg
      obtain ⟨r', hdrop, hi', hst, htask⟩ := hi₂.drop hq hin
      obtain ⟨a₂, hb₂, hsub₂⟩ := hb₁.remove hn h
      obtain ⟨a₃, hb₃, hsub₃⟩ := hb₂.remove hn .main
      have hother : ∀ {x}, r'.status x = .registered → x ≠ t ∧ r₁.status x = .registered := by
        intro x hx
        rw [hst] at hx
        by_cases hxt : x = t
        · rw [hxt, Function.update_self] at hx
          cases hx
        · rw [Function.update_of_ne hxt] at hx
          exact ⟨hxt, hx⟩
      refine ⟨r', _, a₃, heq.trans hdrop, hi', hb₃, ⟨?_, ?_, ?_, ?_⟩, ?_⟩
      · intro hx
        exact absurd rfl (hother hx).1
      · intro x _
        rw [htask, htimeout, hquiet.timeout]
      · intro x hx
        exact hquiet.registered (hother hx).2
      · intro x hx
        rw [hst] at hx
        by_cases hxt : x = t
        · rw [hxt, Function.update_self] at hx
          cases hx
        · rw [Function.update_of_ne hxt] at hx
          exact hquiet.fresh hx
      · intro y hyt hy hno
        obtain ⟨hdue, hin⟩ := hpend₂ y hyt hy hno
        refine ⟨by rw [htask]; exact hdue, ?_⟩
        rcases hin with hin | ⟨q, hq, hin⟩
        · exact .inl (hsub₃ y (hsub₂ y hin hyt) hyt)
        · exact .inr ⟨q, hq, Lists.mem_remove_of_ne
            (Lists.mem_remove_of_ne hin fun _ => hyt) fun _ => hyt⟩
    · have hdropped : r₁.status t = .dropped := by
        cases hst : r₁.status t with
        | fresh =>
          rw [hquiet.fresh hst] at ht
          cases ht
        | registered => exact absurd hst hreg
        | dropped => rfl
      refine ⟨⟨s, r₁.status⟩, L₁, a₁, heq.trans (hi₂.dropAgain hdropped), hi₂, hb₁,
        ⟨fun hx => absurd hx hreg, ?_, hquiet.registered, hquiet.fresh⟩, hpend₂⟩
      intro x _
      rw [htimeout, hquiet.timeout]

end Calls

end Kinetis.TimTask
