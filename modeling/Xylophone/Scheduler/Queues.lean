import Mathlib.Data.Multiset.UnionInter
import Xylophone.Scheduler.Scheduler

/-!
# What the queues of the scheduler hold

`QueuesOk s l` says that the ready queue holds the tasks of the list `l`, that the sleep queue is a
heap of sleeping tasks, and that no task is in both. It is kept by everything that `round_robin`
does, also when a task of the ready queue is pushed again: then the tasks behind it are lost.

* `QueuesOk.enqueueReady`, `QueuesOk.enqueueAgain` — a push of a task that is in no queue, and of
  one that is in the ready queue
* `QueuesOk.wake` — the loop that wakes sleepers
* `QueuesOk.pick` — the first task of the ready queue becomes the current task
-/

namespace Xylophone

open Infra

variable {s s' : Scheduler} {l : List Nat} {t u : Nat}

/-! ## Pushing to the ready queue -/

section Enqueue

variable (s t u)

theorem enqueueReady_links :
    links (enqueueReady s t).tasks = pushNext (links s.tasks) s.readyQueue.ends t := by
  unfold enqueueReady
  simp only [links_push]
  split
  · rw [links_setState]
  · rfl

theorem enqueueReady_ends :
    (enqueueReady s t).readyQueue.ends = pushEnds s.readyQueue.ends t := ends_push ..

theorem enqueueReady_wakeTick : ((enqueueReady s t).tasks u).wakeTick = (s.tasks u).wakeTick := by
  unfold enqueueReady
  simp only [push_wakeTick]
  split
  · rw [setState_wakeTick]
  · rfl

theorem enqueueReady_of_ne (h : u ≠ t) :
    ((enqueueReady s t).tasks u).state = (s.tasks u).state := by
  unfold enqueueReady
  simp only [push_state]
  split
  · rw [setState_of_ne _ _ h]
  · rfl

theorem enqueueReady_state : ((enqueueReady s t).tasks t).state =
    if (s.tasks t).state = .created then .created else .running := by
  unfold enqueueReady
  simp only [push_state]
  by_cases h : (s.tasks t).state = .created
  · rw [if_neg (by simp [h]), if_pos h, h]
  · rw [if_pos h, if_neg h, setState_self]

end Enqueue

/-! ## The queues -/

/-- The ready queue holds the tasks of `l`, the sleep queue is a heap of sleepers, and there is no
zombie. -/
structure QueuesOk (s : Scheduler) (l : List Nat) : Prop where
  ready : Holds (links s.tasks) s.readyQueue.ends l
  zombies : s.zombieQueue = taskQueueInit
  sleepers : s.sleepQueue.tasks.Nodup
  apart : ∀ t ∈ l, t ∉ s.sleepQueue.tasks
  readyState : ∀ t ∈ l, (s.tasks t).state = .running ∨ (s.tasks t).state = .created
  sleepState : ∀ t ∈ s.sleepQueue.tasks, (s.tasks t).state = .sleeping
  size_le : s.sleepQueue.size ≤ s.sleepQueue.capacity
  ordered : s.sleepQueue.Ordered s.tasks

/-- The current task and the timer do not matter. -/
theorem QueuesOk.frame (h : QueuesOk s l) (htasks : s'.tasks = s.tasks)
    (hready : s'.readyQueue = s.readyQueue) (hzombie : s'.zombieQueue = s.zombieQueue)
    (hsleep : s'.sleepQueue = s.sleepQueue) : QueuesOk s' l := by
  obtain ⟨tasks, ready, zombie, sleep, current, ticks, hz⟩ := s'
  obtain rfl : tasks = s.tasks := htasks
  obtain rfl : ready = s.readyQueue := hready
  obtain rfl : zombie = s.zombieQueue := hzombie
  obtain rfl : sleep = s.sleepQueue := hsleep
  exact ⟨h.ready, h.zombies, h.sleepers, h.apart, h.readyState, h.sleepState, h.size_le, h.ordered⟩

/-- What else a scheduler holds. -/
structure SameRest (s s' : Scheduler) : Prop where
  current : s'.current = s.current
  ticks : s'.ticks = s.ticks
  hz : s'.hz = s.hz
  wakeTick : ∀ u, (s'.tasks u).wakeTick = (s.tasks u).wakeTick

theorem SameRest.refl (s : Scheduler) : SameRest s s := ⟨rfl, rfl, rfl, fun _ => rfl⟩

theorem SameRest.trans {s'' : Scheduler} (h : SameRest s s') (h' : SameRest s' s'') :
    SameRest s s'' :=
  ⟨h'.current.trans h.current, h'.ticks.trans h.ticks, h'.hz.trans h.hz,
    fun u => (h'.wakeTick u).trans (h.wakeTick u)⟩

theorem enqueueReady_sameRest (s : Scheduler) (t : Nat) : SameRest s (enqueueReady s t) :=
  ⟨rfl, rfl, rfl, fun u => enqueueReady_wakeTick s t u⟩

theorem QueuesOk.ordered_congr (h : QueuesOk s l) (hsleep : s'.sleepQueue = s.sleepQueue)
    (hwake : ∀ u ∈ s.sleepQueue.tasks, (s'.tasks u).wakeTick = (s.tasks u).wakeTick) :
    s'.sleepQueue.Ordered s'.tasks := by
  rw [hsleep]
  exact h.ordered.congr_key fun i hi => hwake _ (mem_contents.mpr ⟨i, hi, rfl⟩)

/-- After a push to the ready queue, which then holds `l'`. -/
theorem QueuesOk.enqueued {l' : List Nat} (h : QueuesOk s l) (hsleep : t ∉ s.sleepQueue.tasks)
    (hready : Holds (links (enqueueReady s t).tasks) (enqueueReady s t).readyQueue.ends l')
    (hmem : ∀ u ∈ l', u = t ∨ u ∈ l) : QueuesOk (enqueueReady s t) l' where
  ready := hready
  zombies := h.zombies
  sleepers := h.sleepers
  apart := by
    intro u hu
    rcases hmem u hu with rfl | hu
    · exact hsleep
    · exact h.apart u hu
  readyState := by
    intro u hu
    by_cases hut : u = t
    · rw [hut, enqueueReady_state]
      split
      · exact Or.inr rfl
      · exact Or.inl rfl
    · rw [enqueueReady_of_ne s t u hut]
      exact h.readyState u ((hmem u hu).resolve_left hut)
  sleepState := by
    intro u hu
    have hut : u ≠ t := by
      rintro rfl
      exact hsleep hu
    rw [enqueueReady_of_ne s t u hut]
    exact h.sleepState u hu
  size_le := h.size_le
  ordered := h.ordered_congr rfl fun u _ => enqueueReady_wakeTick s t u

/-- **A push of a task that is in no queue.** -/
theorem QueuesOk.enqueueReady (h : QueuesOk s l) (hl : t ∉ l) (hsleep : t ∉ s.sleepQueue.tasks) :
    QueuesOk (enqueueReady s t) (l ++ [t]) ∧
      Closed (links (Xylophone.enqueueReady s t).tasks) (l ++ [t]) := by
  obtain ⟨hready, hclosed⟩ := h.ready.push hl
  rw [← enqueueReady_links, ← enqueueReady_ends] at hready
  rw [← enqueueReady_links] at hclosed
  refine ⟨h.enqueued hsleep hready fun u hu => ?_, hclosed⟩
  rcases List.mem_append.mp hu with hu | hu
  · exact Or.inr hu
  · exact Or.inl (List.mem_singleton.mp hu)

/-- **A push of a task of the ready queue**: the tasks behind it are lost. -/
theorem QueuesOk.enqueueAgain {xs ys : List Nat} (h : QueuesOk s (xs ++ t :: ys)) :
    QueuesOk (Xylophone.enqueueReady s t) (xs ++ [t]) := by
  have hready := h.ready.push_mem
  rw [← enqueueReady_links, ← enqueueReady_ends] at hready
  refine h.enqueued (h.apart t (by simp)) hready fun u hu => ?_
  rcases List.mem_append.mp hu with hu | hu
  · exact Or.inr (List.mem_append_left _ hu)
  · exact Or.inl (List.mem_singleton.mp hu)

/-! ## Waking -/

/-- Taking the root out of the sleep queue. -/
theorem QueuesOk.popSleeper (h : QueuesOk s l) (hsize : s.sleepQueue.size ≠ 0) :
    QueuesOk (popSleeper s) l ∧
      s.sleepQueue.tasks = s.sleepQueue.data 0 ::ₘ (Xylophone.popSleeper s).sleepQueue.tasks ∧
      (Xylophone.popSleeper s).sleepQueue.size = s.sleepQueue.size - 1 := by
  obtain ⟨-, htasks, hsz, hcap, hordered⟩ := sleepQueuePop_spec s.tasks hsize
  have hsub : ∀ u ∈ (Xylophone.popSleeper s).sleepQueue.tasks, u ∈ s.sleepQueue.tasks := by
    intro u hu
    rw [htasks]
    exact Multiset.mem_cons_of_mem hu
  refine ⟨⟨h.ready, h.zombies, ?_, ?_, h.readyState, ?_, ?_, hordered h.ordered⟩, htasks, hsz⟩
  · have hnodup := h.sleepers
    rw [htasks] at hnodup
    exact (Multiset.nodup_cons.mp hnodup).2
  · exact fun u hu hmem => h.apart u hu (hsub u hmem)
  · exact fun u hu => h.sleepState u (hsub u hu)
  · show (sleepQueuePop s.tasks s.sleepQueue).1.size ≤ (sleepQueuePop s.tasks s.sleepQueue).1.capacity
    rw [hsz, hcap]
    exact Nat.le_trans (Nat.sub_le _ _) h.size_le

/-- The task at the root sleeps; it is not ready, and it does not sleep any more when it has been
popped. -/
theorem QueuesOk.sleeper_root (h : QueuesOk s l) (hsize : s.sleepQueue.size ≠ 0) :
    s.sleepQueue.data 0 ∈ s.sleepQueue.tasks ∧ s.sleepQueue.data 0 ∉ l ∧
      s.sleepQueue.data 0 ∉ (Xylophone.popSleeper s).sleepQueue.tasks := by
  obtain ⟨-, htasks, -⟩ := h.popSleeper hsize
  have hroot : s.sleepQueue.data 0 ∈ s.sleepQueue.tasks := by
    rw [htasks]
    exact Multiset.mem_cons_self _ _
  have hnodup := h.sleepers
  rw [htasks, Multiset.nodup_cons] at hnodup
  exact ⟨hroot, fun hmem => h.apart _ hmem hroot, hnodup.1⟩

/-- What the loop that wakes sleepers does: the tasks of `ws` go from the sleep queue to the end of
the ready queue. -/
structure Woken (s s' : Scheduler) (tick : Nat) (l ws : List Nat) : Prop where
  ok : QueuesOk s' (l ++ ws)
  sleepers : s.sleepQueue.tasks = ↑ws + s'.sleepQueue.tasks
  /-- Exactly those whose time has come. -/
  due : ∀ t ∈ ws, (s.tasks t).wakeTick ≤ tick
  notDue : ∀ t ∈ s'.sleepQueue.tasks, tick < (s.tasks t).wakeTick
  running : ∀ t ∈ ws, (s'.tasks t).state = .running
  others : ∀ t, t ∉ ws → (s'.tasks t).state = (s.tasks t).state
  rest : SameRest s s'
  closed : ∀ t, ClosedAt (links s.tasks) l t → ClosedAt (links s'.tasks) (l ++ ws) t

theorem QueuesOk.wakeSleepers (tick : Nat) : ∀ (fuel : Nat) {s : Scheduler} {l : List Nat},
    QueuesOk s l → s.sleepQueue.size ≤ fuel →
    ∃ ws, Woken s (wakeSleepers tick fuel s) tick l ws
  | 0, s, l, h, hfuel => by
    have hzero : s.sleepQueue.size = 0 := by omega
    refine ⟨[], by rw [List.append_nil]; exact h, by simp [Xylophone.wakeSleepers], by simp, ?_,
      by simp, fun _ _ => rfl, .refl s, by rw [List.append_nil]; exact fun _ => id⟩
    intro u hu
    unfold SleepQueue.tasks at hu
    rw [show (Xylophone.wakeSleepers tick 0 s).sleepQueue.size = 0 from hzero] at hu
    simp at hu
  | fuel + 1, s, l, h, hfuel => by
    have hstop : (∀ u ∈ s.sleepQueue.tasks, tick < (s.tasks u).wakeTick) → Woken s s tick l [] := by
      intro hlater
      exact ⟨by rw [List.append_nil]; exact h, by simp, by simp, hlater, by simp, fun _ _ => rfl,
        .refl s, by rw [List.append_nil]; exact fun _ => id⟩
    rw [Xylophone.wakeSleepers]
    unfold sleepQueuePeek
    by_cases hsize : s.sleepQueue.size = 0
    · rw [if_pos hsize]
      refine ⟨[], hstop fun u hu => ?_⟩
      unfold SleepQueue.tasks at hu
      rw [hsize] at hu
      simp at hu
    · rw [if_neg hsize]
      simp only []
      split
      · next hlater =>
        -- the root is the first to be woken
        refine ⟨[], hstop fun u hu => ?_⟩
        obtain ⟨i, hi, rfl⟩ := mem_contents.mp hu
        exact Nat.lt_of_lt_of_le hlater (h.ordered.root_le i hi)
      · next hdue =>
        obtain ⟨hpop, htasks, hsz⟩ := h.popSleeper hsize
        obtain ⟨hr, hrl, hgone⟩ := h.sleeper_root hsize
        generalize s.sleepQueue.data 0 = r at *
        obtain ⟨hq, hclosed⟩ := hpop.enqueueReady hrl hgone
        have hstate : ((Xylophone.enqueueReady (Xylophone.popSleeper s) r).tasks r).state = .running := by
          rw [enqueueReady_state, if_neg]
          show (s.tasks r).state ≠ .created
          rw [h.sleepState r hr]
          decide
        have hrest : SameRest s (Xylophone.enqueueReady (Xylophone.popSleeper s) r) :=
          (show SameRest s (Xylophone.popSleeper s) from ⟨rfl, rfl, rfl, fun _ => rfl⟩).trans
            (enqueueReady_sameRest _ r)
        obtain ⟨ws, hw⟩ := QueuesOk.wakeSleepers tick fuel hq (by
          show (Xylophone.popSleeper s).sleepQueue.size ≤ fuel
          omega)
        have hrws : r ∉ ws := by
          intro hmem
          have := hw.ok.ready.nodup
          rw [List.append_assoc, List.nodup_append] at this
          have hcons := (List.nodup_append.mp this.2.1).2.2 r (List.mem_singleton_self r) r hmem
          exact hcons rfl
        refine ⟨r :: ws, ?_, ?_, ?_, ?_, ?_, ?_, hrest.trans hw.rest, ?_⟩
        · have := hw.ok
          rwa [List.append_assoc, List.singleton_append] at this
        · have hsleepers : (Xylophone.popSleeper s).sleepQueue.tasks = ↑ws + _ := hw.sleepers
          rw [htasks, hsleepers, ← Multiset.cons_coe, Multiset.cons_add]
        · intro u hu
          rcases List.mem_cons.mp hu with rfl | hu
          · exact Nat.not_lt.mp hdue
          · rw [← hrest.wakeTick]
            exact hw.due u hu
        · intro u hu
          rw [← hrest.wakeTick]
          exact hw.notDue u hu
        · intro u hu
          rcases List.mem_cons.mp hu with rfl | hu
          · rw [hw.others u hrws]
            exact hstate
          · exact hw.running u hu
        · intro u hu
          rw [List.mem_cons, not_or] at hu
          rw [hw.others u hu.2, enqueueReady_of_ne _ _ _ hu.1]
          rfl
        · intro u _
          have := hw.closed u (hclosed u)
          rwa [List.append_assoc, List.singleton_append] at this

/-- **The loop that wakes sleepers** moves those whose time has come, and no others. -/
theorem QueuesOk.wake (h : QueuesOk s l) (tick : Nat) :
    ∃ ws, Woken s (Xylophone.wakeSleepers tick s.sleepQueue.size s) tick l ws :=
  QueuesOk.wakeSleepers tick _ h (Nat.le_refl _)

/-! ## Picking -/

/-- What picking the first task `a` of the ready queue does. -/
structure Picked (s s' : Scheduler) (a : Nat) (l : List Nat) : Prop where
  ok : QueuesOk s' l
  current : s'.current = some a
  running : (s'.tasks a).state = .running
  others : ∀ t, t ≠ a → (s'.tasks t).state = (s.tasks t).state
  sleepQueue : s'.sleepQueue = s.sleepQueue
  ticks : s'.ticks = s.ticks
  hz : s'.hz = s.hz
  wakeTick : ∀ u, (s'.tasks u).wakeTick = (s.tasks u).wakeTick
  closed : ∀ t, ClosedAt (links s.tasks) (a :: l) t → ClosedAt (links s'.tasks) l t

/-- Taking a task out of the ready queue changes a link only. -/
theorem popReady_fields (s : Scheduler) (u : Nat) :
    ((popReady s).1.tasks u).state = (s.tasks u).state ∧
      ((popReady s).1.tasks u).wakeTick = (s.tasks u).wakeTick := by
  unfold popReady
  cases hhead : s.readyQueue.head with
  | none =>
    rw [pop_none _ _ hhead]
    exact ⟨rfl, rfl⟩
  | some a =>
    rw [pop_some _ _ a hhead]
    exact ⟨setNext_state .., setNext_wakeTick ..⟩

/-- Taking the first task out of the ready queue. -/
theorem QueuesOk.popReady {a : Nat}
    (h : QueuesOk s (a :: l)) (hl : l ≠ [] ∨ links s.tasks a = none) :
    QueuesOk (popReady s).1 l ∧ (Xylophone.popReady s).2 = some a ∧
      (∀ t, ClosedAt (links s.tasks) (a :: l) t →
        ClosedAt (links (Xylophone.popReady s).1.tasks) l t) := by
  obtain ⟨hready, hnext⟩ := h.ready.pop hl
  have hhead : s.readyQueue.head = some a := h.ready.head
  have hpop := pop_some s.tasks s.readyQueue a hhead
  unfold Xylophone.popReady
  rw [hpop]
  have hlinks : links (setNext s.tasks a none) = popNext (links s.tasks) a := links_setNext ..
  have ha : a ∉ l := (List.nodup_cons.mp h.ready.nodup).1
  refine ⟨⟨?_, h.zombies, h.sleepers, ?_, ?_, ?_, h.size_le, ?_⟩, rfl, ?_⟩
  · show Holds (links (setNext s.tasks a none)) (popEnds (links s.tasks) s.readyQueue.ends a) l
    rw [hlinks]
    exact hready
  · exact fun u hu => h.apart u (List.mem_cons_of_mem _ hu)
  · intro u hu
    rw [setNext_state]
    exact h.readyState u (List.mem_cons_of_mem _ hu)
  · intro u hu
    rw [setNext_state]
    exact h.sleepState u hu
  · exact h.ordered.congr_key fun i _ => setNext_wakeTick ..
  · intro u hclosed hu
    have hmem := List.mem_of_getLast? hu
    have hne : u ≠ a := by
      rintro rfl
      exact ha hmem
    rw [show links (setNext s.tasks a none) u = popNext (links s.tasks) a u from congrFun hlinks u,
      popNext, Function.update_of_ne hne]
    refine hclosed ?_
    cases l with
    | nil => cases hu
    | cons b l => rwa [List.getLast?_cons_cons]

/-- **The first task of the ready queue becomes the current task.** -/
theorem QueuesOk.pick {a : Nat} (h : QueuesOk s (a :: l)) (hl : l ≠ [] ∨ links s.tasks a = none)
    (fuel : Nat) :
    ∃ s' o, pickNext (fuel + 1) s = some (s', o) ∧ (o = .started a ∨ o = .switched a) ∧
      Picked s s' a l := by
  obtain ⟨hpop, hfirst, hclosed⟩ := h.popReady hl
  have ha : a ∉ l := (List.nodup_cons.mp h.ready.nodup).1
  have hstates : ∀ u, ((Xylophone.popReady s).1.tasks u).state = (s.tasks u).state :=
    fun u => (popReady_fields s u).1
  have hwake : ∀ u, ((Xylophone.popReady s).1.tasks u).wakeTick = (s.tasks u).wakeTick :=
    fun u => (popReady_fields s u).2
  have hsame : (Xylophone.popReady s).1.sleepQueue = s.sleepQueue := rfl
  have hticks : (Xylophone.popReady s).1.ticks = s.ticks := rfl
  have hhz : (Xylophone.popReady s).1.hz = s.hz := rfl
  rw [pickNext]
  generalize Xylophone.popReady s = r at *
  obtain ⟨s₁, first⟩ := r
  obtain rfl : first = some a := hfirst
  simp only [] at *
  rw [hstates a]
  rcases h.readyState a (List.mem_cons_self ..) with hstate | hstate
  · rw [hstate]
    refine ⟨{ s₁ with current := some a }, .switched a, rfl, Or.inr rfl,
      hpop.frame rfl rfl rfl rfl, rfl, by rw [hstates a, hstate], fun u _ => hstates u, hsame,
      hticks, hhz, hwake, hclosed⟩
  · rw [hstate]
    refine ⟨startTask s₁ a, .started a, rfl, Or.inl rfl, ⟨?_, hpop.zombies, hpop.sleepers, hpop.apart,
      ?_, ?_, hpop.size_le, ?_⟩, rfl, setState_self .., ?_, hsame, hticks, hhz, ?_, ?_⟩
    · show Holds (links (setState s₁.tasks a .running)) s₁.readyQueue.ends l
      rw [links_setState]
      exact hpop.ready
    · intro u hu
      have hne : u ≠ a := by
        rintro rfl
        exact ha hu
      show (setState s₁.tasks a .running u).state = .running ∨
        (setState s₁.tasks a .running u).state = .created
      rw [setState_of_ne _ _ hne]
      exact hpop.readyState u hu
    · intro u hu
      have hne : u ≠ a := by
        rintro rfl
        exact h.apart u (List.mem_cons_self ..) (by rw [← hsame]; exact hu)
      show (setState s₁.tasks a .running u).state = .sleeping
      rw [setState_of_ne _ _ hne]
      exact hpop.sleepState u hu
    · exact hpop.ordered.congr_key fun i _ => setState_wakeTick ..
    · intro u hu
      show (setState s₁.tasks a .running u).state = _
      rw [setState_of_ne _ _ hu, hstates]
    · intro u
      show (setState s₁.tasks a .running u).wakeTick = _
      rw [setState_wakeTick, hwake]
    · intro u hc
      show ClosedAt (links (setState s₁.tasks a .running)) l u
      rw [links_setState]
      exact hclosed u hc

/-! ## `round_robin` -/

/-- How the current task of `s` is put back, when the ready queue holds `l` and the tasks of `ws`
were woken: what the ready queue holds then. -/
inductive Preempted (s : Scheduler) (l ws : List Nat) : List Nat → Prop where
  | absent (current : s.current = none) : Preempted s l ws (l ++ ws)
  | stays (c : Nat) (current : s.current = some c) (asleep : c ∉ ws)
    (state : (s.tasks c).state ≠ .running) : Preempted s l ws (l ++ ws)
  | back (c : Nat) (current : s.current = some c) (awake : c ∉ ws)
    (state : (s.tasks c).state = .running) : Preempted s l ws (l ++ ws ++ [c])
  /-- The current task was among the sleepers: it is pushed a second time. -/
  | again (c : Nat) (xs ys : List Nat) (current : s.current = some c) (woken : ws = xs ++ c :: ys) :
    Preempted s l ws (l ++ xs ++ [c])

/-- The state after the current task was put back. -/
structure PutBack (s s' : Scheduler) (l ws l' : List Nat) : Prop where
  cases : Preempted s l ws l'
  ok : QueuesOk s' l'
  sleepQueue : s.sleepQueue.tasks = ↑ws + s'.sleepQueue.tasks
  running : ∀ t ∈ ws, (s'.tasks t).state = .running
  others : ∀ t, t ∉ ws → (s'.tasks t).state = (s.tasks t).state
  ticks : s'.ticks = s.ticks
  hz : s'.hz = s.hz
  wakeTick : ∀ u, (s'.tasks u).wakeTick = (s.tasks u).wakeTick
  closed : ∀ t, ClosedAt (links s.tasks) l t →
    (∀ xs ys, s.current = some t → ws ≠ xs ++ t :: ys) → ClosedAt (links s'.tasks) l' t

theorem Woken.preempt {tick : Nat} {ws : List Nat} (hw : Woken s s' tick l ws)
    (hcurrent : ∀ c, s.current = some c → c ∉ l) :
    ∃ l', PutBack s (preempt s') l ws l' := by
  have hstay : Preempted s l ws (l ++ ws) → Xylophone.preempt s' = s' →
      PutBack s (Xylophone.preempt s') l ws (l ++ ws) := by
    intro hcases he
    rw [he]
    exact ⟨hcases, hw.ok, hw.sleepers, hw.running, hw.others, hw.rest.ticks, hw.rest.hz,
      hw.rest.wakeTick, fun t ht _ => hw.closed t ht⟩
  unfold Xylophone.preempt at *
  rw [hw.rest.current] at *
  cases hc : s.current with
  | none =>
    simp only [hc] at hstay
    exact ⟨_, hstay (.absent hc) trivial⟩
  | some c =>
    simp only [hc] at hstay ⊢
    by_cases hrun : (s'.tasks c).state = .running
    · rw [if_pos hrun]
      have hself : ∀ u, ((enqueueReady s' c).tasks u).state = (s'.tasks u).state := by
        intro u
        by_cases hu : u = c
        · rw [hu, enqueueReady_state, if_neg (by rw [hrun]; decide), hrun]
        · exact enqueueReady_of_ne s' c u hu
      have hrest := enqueueReady_sameRest s' c
      have hput : ∀ {l' : List Nat}, Preempted s l ws l' → QueuesOk (enqueueReady s' c) l' →
          (∀ t, ClosedAt (links s.tasks) l t → (∀ xs ys, some c = some t → ws ≠ xs ++ t :: ys) →
            ClosedAt (links (enqueueReady s' c).tasks) l' t) →
          PutBack s { enqueueReady s' c with current := none } l ws l' := fun hcases hok hclosed =>
        ⟨hcases, hok.frame rfl rfl rfl rfl, hw.sleepers, fun t ht => (hself t).trans (hw.running t ht),
          fun t ht => (hself t).trans (hw.others t ht), hrest.ticks.trans hw.rest.ticks,
          hrest.hz.trans hw.rest.hz, fun u => (hrest.wakeTick u).trans (hw.rest.wakeTick u),
          by rw [hc]; exact hclosed⟩
      by_cases hmem : c ∈ ws
      · obtain ⟨xs, ys, hws⟩ := List.append_of_mem hmem
        have hok := hw.ok
        rw [hws, ← List.append_assoc] at hok
        have hok' := hok.enqueueAgain
        refine ⟨l ++ xs ++ [c], hput (.again c xs ys hc hws) hok' ?_⟩
        intro t _ hnot hlast
        rw [List.getLast?_concat] at hlast
        obtain rfl := Option.some.inj hlast
        exact absurd hws (hnot xs ys rfl)
      · have hout : c ∉ l ++ ws := by
          rw [List.mem_append]
          rintro (h | h)
          · exact hcurrent c hc h
          · exact hmem h
        have hsl : c ∉ s'.sleepQueue.tasks := by
          intro h
          have := hw.ok.sleepState c h
          rw [hrun] at this
          cases this
        obtain ⟨hok', hclosed⟩ := hw.ok.enqueueReady hout hsl
        have hrun' : (s.tasks c).state = .running := by rw [← hw.others c hmem, hrun]
        exact ⟨l ++ ws ++ [c], hput (.back c hc hmem hrun') hok' fun t _ _ => hclosed t⟩
    · rw [if_neg hrun] at hstay ⊢
      have hmem : c ∉ ws := fun h => hrun (hw.running c h)
      exact ⟨_, hstay (.stays c hc hmem (by rw [← hw.others c hmem]; exact hrun)) rfl⟩

/-- What `round_robin` does when it finds a task: `l'` is what the ready queue held, with the
current task put back. -/
structure Switched (s s' : Scheduler) (tick : Nat) (ws : List Nat) (a : Nat) (l : List Nat) :
    Prop where
  ok : QueuesOk s' l
  current : s'.current = some a
  picked : (s'.tasks a).state = .running
  sleepers : s.sleepQueue.tasks = ↑ws + s'.sleepQueue.tasks
  due : ∀ t ∈ ws, (s.tasks t).wakeTick ≤ tick
  notDue : ∀ t ∈ s'.sleepQueue.tasks, tick < (s.tasks t).wakeTick
  running : ∀ t ∈ ws, (s'.tasks t).state = .running
  others : ∀ t, t ∉ ws → t ≠ a → (s'.tasks t).state = (s.tasks t).state
  ticks : s'.ticks = s.ticks
  hz : s'.hz = s.hz
  wakeTick : ∀ u, (s'.tasks u).wakeTick = (s.tasks u).wakeTick

/-- **`round_robin`** wakes the sleepers whose time has come, puts the current task back, and
switches to the first task of the ready queue. -/
theorem QueuesOk.roundRobin (h : QueuesOk s l) (hcurrent : ∀ c, s.current = some c → c ∉ l)
    (tick : Nat) : ∃ ws l', Preempted s l ws l' ∧ l'.Nodup ∧ (∀ t ∈ ws, t ∈ s.sleepQueue.tasks) ∧
      (∀ t ∈ ws, (s.tasks t).wakeTick ≤ tick) ∧
      (l' = [] → ∃ s', roundRobin s tick = some (s', .panic)) ∧
      ∀ a rest, l' = a :: rest →
        (rest = [] → ClosedAt (links s.tasks) l a ∧
          ∀ xs ys, s.current = some a → ws ≠ xs ++ a :: ys) →
        ∃ s' o, Xylophone.roundRobin s tick = some (s', o) ∧ (o = .started a ∨ o = .switched a) ∧
          Switched s s' tick ws a rest ∧
          ∀ t, ClosedAt (links s.tasks) l t →
            (∀ xs ys, s.current = some t → ws ≠ xs ++ t :: ys) → ClosedAt (links s'.tasks) rest t := by
  obtain ⟨ws, hw⟩ := h.wake tick
  obtain ⟨l', hp⟩ := hw.preempt hcurrent
  refine ⟨ws, l', hp.cases, hp.ok.ready.nodup, ?_, hw.due, ?_, ?_⟩
  · intro t ht
    rw [hw.sleepers]
    exact Multiset.mem_add.mpr (Or.inl (Multiset.mem_coe.mpr ht))
  · rintro rfl
    unfold Xylophone.roundRobin
    simp only []
    have hhead := hp.ok.ready.head
    rw [pickNext]
    have hpop := pop_none (Xylophone.preempt (Xylophone.wakeSleepers tick s.sleepQueue.size s)).tasks _ hhead
    unfold Xylophone.popReady
    rw [hpop]
    exact ⟨_, rfl⟩
  · rintro a rest rfl hclosed
    have hlink : rest ≠ [] ∨
        links (Xylophone.preempt (Xylophone.wakeSleepers tick s.sleepQueue.size s)).tasks a = none := by
      cases rest with
      | nil =>
        obtain ⟨hat, hnot⟩ := hclosed rfl
        exact Or.inr (hp.closed a hat hnot rfl)
      | cons b rest => exact Or.inl (List.cons_ne_nil _ _)
    obtain ⟨s', o, hpick, ho, hpicked⟩ := hp.ok.pick hlink
      (2 * (Xylophone.preempt (Xylophone.wakeSleepers tick s.sleepQueue.size s)).readyQueue.size)
    refine ⟨s', o, hpick, ho, ⟨hpicked.ok, hpicked.current, hpicked.running, ?_, hw.due, ?_, ?_, ?_,
      hpicked.ticks.trans hp.ticks, hpicked.hz.trans hp.hz,
      fun u => (hpicked.wakeTick u).trans (hp.wakeTick u)⟩, ?_⟩
    · rw [hpicked.sleepQueue]
      exact hp.sleepQueue
    · intro t ht
      refine hw.notDue t ?_
      have h1 := hp.sleepQueue
      rw [hw.sleepers] at h1
      rw [Multiset.add_right_inj.mp h1, ← hpicked.sleepQueue]
      exact ht
    · intro t ht
      by_cases hta : t = a
      · rw [hta]
        exact hpicked.running
      · rw [hpicked.others t hta]
        exact hp.running t ht
    · intro t ht hta
      rw [hpicked.others t hta]
      exact hp.others t ht
    · intro t ht hnot
      exact hpicked.closed t (hp.closed t ht hnot)

end Xylophone
