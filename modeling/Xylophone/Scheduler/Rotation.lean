import Mathlib.Data.List.Rotate
import Xylophone.Scheduler.Queues

/-!
# The rotation of the round robin

As long as no sleeper is woken, `round_robin` puts the current task at the end of the ready queue
and takes the first one out. With the current task in front, the tasks form a list that each call
rotates by one.

* `Rotating.step` — one call
* `Rotating.run` — any number of calls
* `rotation` — after as many calls as there are tasks, everything is as before
-/

namespace Xylophone

open Infra

variable {s s' s'' : Scheduler} {L l : List Nat} {ticks : List Nat} {c tick t : Nat}

/-- Successive calls of `round_robin`. -/
def roundRobins (s : Scheduler) : List Nat → Option Scheduler
  | [] => some s
  | tick :: ticks => (roundRobin s tick).bind fun r => roundRobins r.1 ticks

/-- The first task of `L` is the current task, the ready queue holds the others, and all are
running. -/
structure Rotating (s : Scheduler) (L : List Nat) : Prop where
  current : s.current = L.head?
  nonempty : L ≠ []
  ready : Holds (links s.tasks) s.readyQueue.ends L.tail
  closed : Closed (links s.tasks) L.tail
  nodup : L.Nodup
  running : ∀ t ∈ L, (s.tasks t).state = .running
  /-- The size is a `uint32_t`. -/
  size : s.readyQueue.size < 0x100000000

/-- No sleeper is to be woken at the tick. -/
def NotDue (s : Scheduler) (tick : Nat) : Prop :=
  ∀ t ∈ s.sleepQueue.tasks, tick < (s.tasks t).wakeTick

/-- Only links of tasks of `L` differ. -/
structure OnlyLinks (L : List Nat) (s s' : Scheduler) : Prop where
  zombieQueue : s'.zombieQueue = s.zombieQueue
  sleepQueue : s'.sleepQueue = s.sleepQueue
  size : s'.readyQueue.size = s.readyQueue.size
  fields : ∀ t, s'.tasks t = { s.tasks t with next := (s'.tasks t).next }
  others : ∀ t, t ∉ L → s'.tasks t = s.tasks t

theorem OnlyLinks.refl (L : List Nat) (s : Scheduler) : OnlyLinks L s s :=
  ⟨rfl, rfl, rfl, fun _ => rfl, fun _ _ => rfl⟩

theorem OnlyLinks.trans (h : OnlyLinks L s s') (h' : OnlyLinks L s' s'') : OnlyLinks L s s'' where
  zombieQueue := h'.zombieQueue.trans h.zombieQueue
  sleepQueue := h'.sleepQueue.trans h.sleepQueue
  size := h'.size.trans h.size
  fields := by
    intro t
    rw [h'.fields t, h.fields t]
  others := fun t ht => (h'.others t ht).trans (h.others t ht)

/-- The order of the list does not matter. -/
theorem OnlyLinks.of_mem {L' : List Nat} (h : OnlyLinks L s s') (hmem : ∀ t ∈ L, t ∈ L') :
    OnlyLinks L' s s' :=
  ⟨h.zombieQueue, h.sleepQueue, h.size, h.fields, fun t ht => h.others t fun hl => ht (hmem t hl)⟩

theorem OnlyLinks.notDue (h : OnlyLinks L s s') (hdue : NotDue s tick) : NotDue s' tick := by
  intro t ht
  rw [h.sleepQueue] at ht
  rw [h.fields t]
  exact hdue t ht

/-- With no sleeper to be woken the loop stops at once. -/
theorem wakeSleepers_of_notDue (h : NotDue s tick) (fuel : Nat) : wakeSleepers tick fuel s = s := by
  cases fuel with
  | zero => rfl
  | succ fuel =>
    rw [wakeSleepers]
    unfold sleepQueuePeek
    by_cases hsize : s.sleepQueue.size = 0
    · rw [if_pos hsize]
    · rw [if_neg hsize]
      exact if_pos (h _ (mem_contents.mpr ⟨0, Nat.pos_of_ne_zero hsize, rfl⟩))

/-- A running task is pushed as it is. -/
theorem enqueueReady_running (h : (s.tasks c).state = .running) :
    enqueueReady s c = { s with
      tasks := (taskQueuePush s.tasks s.readyQueue c).1
      readyQueue := (taskQueuePush s.tasks s.readyQueue c).2 } := by
  have hsame : setState s.tasks c .running = s.tasks := by
    unfold setState
    rw [← h]
    exact Function.update_eq_self c s.tasks
  unfold enqueueReady
  rw [hsame, ite_self]

/-- A push changes the links of the last task and of the one that is pushed. -/
theorem push_of_ne {tasks : TaskTable} {queue : TaskQueue} (hne : t ≠ c)
    (htail : queue.tail ≠ some t) : (taskQueuePush tasks queue c).1 t = tasks t := by
  unfold taskQueuePush
  cases hq : queue.tail with
  | none => exact Function.update_of_ne hne _ _
  | some u =>
    have htu : t ≠ u := by
      rintro rfl
      exact htail hq
    exact (Function.update_of_ne htu _ _).trans (Function.update_of_ne hne _ _)

/-- The ends of a queue are those of the list it holds. -/
theorem eq_of_holds {next next' : Nat → Option Nat} {queue queue' : TaskQueue}
    (h : Holds next queue.ends l) (h' : Holds next' queue'.ends l)
    (hsize : queue.size = queue'.size) : queue = queue' := by
  obtain ⟨head, tail, size⟩ := queue
  obtain ⟨head', tail', size'⟩ := queue'
  obtain rfl : head = head' := h.head.trans h'.head.symm
  obtain rfl : tail = tail' := h.tail.trans h'.tail.symm
  obtain rfl : size = size' := hsize
  rfl

/-- The size after a push and a pop. -/
theorem size_push_pop {n : Nat} (h : n < 0x100000000) : sub32 (wrap32 (n + 1)) 1 = n := by
  unfold sub32 wrap32
  omega

/-- **One call** rotates the tasks by one. -/
theorem Rotating.step (h : Rotating s L) (hdue : NotDue s tick) :
    ∃ r, roundRobin s tick = some r ∧ Rotating r.1 (L.rotate 1) ∧ OnlyLinks L s r.1 := by
  obtain ⟨c, l, rfl⟩ := List.exists_cons_of_ne_nil h.nonempty
  have hc : s.current = some c := h.current
  have hcl : c ∉ l := (List.nodup_cons.mp h.nodup).1
  have hrun : (s.tasks c).state = .running := h.running c (List.mem_cons_self ..)
  -- the current task is put back
  obtain ⟨tasks, htasks⟩ : ∃ tasks, tasks = (taskQueuePush s.tasks s.readyQueue c).1 := ⟨_, rfl⟩
  obtain ⟨queue, hqueue⟩ : ∃ queue, queue = (taskQueuePush s.tasks s.readyQueue c).2 := ⟨_, rfl⟩
  have hback : preempt s = { s with tasks := tasks, readyQueue := queue, current := none } := by
    unfold preempt
    rw [hc]
    simp only [hrun, if_true]
    rw [enqueueReady_running hrun, htasks, hqueue]
  have hlinks : links tasks = pushNext (links s.tasks) s.readyQueue.ends c := by
    rw [htasks, links_push]
  have hends : queue.ends = pushEnds s.readyQueue.ends c := by rw [hqueue, ends_push]
  obtain ⟨hready, hclosed⟩ := h.ready.push hcl
  rw [← hlinks, ← hends] at hready
  rw [← hlinks] at hclosed
  -- the first task is taken out
  obtain ⟨a, l₁, hl₁⟩ : ∃ a l₁, l ++ [c] = a :: l₁ := by
    cases l with
    | nil => exact ⟨c, [], rfl⟩
    | cons b l => exact ⟨b, l ++ [c], rfl⟩
  have hmem : ∀ t, t ∈ a :: l₁ ↔ t ∈ c :: l := by
    intro t
    rw [← hl₁, List.mem_append, List.mem_singleton, List.mem_cons, or_comm]
  rw [List.tail_cons, hl₁] at hready hclosed
  have hlast : l₁ ≠ [] ∨ links tasks a = none := by
    cases l₁ with
    | nil => exact Or.inr (hclosed a rfl)
    | cons b l₁ => exact Or.inl (List.cons_ne_nil b l₁)
  obtain ⟨hpop, -⟩ := hready.pop hlast
  have hstate : ∀ t, (setNext tasks a none t).state = (s.tasks t).state := by
    intro t
    rw [setNext_state, htasks, push_state]
  have hpick : roundRobin s tick = some ({ s with
      tasks := setNext tasks a none
      readyQueue := ⟨(tasks a).next, if (tasks a).next = none then none else queue.tail,
        sub32 queue.size 1⟩
      current := some a }, .switched a) := by
    unfold roundRobin
    simp only [wakeSleepers_of_notDue hdue, hback]
    rw [pickNext]
    unfold popReady
    simp only [pop_some tasks queue a hready.head, hstate]
    rw [h.running a ((hmem a).mp (List.mem_cons_self ..))]
  refine ⟨_, hpick, ?_, ?_⟩
  · have hrotate : (c :: l).rotate 1 = a :: l₁ := by
      rw [List.rotate_cons_succ, List.rotate_zero, hl₁]
    have hpopLinks : links (setNext tasks a none) = popNext (links tasks) a := links_setNext ..
    rw [hrotate]
    refine ⟨rfl, List.cons_ne_nil a l₁, ?_, ?_, ?_, ?_, sub32_lt ..⟩
    · show Holds (links (setNext tasks a none)) (popEnds (links tasks) queue.ends a) l₁
      rw [hpopLinks]
      exact hpop
    · intro u hu
      have hua : u ≠ a := by
        rintro rfl
        exact (List.nodup_cons.mp hready.nodup).1 (List.mem_of_getLast? hu)
      show links (setNext tasks a none) u = none
      rw [hpopLinks, popNext, Function.update_of_ne hua]
      refine hclosed u ?_
      cases l₁ with
      | nil => cases hu
      | cons b l₁ => rwa [List.getLast?_cons_cons]
    · exact hready.nodup
    · intro t ht
      exact (hstate t).trans (h.running t ((hmem t).mp ht))
  · refine ⟨rfl, rfl, ?_, fun t => ?_, fun t ht => ?_⟩
    · show sub32 queue.size 1 = s.readyQueue.size
      have hsize : queue.size = wrap32 (s.readyQueue.size + 1) := by
        rw [hqueue]
        unfold taskQueuePush
        cases s.readyQueue.tail with
        | none => rfl
        | some u => rfl
      rw [hsize, size_push_pop h.size]
    · show setNext tasks a none t = { s.tasks t with next := (setNext tasks a none t).next }
      rw [setNext_fields tasks a t none, htasks, push_fields s.tasks s.readyQueue c t]
    · have hta : t ≠ a := by
        rintro rfl
        exact ht ((hmem t).mp (List.mem_cons_self ..))
      have htc : t ≠ c := by
        rintro rfl
        exact ht (List.mem_cons_self ..)
      have htail : s.readyQueue.tail ≠ some t := by
        rw [show s.readyQueue.tail = l.getLast? from h.ready.tail]
        exact fun he => ht (List.mem_cons_of_mem _ (List.mem_of_getLast? he))
      show setNext tasks a none t = s.tasks t
      rw [show setNext tasks a none t = tasks t from Function.update_of_ne hta _ _, htasks]
      exact push_of_ne htc htail

/-- **Any number of calls** rotates the tasks by that number. -/
theorem Rotating.run (h : Rotating s L) (hdue : ∀ tick ∈ ticks, NotDue s tick) :
    ∃ s', roundRobins s ticks = some s' ∧ Rotating s' (L.rotate ticks.length) ∧ OnlyLinks L s s' := by
  induction ticks generalizing s L with
  | nil => exact ⟨s, rfl, by rw [List.length_nil, List.rotate_zero]; exact h, .refl L s⟩
  | cons tick ticks ih =>
    obtain ⟨r, hr, hrot, hlinks⟩ := h.step (hdue tick (List.mem_cons_self ..))
    have hdue' : ∀ tick' ∈ ticks, NotDue r.1 tick' := fun tick' ht =>
      hlinks.notDue (hdue tick' (List.mem_cons_of_mem _ ht))
    obtain ⟨s', hs', hrot', hlinks'⟩ := ih hrot hdue'
    refine ⟨s', ?_, ?_, hlinks.trans (hlinks'.of_mem fun t ht => List.mem_rotate.mp ht)⟩
    · rw [roundRobins, hr]
      exact hs'
    · rw [List.rotate_rotate, Nat.add_comm 1] at hrot'
      exact hrot'

/-- **The rotation of the round robin.** The current task `c` is running, the ready queue holds the
running tasks of `l`, and no sleeper is woken. Then call number `k` makes task number `k` of `l`
the current one, and the last call makes `c` the current task again, with the queues as they
were. -/
theorem rotation (h : Rotating s (c :: l)) (hlen : ticks.length = l.length + 1)
    (hdue : ∀ tick ∈ ticks, NotDue s tick) :
    (∀ k t, l[k]? = some t → ∃ s', roundRobins s (ticks.take (k + 1)) = some s' ∧
      s'.current = some t) ∧
    ∃ s', roundRobins s ticks = some s' ∧ s'.current = some c ∧
      Holds (links s'.tasks) s'.readyQueue.ends l ∧ Closed (links s'.tasks) l ∧
      s'.readyQueue = s.readyQueue ∧ OnlyLinks (c :: l) s s' := by
  refine ⟨fun k t hk => ?_, ?_⟩
  · obtain ⟨hlt, -⟩ := List.getElem?_eq_some_iff.mp hk
    have hdue' : ∀ tick ∈ ticks.take (k + 1), NotDue s tick := fun tick ht =>
      hdue tick (List.mem_of_mem_take ht)
    obtain ⟨s', hs', hrot, -⟩ := h.run hdue'
    refine ⟨s', hs', ?_⟩
    have hcount : (ticks.take (k + 1)).length = k + 1 := by
      rw [List.length_take]
      omega
    rw [hrot.current, hcount, List.head?_rotate (by rw [List.length_cons]; omega),
      List.getElem?_cons_succ, hk]
  · obtain ⟨s', hs', hrot, hlinks⟩ := h.run hdue
    have hround : (c :: l).rotate ticks.length = c :: l := by
      rw [hlen, ← List.length_cons (a := c), List.rotate_length]
    rw [hround] at hrot
    refine ⟨s', hs', hrot.current, hrot.ready, hrot.closed, ?_, hlinks⟩
    exact eq_of_holds hrot.ready h.ready hlinks.size


/-- A scheduler with one current task and two in the ready queue, all of them running. -/
def threeRunning : Scheduler where
  tasks := fun t => { clearedTask with state := .running, next := if t = 1 then some 2 else none }
  readyQueue := ⟨some 1, some 2, 2⟩
  zombieQueue := taskQueueInit
  sleepQueue := sleepQueueInit (fun _ => 0) maxSleepTasks
  current := some 0
  ticks := 0
  hz := 500

theorem rotation_threeRunning :
    (∀ k t, [1, 2][k]? = some t → ∃ s', roundRobins threeRunning ([5, 5, 6].take (k + 1)) = some s' ∧
      s'.current = some t) ∧
    ∃ s', roundRobins threeRunning [5, 5, 6] = some s' ∧ s'.current = some 0 ∧
      Holds (links s'.tasks) s'.readyQueue.ends [1, 2] ∧ Closed (links s'.tasks) [1, 2] ∧
      s'.readyQueue = threeRunning.readyQueue ∧ OnlyLinks [0, 1, 2] threeRunning s' := by
  refine rotation ⟨rfl, List.cons_ne_nil _ _, ⟨rfl, rfl, List.isChain_pair.mpr rfl, ?_, by decide⟩, ?_,
    by decide, fun _ _ => rfl, by decide⟩ rfl fun tick _ t ht => absurd ht (Multiset.notMem_zero t)
  · intro a ha
    obtain rfl : 2 = a := Option.some.inj ha
    exact Or.inl rfl
  · intro a ha
    obtain rfl : 2 = a := Option.some.inj ha
    rfl

end Xylophone
