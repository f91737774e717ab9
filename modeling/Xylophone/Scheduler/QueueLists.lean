import Mathlib.Data.Finset.Card
import Xylophone.Infra.QueueFamily
import Xylophone.Infra.Run
import Xylophone.Scheduler.Structures

/-!
# Task queues as lists

Any number of task queues share the tasks of one table. They refine lists, one for each queue: a
push appends the task, a pop takes the first one.

* `QueuesRefine.push`, `QueuesRefine.pop` — the operations refine those of the lists
* `task_queue_run` — so do runs
-/

namespace Xylophone

open Infra

variable {κ : Type*} [DecidableEq κ]

/-- The queues, and the table with their tasks. -/
structure QueueTable (κ : Type*) where
  tasks : TaskTable
  queues : κ → TaskQueue

/-- A call of `task-queue.c`, for one of the queues. -/
inductive QueueCall (κ : Type*) where
  | push (k : κ) (task : Nat)
  | peek (k : κ)
  | pop (k : κ)

/-- The state after a call, and what the call returns. -/
def QueueTable.call (s : QueueTable κ) : QueueCall κ → QueueTable κ × Option Nat
  | .push k task =>
    let r := taskQueuePush s.tasks (s.queues k) task
    (⟨r.1, Function.update s.queues k r.2⟩, none)
  | .peek k => (s, taskQueuePeek (s.queues k))
  | .pop k =>
    let r := taskQueuePop s.tasks (s.queues k)
    (⟨r.1, Function.update s.queues k r.2.1⟩, r.2.2)

/-- The same call for lists. -/
def callLists (lists : κ → List Nat) : QueueCall κ → (κ → List Nat) × Option Nat
  | .push k task => (Function.update lists k (lists k ++ [task]), none)
  | .peek k => (lists, (lists k).head?)
  | .pop k => (Function.update lists k (lists k).tail, (lists k).head?)

/-- A push is of one of the structures, and it is in no queue. -/
def CallAllowed (structs : Finset Nat) (lists : κ → List Nat) : QueueCall κ → Prop
  | .push _ task => task ∈ structs ∧ ∀ k, task ∉ lists k
  | _ => True

/-- A queue that is a list: following `next` from the head leads through the list to `NULL`. -/
structure QueueIsList (tasks : TaskTable) (queue : TaskQueue) (l : List Nat) : Prop where
  follows : Follows (fun t => (tasks t).next) queue.head l
  tail : queue.tail = l.getLast?
  last : ∀ t, queue.tail = some t → (tasks t).next = none
  size : queue.size = l.length
  head_null : queue.head = none ↔ l = []
  tail_null : queue.tail = none ↔ l = []

/-- The queues refine the lists. -/
structure QueuesRefine (structs : Finset Nat) (s : QueueTable κ) (lists : κ → List Nat) : Prop where
  holds : HoldsAll (links s.tasks) (fun k => (s.queues k).ends) lists
  size : ∀ k, (s.queues k).size = (lists k).length
  structs : ∀ k, ∀ t ∈ lists k, t ∈ structs

variable {structs : Finset Nat} {s : QueueTable κ} {lists : κ → List Nat} {k : κ} {t : Nat}

/-! ## Queues that refine lists -/

omit [DecidableEq κ] in
theorem QueuesRefine.queue_isList (h : QueuesRefine structs s lists) (k : κ) :
    QueueIsList s.tasks (s.queues k) (lists k) where
  follows := (h.holds.holds k).follows (h.holds.closed k)
  tail := (h.holds.holds k).tail
  last := fun t ht => h.holds.closed k t (by rw [← (h.holds.holds k).tail]; exact ht)
  size := h.size k
  head_null := by
    have hhead : (s.queues k).head = (lists k).head? := (h.holds.holds k).head
    rw [hhead, List.head?_eq_none_iff]
  tail_null := (h.holds.holds k).tail_eq_none

omit [DecidableEq κ] in
/-- A queue is no longer than there are structures. -/
theorem QueuesRefine.length_le (h : QueuesRefine structs s lists) (k : κ) :
    (lists k).length ≤ structs.card := by
  have hnodup := (h.holds.holds k).nodup
  rw [← List.toFinset_card_of_nodup hnodup]
  exact Finset.card_le_card fun t ht => h.structs k t (List.mem_toFinset.mp ht)

omit [DecidableEq κ] in
theorem queuesRefine_init (tasks : TaskTable) :
    QueuesRefine structs (⟨tasks, fun _ => taskQueueInit⟩ : QueueTable κ) fun _ => [] where
  holds := holdsAll_nil
  size := fun _ => rfl
  structs := fun _ _ h => by cases h

/-- The ends of the queues after one queue changes. -/
theorem ends_update (queues : κ → TaskQueue) (k : κ) (queue : TaskQueue) :
    (fun k' => (Function.update queues k queue k').ends) =
      Function.update (fun k' => (queues k').ends) k queue.ends := by
  funext k'
  by_cases hk : k' = k
  · simp [hk]
  · simp [hk]

theorem push_size (tasks : TaskTable) (queue : TaskQueue) (t : Nat) :
    (taskQueuePush tasks queue t).2.size = wrap32 (queue.size + 1) := by
  unfold taskQueuePush
  cases queue.tail <;> rfl

/-- **A push refines an append.** -/
theorem QueuesRefine.push (h : QueuesRefine structs s lists) (hcard : structs.card < 0x100000000)
    (ht : t ∈ structs) (hfree : ∀ k, t ∉ lists k) :
    QueuesRefine structs (s.call (.push k t)).1 (callLists lists (.push k t)).1 where
  holds := by
    have hpush := h.holds.push (k := k) hfree
    simp only [QueueTable.call, callLists, ends_update, ends_push, links_push]
    exact hpush
  size := by
    intro k'
    by_cases hk : k' = k
    · subst hk
      -- the new task is one more of the structures
      have hlt : (lists k').length < structs.card := by
        have hnodup := List.nodup_cons.mpr ⟨hfree k', (h.holds.holds k').nodup⟩
        have hle : (t :: lists k').toFinset.card ≤ structs.card :=
          Finset.card_le_card fun u hu => by
            rcases List.mem_cons.mp (List.mem_toFinset.mp hu) with rfl | hu
            · exact ht
            · exact h.structs k' u hu
        rw [List.toFinset_card_of_nodup hnodup, List.length_cons] at hle
        exact hle
      simp [QueueTable.call, callLists, push_size, h.size k', wrap32_of_lt
        (show (lists k').length + 1 < 0x100000000 by omega)]
    · simpa [QueueTable.call, callLists, hk] using h.size k'
  structs := by
    intro k' u hu
    by_cases hk : k' = k
    · subst hk
      simp only [callLists, Function.update_self, List.mem_append, List.mem_singleton] at hu
      rcases hu with hu | rfl
      · exact h.structs k' u hu
      · exact ht
    · simp only [callLists, Function.update_of_ne hk] at hu
      exact h.structs k' u hu

omit [DecidableEq κ] in
theorem QueuesRefine.peek_eq (h : QueuesRefine structs s lists) :
    taskQueuePeek (s.queues k) = (lists k).head? := by
  have hhead : (s.queues k).head = (lists k).head? := (h.holds.holds k).head
  unfold taskQueuePeek
  split
  · next hzero =>
    rw [h.size k] at hzero
    rw [List.length_eq_zero_iff.mp hzero]
    rfl
  · exact hhead

/-- **A pop refines taking the first element.** -/
theorem QueuesRefine.pop (h : QueuesRefine structs s lists) (hcard : structs.card < 0x100000000) :
    QueuesRefine structs (s.call (.pop k)).1 (callLists lists (.pop k)).1 ∧
      (s.call (.pop k)).2 = (lists k).head? := by
  have hhead : (s.queues k).head = (lists k).head? := (h.holds.holds k).head
  cases hl : lists k with
  | nil =>
    rw [hl] at hhead
    have hcall : s.call (.pop k) = (s, none) := by
      simp [QueueTable.call, pop_none s.tasks _ hhead]
    have hlists : (callLists lists (.pop k)).1 = lists := by
      show Function.update lists k (lists k).tail = lists
      rw [hl, List.tail_nil, ← hl, Function.update_eq_self]
    rw [hcall, hlists]
    exact ⟨h, rfl⟩
  | cons t as =>
    rw [hl] at hhead
    have hpop := pop_some s.tasks (s.queues k) t hhead
    have hle := h.length_le k
    rw [hl, List.length_cons] at hle
    refine ⟨⟨?_, fun k' => ?_, fun k' u hu => ?_⟩, by simp [QueueTable.call, hpop]⟩
    · have hholds := h.holds.pop hl
      simp only [QueueTable.call, callLists, hpop, ends_update, links_setNext, hl, List.tail_cons]
      exact hholds
    · by_cases hk : k' = k
      · subst hk
        simp only [QueueTable.call, callLists, hpop, Function.update_self, h.size, hl,
          List.length_cons, List.tail_cons]
        rw [sub32_of_le (by omega) (by omega), Nat.add_sub_cancel]
      · simpa [QueueTable.call, callLists, hpop, hk] using h.size k'
    · refine h.structs k' u ?_
      by_cases hk : k' = k
      · subst hk
        simp only [callLists, Function.update_self] at hu
        exact List.mem_of_mem_tail hu
      · simpa [callLists, hk] using hu

theorem QueuesRefine.call (h : QueuesRefine structs s lists) (hcard : structs.card < 0x100000000)
    {call : QueueCall κ} (hallowed : CallAllowed structs lists call) :
    QueuesRefine structs (s.call call).1 (callLists lists call).1 ∧
      (s.call call).2 = (callLists lists call).2 := by
  cases call with
  | push k t => exact ⟨h.push hcard hallowed.1 hallowed.2, rfl⟩
  | peek k => exact ⟨h, h.peek_eq⟩
  | pop k => exact h.pop hcard

/-! ## Runs -/

/-- The queues and the lists, after a call of both. -/
def callBoth (p : QueueTable κ × (κ → List Nat)) (call : QueueCall κ) :
    QueueTable κ × (κ → List Nat) := ((p.1.call call).1, (callLists p.2 call).1)

/-- Every queue is its list, before and after the call, and the call returns what the same call of
the lists returns. -/
structure CallAgrees (p : QueueTable κ × (κ → List Nat)) (call : QueueCall κ) : Prop where
  before : ∀ k, QueueIsList p.1.tasks (p.1.queues k) (p.2 k)
  after : ∀ k, QueueIsList (callBoth p call).1.tasks ((callBoth p call).1.queues k)
    ((callBoth p call).2 k)
  returns : (p.1.call call).2 = (callLists p.2 call).2

/-- **Runs of the task queues.** Any number of queues share a set of structures, no more than an
address space of 32 bits has. In every run of calls from new queues in which a task is pushed only
while it is in no queue, the queues are lists and the calls return what those of the lists do. -/
theorem task_queue_run (structs : Finset Nat) (hcard : structs.card < 0x100000000)
    (tasks : TaskTable)
    {calls : List (QueueCall κ)}
    (hallowed : EveryStep callBoth (fun p call => CallAllowed structs p.2 call)
      (⟨tasks, fun _ => taskQueueInit⟩, fun _ => []) calls) :
    EveryStep callBoth CallAgrees (⟨tasks, fun _ => taskQueueInit⟩, fun _ => []) calls := by
  refine hallowed.imp (I := fun p => QueuesRefine structs p.1 p.2)
    (fun p call _ h ha => (h.call hcard ha).1) (fun p call _ h ha => ?_) (queuesRefine_init tasks)
  obtain ⟨hnext, hreturns⟩ := h.call hcard ha
  exact ⟨h.queue_isList, hnext.queue_isList, hreturns⟩

/-- Two queues, and a task that goes from one to the other. -/
theorem task_queue_run_twoQueues :
    EveryStep callBoth CallAgrees
      ((⟨fun _ => clearedTask, fun _ => taskQueueInit⟩ : QueueTable Bool), fun _ => [])
      [.push true 3, .push true 5, .pop true, .push false 3, .peek true] :=
  task_queue_run {3, 5} (by decide) _ (by
    refine ⟨⟨by decide, ?_⟩, ⟨by decide, ?_⟩, trivial, ⟨by decide, ?_⟩, trivial, trivial⟩ <;>
      simp [callBoth, callLists, Function.update_apply])

end Xylophone
