import Mathlib.Algebra.Order.Group.Multiset
import Mathlib.Data.List.TakeWhile
import Xylophone.Scheduler.QueueLists
import Xylophone.Scheduler.Queues

/-!
# What `round_robin` selects

`round_robin` on any state of the tasks: the ready queue may hold tasks of every state, and the
sleep queue too. It chooses from the ready queue, the sleepers whose time has come and the current
task, in this order.

* `QueuesSound.wakeSleepers` — the sleepers come out in the order of their wake ticks
* `QueuesSound.pass` — the tasks that cannot run are passed over
* `round_robin_spec` — which task is selected, and where the others are
-/

namespace Xylophone

open Infra

variable {structs : Finset Nat} {s s' : Scheduler} {l z : List Nat} {t a : Nat}
  {states states' : Nat → TaskState}

/-! ## States of tasks -/

/-- The scheduler switches to a task of this state. -/
def TaskState.Runnable (state : TaskState) : Prop := state = .running ∨ state = .created

/-- The scheduler puts a task of this state back, as a running one. -/
def TaskState.Parked (state : TaskState) : Prop :=
  state = .stopped ∨ state = .blocked ∨ state = .cleaning

instance (state : TaskState) : Decidable state.Runnable := inferInstanceAs (Decidable (_ ∨ _))

instance (state : TaskState) : Decidable state.Parked := inferInstanceAs (Decidable (_ ∨ _ ∨ _))

theorem TaskState.Parked.other {state : TaskState} (h : state.Parked) :
    state ≠ .zombie ∧ state ≠ .sleeping ∧ state ≠ .created ∧ ¬ state.Runnable := by
  rcases h with rfl | rfl | rfl <;> decide

/-- The tasks of a list whose states have a property, in order. -/
def tasksIn (p : TaskState → Prop) [DecidablePred p] (states : Nat → TaskState) (l : List Nat) :
    List Nat := l.filter fun t => p (states t)

/-- The state of every task. -/
def Scheduler.stateOf (s : Scheduler) (t : Nat) : TaskState := (s.tasks t).state

section TasksIn

variable (p : TaskState → Prop) [DecidablePred p]

theorem tasksIn_append (l l' : List Nat) :
    tasksIn p states (l ++ l') = tasksIn p states l ++ tasksIn p states l' := List.filter_append ..

theorem tasksIn_congr (h : ∀ t ∈ l, states' t = states t) :
    tasksIn p states' l = tasksIn p states l :=
  List.filter_congr fun t ht => by rw [h t ht]

theorem tasksIn_singleton_of (h : p (states t)) : tasksIn p states [t] = [t] := by
  simp [tasksIn, h]

theorem tasksIn_singleton_of_not (h : ¬ p (states t)) : tasksIn p states [t] = [] := by
  simp [tasksIn, h]

theorem tasksIn_cons (t : Nat) (l : List Nat) :
    tasksIn p states (t :: l) = tasksIn p states [t] ++ tasksIn p states l :=
  tasksIn_append p [t] l

end TasksIn

/-! ## The queues -/

/-- The task queues of the scheduler. -/
inductive QueueName where
  | ready
  | zombie
deriving DecidableEq, Repr

/-- The task queues and the task table. -/
def Scheduler.queueTable (s : Scheduler) : QueueTable QueueName where
  tasks := s.tasks
  queues
    | .ready => s.readyQueue
    | .zombie => s.zombieQueue

/-- The lists of the ready queue and of the zombie queue. -/
def queueLists (l z : List Nat) : QueueName → List Nat
  | .ready => l
  | .zombie => z

/--
The ready queue holds `l`, the zombie queue holds `z`, and the sleep queue is a heap with room for the
sleeping tasks of `l`. No task is in two places.
-/
structure QueuesSound (structs : Finset Nat) (s : Scheduler) (l z : List Nat) : Prop where
  refine : QueuesRefine structs s.queueTable (queueLists l z)
  sleepers : s.sleepQueue.tasks.Nodup
  sleepStructs : ∀ t ∈ s.sleepQueue.tasks, t ∈ structs
  apart : ∀ t ∈ s.sleepQueue.tasks, t ∉ l ∧ t ∉ z
  ordered : s.sleepQueue.Ordered s.tasks
  room : s.sleepQueue.size + (tasksIn (· = .sleeping) s.stateOf l).length ≤ s.sleepQueue.capacity

/-- A task of the structures that is in no queue. -/
structure Unqueued (structs : Finset Nat) (s : Scheduler) (l z : List Nat) (t : Nat) : Prop where
  mem : t ∈ structs
  ready : t ∉ l
  zombie : t ∉ z
  sleep : t ∉ s.sleepQueue.tasks

@[simp] theorem queueLists_update_ready (l' : List Nat) :
    Function.update (queueLists l z) .ready l' = queueLists l' z := by
  funext k
  cases k <;> simp [queueLists]

@[simp] theorem queueLists_update_zombie (z' : List Nat) :
    Function.update (queueLists l z) .zombie z' = queueLists l z' := by
  funext k
  cases k <;> simp [queueLists]

theorem Unqueued.not_mem_lists (h : Unqueued structs s l z t) (k : QueueName) :
    t ∉ queueLists l z k := by
  cases k
  · exact h.ready
  · exact h.zombie

/-- The lists of a refinement depend on links and queues only. -/
theorem QueuesRefine.congr {κ : Type*} {q q' : QueueTable κ} {lists : κ → List Nat}
    (h : QueuesRefine structs q lists) (hlinks : links q'.tasks = links q.tasks)
    (hqueues : q'.queues = q.queues) : QueuesRefine structs q' lists where
  holds := by
    rw [hlinks, hqueues]
    exact h.holds
  size := by
    rw [hqueues]
    exact h.size
  structs := h.structs

/-! ## Pushes -/

section Push

variable (s t)

/-- The task table when `enqueue_ready` has set the state. -/
def readyMarked : TaskTable :=
  if (s.tasks t).state ≠ .created then setState s.tasks t .running else s.tasks

theorem links_readyMarked : links (readyMarked s t) = links s.tasks := by
  unfold readyMarked
  split
  · exact links_setState ..
  · rfl

theorem queueTable_enqueueReady : (enqueueReady s t).queueTable =
    (({ s with tasks := readyMarked s t } : Scheduler).queueTable.call (.push .ready t)).1 := by
  unfold Scheduler.queueTable QueueTable.call
  simp only [QueueTable.mk.injEq]
  refine ⟨rfl, ?_⟩
  funext k
  cases k <;> simp [enqueueReady, readyMarked]

theorem queueTable_enqueueZombie : (enqueueZombie s t).queueTable =
    (({ s with tasks := setState s.tasks t .zombie } : Scheduler).queueTable.call
      (.push .zombie t)).1 := by
  unfold Scheduler.queueTable QueueTable.call
  simp only [QueueTable.mk.injEq]
  refine ⟨rfl, ?_⟩
  funext k
  cases k <;> simp [enqueueZombie]

theorem state_enqueueReady : (enqueueReady s t).stateOf =
    Function.update s.stateOf t (if s.stateOf t = .created then .created else .running) := by
  funext u
  by_cases hu : u = t
  · rw [hu, Function.update_self]
    exact enqueueReady_state s t
  · rw [Function.update_of_ne hu]
    exact enqueueReady_of_ne s t u hu

theorem state_setState (state : TaskState) :
    ({ s with tasks := setState s.tasks t state } : Scheduler).stateOf =
      Function.update s.stateOf t state := by
  funext u
  by_cases hu : u = t
  · rw [hu, Function.update_self]
    exact setState_self ..
  · rw [Function.update_of_ne hu]
    exact congrArg Task.state (setState_of_ne _ _ hu)

theorem state_enqueueZombie :
    (enqueueZombie s t).stateOf = Function.update s.stateOf t .zombie := by
  rw [← state_setState]
  funext u
  exact push_state ..

theorem state_enqueueSleeper :
    (enqueueSleeper s t).stateOf = Function.update s.stateOf t .sleeping :=
  state_setState s t .sleeping

theorem enqueueZombie_sameRest : SameRest s (enqueueZombie s t) :=
  ⟨rfl, rfl, rfl, fun u => by simp [enqueueZombie]⟩

theorem enqueueSleeper_sameRest : SameRest s (enqueueSleeper s t) :=
  ⟨rfl, rfl, rfl, fun u => by simp [enqueueSleeper]⟩

end Push

/-- The sleeping tasks of a list that does not hold the task whose state changes. -/
theorem tasksIn_update (p : TaskState → Prop) [DecidablePred p] (h : t ∉ l) (new : TaskState) :
    tasksIn p (Function.update states t new) l = tasksIn p states l := by
  refine tasksIn_congr p fun u hu => Function.update_of_ne ?_ _ _
  rintro rfl
  exact h hu

/-- The wake ticks and the sleep queue are the same, so is its order. -/
theorem QueuesSound.ordered_of (h : QueuesSound structs s l z)
    (hsleep : s'.sleepQueue = s.sleepQueue)
    (hrest : SameRest s s') : s'.sleepQueue.Ordered s'.tasks := by
  rw [hsleep]
  exact h.ordered.congr_key fun i _ => hrest.wakeTick _

/-- **A push to the ready queue** of a task that is in no queue. -/
theorem QueuesSound.enqueueReady (h : QueuesSound structs s l z)
    (hcard : structs.card < 0x100000000)
    (ht : Unqueued structs s l z t) : QueuesSound structs (enqueueReady s t) (l ++ [t]) z where
  refine := by
    have hmarked : QueuesRefine structs
        ({ s with tasks := readyMarked s t } : Scheduler).queueTable (queueLists l z) :=
      h.refine.congr (links_readyMarked s t) rfl
    have hpush := hmarked.push (k := .ready) hcard ht.mem ht.not_mem_lists
    rw [queueTable_enqueueReady]
    simpa [callLists, queueLists] using hpush
  sleepers := h.sleepers
  sleepStructs := h.sleepStructs
  apart := by
    intro u hu
    have hut : u ≠ t := by
      rintro rfl
      exact ht.sleep hu
    exact ⟨by simpa [hut] using (h.apart u hu).1, (h.apart u hu).2⟩
  ordered := h.ordered_of rfl (enqueueReady_sameRest s t)
  room := by
    have hnot : ¬ (if s.stateOf t = .created then TaskState.created else .running) = .sleeping := by
      split <;> decide
    rw [state_enqueueReady, tasksIn_append, tasksIn_update _ ht.ready,
      tasksIn_singleton_of_not _ (by rwa [Function.update_self]), List.append_nil]
    exact h.room

/-- **A push to the zombie queue.** -/
theorem QueuesSound.enqueueZombie (h : QueuesSound structs s l z)
    (hcard : structs.card < 0x100000000)
    (ht : Unqueued structs s l z t) : QueuesSound structs (enqueueZombie s t) l (z ++ [t]) where
  refine := by
    have hmarked : QueuesRefine structs
        ({ s with tasks := setState s.tasks t .zombie } : Scheduler).queueTable (queueLists l z) :=
      h.refine.congr (links_setState ..) rfl
    have hpush := hmarked.push (k := .zombie) hcard ht.mem ht.not_mem_lists
    rw [queueTable_enqueueZombie]
    simpa [callLists, queueLists] using hpush
  sleepers := h.sleepers
  sleepStructs := h.sleepStructs
  apart := by
    intro u hu
    have hut : u ≠ t := by
      rintro rfl
      exact ht.sleep hu
    exact ⟨(h.apart u hu).1, by simpa [hut] using (h.apart u hu).2⟩
  ordered := h.ordered_of rfl (enqueueZombie_sameRest s t)
  room := by
    rw [state_enqueueZombie, tasksIn_update _ ht.ready]
    exact h.room

/-- **A push to the sleep queue**, which has room. -/
theorem QueuesSound.enqueueSleeper (h : QueuesSound structs s l z) (ht : Unqueued structs s l z t)
    (hroom : s.sleepQueue.size + (tasksIn (· = .sleeping) s.stateOf l).length <
      s.sleepQueue.capacity) :
    QueuesSound structs (enqueueSleeper s t) l z ∧
      (Xylophone.enqueueSleeper s t).sleepQueue.tasks = t ::ₘ s.sleepQueue.tasks := by
  have hne : s.sleepQueue.size ≠ s.sleepQueue.capacity := by omega
  obtain ⟨htasks, hsize, hcapacity, hordered⟩ :=
    sleepQueuePush_spec (setState s.tasks t .sleeping) t hne
  refine ⟨⟨h.refine.congr (links_setState ..) rfl, ?_, ?_, ?_, ?_, ?_⟩, htasks⟩
  · exact htasks ▸ Multiset.nodup_cons.mpr ⟨ht.sleep, h.sleepers⟩
  · intro u hu
    rcases Multiset.mem_cons.mp (htasks ▸ hu) with rfl | hu
    · exact ht.mem
    · exact h.sleepStructs u hu
  · intro u hu
    rcases Multiset.mem_cons.mp (htasks ▸ hu) with rfl | hu
    · exact ⟨ht.ready, ht.zombie⟩
    · exact h.apart u hu
  · exact hordered (h.ordered.congr_key fun i _ => setState_wakeTick ..)
  · rw [state_enqueueSleeper, tasksIn_update _ ht.ready]
    show (sleepQueuePush _ _ t).size + _ ≤ (sleepQueuePush _ _ t).capacity
    rw [hsize, hcapacity]
    omega

/-! ## Pops -/

section Pop

theorem queueTable_popReady (s : Scheduler) :
    (popReady s).1.queueTable = (s.queueTable.call (.pop .ready)).1 := by
  unfold Scheduler.queueTable QueueTable.call
  simp only [QueueTable.mk.injEq]
  refine ⟨rfl, ?_⟩
  funext k
  cases k <;> simp [popReady]

theorem stateOf_popReady (s : Scheduler) : (popReady s).1.stateOf = s.stateOf :=
  funext fun u => (popReady_fields s u).1

theorem popReady_sameRest (s : Scheduler) : SameRest s (popReady s).1 :=
  ⟨rfl, rfl, rfl, fun u => (popReady_fields s u).2⟩

/-- **A pop of the ready queue.** -/
theorem QueuesSound.popReady
    (h : QueuesSound structs s (a :: l) z) (hcard : structs.card < 0x100000000) :
    QueuesSound structs (popReady s).1 l z ∧ (Xylophone.popReady s).2 = some a ∧
      Unqueued structs (Xylophone.popReady s).1 l z a := by
  obtain ⟨hrefine, hreturns⟩ := h.refine.pop (k := .ready) hcard
  have hnodup : (a :: l).Nodup := (h.refine.holds.holds .ready).nodup
  have hdisjoint : List.Disjoint (a :: l) z := h.refine.holds.disjoint .ready .zombie (by decide)
  refine ⟨⟨?_, h.sleepers, h.sleepStructs, ?_, ?_, ?_⟩, hreturns, ⟨?_, ?_, ?_, ?_⟩⟩
  · rw [queueTable_popReady]
    simpa [callLists, queueLists] using hrefine
  · exact fun u hu => ⟨fun hl => (h.apart u hu).1 (List.mem_cons_of_mem _ hl), (h.apart u hu).2⟩
  · exact h.ordered_of rfl (popReady_sameRest s)
  · have hroom := h.room
    rw [tasksIn_cons, List.length_append] at hroom
    rw [stateOf_popReady]
    show s.sleepQueue.size + _ ≤ s.sleepQueue.capacity
    omega
  · exact h.refine.structs .ready a List.mem_cons_self
  · exact (List.nodup_cons.mp hnodup).1
  · exact fun hz => hdisjoint List.mem_cons_self hz
  · exact fun hsleep => (h.apart a hsleep).1 List.mem_cons_self

theorem QueuesSound.popReady_nil (h : QueuesSound structs s [] z) :
    Xylophone.popReady s = (s, none) := by
  have hhead : s.readyQueue.head = none := (h.refine.holds.holds .ready).head
  unfold Xylophone.popReady
  rw [pop_none s.tasks _ hhead]

/-- Taking the root out of the sleep queue. -/
theorem QueuesSound.popSleeper (h : QueuesSound structs s l z) (hsize : s.sleepQueue.size ≠ 0) :
    QueuesSound structs (popSleeper s) l z ∧
      s.sleepQueue.tasks = s.sleepQueue.data 0 ::ₘ (Xylophone.popSleeper s).sleepQueue.tasks ∧
      (Xylophone.popSleeper s).sleepQueue.size + 1 = s.sleepQueue.size ∧
      Unqueued structs (Xylophone.popSleeper s) l z (s.sleepQueue.data 0) := by
  obtain ⟨-, htasks, hsz, hcap, hordered⟩ := sleepQueuePop_spec s.tasks hsize
  have hroot : s.sleepQueue.data 0 ∈ s.sleepQueue.tasks := by
    rw [htasks]
    exact Multiset.mem_cons_self _ _
  have hsub : ∀ u ∈ (Xylophone.popSleeper s).sleepQueue.tasks, u ∈ s.sleepQueue.tasks := by
    intro u hu
    rw [htasks]
    exact Multiset.mem_cons_of_mem hu
  have hnodup := h.sleepers
  rw [htasks, Multiset.nodup_cons] at hnodup
  refine ⟨⟨h.refine, hnodup.2, fun u hu => h.sleepStructs u (hsub u hu),
    fun u hu => h.apart u (hsub u hu), hordered h.ordered, ?_⟩, htasks, ?_,
    ⟨h.sleepStructs _ hroot, (h.apart _ hroot).1, (h.apart _ hroot).2, hnodup.1⟩⟩
  · have hroom := h.room
    show (sleepQueuePop s.tasks s.sleepQueue).1.size + (tasksIn _ s.stateOf l).length ≤
      (sleepQueuePop s.tasks s.sleepQueue).1.capacity
    rw [hsz, hcap]
    omega
  · show (sleepQueuePop s.tasks s.sleepQueue).1.size + 1 = s.sleepQueue.size
    omega

end Pop

/-! ## Waking -/

/-- The states when the tasks of the list have been woken. -/
def wokenStates (states : Nat → TaskState) (ws : List Nat) (t : Nat) : TaskState :=
  if t ∈ ws ∧ states t ≠ .created then .running else states t

theorem wokenStates_nil : wokenStates states [] = states := by
  funext t
  simp [wokenStates]

theorem wokenStates_cons (r : Nat) (ws : List Nat) :
    wokenStates (Function.update states r (if states r = .created then .created else .running)) ws =
      wokenStates states (r :: ws) := by
  funext t
  unfold wokenStates
  by_cases htr : t = r
  · subst htr
    by_cases hcreated : states t = .created <;> simp [hcreated]
  · simp [htr]

/-- The loop that wakes sleepers: those of `ws` go to the end of the ready queue, in the order of
their wake ticks. -/
structure WokenInOrder (structs : Finset Nat) (s s' : Scheduler) (tick : Nat) (l z ws : List Nat) :
    Prop where
  queued : QueuesSound structs s' (l ++ ws) z
  sleepers : s.sleepQueue.tasks = ↑ws + s'.sleepQueue.tasks
  due : ∀ t ∈ ws, (s.tasks t).wakeTick ≤ tick
  notDue : ∀ t ∈ s'.sleepQueue.tasks, tick < (s.tasks t).wakeTick
  sorted : ws.Pairwise fun t u => (s.tasks t).wakeTick ≤ (s.tasks u).wakeTick
  states : s'.stateOf = wokenStates s.stateOf ws
  rest : SameRest s s'

theorem QueuesSound.noneWoken {tick : Nat} (h : QueuesSound structs s l z)
    (hlater : ∀ u ∈ s.sleepQueue.tasks, tick < (s.tasks u).wakeTick) :
    WokenInOrder structs s s tick l z [] where
  queued := by simpa using h
  sleepers := by simp
  due := by simp
  notDue := hlater
  sorted := .nil
  states := wokenStates_nil.symm
  rest := .refl s

/-- One more sleeper is woken, the root of the heap. -/
theorem WokenInOrder.cons {tick : Nat} {ws : List Nat} (h : QueuesSound structs s l z)
    (hsize : s.sleepQueue.size ≠ 0)
    (hdue : (s.tasks (s.sleepQueue.data 0)).wakeTick ≤ tick)
    (hw : WokenInOrder structs (enqueueReady (popSleeper s) (s.sleepQueue.data 0)) s' tick
      (l ++ [s.sleepQueue.data 0]) z ws) :
    WokenInOrder structs s s' tick l z (s.sleepQueue.data 0 :: ws) := by
  obtain ⟨-, htasks, -, -⟩ := h.popSleeper hsize
  have hroot : ∀ u ∈ s.sleepQueue.tasks,
      (s.tasks (s.sleepQueue.data 0)).wakeTick ≤ (s.tasks u).wakeTick := by
    intro u hu
    obtain ⟨i, hi, rfl⟩ := mem_contents.mp hu
    exact h.ordered.root_le i hi
  generalize s.sleepQueue.data 0 = r at *
  have hrest : SameRest s (enqueueReady (popSleeper s) r) :=
    (show SameRest s (popSleeper s) from ⟨rfl, rfl, rfl, fun _ => rfl⟩).trans
      (enqueueReady_sameRest _ r)
  have hsleepers : (popSleeper s).sleepQueue.tasks = ↑ws + s'.sleepQueue.tasks := hw.sleepers
  have hmem : ∀ u ∈ ws, u ∈ s.sleepQueue.tasks := by
    intro u hu
    rw [htasks, hsleepers]
    simp [hu]
  refine ⟨by simpa using hw.queued, ?_, ?_, ?_, ?_, ?_, hrest.trans hw.rest⟩
  · rw [htasks, hsleepers, ← Multiset.cons_coe, Multiset.cons_add]
  · intro u hu
    rcases List.mem_cons.mp hu with rfl | hu
    · exact hdue
    · exact hrest.wakeTick u ▸ hw.due u hu
  · exact fun u hu => hrest.wakeTick u ▸ hw.notDue u hu
  · refine List.pairwise_cons.mpr ⟨fun u hu => hroot u (hmem u hu), hw.sorted.imp ?_⟩
    intro u v huv
    rwa [hrest.wakeTick, hrest.wakeTick] at huv
  · rw [hw.states, state_enqueueReady]
    exact wokenStates_cons r ws

/-- **The loop that wakes sleepers** ends, and wakes those whose time has come. -/
theorem QueuesSound.wakeSleepers (hcard : structs.card < 0x100000000) (tick : Nat) :
    ∀ (fuel : Nat) {s : Scheduler} {l : List Nat}, QueuesSound structs s l z → s.sleepQueue.size ≤ fuel →
      ∃ ws, WokenInOrder structs s (wakeSleepers tick fuel s) tick l z ws
  | 0, s, l, h, hfuel => by
    refine ⟨[], h.noneWoken fun u hu => ?_⟩
    obtain ⟨i, hi, -⟩ := mem_contents.mp hu
    omega
  | fuel + 1, s, l, h, hfuel => by
    rw [Xylophone.wakeSleepers]
    unfold sleepQueuePeek
    by_cases hsize : s.sleepQueue.size = 0
    · rw [if_pos hsize]
      refine ⟨[], h.noneWoken fun u hu => ?_⟩
      obtain ⟨i, hi, -⟩ := mem_contents.mp hu
      omega
    · rw [if_neg hsize]
      simp only []
      split
      · next hlater =>
        refine ⟨[], h.noneWoken fun u hu => ?_⟩
        obtain ⟨i, hi, rfl⟩ := mem_contents.mp hu
        exact Nat.lt_of_lt_of_le hlater (h.ordered.root_le i hi)
      · next hdue =>
        obtain ⟨hpop, -, hsz, hfree⟩ := h.popSleeper hsize
        obtain ⟨ws, hw⟩ := QueuesSound.wakeSleepers hcard tick fuel (hpop.enqueueReady hcard hfree)
          (show (Xylophone.popSleeper s).sleepQueue.size ≤ fuel by omega)
        exact ⟨_, WokenInOrder.cons h hsize (Nat.not_lt.mp hdue) hw⟩

/-! ## Passing over -/

/-- The tasks of `xs` are passed over: the zombies and the sleepers among them are in their queues
then, and the others behind the tasks of `ys`. -/
structure Passed (structs : Finset Nat) (s s' : Scheduler) (xs ys z : List Nat) : Prop where
  queued : QueuesSound structs s' (ys ++ tasksIn TaskState.Parked s.stateOf xs)
    (z ++ tasksIn (· = .zombie) s.stateOf xs)
  sleepers : s'.sleepQueue.tasks = ↑(tasksIn (· = .sleeping) s.stateOf xs) + s.sleepQueue.tasks
  states : ∀ t, s'.stateOf t =
    if t ∈ xs ∧ (s.stateOf t).Parked then .running else s.stateOf t
  rest : SameRest s s'

theorem Passed.nil (h : QueuesSound structs s l z) : Passed structs s s [] l z where
  queued := by simpa [tasksIn] using h
  sleepers := by simp [tasksIn]
  states := by simp
  rest := .refl s

section PickNext

variable {s₁ : Scheduler} {fuel : Nat}

theorem pickNext_zombie (hpop : popReady s = (s₁, some a)) (hstate : (s₁.tasks a).state = .zombie) :
    pickNext (fuel + 1) s = pickNext fuel (enqueueZombie s₁ a) := by
  rw [pickNext, hpop]
  simp only [hstate]

theorem pickNext_sleeping (hpop : popReady s = (s₁, some a))
    (hstate : (s₁.tasks a).state = .sleeping) :
    pickNext (fuel + 1) s = pickNext fuel (enqueueSleeper s₁ a) := by
  rw [pickNext, hpop]
  simp only [hstate]

theorem pickNext_parked (hpop : popReady s = (s₁, some a))
    (hstate : (s₁.tasks a).state.Parked) :
    pickNext (fuel + 1) s = pickNext fuel (enqueueReady s₁ a) := by
  rw [pickNext, hpop]
  rcases hstate with hstate | hstate | hstate
  · simp only [hstate]
  · simp only [hstate]
  · simp only [hstate]

end PickNext

/-- One task is passed over. -/
theorem QueuesSound.passOne
    (h : QueuesSound structs s (a :: l) z) (hcard : structs.card < 0x100000000)
    (ha : ¬ (s.stateOf a).Runnable) :
    ∃ s', (∀ fuel, pickNext (fuel + 1) s = pickNext fuel s') ∧ Passed structs s s' [a] l z := by
  obtain ⟨hpop, hfirst, hfree⟩ := h.popReady hcard
  have hstates := stateOf_popReady s
  have hrest := popReady_sameRest s
  have hroom := h.room
  have hsleep : (Xylophone.popReady s).1.sleepQueue = s.sleepQueue := rfl
  have hpair : Xylophone.popReady s = ((Xylophone.popReady s).1, some a) := Prod.ext rfl hfirst
  generalize (Xylophone.popReady s).1 = s₁ at *
  have hstate₁ : (s₁.tasks a).state = s.stateOf a := congrFun hstates a
  have hupdate : ∀ new, new = (if (s.stateOf a).Parked then TaskState.running else s.stateOf a) →
      ∀ t, Function.update s₁.stateOf a new t =
        if t ∈ [a] ∧ (s.stateOf t).Parked then .running else s.stateOf t := by
    rintro new rfl t
    by_cases hta : t = a
    · subst hta
      simp
    · simp [hta, hstates]
  have hparked : (s.stateOf a).Parked → Passed structs s (Xylophone.enqueueReady s₁ a) [a] l z := by
    intro hp
    obtain ⟨hzombie, hsleeping, hcreated, -⟩ := hp.other
    refine ⟨?_, ?_, ?_, hrest.trans (enqueueReady_sameRest s₁ a)⟩
    · rw [tasksIn_singleton_of _ hp, tasksIn_singleton_of_not _ hzombie, List.append_nil]
      exact hpop.enqueueReady hcard hfree
    · rw [tasksIn_singleton_of_not _ hsleeping, Multiset.coe_nil, zero_add]
      exact congrArg SleepQueue.tasks hsleep
    · rw [state_enqueueReady]
      exact hupdate _ (by simp [hstates, hcreated, hp])
  cases hstate : s.stateOf a with
  | created => exact absurd (Or.inr hstate) ha
  | running => exact absurd (Or.inl hstate) ha
  | zombie =>
    refine ⟨_, fun fuel => pickNext_zombie hpair (hstate₁.trans hstate), ?_, ?_, ?_,
      hrest.trans (enqueueZombie_sameRest s₁ a)⟩
    · rw [tasksIn_singleton_of_not _ (by rw [hstate]; decide), tasksIn_singleton_of _ hstate,
        List.append_nil]
      exact hpop.enqueueZombie hcard hfree
    · rw [tasksIn_singleton_of_not _ (by rw [hstate]; decide), Multiset.coe_nil, zero_add]
      exact congrArg SleepQueue.tasks hsleep
    · rw [state_enqueueZombie]
      exact hupdate _ (by rw [hstate]; rfl)
  | sleeping =>
    rw [tasksIn_cons, tasksIn_singleton_of _ hstate, List.length_append, List.length_singleton]
      at hroom
    obtain ⟨hqueued, htasks⟩ := hpop.enqueueSleeper hfree (by rw [hstates, hsleep]; omega)
    refine ⟨_, fun fuel => pickNext_sleeping hpair (hstate₁.trans hstate), ?_, ?_, ?_,
      hrest.trans (enqueueSleeper_sameRest s₁ a)⟩
    · rw [tasksIn_singleton_of_not _ (by rw [hstate]; decide),
        tasksIn_singleton_of_not _ (by rw [hstate]; decide), List.append_nil, List.append_nil]
      exact hqueued
    · rw [tasksIn_singleton_of _ hstate, htasks, hsleep]
      rfl
    · rw [state_enqueueSleeper]
      exact hupdate _ (by rw [hstate]; rfl)
  | stopped =>
    exact ⟨_, fun fuel => pickNext_parked hpair (by rw [hstate₁, hstate]; decide),
      hparked (by rw [hstate]; decide)⟩
  | blocked =>
    exact ⟨_, fun fuel => pickNext_parked hpair (by rw [hstate₁, hstate]; decide),
      hparked (by rw [hstate]; decide)⟩
  | cleaning =>
    exact ⟨_, fun fuel => pickNext_parked hpair (by rw [hstate₁, hstate]; decide),
      hparked (by rw [hstate]; decide)⟩

/-- One task is passed over, and then the others. -/
theorem Passed.cons {s₁ : Scheduler} {xs ys : List Nat} (hnodup : (a :: xs).Nodup)
    (h : Passed structs s s₁ [a] (xs ++ ys) z)
    (hrest : Passed structs s₁ s' xs (ys ++ tasksIn TaskState.Parked s.stateOf [a])
      (z ++ tasksIn (· = .zombie) s.stateOf [a])) : Passed structs s s' (a :: xs) ys z := by
  have ha : a ∉ xs := (List.nodup_cons.mp hnodup).1
  have hsame : ∀ t ∈ xs, s₁.stateOf t = s.stateOf t := by
    intro t ht
    have hta : t ≠ a := by
      rintro rfl
      exact ha ht
    rw [h.states, if_neg (by simp [hta])]
  have hqueued := hrest.queued
  rw [tasksIn_congr _ hsame, tasksIn_congr _ hsame] at hqueued
  refine ⟨?_, ?_, ?_, h.rest.trans hrest.rest⟩
  · rw [tasksIn_cons, tasksIn_cons (· = TaskState.zombie), ← List.append_assoc,
      ← List.append_assoc]
    exact hqueued
  · rw [hrest.sleepers, h.sleepers, tasksIn_congr _ hsame, tasksIn_cons _ a xs, ← Multiset.coe_add,
      add_left_comm, add_assoc]
  · intro t
    rw [hrest.states]
    by_cases hta : t = a
    · subst hta
      simp [ha, h.states]
    · simp [hta, h.states]

/-- **The tasks in front that cannot run are passed over.** -/
theorem QueuesSound.pass (hcard : structs.card < 0x100000000) : ∀ (xs : List Nat) {s : Scheduler}
    {ys z : List Nat}, QueuesSound structs s (xs ++ ys) z → (∀ t ∈ xs, ¬ (s.stateOf t).Runnable) →
      ∃ s', (∀ fuel, pickNext (xs.length + fuel) s = pickNext fuel s') ∧
        Passed structs s s' xs ys z
  | [], s, _, _, h, _ => ⟨s, fun fuel => by simp, .nil h⟩
  | a :: xs, s, ys, z, h, hstuck => by
    rw [List.cons_append] at h
    obtain ⟨s₁, hpick, hpassed⟩ := h.passOne hcard (hstuck a List.mem_cons_self)
    have hnodup : (a :: xs).Nodup := by
      have hall : ((a :: xs) ++ ys).Nodup := (h.refine.holds.holds .ready).nodup
      exact (List.nodup_append.mp hall).1
    have hqueued := hpassed.queued
    rw [List.append_assoc] at hqueued
    obtain ⟨s', hrun, hrest⟩ := QueuesSound.pass hcard xs hqueued fun t ht => by
      have hta : t ≠ a := by
        rintro rfl
        exact (List.nodup_cons.mp hnodup).1 ht
      rw [hpassed.states, if_neg (by simp [hta])]
      exact hstuck t (List.mem_cons_of_mem _ ht)
    refine ⟨s', fun fuel => ?_, hpassed.cons hnodup hrest⟩
    rw [List.length_cons, Nat.add_right_comm, hpick, hrun]

/-! ## Picking -/

/-- The tasks that are passed over in a ready queue that holds `r`. -/
def passedOver (states : Nat → TaskState) (r : List Nat) : List Nat :=
  r.takeWhile fun t => ¬ (states t).Runnable

/-- The ready queue after that: the rest of the queue, and then those that were put back. -/
def inLine (states : Nat → TaskState) (r : List Nat) : List Nat :=
  r.dropWhile (fun t => ¬ (states t).Runnable) ++ tasksIn TaskState.Parked states (passedOver states r)

/-- The first task that is running or new, and if there is none, the first one that is neither a zombie
nor asleep. -/
def selected (states : Nat → TaskState) (r : List Nat) : Option Nat :=
  (r.find? fun t => (states t).Runnable).or (r.find? fun t => (states t).Parked)

/-- The first one in line is the one that is selected. -/
theorem head_inLine (states : Nat → TaskState) (r : List Nat) :
    (inLine states r).head? = selected states r := by
  unfold inLine selected passedOver
  simp only [decide_not]
  rw [List.head?_append, ← List.find?_eq_head?_dropWhile_not]
  cases hfind : r.find? fun t => (states t).Runnable with
  | some a => simp
  | none =>
    have hall : r.takeWhile (fun t => !decide (states t).Runnable) = r := by
      refine List.takeWhile_eq_self_iff.mpr fun t ht => ?_
      simpa using List.find?_eq_none.mp hfind t ht
    rw [hall]
    exact List.head?_filter ..

/-- Nobody is in line exactly if all are zombies or asleep. -/
theorem inLine_eq_nil {r : List Nat} :
    inLine states r = [] ↔ ∀ t ∈ r, states t = .zombie ∨ states t = .sleeping := by
  rw [← List.head?_eq_none_iff, head_inLine]
  unfold selected
  rw [Option.or_eq_none_iff, List.find?_eq_none, List.find?_eq_none, ← forall₂_and]
  refine forall₂_congr fun t _ => ?_
  cases states t <;> decide

/-- The first one in line can run when the others have been passed over. -/
theorem Passed.head_runnable {r ys : List Nat}
    (h : Passed structs s s' (passedOver s.stateOf r) ys z) (ha : selected s.stateOf r = some a) :
    (s'.stateOf a).Runnable ∧
      (s'.stateOf a = .created ↔ s.stateOf a = .created) := by
  unfold selected at ha
  rw [h.states]
  rcases Option.or_eq_some_iff.mp ha with hfind | ⟨hnone, hfind⟩
  · have hrun : (s.stateOf a).Runnable := by simpa using List.find?_some hfind
    rw [if_neg (fun hp => hp.2.other.2.2.2 hrun)]
    exact ⟨hrun, Iff.rfl⟩
  · have hparked : (s.stateOf a).Parked := by simpa using List.find?_some hfind
    have hall : passedOver s.stateOf r = r := by
      refine List.takeWhile_eq_self_iff.mpr fun t ht => ?_
      simpa using List.find?_eq_none.mp hnone t ht
    obtain ⟨-, -, hnot, -⟩ := hparked.other
    have hmem : a ∈ r := List.mem_of_find?_eq_some hfind
    rw [hall, if_pos ⟨hmem, hparked⟩]
    exact ⟨Or.inl rfl, by simp [hnot]⟩

/-- The timer, and what the tasks wait for. -/
structure SameTimes (s s' : Scheduler) : Prop where
  ticks : s'.ticks = s.ticks
  hz : s'.hz = s.hz
  wakeTick : ∀ u, (s'.tasks u).wakeTick = (s.tasks u).wakeTick

theorem SameRest.times (h : SameRest s s') : SameTimes s s' := ⟨h.ticks, h.hz, h.wakeTick⟩

theorem SameTimes.trans {s'' : Scheduler} (h : SameTimes s s') (h' : SameTimes s' s'') :
    SameTimes s s'' :=
  ⟨h'.ticks.trans h.ticks, h'.hz.trans h.hz, fun u => (h'.wakeTick u).trans (h.wakeTick u)⟩

/-- The current task and its state do not matter for the queues, if it is in none. -/
theorem QueuesSound.frame (h : QueuesSound structs s l z) (hlinks : links s'.tasks = links s.tasks)
    (hready : s'.readyQueue = s.readyQueue) (hzombie : s'.zombieQueue = s.zombieQueue)
    (hsleep : s'.sleepQueue = s.sleepQueue) (htimes : SameTimes s s')
    (hstates : ∀ t ∈ l, s'.stateOf t = s.stateOf t) : QueuesSound structs s' l z where
  refine := h.refine.congr hlinks (by
    funext k
    cases k
    · exact hready
    · exact hzombie)
  sleepers := hsleep ▸ h.sleepers
  sleepStructs := hsleep ▸ h.sleepStructs
  apart := hsleep ▸ h.apart
  ordered := by
    rw [hsleep]
    exact h.ordered.congr_key fun i _ => htimes.wakeTick _
  room := by
    rw [hsleep, tasksIn_congr _ hstates]
    exact h.room

/-- **The first task of the ready queue becomes the current task.** -/
theorem QueuesSound.pick (h : QueuesSound structs s (a :: l) z) (hcard : structs.card < 0x100000000)
    (ha : (s.stateOf a).Runnable) (fuel : Nat) :
    ∃ s', pickNext (fuel + 1) s =
        some (s', if s.stateOf a = .created then .started a else .switched a) ∧
      QueuesSound structs s' l z ∧ s'.current = some a ∧
      (∀ t, s'.stateOf t = if t = a then .running else s.stateOf t) ∧
      s'.sleepQueue = s.sleepQueue ∧ SameTimes s s' := by
  obtain ⟨hpop, hfirst, hfree⟩ := h.popReady hcard
  have hstates := stateOf_popReady s
  have htimes := (popReady_sameRest s).times
  have hsleep : (Xylophone.popReady s).1.sleepQueue = s.sleepQueue := rfl
  rw [pickNext]
  generalize Xylophone.popReady s = r at *
  obtain ⟨s₁, first⟩ := r
  obtain rfl : first = some a := hfirst
  simp only [] at *
  have hstate : (s₁.tasks a).state = s.stateOf a := congrFun hstates a
  rw [hstate]
  rcases ha with hrun | hnew
  · rw [hrun]
    refine ⟨{ s₁ with current := some a }, rfl, ?_, rfl, fun t => ?_, hsleep,
      htimes.trans ⟨rfl, rfl, fun _ => rfl⟩⟩
    · exact hpop.frame rfl rfl rfl rfl ⟨rfl, rfl, fun _ => rfl⟩ fun _ _ => rfl
    · show s₁.stateOf t = _
      rw [hstates]
      split
      · next hta => rw [hta, hrun]
      · rfl
  · rw [hnew]
    have hstarted : (startTask s₁ a).stateOf = Function.update s₁.stateOf a .running :=
      state_setState s₁ a .running
    have hstartTimes : SameTimes s₁ (startTask s₁ a) :=
      ⟨rfl, rfl, fun u => setState_wakeTick ..⟩
    refine ⟨startTask s₁ a, rfl, ?_, rfl, fun t => ?_, hsleep, htimes.trans hstartTimes⟩
    · refine hpop.frame (links_setState ..) rfl rfl rfl hstartTimes fun t ht => ?_
      rw [hstarted, Function.update_of_ne]
      rintro rfl
      exact hfree.ready ht
    · rw [hstarted, Function.update_apply, hstates]

theorem QueuesSound.pick_none (h : QueuesSound structs s [] z) (fuel : Nat) :
    pickNext (fuel + 1) s = some (s, .panic) := by
  rw [pickNext, h.popReady_nil]

/-! ## `round_robin` -/

/-- The tasks that `round_robin` chooses from: the ready queue, the sleepers of `ws`, and the current
task if it is running. -/
def candidates (s : Scheduler) (l ws : List Nat) : List Nat :=
  l ++ ws ++ tasksIn (· = .running) s.stateOf s.current.toList

/-- The sleepers whose time has come, in the order of their wake ticks. -/
structure DueInOrder (s : Scheduler) (tick : Nat) (ws : List Nat) : Prop where
  due : (ws : Multiset Nat) = s.sleepQueue.tasks.filter fun t => (s.tasks t).wakeTick ≤ tick
  sorted : ws.Pairwise fun t u => (s.tasks t).wakeTick ≤ (s.tasks u).wakeTick

/-- What `round_robin` does when it chooses from `r`, the tasks of which have the given states: the
zombie queue holds `z` before, and the tasks of `later` stay asleep. -/
structure Turn (structs : Finset Nat) (s s' : Scheduler) (o : Outcome) (states : Nat → TaskState)
    (r z : List Nat) (later : Multiset Nat) : Prop where
  panics : o = .panic ↔ ∀ t ∈ r, states t = .zombie ∨ states t = .sleeping
  selects : o ≠ .panic → ∃ a, selected states r = some a ∧ s'.current = some a ∧
    o = if states a = .created then .started a else .switched a
  /-- The rest of `r` stays in order, and those that were put back come behind it. -/
  queued : QueuesSound structs s' (inLine states r).tail
    (z ++ tasksIn (· = .zombie) states (passedOver states r))
  sleepers :
    s'.sleepQueue.tasks = ↑(tasksIn (· = .sleeping) states (passedOver states r)) + later
  states : ∀ t, s'.stateOf t =
    if selected states r = some t ∨ t ∈ passedOver states r ∧ (states t).Parked then .running
    else states t
  times : SameTimes s s'

theorem WokenInOrder.dueInOrder {tick : Nat} {ws : List Nat}
    (h : WokenInOrder structs s s' tick l z ws) : DueInOrder s tick ws ∧
      s'.sleepQueue.tasks = s.sleepQueue.tasks.filter fun t => tick < (s.tasks t).wakeTick := by
  refine ⟨⟨?_, h.sorted⟩, ?_⟩
  · rw [h.sleepers, Multiset.filter_add, Multiset.filter_eq_self.mpr (by simpa using h.due),
      Multiset.filter_eq_nil.mpr fun t ht => Nat.not_le.mpr (h.notDue t ht), add_zero]
  · rw [h.sleepers, Multiset.filter_add, Multiset.filter_eq_self.mpr h.notDue,
      Multiset.filter_eq_nil.mpr (by simpa using h.due), zero_add]

/-- **The current task is put back** if it is running. -/
theorem WokenInOrder.preempt {tick : Nat} {ws : List Nat}
    (h : WokenInOrder structs s s' tick l z ws) (hcard : structs.card < 0x100000000)
    (hcurrent : ∀ c, s.current = some c → Unqueued structs s l z c) :
    QueuesSound structs (preempt s') (candidates s l ws) z ∧
      (Xylophone.preempt s').stateOf = s'.stateOf ∧
      (Xylophone.preempt s').sleepQueue = s'.sleepQueue ∧ SameTimes s' (Xylophone.preempt s') := by
  unfold candidates
  cases hc : s.current with
  | none =>
    have hpre : Xylophone.preempt s' = s' := by
      unfold Xylophone.preempt
      rw [h.rest.current, hc]
    rw [hpre]
    exact ⟨by simpa [tasksIn] using h.queued, rfl, rfl, (SameRest.refl s').times⟩
  | some c =>
    obtain ⟨hmem, hl, hz, hsleep⟩ := hcurrent c hc
    rw [h.sleepers, Multiset.mem_add, not_or] at hsleep
    have hcw : c ∉ ws := hsleep.1
    have hstate : s'.stateOf c = s.stateOf c := by
      rw [h.states, wokenStates, if_neg (fun hw => hcw hw.1)]
    have hpre : Xylophone.preempt s' = if s'.stateOf c = .running then
        { Xylophone.enqueueReady s' c with current := none } else s' := by
      unfold Xylophone.preempt
      rw [h.rest.current, hc]
      rfl
    rw [hpre]
    by_cases hrun : s.stateOf c = .running
    · have htimes := (enqueueReady_sameRest s' c).times
      rw [if_pos (hstate.trans hrun), Option.toList_some, tasksIn_singleton_of _ hrun]
      have hqueued := h.queued.enqueueReady hcard (t := c) ⟨hmem, by simp [hl, hcw], hz, hsleep.2⟩
      refine ⟨hqueued.frame rfl rfl rfl rfl ⟨rfl, rfl, fun _ => rfl⟩ fun _ _ => rfl, ?_, rfl,
        ⟨htimes.ticks, htimes.hz, htimes.wakeTick⟩⟩
      show (enqueueReady s' c).stateOf = s'.stateOf
      rw [state_enqueueReady, hstate, hrun]
      exact Function.update_eq_self_iff.mpr (hstate.trans hrun).symm
    · rw [if_neg (fun he => hrun (hstate.symm.trans he)), Option.toList_some,
        tasksIn_singleton_of_not _ hrun, List.append_nil]
      exact ⟨h.queued, rfl, rfl, (SameRest.refl s').times⟩

/-- **The loop that picks the next task**, from the ready queue that holds `r`. -/
theorem QueuesSound.select {r : List Nat} (h : QueuesSound structs s r z)
    (hcard : structs.card < 0x100000000)
    {fuel : Nat} (hfuel : r.length < fuel) :
    ∃ s' o, pickNext fuel s = some (s', o) ∧
      Turn structs s s' o s.stateOf r z s.sleepQueue.tasks := by
  have hsplit : passedOver s.stateOf r ++ r.dropWhile (fun t => ¬ (s.stateOf t).Runnable) = r :=
    List.takeWhile_append_dropWhile
  have hstuck : ∀ t ∈ passedOver s.stateOf r, ¬ (s.stateOf t).Runnable := by
    intro t ht
    simpa using List.mem_takeWhile_imp ht
  obtain ⟨s₁, hrun, hpassed⟩ := QueuesSound.pass hcard (passedOver s.stateOf r)
    (show QueuesSound structs s (_ ++ r.dropWhile fun t => ¬ (s.stateOf t).Runnable) z by rwa [hsplit])
    hstuck
  obtain ⟨k, rfl⟩ : ∃ k, fuel = (passedOver s.stateOf r).length + (k + 1) := by
    have hle : (passedOver s.stateOf r).length ≤ r.length := (List.takeWhile_sublist _).length_le
    exact ⟨fuel - (passedOver s.stateOf r).length - 1, by omega⟩
  rw [hrun]
  have hqueued : QueuesSound structs s₁ (inLine s.stateOf r) _ := hpassed.queued
  have hhead := head_inLine s.stateOf r
  have hnil := @inLine_eq_nil s.stateOf r
  cases hline : inLine s.stateOf r with
  | nil =>
    rw [hline] at hqueued hhead hnil
    refine ⟨s₁, .panic, hqueued.pick_none k, ⟨by simpa using hnil.mp rfl, by simp, ?_,
      hpassed.sleepers, ?_, hpassed.rest.times⟩⟩
    · rw [hline]
      exact hqueued
    · intro t
      rw [hpassed.states, ← hhead]
      simp
  | cons a rest =>
    rw [hline] at hqueued hhead hnil
    have hselected : selected s.stateOf r = some a := hhead.symm
    obtain ⟨hrunnable, hcreated⟩ := hpassed.head_runnable hselected
    obtain ⟨s', hpick, hqueued', hcurrent, hstates, hsleep, htimes⟩ :=
      hqueued.pick hcard hrunnable k
    refine ⟨s', _, hpick, ⟨?_, fun _ => ⟨a, hselected, hcurrent, by simp only [hcreated]⟩, ?_, ?_,
      ?_, hpassed.rest.times.trans htimes⟩⟩
    · rw [← hnil]
      simp only [List.cons_ne_nil, iff_false]
      split <;> exact nofun
    · rw [hline]
      exact hqueued'
    · rw [hsleep]
      exact hpassed.sleepers
    · intro t
      rw [hstates, hpassed.states, hselected]
      by_cases hta : t = a
      · simp [hta]
      · simp [hta, Ne.symm hta]

/--
**What `round_robin` selects.** The queued tasks are distinct, no more than an address space of 32 bits
has, the current task is in no queue, and the sleep queue is a heap with room for the sleeping tasks
of the ready queue.
-/
theorem round_robin_spec (structs : Finset Nat) (hcard : structs.card < 0x100000000)
    (h : QueuesSound structs s l z) (hcurrent : ∀ c, s.current = some c → Unqueued structs s l z c)
    (tick : Nat) :
    ∃ ws, DueInOrder s tick ws ∧ ∃ s' o, roundRobin s tick = some (s', o) ∧
      Turn structs s s' o (wokenStates s.stateOf ws) (candidates s l ws) z
        (s.sleepQueue.tasks.filter fun t => tick < (s.tasks t).wakeTick) := by
  obtain ⟨ws, hw⟩ := h.wakeSleepers hcard tick s.sleepQueue.size (Nat.le_refl _)
  obtain ⟨hdue, hlater⟩ := hw.dueInOrder
  obtain ⟨hqueued, hstates, hsleep, htimes⟩ := hw.preempt hcard hcurrent
  have hsize : (preempt (wakeSleepers tick s.sleepQueue.size s)).readyQueue.size =
      (candidates s l ws).length := hqueued.refine.size .ready
  have hfuel : (candidates s l ws).length <
      2 * (preempt (wakeSleepers tick s.sleepQueue.size s)).readyQueue.size + 1 := by omega
  obtain ⟨s', o, hpick, hturn⟩ := hqueued.select hcard hfuel
  rw [hstates, hw.states, hsleep, hlater] at hturn
  exact ⟨ws, hdue, s', o, hpick, hturn.panics, hturn.selects, hturn.queued, hturn.sleepers,
    hturn.states, (hw.rest.times.trans htimes).trans hturn.times⟩

/-! ## A tick -/

/-- Task 7 runs, and nothing is queued. -/
def aloneScheduler : Scheduler where
  tasks := fun _ => { clearedTask with state := .running }
  readyQueue := taskQueueInit
  zombieQueue := taskQueueInit
  sleepQueue := sleepQueueInit (fun _ => 0) maxSleepTasks
  current := some 7
  ticks := 0
  hz := 100

theorem queued_aloneScheduler : QueuesSound structs aloneScheduler [] [] where
  refine := by
    have hlists : queueLists [] [] = fun _ => [] := by
      funext k
      cases k <;> rfl
    rw [hlists]
    refine (queuesRefine_init aloneScheduler.tasks).congr rfl ?_
    funext k
    cases k <;> rfl
  sleepers := Multiset.nodup_zero
  sleepStructs := by simp [aloneScheduler, SleepQueue.tasks, sleepQueueInit]
  apart := by simp
  ordered := heapOrdered_zero
  room := Nat.zero_le _

/-- Task 7 runs, 3 is ready, 4 is a zombie and 5 sleeps. -/
def busyScheduler : Scheduler :=
  enqueueSleeper (enqueueZombie (enqueueReady aloneScheduler 3) 4) 5

theorem queued_busyScheduler : QueuesSound {3, 4, 5, 7} busyScheduler [3] [4] ∧
    busyScheduler.sleepQueue.tasks = {5} := by
  have hready := (@queued_aloneScheduler {3, 4, 5, 7}).enqueueReady (t := 3) (by decide)
    ⟨by decide, by simp, by simp, by decide⟩
  have hzombie := hready.enqueueZombie (t := 4) (by decide)
    ⟨by decide, by simp, by simp, by decide⟩
  exact hzombie.enqueueSleeper (t := 5) ⟨by decide, by simp, by simp, by decide⟩ (by decide)

theorem round_robin_spec_busyScheduler :
    ∃ ws, DueInOrder busyScheduler 10 ws ∧ ∃ s' o, roundRobin busyScheduler 10 = some (s', o) ∧
      Turn {3, 4, 5, 7} busyScheduler s' o (wokenStates busyScheduler.stateOf ws)
        (candidates busyScheduler [3] ws) [4]
        (busyScheduler.sleepQueue.tasks.filter fun t => 10 < (busyScheduler.tasks t).wakeTick) :=
  round_robin_spec {3, 4, 5, 7} (by decide) queued_busyScheduler.1 (by
    intro c hc
    obtain rfl : 7 = c := Option.some.inj hc
    refine ⟨by decide, by decide, by decide, ?_⟩
    rw [queued_busyScheduler.2]
    decide) 10

end Xylophone
