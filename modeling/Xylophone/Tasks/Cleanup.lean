import Xylophone.Tasks.Task

/-!
# What comes of `task_cleanup`

* `freeEntries_spec` — the loop over the allocation table frees the recorded blocks, one by one
* `taskCleanup_spec` — the slot becomes free, the threads of the task become zombies, and the
  blocks are given back
-/

namespace Xylophone

open Infra

variable {s s' : TaskSystem} {pid n : Nat} {b : Multiset Nat}

/-- Every call of `heap_manager_free` so far was for a live block that was recorded for the task. -/
def TaskSystem.FreesOk (s : TaskSystem) : Prop :=
  ∀ e ∈ s.freed, e.live = true ∧ e.recorded = true

/-- The heaps when blocks were given back to one of them. -/
def heapsWithout (heaps : Nat → Multiset Nat) (heap : Option Nat) (b : Multiset Nat) :
    Nat → Multiset Nat :=
  match heap with
  | none => heaps
  | some h => Function.update heaps h (heaps h - b)

/-- A heap has the blocks. -/
def HeapHas (heaps : Nat → Multiset Nat) (heap : Option Nat) (b : Multiset Nat) : Prop :=
  ∀ h, heap = some h → b ≤ heaps h

/-- Blocks of slot `pid` were given back to its heap, and of the slot only the allocation table has
changed. -/
structure Frees (s s' : TaskSystem) (pid : Nat) (b : Multiset Nat) : Prop where
  sched : ∃ table, s'.sched = { s.sched with
    tasks := Function.update s.sched.tasks pid
      { s.task pid with threadAllocationTable := table } }
  taskCount : s'.taskCount = s.taskCount
  userStacks : s'.userStacks = s.userStacks
  heaps : s'.heaps = heapsWithout s.heaps (s.task pid).heapManager b
  freed : HeapHas s.heaps (s.task pid).heapManager b → s.FreesOk → s'.FreesOk

theorem heapsWithout_zero (heaps : Nat → Multiset Nat) (heap : Option Nat) :
    heapsWithout heaps heap 0 = heaps := by
  cases heap with
  | none => rfl
  | some h =>
    show Function.update heaps h (heaps h - 0) = heaps
    rw [tsub_zero, Function.update_eq_self]

theorem heapsWithout_self (heaps : Nat → Multiset Nat) (h : Nat) (b : Multiset Nat) :
    heapsWithout heaps (some h) b h = heaps h - b := Function.update_self ..

theorem heapsWithout_of_ne (heaps : Nat → Multiset Nat) {heap : Option Nat} {h : Nat}
    (hne : heap ≠ some h) (b : Multiset Nat) : heapsWithout heaps heap b h = heaps h := by
  cases heap with
  | none => rfl
  | some h' => exact Function.update_of_ne (fun heq => hne (congrArg some heq.symm)) ..

theorem heapsWithout_add (heaps : Nat → Multiset Nat) (heap : Option Nat) (b b' : Multiset Nat) :
    heapsWithout (heapsWithout heaps heap b) heap b' = heapsWithout heaps heap (b + b') := by
  cases heap with
  | none => rfl
  | some h =>
    show Function.update (Function.update heaps h (heaps h - b)) h
      (Function.update heaps h (heaps h - b) h - b') = Function.update heaps h (heaps h - (b + b'))
    rw [Function.update_self, Function.update_idem, tsub_add_eq_tsub_tsub]

/-- A call of `heap_manager_free` for a recorded block. -/
theorem freesOk_heapManagerFree {heap : Option Nat} (task : Nat) {address : Nat} {recorded : Bool}
    (h : s.FreesOk) (hlive : HeapHas s.heaps heap {address}) (hrecorded : recorded = true) :
    (s.heapManagerFree task heap address recorded).FreesOk := by
  unfold TaskSystem.heapManagerFree
  split
  · exact h
  · next k =>
    intro e he
    rcases List.mem_cons.mp he with rfl | he
    · exact ⟨decide_eq_true (Multiset.singleton_le.mp (hlive k rfl)), hrecorded⟩
    · exact h e he

theorem heapManagerFree_heaps (heap : Option Nat) (task address : Nat) (recorded : Bool) :
    (s.heapManagerFree task heap address recorded).heaps = heapsWithout s.heaps heap {address} := by
  cases heap with
  | none => rfl
  | some h =>
    show Function.update s.heaps h ((s.heaps h).erase address) =
      Function.update s.heaps h (s.heaps h - {address})
    rw [Multiset.sub_singleton]

/-- Only the heaps change. -/
theorem heapManagerFree_rest (heap : Option Nat) (task address : Nat) (recorded : Bool) :
    (s.heapManagerFree task heap address recorded).sched = s.sched ∧
      (s.heapManagerFree task heap address recorded).taskCount = s.taskCount ∧
      (s.heapManagerFree task heap address recorded).userStacks = s.userStacks := by
  unfold TaskSystem.heapManagerFree
  split <;> exact ⟨rfl, rfl, rfl⟩

/-! ## The loop over the allocation table -/

/-- The blocks of the first `n` entries. -/
def AllocationTable.firstBlocks (table : AllocationTable) (n : Nat) : Multiset Nat :=
  total n fun i => (table.data i).block

/-- **The loop over the allocation table.** The first `n` entries are freed, and the others are as
before. -/
theorem freeEntries_spec (s : TaskSystem) (pid n : Nat) (hn : n ≤ allocationMaxCount) :
    Frees s (s.freeEntries pid n) pid ((s.task pid).threadAllocationTable.firstBlocks n) ∧
      ∀ i, n ≤ i → ((s.freeEntries pid n).task pid).threadAllocationTable.data i =
        (s.task pid).threadAllocationTable.data i := by
  induction n with
  | zero =>
    have hzero : (s.task pid).threadAllocationTable.firstBlocks 0 = 0 :=
      total_zero fun i hi => absurd hi (Nat.not_lt_zero i)
    rw [hzero]
    refine ⟨⟨⟨(s.task pid).threadAllocationTable, ?_⟩, rfl, rfl, (heapsWithout_zero _ _).symm,
      fun _ => id⟩, fun _ _ => rfl⟩
    show s.sched = { s.sched with tasks := Function.update s.sched.tasks pid (s.sched.tasks pid) }
    rw [Function.update_eq_self]
  | succ n ih =>
    obtain ⟨hfrees, hrest⟩ := ih (Nat.le_of_succ_le hn)
    have hsucc : s.freeEntries pid (n + 1) = (s.freeEntries pid n).freeEntry pid n := rfl
    have hblocks : (s.task pid).threadAllocationTable.firstBlocks (n + 1) =
        (s.task pid).threadAllocationTable.firstBlocks n +
          ((s.task pid).threadAllocationTable.data n).block := total_succ ..
    rw [hsucc, hblocks]
    generalize s.freeEntries pid n = s₁ at hfrees hrest ⊢
    obtain ⟨table, hsched⟩ := hfrees.sched
    have htask : s₁.task pid = { s.task pid with threadAllocationTable := table } := by
      show s₁.sched.tasks pid = _
      rw [hsched]
      exact Function.update_self ..
    rw [htask] at hrest
    have hentry : table.data n = (s.task pid).threadAllocationTable.data n := hrest n (Nat.le_refl n)
    unfold TaskSystem.freeEntry
    simp only [htask]
    by_cases hblock : 0 < (table.data n).size ∧ (table.data n).address ≠ 0
    · rw [if_pos hblock]
      rw [hentry] at hblock
      have hone : ((s.task pid).threadAllocationTable.data n).block =
          {(table.data n).address} := by
        rw [hentry]
        exact if_pos hblock
      rw [hone]
      have hrecords : table.records (table.data n).address = true := by
        refine records_iff.mpr (mem_recorded.mpr ⟨n, hn, ?_⟩)
        rw [hentry]
        exact ⟨hblock.1, rfl, hblock.2⟩
      obtain ⟨hsame, hcount, hstacks⟩ := heapManagerFree_rest (s := s₁) (s.task pid).heapManager pid
        (table.data n).address (table.records (table.data n).address)
      have hheaps := heapManagerFree_heaps (s := s₁) (s.task pid).heapManager pid
        (table.data n).address (table.records (table.data n).address)
      have hfreed : ∀ hok : s₁.FreesOk, HeapHas s₁.heaps (s.task pid).heapManager
          {(table.data n).address} → (s₁.heapManagerFree pid (s.task pid).heapManager
            (table.data n).address (table.records (table.data n).address)).FreesOk :=
        fun hok hlive => freesOk_heapManagerFree pid hok hlive hrecords
      generalize s₁.heapManagerFree pid (s.task pid).heapManager (table.data n).address
        (table.records (table.data n).address) = s₂ at hsame hcount hstacks hheaps hfreed ⊢
      have htask₂ : s₂.task pid = { s.task pid with threadAllocationTable := table } := by
        rw [← htask]
        exact congrFun (congrArg Scheduler.tasks hsame) pid
      refine ⟨⟨⟨{ table with data := Function.update table.data n ⟨0, 0⟩ }, ?_⟩,
        hcount.trans hfrees.taskCount, hstacks.trans hfrees.userStacks, ?_, ?_⟩, ?_⟩
      · unfold TaskSystem.setTable
        rw [TaskSystem.setTask_sched, htask₂, hsame, hsched, Function.update_idem]
      · show s₂.heaps = _
        rw [hheaps, hfrees.heaps, heapsWithout_add]
      · intro hhas hok
        refine hfreed (hfrees.freed (fun h hh => ?_) hok) fun h hh => ?_
        · exact (Multiset.le_add_right _ _).trans (hhas h hh)
        · rw [hfrees.heaps, hh, heapsWithout_self]
          exact le_tsub_of_add_le_left (hhas h hh)
      · intro i hi
        rw [s₂.setTable_self, htask₂]
        show Function.update table.data n ⟨0, 0⟩ i = _
        rw [Function.update_of_ne (Nat.ne_of_gt hi)]
        exact hrest i (Nat.le_of_succ_le hi)
    · rw [if_neg hblock]
      rw [hentry] at hblock
      have hnone : ((s.task pid).threadAllocationTable.data n).block = 0 := if_neg hblock
      rw [hnone, add_zero, htask]
      exact ⟨hfrees, fun i hi => hrest i (Nat.le_of_succ_le hi)⟩

/-! ## `task_cleanup` -/

/-- The blocks that `task_cleanup` frees in the heap of the task: all of a process's heap, or those
that the task has recorded. -/
def TaskSystem.freedBlocks (s : TaskSystem) (pid : Nat) : Multiset Nat :=
  match (s.task pid).mode with
  | .process => (s.task pid).heapManager.elim 0 s.heaps
  | .kthread | .thread => (s.task pid).threadAllocationTable.recorded

theorem heapManagerFreeAll_heaps (s : TaskSystem) (heap : Option Nat) :
    (s.heapManagerFreeAll heap).heaps = heapsWithout s.heaps heap (heap.elim 0 s.heaps) := by
  cases heap with
  | none => rfl
  | some h =>
    show Function.update s.heaps h 0 = Function.update s.heaps h (s.heaps h - s.heaps h)
    rw [tsub_self]

/-- What comes of freeing the blocks of a task: of the task only the allocation table changes. -/
structure BlocksFreed (s s' : TaskSystem) (pid : Nat) : Prop where
  sched : ∃ table, s'.sched = { s.sched with
    tasks := Function.update s.sched.tasks pid
      { s.task pid with threadAllocationTable := table } }
  taskCount : s'.taskCount = s.taskCount
  userStacks : s'.userStacks = s.userStacks
  heaps : s'.heaps = heapsWithout s.heaps (s.task pid).heapManager (s.freedBlocks pid)
  freed : ((s.task pid).mode ≠ .process →
      HeapHas s.heaps (s.task pid).heapManager (s.task pid).threadAllocationTable.recorded) →
    s.FreesOk → s'.FreesOk

theorem freeBlocks_spec (s : TaskSystem) (pid : Nat) : BlocksFreed s (s.freeBlocks pid) pid := by
  have hloop : (s.task pid).mode ≠ .process →
      (s.task pid).threadAllocationTable.recorded = s.freedBlocks pid →
      BlocksFreed s (s.freeEntries pid allocationMaxCount) pid := by
    intro hmode hblocks
    obtain ⟨hfrees, -⟩ := freeEntries_spec s pid allocationMaxCount (Nat.le_refl _)
    exact ⟨hfrees.sched, hfrees.taskCount, hfrees.userStacks, hblocks ▸ hfrees.heaps,
      fun hhas => hfrees.freed (hhas hmode)⟩
  unfold TaskSystem.freedBlocks at hloop
  unfold TaskSystem.freeBlocks
  cases hmode : (s.task pid).mode with
  | process =>
    have hall : s.freedBlocks pid = (s.task pid).heapManager.elim 0 s.heaps := by
      unfold TaskSystem.freedBlocks
      rw [hmode]
    have hsame : Function.update s.sched.tasks pid (s.task pid) = s.sched.tasks :=
      Function.update_eq_self ..
    refine ⟨⟨(s.task pid).threadAllocationTable, ?_⟩, ?_, ?_, ?_, ?_⟩
    · rw [show ({ s.task pid with
        threadAllocationTable := (s.task pid).threadAllocationTable } : Task) = s.task pid from rfl,
        hsame]
      cases (s.task pid).heapManager <;> rfl
    · cases (s.task pid).heapManager <;> rfl
    · cases (s.task pid).heapManager <;> rfl
    · rw [hall]
      exact heapManagerFreeAll_heaps s _
    · intro _ hok
      unfold TaskSystem.FreesOk
      cases (s.task pid).heapManager <;> exact hok
  | kthread =>
    rw [hmode] at hloop
    exact hloop TaskMode.noConfusion rfl
  | thread =>
    rw [hmode] at hloop
    exact hloop TaskMode.noConfusion rfl

/-- Marking threads changes states only. -/
theorem markThreads_fields (tasks : TaskTable) (pid i : Nat) :
    markThreads tasks pid i = { tasks i with state := (markThreads tasks pid i).state } := by
  unfold markThreads
  split <;> rfl

/-- What comes of `task_cleanup`. -/
structure Cleaned (s s' : TaskSystem) (pid : Nat) : Prop where
  sched : s'.sched = { s.sched with tasks := resetSlot (markThreads s.sched.tasks pid) pid }
  taskCount : s'.taskCount = s.taskCount - 1
  userStacks : s'.userStacks = s.userStacks
  heaps : s'.heaps = heapsWithout
    (heapsWithout s.heaps (s.task pid).heapManager (s.freedBlocks pid)) (some kernelHeap)
    (s.task pid).stackBlock
  freed : ((s.task pid).mode ≠ .process →
      HeapHas s.heaps (s.task pid).heapManager (s.task pid).threadAllocationTable.recorded) →
    HeapHas (heapsWithout s.heaps (s.task pid).heapManager (s.freedBlocks pid)) (some kernelHeap)
      (s.task pid).stackBlock →
    s.FreesOk → s'.FreesOk

/-- **What comes of `task_cleanup`.** -/
theorem taskCleanup_spec (s : TaskSystem) (hpid : pid < tasksMax) :
    Cleaned s (s.taskCleanup pid).1 pid := by
  have hvalid : ¬(pid = noPid ∨ tasksMax ≤ pid) := by
    have hmax : tasksMax < noPid := by decide
    omega
  unfold TaskSystem.taskCleanup
  rw [if_neg hvalid]
  -- the threads are marked
  generalize hs₁ : s.setTasks (markThreads s.sched.tasks pid) = s₁
  have htask₁ : s₁.task pid = { s.task pid with state := (s₁.task pid).state } := by
    rw [← hs₁]
    exact markThreads_fields s.sched.tasks pid pid
  have hblocks₁ : s₁.freedBlocks pid = s.freedBlocks pid := by
    unfold TaskSystem.freedBlocks
    rw [htask₁, ← hs₁]
    rfl
  have hheaps₁ : s₁.heaps = s.heaps := hs₁ ▸ rfl
  -- the blocks are freed
  have hfreed := freeBlocks_spec s₁ pid
  generalize s₁.freeBlocks pid = s₂ at hfreed
  obtain ⟨table, hsched₂⟩ := hfreed.sched
  have htask₂ : s₂.task pid = { s.task pid with
      state := (s₁.task pid).state, threadAllocationTable := table } := by
    show s₂.sched.tasks pid = _
    rw [hsched₂]
    simp only [Function.update_self]
    rw [htask₁]
  have hheaps₂ : s₂.heaps =
      heapsWithout s.heaps (s.task pid).heapManager (s.freedBlocks pid) := by
    rw [hfreed.heaps, hblocks₁, hheaps₁, htask₁]
  have hok₂ : ((s.task pid).mode ≠ .process →
      HeapHas s.heaps (s.task pid).heapManager (s.task pid).threadAllocationTable.recorded) →
      s.FreesOk → s₂.FreesOk := by
    intro hhas hok
    refine hfreed.freed (fun hmode => ?_) (by rw [← hs₁]; exact hok)
    rw [htask₁] at hmode ⊢
    rw [hheaps₁]
    exact hhas hmode
  -- the kernel stack is freed
  have hstack : (s₂.freeStackptr pid).heaps =
      heapsWithout s₂.heaps (some kernelHeap) (s.task pid).stackBlock ∧
      (s₂.freeStackptr pid).sched = s₂.sched ∧
      (s₂.freeStackptr pid).taskCount = s₂.taskCount ∧
      (s₂.freeStackptr pid).userStacks = s₂.userStacks ∧
      (HeapHas s₂.heaps (some kernelHeap) (s.task pid).stackBlock → s₂.FreesOk →
        (s₂.freeStackptr pid).FreesOk) := by
    unfold TaskSystem.freeStackptr Task.stackBlock
    rw [htask₂]
    by_cases hptr : (s.task pid).stackptr ≠ 0
    · simp only [if_pos hptr]
      obtain ⟨hsame, hcount, hstacks⟩ := heapManagerFree_rest (s := s₂) (some kernelHeap) pid
        (s.task pid).stackptr true
      exact ⟨heapManagerFree_heaps .., hsame, hcount, hstacks,
        fun hhas hok => freesOk_heapManagerFree pid hok hhas rfl⟩
    · simp only [if_neg hptr]
      exact ⟨(heapsWithout_zero _ _).symm, trivial, trivial, trivial, fun _ hok => hok⟩
  obtain ⟨hheaps₃, hsched₃, hcount₃, hstacks₃, hok₃⟩ := hstack
  exact {
    sched := by
      show { (s₂.freeStackptr pid).sched with
        tasks := resetSlot (s₂.freeStackptr pid).sched.tasks pid } = _
      rw [hsched₃, hsched₂, ← hs₁]
      unfold resetSlot
      rw [Function.update_idem]
      rfl
    taskCount := by
      show (s₂.freeStackptr pid).taskCount - 1 = _
      rw [hcount₃, hfreed.taskCount, ← hs₁]
      rfl
    userStacks := by
      show (s₂.freeStackptr pid).userStacks = _
      rw [hstacks₃, hfreed.userStacks, ← hs₁]
      rfl
    heaps := by
      show (s₂.freeStackptr pid).heaps = _
      rw [hheaps₃, hheaps₂]
    freed := fun hhas hhas' hok => hok₃ (by rwa [hheaps₂]) (hok₂ hhas hok) }

namespace Cleaned

variable (h : Cleaned s s' pid)
include h

theorem task_self : s'.task pid = { clearedTask with pid := noPid } := by
  show s'.sched.tasks pid = _
  rw [h.sched]
  exact Function.update_self ..

theorem task_of_ne {j : Nat} (hj : j ≠ pid) :
    s'.task j = markThreads s.sched.tasks pid j := by
  show s'.sched.tasks j = _
  rw [h.sched]
  exact Function.update_of_ne hj ..

/-- Of other tasks only the states change. -/
theorem fields_of_ne {j : Nat} (hj : j ≠ pid) :
    s'.task j = { s.task j with state := (s'.task j).state } := by
  rw [h.task_of_ne hj]
  exact markThreads_fields ..

end Cleaned

end Xylophone
