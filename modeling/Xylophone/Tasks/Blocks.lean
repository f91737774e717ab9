import Xylophone.Tasks.Failures

/-!
# `syscall_malloc` and `syscall_free`

The blocks that `syscall_malloc` returns are recorded in the allocation table of the task, so that
`task_cleanup` can free them. The table has 512 entries, a block that finds no room in it is not
recorded, `syscall_free` frees any address, and the cleanup of a process resets the heap under the
threads that share it.

What should be live is kept in accounts: for each task the blocks it was given and has not freed,
and for each heap what else it holds.

* `MemoryOk.step` — the accounts are those of the code
* `blocks_released_once` — runs in which the tables have room, tasks free their own blocks, and a
  process that is cleaned up has the heap to itself
* `exists_stray_free` — a task frees an address it was never given
-/

namespace Xylophone

open Infra

/-! ## Accounts -/

/-- The system, the blocks that each task was given and has not given back, and what else the heaps
hold. -/
structure Accounts where
  sys : TaskSystem
  owned : Nat → Multiset Nat
  rest : Nat → Multiset Nat

inductive MemoryOp where
  | run (i : Nat)
  /-- `syscall_malloc`, for which the heap has this answer. -/
  | malloc (size : Int) (answer : Nat)
  | free (address : Nat)
  | cleanup (pid : Nat)

/-- The current task is given a block. -/
def Accounts.give (a : Accounts) (size : Int) (answer : Nat) : Nat → Multiset Nat :=
  match a.sys.sched.current with
  | none => a.owned
  | some t =>
    if 0 < size ∧ answer ≠ 0 then Function.update a.owned t (a.owned t + {answer}) else a.owned

/-- The current task gives a block back. -/
def Accounts.takeBack (a : Accounts) (address : Nat) : Nat → Multiset Nat :=
  match a.sys.sched.current with
  | none => a.owned
  | some t => Function.update a.owned t ((a.owned t).erase address)

/-- What the cleanup of a process takes from the rest of its heap. -/
def Accounts.wiped (a : Accounts) (pid : Nat) : Multiset Nat :=
  match (a.sys.task pid).mode with
  | .process => (a.sys.task pid).heapManager.elim 0 a.rest
  | .kthread | .thread => 0

/-- The rest of the heaps without what a cleanup takes from it: the kernel stack is no block that
`syscall_malloc` returned. -/
def Accounts.restWithout (a : Accounts) (pid : Nat) : Nat → Multiset Nat :=
  heapsWithout (heapsWithout a.rest (a.sys.task pid).heapManager (a.wiped pid)) (some kernelHeap)
    (a.sys.task pid).stackBlock

/-- The accounts after `syscall_malloc`. -/
def Accounts.afterMalloc (a : Accounts) (size : Int) (answer : Nat) : Accounts :=
  { a with sys := (a.sys.syscallMalloc size answer).1, owned := a.give size answer }

/-- The accounts after `syscall_free`. -/
def Accounts.afterFree (a : Accounts) (address : Nat) : Accounts :=
  { a with sys := a.sys.syscallFree address, owned := a.takeBack address }

/-- The current task has a heap manager. -/
def TaskSystem.Homed (s : TaskSystem) : Prop :=
  ∀ t, s.sched.current = some t → (s.task t).heapManager ≠ none

/-- A step: the system does what the code does, and the accounts change as the calls mean. Without
a heap manager `syscall_malloc` has no meaning. -/
inductive MemoryStep (a : Accounts) : MemoryOp → Accounts → Prop where
  | run (i : Nat) (hi : i < tasksMax) : MemoryStep a (.run i)
    { a with sys := { a.sys with sched := { a.sys.sched with current := some i } } }
  | malloc (size : Int) (answer : Nat) (homed : a.sys.Homed) :
    MemoryStep a (.malloc size answer) (a.afterMalloc size answer)
  | free (address : Nat) : MemoryStep a (.free address) (a.afterFree address)
  | cleanup (pid : Nat) (hpid : pid < tasksMax) : MemoryStep a (.cleanup pid)
    { sys := (a.sys.taskCleanup pid).1
      owned := Function.update a.owned pid 0
      rest := a.restWithout pid }
  | refused (pid : Nat) (hpid : tasksMax ≤ pid) : MemoryStep a (.cleanup pid) a

/-- A block that is returned finds room in the table of the task, a block that is freed is recorded
there, and the live blocks of the heap of a process that is cleaned up are those it has recorded. -/
def MemoryCallOk (a : Accounts) : MemoryOp → Prop
  | .run _ => True
  | .malloc size answer => ∀ t, a.sys.sched.current = some t → 0 < size → answer ≠ 0 →
      findFreeEntry (a.sys.task t).threadAllocationTable ≠ none
  | .free address => ∀ t, a.sys.sched.current = some t →
      address ∈ (a.sys.task t).threadAllocationTable.recorded
  | .cleanup pid => (a.sys.task pid).mode = .process →
      ∀ h, (a.sys.task pid).heapManager = some h →
        a.sys.heaps h = (a.sys.task pid).threadAllocationTable.recorded

/-- What a task owns in a heap. -/
def Accounts.ownedIn (a : Accounts) (h t : Nat) : Multiset Nat :=
  if (a.sys.task t).heapManager = some h then a.owned t else 0

/-- The live blocks of each heap are those of the tasks, each of them once, and the rest. -/
def Accounts.Balanced (a : Accounts) : Prop :=
  ∀ h, a.sys.heaps h = a.rest h + total tasksMax (a.ownedIn h)

/-- No task has a block yet, and the kernel stacks are live blocks. -/
structure Accounts.Start (a : Accounts) : Prop where
  tables : ∀ t i, (a.sys.task t).threadAllocationTable.data i = ⟨0, 0⟩
  owned : ∀ t, a.owned t = 0
  rest : a.rest = a.sys.heaps
  stackBlocks : total tasksMax (fun t => (a.sys.task t).stackBlock) ≤ a.rest kernelHeap
  current : ∀ t, a.sys.sched.current = some t → t < tasksMax
  freed : a.sys.freed = []

/-- The invariant. -/
structure MemoryOk (a : Accounts) : Prop where
  balanced : a.Balanced
  recorded : ∀ t, (a.sys.task t).threadAllocationTable.recorded = a.owned t
  sized : ∀ t, (a.sys.task t).threadAllocationTable.Sized
  stackBlocks : total tasksMax (fun t => (a.sys.task t).stackBlock) ≤ a.rest kernelHeap
  current : ∀ t, a.sys.sched.current = some t → t < tasksMax
  freed : a.sys.FreesOk

variable {a a' : Accounts} {op : MemoryOp} {t pid address : Nat}

theorem Accounts.Start.ok (h : a.Start) : MemoryOk a where
  balanced := by
    intro k
    have hzero : total tasksMax (a.ownedIn k) = 0 := by
      refine total_zero fun t _ => ?_
      unfold Accounts.ownedIn
      rw [h.owned, ite_self]
    rw [hzero, add_zero, h.rest]
  recorded := by
    intro t
    rw [h.owned]
    exact total_zero fun i _ => by rw [h.tables]; exact AllocationEntry.block_null
  sized := fun t i hi => absurd (by rw [h.tables]) hi
  stackBlocks := h.stackBlocks
  current := h.current
  freed := by
    unfold TaskSystem.FreesOk
    rw [h.freed]
    exact fun e he => absurd he List.not_mem_nil

/-! ## System calls -/

/-- The table of one task changes, its account and its heap by as much. -/
theorem MemoryOk.update (h : MemoryOk a) (ht : t < tasksMax) {s' : TaskSystem}
    (table : AllocationTable) {own : Multiset Nat}
    (hself : s'.task t = { a.sys.task t with threadAllocationTable := table })
    (hothers : ∀ j, j ≠ t → s'.task j = a.sys.task j)
    (hheaps : ∀ k, s'.heaps k + a.ownedIn k t =
      a.sys.heaps k + if (a.sys.task t).heapManager = some k then own else 0)
    (hrecorded : table.recorded = own) (hsized : table.Sized)
    (hcurrent : s'.sched.current = a.sys.sched.current) (hfreed : s'.FreesOk) :
    MemoryOk ⟨s', Function.update a.owned t own, a.rest⟩ where
  balanced := by
    intro k
    have hown : (⟨s', Function.update a.owned t own, a.rest⟩ : Accounts).ownedIn k t =
        if (a.sys.task t).heapManager = some k then own else 0 := by
      unfold Accounts.ownedIn
      simp only [hself, Function.update_self]
    have hsame : ∀ j, j < tasksMax → j ≠ t →
        (⟨s', Function.update a.owned t own, a.rest⟩ : Accounts).ownedIn k j = a.ownedIn k j := by
      intro j _ hj
      unfold Accounts.ownedIn
      simp only [hothers j hj, Function.update_of_ne hj]
    have hchange := total_change ht hsame
    rw [hown] at hchange
    refine add_right_cancel (b := a.ownedIn k t) ?_
    rw [hheaps k, h.balanced k, add_assoc, add_assoc, hchange]
  recorded := by
    intro j
    show (s'.task j).threadAllocationTable.recorded = Function.update a.owned t own j
    by_cases hj : j = t
    · rw [hj, hself, Function.update_self, hrecorded]
    · rw [hothers j hj, Function.update_of_ne hj, h.recorded]
  sized := by
    intro j
    show (s'.task j).threadAllocationTable.Sized
    by_cases hj : j = t
    · rw [hj, hself]
      exact hsized
    · rw [hothers j hj]
      exact h.sized j
  stackBlocks := by
    have hsame : total tasksMax (fun j => (s'.task j).stackBlock) =
        total tasksMax fun j => (a.sys.task j).stackBlock := by
      refine total_congr fun j _ => ?_
      by_cases hj : j = t
      · rw [hj, hself]
        rfl
      · rw [hothers j hj]
    show total tasksMax (fun j => (s'.task j).stackBlock) ≤ a.rest kernelHeap
    rw [hsame]
    exact h.stackBlocks
  current := by
    intro j hj
    exact h.current j (hcurrent.symm.trans hj)
  freed := hfreed

/-- The blocks of a task are live. -/
theorem Accounts.Balanced.live (h : a.Balanced) (ht : t < tasksMax) :
    HeapHas a.sys.heaps (a.sys.task t).heapManager (a.owned t) := by
  intro k hk
  have hown : a.ownedIn k t = a.owned t := if_pos hk
  rw [h k, ← hown]
  exact (account_le_total ht).trans (Multiset.le_add_left _ _)

/-- **`syscall_malloc` keeps the invariant.** -/
theorem MemoryOk.malloc (h : MemoryOk a) {size : Int} {answer : Nat} (homed : a.sys.Homed)
    (hok : MemoryCallOk a (.malloc size answer)) :
    MemoryOk (a.afterMalloc size answer) := by
  unfold Accounts.afterMalloc Accounts.give
  cases hcurrent : a.sys.sched.current with
  | none =>
    unfold TaskSystem.syscallMalloc
    simp only [hcurrent, ite_self]
    exact h
  | some t =>
    have ht := h.current t hcurrent
    by_cases hsize : size ≤ 0
    · have hnot : ¬(0 < size ∧ answer ≠ 0) := fun hboth => absurd hboth.1 (not_lt.mpr hsize)
      unfold TaskSystem.syscallMalloc
      simp only [if_pos hsize, if_neg hnot]
      exact h
    have hpos : 0 < size := not_le.mp hsize
    obtain ⟨k, hk⟩ := Option.ne_none_iff_exists'.mp (homed t hcurrent)
    -- the block, or nothing for `NULL`
    generalize hb : AllocationEntry.block ⟨answer, size.toNat⟩ = b
    have hnonzero : answer ≠ 0 → b = {answer} := fun hanswer =>
      hb.symm.trans (AllocationEntry.block_eq (by omega) hanswer)
    have hzero : answer = 0 → b = 0 := by
      rintro rfl
      exact hb.symm.trans AllocationEntry.block_null
    have howned : (if 0 < size ∧ answer ≠ 0 then
        Function.update a.owned t (a.owned t + {answer}) else a.owned) =
        Function.update a.owned t (a.owned t + b) := by
      by_cases hanswer : answer = 0
      · rw [if_neg fun hboth => hboth.2 hanswer, hzero hanswer, add_zero, Function.update_eq_self]
      · rw [if_pos ⟨hpos, hanswer⟩, hnonzero hanswer]
    have hheaps : (a.sys.heapManagerMalloc (some k) answer).heaps =
        Function.update a.sys.heaps k (a.sys.heaps k + b) := by
      by_cases hanswer : answer = 0
      · rw [hzero hanswer, add_zero, Function.update_eq_self]
        unfold TaskSystem.heapManagerMalloc
        simp only [if_pos hanswer]
      · rw [hnonzero hanswer, a.sys.heapManagerMalloc_heaps k hanswer]
    have hrecorded : (allocationTableAdd (a.sys.task t).threadAllocationTable answer
        size.toNat).recorded = a.owned t + b := by
      rw [← h.recorded t, ← hb]
      by_cases hanswer : answer = 0
      · rw [hanswer, recorded_add_null, AllocationEntry.block_null, add_zero]
      · exact recorded_add (hok t hcurrent hpos hanswer)
    obtain ⟨hsched, -, -, hfreed, -⟩ := a.sys.heapManagerMalloc_rest (some k) answer
    rw [a.sys.syscallMalloc_some hcurrent hpos, hk]
    show MemoryOk ⟨_, if 0 < size ∧ answer ≠ 0 then _ else _, _⟩
    rw [howned]
    refine h.update ht (allocationTableAdd (a.sys.task t).threadAllocationTable answer
      size.toNat) ?_ (fun j hj => ?_) (fun k' => ?_) hrecorded ((h.sized t).add (by omega)) ?_ ?_
    · rw [TaskSystem.setTable_self, TaskSystem.heapManagerMalloc_task]
    · rw [TaskSystem.setTable_of_ne _ _ hj, TaskSystem.heapManagerMalloc_task]
    · show (a.sys.heapManagerMalloc (some k) answer).heaps k' + a.ownedIn k' t = _
      unfold Accounts.ownedIn
      rw [hheaps, hk]
      by_cases hkk : k' = k
      · rw [hkk, Function.update_self, if_pos rfl, if_pos rfl, add_assoc, add_comm b]
      · have hne : ¬some k = some k' := fun heq => hkk (Option.some.inj heq).symm
        rw [Function.update_of_ne hkk, if_neg hne, if_neg hne]
    · show (a.sys.heapManagerMalloc (some k) answer).sched.current = _
      rw [hsched]
    · unfold TaskSystem.FreesOk
      show ∀ e ∈ (a.sys.heapManagerMalloc (some k) answer).freed, _
      rw [hfreed]
      exact h.freed

/-- **`syscall_free` of a recorded block keeps the invariant.** -/
theorem MemoryOk.free (h : MemoryOk a) (hok : MemoryCallOk a (.free address)) :
    MemoryOk (a.afterFree address) := by
  unfold Accounts.afterFree Accounts.takeBack
  cases hcurrent : a.sys.sched.current with
  | none =>
    unfold TaskSystem.syscallFree
    simp only [hcurrent]
    exact h
  | some t =>
    have ht := h.current t hcurrent
    have hmem := hok t hcurrent
    have hsplit := recorded_remove (h.sized t) hmem
    have hown : a.owned t = address ::ₘ (allocationTableRemove
        (a.sys.task t).threadAllocationTable address).recorded := by
      rw [← h.recorded t, ← hsplit]
    have herase : (a.owned t).erase address = (allocationTableRemove
        (a.sys.task t).threadAllocationTable address).recorded := by
      rw [hown, Multiset.erase_cons_head]
    have hlive : HeapHas a.sys.heaps (a.sys.task t).heapManager {address} := fun k hk => by
      refine le_trans ?_ (h.balanced.live ht k hk)
      rw [hown]
      exact Multiset.singleton_le.mpr (Multiset.mem_cons_self ..)
    have hfreed := freesOk_heapManagerFree t h.freed hlive (records_iff.mpr hmem)
    have hheaps := heapManagerFree_heaps (s := a.sys) (a.sys.task t).heapManager t address
      ((a.sys.task t).threadAllocationTable.records address)
    obtain ⟨hsched, -, -⟩ := heapManagerFree_rest (s := a.sys) (a.sys.task t).heapManager t address
      ((a.sys.task t).threadAllocationTable.records address)
    rw [a.sys.syscallFree_some hcurrent]
    show MemoryOk ⟨_, Function.update a.owned t ((a.owned t).erase address), _⟩
    refine h.update ht (allocationTableRemove (a.sys.task t).threadAllocationTable address) ?_
      (fun j hj => ?_) (fun k => ?_) herase.symm (h.sized t).remove ?_ hfreed
    · rw [TaskSystem.setTable_self, TaskSystem.heapManagerFree_task]
    · rw [TaskSystem.setTable_of_ne _ _ hj, TaskSystem.heapManagerFree_task]
    · show (a.sys.heapManagerFree t _ address _).heaps k + a.ownedIn k t = _
      unfold Accounts.ownedIn
      rw [hheaps]
      by_cases hk : (a.sys.task t).heapManager = some k
      · -- the block is taken from the heap and from the account
        rw [hk, if_pos rfl, if_pos rfl, heapsWithout_self, herase, hown, ← Multiset.singleton_add,
          ← add_assoc, tsub_add_cancel_of_le (hlive k hk)]
      · rw [if_neg hk, if_neg hk, heapsWithout_of_ne _ hk]
    · show (a.sys.heapManagerFree t _ address _).sched.current = _
      rw [hsched]

/-! ## Cleaning up -/

/-- The blocks that a cleanup frees are those of the task and what it takes from the rest. -/
theorem MemoryOk.freedBlocks_eq (h : MemoryOk a) (hok : MemoryCallOk a (.cleanup pid)) {k : Nat}
    (hk : (a.sys.task pid).heapManager = some k) {others : Multiset Nat}
    (hothers : others + a.owned pid = total tasksMax (a.ownedIn k)) :
    a.sys.heaps k - a.sys.freedBlocks pid = a.rest k - a.wiped pid + others ∧
      ((a.sys.task pid).mode = .process → a.rest k = 0) := by
  have hbalance := h.balanced k
  rw [← hothers, ← add_assoc] at hbalance
  unfold TaskSystem.freedBlocks Accounts.wiped
  cases hmode : (a.sys.task pid).mode with
  | process =>
    -- the heap holds the blocks of the process only
    have hall := hok hmode k hk
    rw [h.recorded pid, hbalance, add_eq_right, add_eq_zero] at hall
    obtain ⟨hrest, hnone⟩ := hall
    rw [hk]
    refine ⟨?_, fun _ => hrest⟩
    show a.sys.heaps k - a.sys.heaps k = a.rest k - a.rest k + others
    rw [tsub_self, tsub_self, hnone, add_zero]
  | kthread | thread =>
    refine ⟨?_, fun hprocess => by cases hprocess⟩
    show a.sys.heaps k - (a.sys.task pid).threadAllocationTable.recorded = a.rest k - 0 + others
    rw [h.recorded pid, hbalance, tsub_zero]
    exact add_tsub_cancel_right _ _

/-- The kernel stacks are live when the blocks of a task were freed. -/
theorem MemoryOk.stacks_le (h : MemoryOk a) (hpid : pid < tasksMax)
    (hok : MemoryCallOk a (.cleanup pid)) :
    total tasksMax (fun t => (a.sys.task t).stackBlock) ≤
      heapsWithout a.rest (a.sys.task pid).heapManager (a.wiped pid) kernelHeap := by
  by_cases hheap : (a.sys.task pid).heapManager = some kernelHeap
  · have hown : a.ownedIn kernelHeap pid = a.owned pid := if_pos hheap
    have hsplit := total_eq_add hpid (a.ownedIn kernelHeap)
    rw [hown, add_comm] at hsplit
    obtain ⟨-, hprocess⟩ := h.freedBlocks_eq hok hheap hsplit.symm
    have hle := h.stackBlocks
    rw [hheap, heapsWithout_self]
    unfold Accounts.wiped
    cases hmode : (a.sys.task pid).mode with
    | process =>
      rw [hprocess hmode] at hle ⊢
      rwa [zero_tsub]
    | kthread => exact hle.trans (tsub_zero _).ge
    | thread => exact hle.trans (tsub_zero _).ge
  · rw [heapsWithout_of_ne _ hheap]
    exact h.stackBlocks

/-- **`task_cleanup` keeps the invariant.** -/
theorem MemoryOk.cleanup (h : MemoryOk a) (hpid : pid < tasksMax)
    (hok : MemoryCallOk a (.cleanup pid)) :
    MemoryOk ⟨(a.sys.taskCleanup pid).1, Function.update a.owned pid 0, a.restWithout pid⟩ := by
  have hclean := taskCleanup_spec a.sys hpid
  have hstacks := h.stacks_le hpid hok
  have hblock := (account_le_total (f := fun t => (a.sys.task t).stackBlock) hpid).trans hstacks
  generalize (a.sys.taskCleanup pid).1 = s₁ at hclean ⊢
  -- the account of the task is closed
  have hclosed : ∀ k, total tasksMax
      ((⟨s₁, Function.update a.owned pid 0, a.restWithout pid⟩ : Accounts).ownedIn k) +
        a.ownedIn k pid = total tasksMax (a.ownedIn k) := by
    intro k
    have hchange := total_change (f := a.ownedIn k) (g := (⟨s₁, Function.update a.owned pid 0,
      a.restWithout pid⟩ : Accounts).ownedIn k) hpid fun j _ hj => by
        unfold Accounts.ownedIn
        simp only [Function.update_of_ne hj]
        rw [hclean.fields_of_ne hj]
    rw [hchange]
    unfold Accounts.ownedIn
    simp only [Function.update_self, ite_self, add_zero]
  -- the heaps before the kernel stack is freed
  have hheaps : ∀ k, heapsWithout a.sys.heaps (a.sys.task pid).heapManager (a.sys.freedBlocks pid) k =
      heapsWithout a.rest (a.sys.task pid).heapManager (a.wiped pid) k + total tasksMax
        ((⟨s₁, Function.update a.owned pid 0, a.restWithout pid⟩ : Accounts).ownedIn k) := by
    intro k
    have hk := hclosed k
    by_cases hheap : (a.sys.task pid).heapManager = some k
    · rw [show a.ownedIn k pid = a.owned pid from if_pos hheap] at hk
      obtain ⟨heq, -⟩ := h.freedBlocks_eq hok hheap hk
      rw [hheap, heapsWithout_self, heapsWithout_self, heq]
    · rw [show a.ownedIn k pid = 0 from if_neg hheap, add_zero] at hk
      rw [hk, heapsWithout_of_ne _ hheap, heapsWithout_of_ne _ hheap]
      exact h.balanced k
  exact {
    balanced := by
      intro k
      show s₁.heaps k = a.restWithout pid k + _
      unfold Accounts.restWithout
      rw [hclean.heaps]
      by_cases hk : k = kernelHeap
      · rw [hk, heapsWithout_self, heapsWithout_self, hheaps kernelHeap]
        exact (tsub_add_eq_add_tsub hblock).symm
      · have hne : some kernelHeap ≠ some k := fun heq => hk (Option.some.inj heq).symm
        rw [heapsWithout_of_ne _ hne, heapsWithout_of_ne _ hne]
        exact hheaps k
    recorded := by
      intro j
      show (s₁.task j).threadAllocationTable.recorded = Function.update a.owned pid 0 j
      by_cases hj : j = pid
      · rw [hj, hclean.task_self, Function.update_self]
        exact recorded_init
      · rw [hclean.fields_of_ne hj, Function.update_of_ne hj]
        exact h.recorded j
    sized := by
      intro j
      show (s₁.task j).threadAllocationTable.Sized
      by_cases hj : j = pid
      · rw [hj, hclean.task_self]
        exact fun i hi => absurd rfl hi
      · rw [hclean.fields_of_ne hj]
        exact h.sized j
    stackBlocks := by
      have hchange := total_change (f := fun j => (a.sys.task j).stackBlock)
        (g := fun j => (s₁.task j).stackBlock) hpid fun j _ hj => by
          rw [hclean.fields_of_ne hj]
          rfl
      have hself : (s₁.task pid).stackBlock = 0 := by rw [hclean.task_self]; rfl
      simp only [hself, add_zero] at hchange
      show total tasksMax (fun j => (s₁.task j).stackBlock) ≤ a.restWithout pid kernelHeap
      unfold Accounts.restWithout
      rw [heapsWithout_self]
      refine le_tsub_of_add_le_right ?_
      rw [hchange]
      exact hstacks
    current := by
      intro t ht
      refine h.current t ?_
      rw [← ht]
      show a.sys.sched.current = s₁.sched.current
      rw [hclean.sched]
    freed := by
      refine hclean.freed (fun _ => ?_) (fun k hk => ?_) h.freed
      · rw [h.recorded pid]
        exact h.balanced.live hpid
      · obtain rfl := Option.some.inj hk
        rw [hheaps kernelHeap]
        exact hblock.trans (Multiset.le_add_right _ _) }

/-- **A step that meets the condition keeps the invariant.** -/
theorem MemoryOk.step (h : MemoryOk a) (hok : MemoryCallOk a op) (hstep : MemoryStep a op a') :
    MemoryOk a' := by
  cases hstep with
  | run i hi =>
    exact ⟨h.balanced, h.recorded, h.sized, h.stackBlocks,
      fun t ht => by obtain rfl := Option.some.inj ht; exact hi, h.freed⟩
  | malloc size answer homed => exact h.malloc homed hok
  | free address => exact h.free hok
  | cleanup pid hpid => exact h.cleanup hpid hok
  | refused pid hpid => exact h

/-- **Blocks are released once.** In every state of a run whose calls meet the condition, from any
tasks that have no blocks yet, the live blocks of each heap are those that `syscall_malloc` returned
to a task that has neither freed them nor been cleaned up, each of them once, and what the heap held
otherwise; and every call of `heap_manager_free` was for a live block recorded for its task. -/
theorem blocks_released_once {a₀ : Accounts} (hstart : a₀.Start)
    (hrun : Run MemoryStep MemoryCallOk a₀ a) : a.Balanced ∧ a.sys.FreesOk := by
  have hinv : MemoryOk a := hrun.invariant (I := MemoryOk)
    (fun _ _ _ h hok hstep => h.step hok hstep) hstart.ok
  exact ⟨hinv.balanced, hinv.freed⟩

/-- A kernel thread in slot 0, the current task. Its kernel stack is the only block. -/
def threadSystem : TaskSystem :=
  { freshSystem with
    sched := { freshSystem.sched with
      tasks := Function.update freshSystem.sched.tasks 0
        { clearedTask with
          state := .running, heapManager := some kernelHeap, stackptr := 0x1000 }
      current := some 0 }
    taskCount := 1
    heaps := Function.update freshSystem.heaps kernelHeap {0x1000} }

/-- The accounts of a system in which no task has a block. -/
def openAccounts (s : TaskSystem) : Accounts := ⟨s, fun _ => 0, s.heaps⟩

theorem threadSystem_task (t : Nat) : ((threadSystem.task t).threadAllocationTable.data =
    fun _ => ⟨0, 0⟩) ∧ (t ≠ 0 → (threadSystem.task t).stackBlock = 0) := by
  by_cases ht : t = 0
  · subst ht
    exact ⟨rfl, fun hne => absurd rfl hne⟩
  · have htask : threadSystem.task t = freshSystem.task t := Function.update_of_ne ht ..
    rw [htask]
    exact ⟨rfl, fun _ => rfl⟩

theorem threadSystem_start : (openAccounts threadSystem).Start where
  tables t i := congrFun (threadSystem_task t).1 i
  owned _ := rfl
  rest := rfl
  stackBlocks := by
    have hothers : total tasksMax (fun _ => (0 : Multiset Nat)) = 0 := total_zero fun _ _ => rfl
    have hchange := total_change (f := fun _ => (0 : Multiset Nat))
      (g := fun t => (threadSystem.task t).stackBlock) (by decide : 0 < tasksMax)
      fun t _ ht => (threadSystem_task t).2 ht
    rw [hothers, add_zero, zero_add] at hchange
    exact hchange.le
  current t ht := by
    obtain rfl := Option.some.inj ht
    decide
  freed := rfl

/-- The kernel thread is given a block of 16 bytes, and frees it. -/
theorem blocks_released_once_threadSystem :
    (((openAccounts threadSystem).afterMalloc 16 0x2000).afterFree 0x2000).Balanced ∧
      (((openAccounts threadSystem).afterMalloc 16 0x2000).afterFree 0x2000).sys.FreesOk := by
  refine blocks_released_once threadSystem_start (Run.tail (Run.single (a := .malloc 16 0x2000)
    (fun t ht _ _ => ?_) (.malloc 16 0x2000 fun t ht => ?_)) (a := .free 0x2000) (fun t ht => ?_)
    (.free 0x2000))
  · obtain rfl := Option.some.inj ht
    decide +kernel
  · obtain rfl := Option.some.inj ht
    exact Option.some_ne_none kernelHeap
  · obtain rfl := Option.some.inj ht
    exact records_iff.mp (by decide +kernel)

/-- **A block that was never given.** A task frees address 16. -/
theorem exists_stray_free :
    ¬ ∀ a, Run MemoryStep (fun _ _ => True) (openAccounts threadSystem) a →
      a.Balanced ∧ a.sys.FreesOk := by
  intro hall
  have hrun : Run MemoryStep (fun _ _ => True) (openAccounts threadSystem)
      ((openAccounts threadSystem).afterFree 16) := Run.single (a := .free 16) trivial (.free 16)
  have hlive := ((hall _ hrun).2 ⟨0, 16, false, false⟩ (by decide +kernel))
  cases hlive.1

end Xylophone
