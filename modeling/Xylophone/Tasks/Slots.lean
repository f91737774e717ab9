import Xylophone.Infra.Run
import Xylophone.Tasks.Cleanup
import Xylophone.Tasks.Failures

/-!
# Slots and pids

The pid of a task is the place of its slot, as long as the slot is in use and the names of tasks fit.
`task_cleanup` goes from the pid to the slot, and to the threads whose `parent` is the slot.

* `create_pid` — a creation numbers its slot, also when it fails
* `SlotsOk.create`, `SlotsOk.cleanup` — what the calls keep
* `task_slots_run` — the slots over every run in which names fit
* `exists_lost_pid` — a name of 32 characters
-/

namespace Xylophone

open Infra

variable {s s' s'' : TaskSystem} {c : CreateCall} {i j : Nat}

/-! ## The pid of a creation -/

/-- No pid changes. -/
def SamePids (s s' : TaskSystem) : Prop := ∀ j, (s'.task j).pid = (s.task j).pid

theorem SamePids.refl (s : TaskSystem) : SamePids s s := fun _ => rfl

theorem SamePids.trans (h : SamePids s s') (h' : SamePids s' s'') : SamePids s s'' :=
  fun j => (h' j).trans (h j)

theorem SamePids.setTask (s : TaskSystem) (i : Nat) {f : Task → Task}
    (hf : (f (s.task i)).pid = (s.task i).pid) : SamePids s (s.setTask i f) := by
  intro j
  by_cases hj : j = i
  · rw [hj, s.setTask_self, hf]
  · rw [s.setTask_of_ne f hj]

theorem SamePids.malloc (s : TaskSystem) (heap : Option Nat) (answer : Nat) :
    SamePids s (s.heapManagerMalloc heap answer) := fun j => by
  rw [s.heapManagerMalloc_task]

theorem Fills.samePids {b : Multiset Nat} (h : Fills s s' i b) : SamePids s s' := by
  intro j
  by_cases hj : j = i
  · obtain ⟨argv, args, hslot⟩ := h.slot
    rw [hj, hslot]
  · rw [h.others j hj]

theorem initKernelStack_samePids (s : TaskSystem) (i answer : Nat) :
    SamePids s (s.initKernelStack i answer).1 := by
  unfold TaskSystem.initKernelStack
  split
  · exact SamePids.refl s
  · exact (SamePids.malloc s _ _).trans (SamePids.setTask _ i rfl)

theorem initUserStack_samePids (s : TaskSystem) (i answer stackVariable : Nat) :
    SamePids s (s.initUserStack i answer stackVariable).1 := by
  have hstack := initKernelStack_samePids s i answer
  unfold TaskSystem.initUserStack
  split
  · next s₁ hinit =>
    rw [hinit] at hstack
    exact hstack
  · next s₁ hinit =>
    rw [hinit] at hstack
    split
    · exact hstack
    · exact hstack.trans (SamePids.setTask _ i rfl)

theorem addTask_samePids (s : TaskSystem) (i : Nat) : SamePids s (s.addTask i) := by
  intro j
  show ((enqueueReady s.sched i).tasks j).pid = (s.sched.tasks j).pid
  unfold enqueueReady
  simp only []
  rw [push_fields]
  split
  · by_cases hj : j = i
    · rw [hj, setState, Function.update_self]
    · rw [setState_of_ne _ _ hj]
  · rfl

/-- After `get_free_task` a creation changes no pid. -/
theorem create_samePids (hfree : freeTask s.sched.tasks = some i) :
    SamePids (s.takenSlot i) (s.create c).1 := by
  cases c with
  | kthread name entry argc answers =>
    have hstack := initKernelStack_samePids (s.takenSlot i) i answers.stack
    show SamePids _ (s.createKthread name.name entry argc answers).1
    unfold TaskSystem.createKthread
    rw [TaskSystem.getFreeTask_some hfree]
    simp only [TaskSystem.copyName_of_lt _ _ name.fits, TaskSystem.setTask_setTask]
    split
    · next s₁ hinit =>
      rw [hinit] at hstack
      exact hstack
    · next s₁ hinit =>
      rw [hinit] at hstack
      generalize hs₂ : s₁.setTask i _ = s₂
      have hfields : SamePids s₁ s₂ := hs₂ ▸ SamePids.setTask s₁ i rfl
      obtain ⟨b, hfills, -⟩ := createArgv_spec s₂ i name entry argc answers
      have hargv := (hstack.trans hfields).trans hfills.samePids
      split
      · next s₃ hr =>
        rw [hr] at hargv
        exact hargv
      · next s₃ hr =>
        rw [hr] at hargv
        exact hargv.trans (addTask_samePids s₃ i)
  | thread name parent entry arg stack stackVariable =>
    have hstack := initUserStack_samePids (s.takenSlot i) i stack stackVariable
    show SamePids _ (s.createThreadProcess name.name parent entry arg stack stackVariable).1
    unfold TaskSystem.createThreadProcess
    rw [TaskSystem.getFreeTask_some hfree]
    simp only [TaskSystem.copyName_of_lt _ _ name.fits, TaskSystem.setTask_setTask]
    split
    · next s₁ hinit =>
      rw [hinit] at hstack
      exact hstack
    · next s₁ k hinit =>
      rw [hinit] at hstack
      exact (hstack.trans (SamePids.setTask s₁ i rfl)).trans (addTask_samePids _ i)

/-- **A creation numbers its slot**, also when it fails, and no other. -/
theorem create_pid (hfree : freeTask s.sched.tasks = some i) (j : Nat) :
    ((s.create c).1.task j).pid = if j = i then i else (s.task j).pid := by
  rw [create_samePids hfree j]
  by_cases hj : j = i
  · rw [if_pos hj, hj, TaskSystem.takenSlot, s.setTask_self]
  · rw [if_neg hj, TaskSystem.takenSlot, s.setTask_of_ne _ hj]

/-! ## The slots -/

/-- The pid of a slot in use is its place, and a slot that is not in use has no parent. -/
structure SlotsOk (s : TaskSystem) : Prop where
  pid : ∀ i < tasksMax, (s.task i).state ≠ .stopped → (s.task i).pid = i
  parent : ∀ i < tasksMax, (s.task i).state = .stopped → (s.task i).parent = none

/-- The pids of two tasks in use differ. -/
theorem SlotsOk.pid_inj (h : SlotsOk s) (hi : i < tasksMax) (hj : j < tasksMax)
    (hi' : (s.task i).state ≠ .stopped) (hj' : (s.task j).state ≠ .stopped)
    (hpid : (s.task i).pid = (s.task j).pid) : i = j := by
  rw [h.pid i hi hi', h.pid j hj hj'] at hpid
  exact hpid

/-- `task_init`. -/
def TaskSystem.init (s : TaskSystem) : TaskSystem :=
  { s.setTasks (taskInit s.sched.tasks) with userStacks := userStackManagerInit }

theorem slotsOk_init (s : TaskSystem) : SlotsOk s.init where
  pid := fun _ _ h => absurd rfl h
  parent := fun _ _ _ => rfl

/-- The slot that a creation takes is in use afterwards, with its place as pid. -/
structure TakesSlot (s s' : TaskSystem) (i : Nat) : Prop where
  lt : i < tasksMax
  free : (s.task i).state = .stopped
  state : (s'.task i).state = .created
  pid : (s'.task i).pid = i
  others : ∀ j, j ≠ i → s'.task j = { s.task j with next := (s'.task j).next }

/-- A creation finds no slot and changes nothing, or it takes a slot; and what it returns is -1 or
the slot. -/
def TakesOne (s : TaskSystem) (result : TaskSystem × Int) : Prop :=
  result = (s, -1) ∨ ∃ i, TakesSlot s result.1 i ∧ (result.2 = -1 ∨ result.2 = (i : Int))

/-- **What a creation does.** -/
theorem create_takesSlot (s : TaskSystem) (c : CreateCall) : TakesOne s (s.create c) := by
  unfold TakesOne
  cases create_cases s c with
  | full hfull hresult => exact Or.inl hresult
  | created i s' hfree hserved hcreated hresult =>
    obtain ⟨hstopped, hlt⟩ := freeTask_some hfree
    rw [hresult]
    exact Or.inr ⟨i, ⟨hlt, hstopped, hcreated.state, hcreated.pid, hcreated.touches.others⟩,
      Or.inr rfl⟩
  | failed i s' hfree hrefused hfailed hresult =>
    obtain ⟨hstopped, hlt⟩ := freeTask_some hfree
    have hpid := create_pid (c := c) hfree i
    obtain ⟨b, htouches⟩ := hfailed.touches
    rw [hresult, if_pos rfl] at hpid
    rw [hresult]
    exact Or.inr ⟨i, ⟨hlt, hstopped, hfailed.state, hpid, htouches.others⟩, Or.inl rfl⟩

theorem SlotsOk.create (h : SlotsOk s) (c : CreateCall) : SlotsOk (s.create c).1 := by
  rcases create_takesSlot s c with hfull | ⟨i, htakes, -⟩
  · rw [hfull]
    exact h
  · refine ⟨fun j hj hstate => ?_, fun j hj hstate => ?_⟩
    · by_cases hji : j = i
      · rw [hji]
        exact htakes.pid
      · rw [htakes.others j hji] at hstate ⊢
        exact h.pid j hj hstate
    · have hji : j ≠ i := by
        rintro rfl
        rw [htakes.state] at hstate
        cases hstate
      rw [htakes.others j hji] at hstate ⊢
      exact h.parent j hj hstate

/-- `task_cleanup(task->pid)`. The pid is cut to 16 bits on the way. -/
def TaskSystem.cleanupTask (s : TaskSystem) (i : Nat) : TaskSystem × Int :=
  s.taskCleanup ((s.task i).pid % 0x10000)

/-- What `task_cleanup` does to the slots: its own becomes free, and the threads whose parent it is
become zombies. -/
structure ResetsSlot (s s' : TaskSystem) (i : Nat) : Prop where
  slot : s'.task i = { clearedTask with pid := noPid }
  others : ∀ j < tasksMax, j ≠ i → s'.task j =
    if (s.task j).parent = some i ∧ (s.task j).mode = .thread then
      { s.task j with state := .zombie }
    else s.task j

/-- **What `task_cleanup` does** for a task in use. -/
theorem SlotsOk.cleanup_resets (h : SlotsOk s) (hi : i < tasksMax)
    (huse : (s.task i).state ≠ .stopped) :
    ResetsSlot s (s.cleanupTask i).1 i ∧ (s.cleanupTask i).2 = 0 := by
  have hpid : (s.task i).pid % 0x10000 = i := by
    rw [h.pid i hi huse]
    unfold tasksMax at hi
    omega
  unfold TaskSystem.cleanupTask
  rw [hpid]
  have hcleaned := taskCleanup_spec s hi
  refine ⟨⟨hcleaned.task_self, fun j hj hji => ?_⟩, ?_⟩
  · rw [hcleaned.task_of_ne hji, markThreads]
    simp only [hj, true_and]
    rfl
  · unfold TaskSystem.taskCleanup
    rw [if_neg (by unfold tasksMax noPid at *; omega)]

theorem SlotsOk.cleanup (h : SlotsOk s) (hi : i < tasksMax) (huse : (s.task i).state ≠ .stopped) :
    SlotsOk (s.cleanupTask i).1 := by
  obtain ⟨⟨hslot, hothers⟩, -⟩ := h.cleanup_resets hi huse
  refine ⟨fun j hj hstate => ?_, fun j hj hstate => ?_⟩
  · have hji : j ≠ i := by
      rintro rfl
      rw [hslot] at hstate
      exact hstate rfl
    rw [hothers j hj hji] at hstate ⊢
    split at hstate
    · next hthread =>
      -- a slot that is not in use has no parent
      rw [if_pos hthread]
      refine h.pid j hj fun hstopped => ?_
      rw [h.parent j hj hstopped] at hthread
      cases hthread.1
    · next hthread =>
      rw [if_neg hthread]
      exact h.pid j hj hstate
  · by_cases hji : j = i
    · rw [hji, hslot]
      rfl
    · rw [hothers j hj hji] at hstate ⊢
      split at hstate
      · cases hstate
      · next hthread =>
        rw [if_neg hthread]
        exact h.parent j hj hstate

/-! ## Runs -/

/-- What happens to the task table. `other` is whatever else the kernel does with it. -/
inductive SlotCall where
  | init
  | createKthread (name : List UInt8) (entry : Nat) (argc : Int) (answers : HeapAnswers)
  | createThreadProcess (name : List UInt8) (parent entry arg stack stackVariable : Nat)
  | cleanup (i : Nat)
  | other (s' : TaskSystem)

/-- The next state. -/
def TaskSystem.nextSlots (s : TaskSystem) : SlotCall → TaskSystem
  | .init => s.init
  | .createKthread name entry argc answers => (s.createKthread name entry argc answers).1
  | .createThreadProcess name parent entry arg stack stackVariable =>
    (s.createThreadProcess name parent entry arg stack stackVariable).1
  | .cleanup i => (s.cleanupTask i).1
  | .other s' => s'

/-- The names that are copied fit. -/
def SlotCall.NameFits : SlotCall → Prop
  | .createKthread name .. | .createThreadProcess name .. => name.length ≤ 31
  | _ => True

/-- Tasks that are cleaned up are in use. What else happens leaves pids and parents, and takes and
frees no slot. -/
def CleansUsed (s : TaskSystem) : SlotCall → Prop
  | .cleanup i => i < tasksMax ∧ (s.task i).state ≠ .stopped
  | .other s' => ∀ i < tasksMax, (s'.task i).pid = (s.task i).pid ∧
      (s'.task i).parent = (s.task i).parent ∧
      ((s'.task i).state = .stopped ↔ (s.task i).state = .stopped)
  | _ => True

/-- The condition of a run. -/
def SlotCallOk (s : TaskSystem) (call : SlotCall) : Prop := CleansUsed s call ∧ call.NameFits

/-- What a call does to the slots. -/
def SlotCallDoes (s : TaskSystem) : SlotCall → Prop
  | .createKthread name entry argc answers => TakesOne s (s.createKthread name entry argc answers)
  | .createThreadProcess name parent entry arg stack stackVariable =>
    TakesOne s (s.createThreadProcess name parent entry arg stack stackVariable)
  | .cleanup i => ResetsSlot s (s.cleanupTask i).1 i ∧ (s.cleanupTask i).2 = 0
  | _ => True

theorem SlotsOk.step (h : SlotsOk s) {call : SlotCall} (hok : SlotCallOk s call) :
    SlotsOk (s.nextSlots call) := by
  obtain ⟨hused, hname⟩ := hok
  cases call with
  | init => exact slotsOk_init s
  | createKthread name entry argc answers =>
    exact h.create (.kthread ⟨name, Nat.lt_succ_of_le hname⟩ entry argc answers)
  | createThreadProcess name parent entry arg stack stackVariable =>
    exact h.create (.thread ⟨name, Nat.lt_succ_of_le hname⟩ parent entry arg stack stackVariable)
  | cleanup i => exact h.cleanup hused.1 hused.2
  | other s' =>
    refine ⟨fun i hi hstate => ?_, fun i hi hstate => ?_⟩
    · obtain ⟨hpid, -, hstopped⟩ := hused i hi
      show (s'.task i).pid = i
      rw [hpid]
      exact h.pid i hi (mt hstopped.mpr hstate)
    · obtain ⟨-, hparent, hstopped⟩ := hused i hi
      show (s'.task i).parent = none
      rw [hparent]
      exact h.parent i hi (hstopped.mp hstate)

/-- **Slots and pids.** In every run from `task_init` on in which names fit, before and after every
call the slots in use have their places as pids, which are distinct; a creation takes a free slot
and returns its pid or -1, and `task_cleanup` frees its slot and makes zombies of the threads whose
parent it is. -/
theorem task_slots_run (s : TaskSystem) {calls : List SlotCall}
    (hok : EveryStep TaskSystem.nextSlots SlotCallOk s.init calls) :
    EveryStep TaskSystem.nextSlots
      (fun s call => SlotsOk s ∧ SlotCallDoes s call ∧ SlotsOk (s.nextSlots call) ∧
        ∀ i < tasksMax, ∀ j < tasksMax, (s.task i).state ≠ .stopped →
          (s.task j).state ≠ .stopped → (s.task i).pid = (s.task j).pid → i = j)
      s.init calls := by
  refine hok.imp (fun s call _ h hcall => h.step hcall) (fun s call _ h hcall => ?_)
    (slotsOk_init s)
  refine ⟨h, ?_, h.step hcall, fun i hi j hj => h.pid_inj hi hj⟩
  obtain ⟨hused, hname⟩ := hcall
  cases call with
  | init => trivial
  | createKthread name entry argc answers =>
    exact create_takesSlot s (.kthread ⟨name, Nat.lt_succ_of_le hname⟩ entry argc answers)
  | createThreadProcess name parent entry arg stack stackVariable =>
    exact create_takesSlot s
      (.thread ⟨name, Nat.lt_succ_of_le hname⟩ parent entry arg stack stackVariable)
  | cleanup i => exact h.cleanup_resets hused.1 hused.2
  | other s' => trivial

/-- A kernel thread without arguments, with this name. -/
def namedKthread (name : List UInt8) (stack : Nat) : SlotCall :=
  .createKthread name 0xC0108000 0 ⟨stack, 0, fun _ => 0⟩

/-- A kernel thread with a name of 31 characters is created and cleaned up, and its slot is used
again. -/
theorem task_slots_run_oneTask :
    EveryStep TaskSystem.nextSlots
      (fun s call => SlotsOk s ∧ SlotCallDoes s call ∧ SlotsOk (s.nextSlots call) ∧
        ∀ i < tasksMax, ∀ j < tasksMax, (s.task i).state ≠ .stopped →
          (s.task j).state ≠ .stopped → (s.task i).pid = (s.task j).pid → i = j)
      freshSystem.init
      [namedKthread (List.replicate 31 0x61) 0xC0481000, .cleanup 0,
        namedKthread [0x62] 0xC0481000] :=
  task_slots_run freshSystem ⟨⟨trivial, by
    show List.length _ ≤ 31
    decide⟩, ⟨⟨by decide, by
    show (TaskSystem.task (freshSystem.init.nextSlots _) 0).state ≠ .stopped
    decide +kernel⟩, trivial⟩, ⟨trivial, by
    show List.length _ ≤ 31
    decide⟩, trivial⟩

/-- The table with one task. -/
def oneTask : TaskSystem := freshSystem.init.nextSlots (namedKthread [0x61] 0xC0481000)

/-- **A name that does not fit.** The zero that ends a name of 32 characters is written into the pid
of the second task, which becomes that of the first. -/
theorem exists_lost_pid :
    ¬ ∀ calls, EveryStep TaskSystem.nextSlots CleansUsed freshSystem.init calls →
      EveryStep TaskSystem.nextSlots (fun s call => SlotsOk (s.nextSlots call) ∧ SlotCallDoes s call)
        freshSystem.init calls := by
  intro hall
  have hrun := hall [namedKthread [0x61] 0xC0481000,
    namedKthread (List.replicate 32 0x62) 0xC0489000] ⟨trivial, trivial, trivial⟩
  obtain ⟨-, ⟨hslots, -⟩, -⟩ := hrun
  have hstate : ((oneTask.nextSlots (namedKthread (List.replicate 32 0x62) 0xC0489000)).task 1).state
      ≠ .stopped := by decide +kernel
  have hpid := hslots.pid 1 (by decide) hstate
  exact absurd hpid (by decide +kernel)

end Xylophone
