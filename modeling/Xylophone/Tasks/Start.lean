import Xylophone.Interrupts.Delivery
import Xylophone.Tasks.Creation

/-!
# The start of a task

A new task is entered by the `iret` of `_task_start`, whose frame is built on the kernel stack of
the task. Only `task_create_kthread` sets the segments that it loads. Because the test of
`_task_start` for a second stack looks at `ebp`, which no creation leaves at 0, two more words than
`iret` pops stand on that stack, in the places where `kthread_entry` has its parameters.

* `taskStart_kthread` — where a kernel thread starts
* `taskStart_noSegment` — a task without a data segment does not start
* `createKthread_startFields`, `createThreadProcess_ds` — what a creation leaves for the start
-/

namespace Xylophone

open Infra Memory

/-! ## The source -/

namespace TrapCpu

/-- `pushl` of a word of memory. -/
def pushFrom (c : TrapCpu) (a : Nat) : TrapCpu := c.push (c.mem.read32 a)

/-- The stack and the registers that `_task_start` takes from the task at `t`. -/
def takeTask (c : TrapCpu) (t : Nat) : TrapCpu :=
  { c with
    regs := { c.regs with
      eax := t
      ebx := c.mem.read32 (t + 148)
      ecx := c.mem.read32 (t + 152)
      edx := c.mem.read32 (t + 172) }
    esp := c.mem.read32 (t + 164) }

/-- The loads of `%ds` and then of `%es` from the word of a task. With a null selector in `%ds` the
second one faults. -/
def takeSegments (c : TrapCpu) (a : Nat) : Option TrapCpu :=
  let selector := c.mem.read32 a % 0x10000
  if selector < 4 then none
  else some { c with regs := { c.regs with ds := selector }, es := selector }

/-- What `_task_start` pushes. -/
def startFrame (c : TrapCpu) (t : Nat) : TrapCpu :=
  let c := if c.mem.read32 (t + 20) = 0 then c else (c.pushFrom (t + 156)).pushFrom (t + 16)
  ((c.push 0x200).pushFrom (t + 160)).pushFrom (t + 32)

/-- `_task_start`. The processor does not take a null selector for a code segment. -/
def taskStart (c : TrapCpu) : Option TrapCpu :=
  let t := c.mem.read32 (c.esp + 4)
  (((c.takeTask t).startFrame t).takeSegments (t + 156)).bind fun c =>
    if c.mem.read32 (c.esp + 4) % 0x10000 < 4 then none else some c.iret

end TrapCpu

/-- What a start reads of a task, but for the arguments in registers. -/
structure StartFields where
  esp : Nat
  ebp : Nat
  eip : Nat
  ds : Nat
  cs : Nat
  kesp : Nat
deriving DecidableEq, Repr

def Task.startFields (task : Task) : StartFields :=
  ⟨task.esp, task.ebp, task.eip, task.ds, task.cs, task.kesp⟩

/-- `_task_start` is called for a task at `t`, whose stack is apart from it. -/
structure Starting (c : TrapCpu) (t : Nat) (f : StartFields) : Prop where
  argument : c.mem.read32 (c.esp + 4) = t
  esp : c.mem.read32 (t + 16) = f.esp
  ebp : c.mem.read32 (t + 20) = f.ebp
  eip : c.mem.read32 (t + 32) = f.eip
  ds : c.mem.read32 (t + 156) = f.ds
  cs : c.mem.read32 (t + 160) = f.cs
  kesp : c.mem.read32 (t + 164) = f.kesp
  fits : t + 176 ≤ 0x100000000
  room : 20 ≤ f.kesp
  kesp_lt : f.kesp + 4 ≤ 0x100000000
  apart : t + 176 ≤ f.kesp - 20 ∨ f.kesp ≤ t

/-- A function of the kernel has been entered, in kernel mode and with interrupts enabled, with
`argc` as its first parameter, and with the word above the stack as its second one. -/
structure EntersFunction (c c' : TrapCpu) (eip top argc : Nat) : Prop where
  eip : c'.eip = eip
  cs : c'.cs = 0x08
  eflags : c'.eflags = 0x200
  ds : c'.regs.ds = 0x10
  es : c'.es = 0x10
  esp : c'.esp + 8 = top
  first : c'.mem.read32 (c'.esp + 4) = argc
  second : c'.mem.read32 (c'.esp + 8) = c.mem.read32 top
  keeps : AgreeOff (top - 20) top c.mem c'.mem

variable {c c' : TrapCpu} {t : Nat} {f : StartFields} {vs : List Nat}

/-! ## The frame -/

/-- The stack after some pushes: a word apart from it reads as before. -/
theorem pushAll_read {c₀ : IntCpu} {a : Nat} (hesp : c₀.esp < 0x100000000)
    (hroom : 4 * vs.length ≤ c₀.esp) (hvs : ∀ v ∈ vs, v < 0x100000000) (ha : a + 4 ≤ 0x100000000)
    (hapart : a + 4 ≤ c₀.esp - 4 * vs.length ∨ c₀.esp ≤ a) :
    (c₀.pushAll vs).mem.read32 a = c₀.mem.read32 a := by
  obtain ⟨-, hagree, -⟩ := pushAll_spec hesp hroom hvs
  exact hagree.read32 ha hapart

theorem pushAll_concat (c₀ : IntCpu) (v : Nat) : c₀.pushAll (vs ++ [v]) = (c₀.pushAll vs).push v :=
  pushAll_append c₀ vs [v]

/-- The words that are pushed for a task. -/
def startWords (f : StartFields) : List Nat :=
  (if f.ebp = 0 then [] else [f.ds, f.esp]) ++ [0x200, f.cs, f.eip]

theorem startWords_length (f : StartFields) : (startWords f).length ≤ 5 := by
  unfold startWords
  split <;> simp

theorem startWords_of_ne (hebp : f.ebp ≠ 0) :
    startWords f = [f.ds, f.esp, 0x200, f.cs, f.eip] := by
  rw [startWords, if_neg hebp]
  rfl

namespace Starting

theorem words (h : Starting c t f) : ∀ v ∈ startWords f, v < 0x100000000 := by
  have hds : f.ds < 0x100000000 := h.ds ▸ read32_lt _ _
  have hesp : f.esp < 0x100000000 := h.esp ▸ read32_lt _ _
  have hcs : f.cs < 0x100000000 := h.cs ▸ read32_lt _ _
  have heip : f.eip < 0x100000000 := h.eip ▸ read32_lt _ _
  unfold startWords
  split
  · simp [hcs, heip]
  · simp [hds, hesp, hcs, heip]

/-- A word of the task, with some of the words already pushed. -/
theorem pushFrom_eq (h : Starting c t f) {c₁ : TrapCpu} {k v : Nat} {l : List Nat}
    (hc₁ : c₁.toIntCpu = (c.takeTask t).toIntCpu.pushAll vs) (hlen : vs.length < 5)
    (hvs : ∀ v ∈ vs, v < 0x100000000) (hk : k + 4 ≤ 176) (hv : c.mem.read32 (t + k) = v)
    (hl : l = vs ++ [v]) :
    (c₁.pushFrom (t + k)).toIntCpu = (c.takeTask t).toIntCpu.pushAll l := by
  have htop : (c.takeTask t).esp = f.kesp := h.kesp
  have hfits := h.fits
  have hroom := h.room
  have hlt := h.kesp_lt
  have hapart := h.apart
  have hread : c₁.mem.read32 (t + k) = v := by
    rw [hc₁, pushAll_read (by omega) (by omega) hvs (by omega) (by omega)]
    exact hv
  rw [hl, pushAll_concat, ← hc₁, TrapCpu.pushFrom, hread]
  rfl

theorem startFrame_eq (h : Starting c t f) :
    ((c.takeTask t).startFrame t).toIntCpu = (c.takeTask t).toIntCpu.pushAll (startWords f) := by
  have hds : f.ds < 0x100000000 := h.ds ▸ read32_lt _ _
  have hesp : f.esp < 0x100000000 := h.esp ▸ read32_lt _ _
  have hcs : f.cs < 0x100000000 := h.cs ▸ read32_lt _ _
  have hebp : (c.takeTask t).mem.read32 (t + 20) = f.ebp := h.ebp
  unfold TrapCpu.startFrame startWords
  dsimp only
  rw [hebp]
  -- the words are pushed one after the other, and each is read from the task as it was
  split
  · have hflags : ((c.takeTask t).push 0x200).toIntCpu = (c.takeTask t).toIntCpu.pushAll [0x200] :=
      rfl
    have hsegment := h.pushFrom_eq (l := [0x200, f.cs]) hflags (by simp) (by simp) (by decide)
      h.cs rfl
    exact h.pushFrom_eq hsegment (by simp) (by simp [hcs]) (by decide) h.eip rfl
  · have hnone : (c.takeTask t).toIntCpu = (c.takeTask t).toIntCpu.pushAll [] := rfl
    have hfirst := h.pushFrom_eq (l := [f.ds]) hnone (by simp) (by simp) (by decide) h.ds rfl
    have hsecond := h.pushFrom_eq (l := [f.ds, f.esp]) hfirst (by simp) (by simp [hds])
      (by decide) h.esp rfl
    have hflags : ((((c.takeTask t).pushFrom (t + 156)).pushFrom (t + 16)).push 0x200).toIntCpu =
        (c.takeTask t).toIntCpu.pushAll ([f.ds, f.esp] ++ [0x200]) := by
      rw [pushAll_concat, ← hsecond]
      rfl
    have hsegment := h.pushFrom_eq (l := [f.ds, f.esp, 0x200, f.cs]) hflags (by simp)
      (by simp [hds, hesp]) (by decide) h.cs rfl
    exact h.pushFrom_eq hsegment (by simp) (by simp [hds, hesp, hcs]) (by decide) h.eip rfl

/-- The stack in front of `iret`. -/
theorem frame_spec (h : Starting c t f) :
    ((c.takeTask t).startFrame t).esp = f.kesp - 4 * (startWords f).length ∧
      AgreeOff (f.kesp - 4 * (startWords f).length) f.kesp c.mem
        ((c.takeTask t).startFrame t).mem ∧
      ∀ i k (hi : i < (startWords f).length), k = 4 * (i + 1) →
        ((c.takeTask t).startFrame t).mem.read32 (f.kesp - k) = (startWords f)[i] := by
  have htop : (c.takeTask t).esp = f.kesp := h.kesp
  have hlen := startWords_length f
  have hroom := h.room
  have hlt := h.kesp_lt
  obtain ⟨hesp, hagree, hread⟩ :=
    pushAll_spec (c := (c.takeTask t).toIntCpu) (by omega) (by omega) h.words
  rw [h.startFrame_eq, ← htop]
  refine ⟨hesp, hagree, fun i k hi hk => ?_⟩
  rw [hk]
  exact hread i hi

end Starting

/-! ## What starts -/

/-- The data segment of the kernel is loaded. -/
structure TakenSegments (c c' : TrapCpu) : Prop where
  ds : c'.regs.ds = 0x10
  es : c'.es = 0x10
  mem : c'.mem = c.mem
  esp : c'.esp = c.esp

theorem takeSegments_kernel {a : Nat} (ha : c.mem.read32 a = 0x10) :
    ∃ c', c.takeSegments a = some c' ∧ TakenSegments c c' := by
  have hselector : ¬0x10 % 0x10000 < 4 := by decide
  unfold TrapCpu.takeSegments
  rw [ha]
  exact ⟨_, if_neg hselector, rfl, rfl, rfl, rfl⟩

theorem takeSegments_null {a : Nat} (ha : c.mem.read32 a = 0) : c.takeSegments a = none := by
  unfold TrapCpu.takeSegments
  rw [ha]
  rfl

/-- Where the segments are taken from. -/
theorem Starting.segment (h : Starting c t f) :
    ((c.takeTask t).startFrame t).mem.read32 (t + 156) = f.ds := by
  obtain ⟨-, hagree, -⟩ := h.frame_spec
  have hlen := startWords_length f
  have hroom := h.room
  have hfits := h.fits
  have hapart := h.apart
  rw [hagree.read32 (by omega) (by omega)]
  exact h.ds

/-- `iret` to code of the kernel, which stays on the stack. -/
structure ReturnedTo (c c' : TrapCpu) (eip eflags esp : Nat) : Prop where
  eip : c'.eip = eip
  cs : c'.cs = 0x08
  eflags : c'.eflags = eflags
  esp : c'.esp = esp
  regs : c'.regs = c.regs
  es : c'.es = c.es
  mem : c'.mem = c.mem

theorem iret_kernel {top eip eflags : Nat} (hesp : c.esp = top - 20) (hroom : 20 ≤ top)
    (hlt : top < 0x100000000) (heip : c.mem.read32 (top - 20) = eip)
    (hcs : c.mem.read32 (top - 16) = 0x08) (heflags : c.mem.read32 (top - 12) = eflags) :
    ¬c.mem.read32 (c.esp + 4) % 0x10000 < 4 ∧ ReturnedTo c c.iret eip eflags (top - 8) := by
  have hsegment : c.mem.read32 (c.esp + 4) = 0x08 := by
    rw [← hcs, hesp, show top - 20 + 4 = top - 16 by omega]
  have hflags : c.mem.read32 (c.esp + 8) = eflags := by
    rw [← heflags, hesp, show top - 20 + 8 = top - 12 by omega]
  have hback : wrap32 (c.esp + 12) = top - 8 := by
    rw [hesp, wrap32_of_lt (by omega)]
    omega
  have hkernel : ¬(8 % 0x10000 % 4 ≠ 0) := by decide
  rw [hsegment]
  refine ⟨by decide, ?_⟩
  have hiret :
      c.iret = { c with eip := eip, cs := 8 % 0x10000, eflags := eflags, esp := top - 8 } := by
    unfold TrapCpu.iret
    rw [hsegment, hflags, hback, hesp, heip]
    exact if_neg hkernel
  rw [hiret]
  exact ⟨rfl, rfl, rfl, rfl, rfl, rfl, rfl⟩

/-- **A kernel thread starts** where its context says. The first parameter it finds is its own data
segment, whatever its arguments are. -/
theorem taskStart_kthread (h : Starting c t f) (hebp : f.ebp ≠ 0) (hcs : f.cs = 0x08)
    (hds : f.ds = 0x10) :
    ∃ c', c.taskStart = some c' ∧ EntersFunction c c' f.eip f.kesp 0x10 := by
  obtain ⟨hesp, hagree, hread⟩ := h.frame_spec
  have hwords := startWords_of_ne hebp
  have hsegment := h.segment.trans hds
  have hroom := h.room
  have hlt := h.kesp_lt
  rw [hwords] at hesp hagree hread
  simp only [List.length_cons, List.length_nil, Nat.zero_add, Nat.reduceAdd, Nat.reduceMul]
    at hesp hagree
  have heip : ((c.takeTask t).startFrame t).mem.read32 (f.kesp - 20) = f.eip :=
    hread 4 20 (by simp) rfl
  have hcs' : ((c.takeTask t).startFrame t).mem.read32 (f.kesp - 16) = f.cs :=
    hread 3 16 (by simp) rfl
  have heflags : ((c.takeTask t).startFrame t).mem.read32 (f.kesp - 12) = 0x200 :=
    hread 2 12 (by simp) rfl
  have hfirst : ((c.takeTask t).startFrame t).mem.read32 (f.kesp - 4) = f.ds :=
    hread 0 4 (by simp) rfl
  have habove := hagree.read32 (a := f.kesp) (by omega) (by omega)
  have hcode : ((c.takeTask t).startFrame t).mem.read32 (f.kesp - 16) = 0x08 := hcs'.trans hcs
  have hdata : ((c.takeTask t).startFrame t).mem.read32 (f.kesp - 4) = 0x10 := hfirst.trans hds
  rw [TrapCpu.taskStart, h.argument]
  generalize (c.takeTask t).startFrame t = c₁
    at hesp hagree hsegment heip heflags habove hcode hdata
  obtain ⟨c₂, htaken, hsegments⟩ := takeSegments_kernel hsegment
  rw [htaken]
  rw [← hsegments.mem] at hagree heip heflags habove hcode hdata
  obtain ⟨hsome, hback⟩ :=
    iret_kernel (hsegments.esp.trans hesp) hroom (by omega) heip hcode heflags
  have hbelow : f.kesp - 8 + 4 = f.kesp - 4 := by omega
  have htop : f.kesp - 8 + 8 = f.kesp := by omega
  refine ⟨c₂.iret, if_neg hsome, hback.eip, hback.cs, hback.eflags, ?_, ?_, ?_, ?_, ?_, ?_⟩
  · rw [hback.regs, hsegments.ds]
  · rw [hback.es, hsegments.es]
  · rw [hback.esp, htop]
  · rw [hback.mem, hback.esp, hbelow, hdata]
  · rw [hback.mem, hback.esp, htop, habove]
  · rw [hback.mem]
    exact hagree

/-- **A task without a data segment does not start.** -/
theorem taskStart_noSegment (h : Starting c t f) (hds : f.ds = 0) : c.taskStart = none := by
  have hsegment := h.segment.trans hds
  rw [TrapCpu.taskStart, h.argument, takeSegments_null hsegment]
  rfl

/-! ## What a creation leaves for the start -/

variable {α : Type} {s s' s'' : TaskSystem} {i : Nat} {g : Task → α}

/-- What is read of a task has nothing to do with queues and arguments. -/
structure OffQueue (g : Task → α) : Prop where
  state : ∀ task state, g { task with state := state } = g task
  next : ∀ task next, g { task with next := next } = g task
  arguments : ∀ task argv args, g { task with argv := argv, args := args } = g task

theorem offQueue_startFields : OffQueue Task.startFields :=
  ⟨fun _ _ => rfl, fun _ _ => rfl, fun _ _ _ => rfl⟩

theorem offQueue_ds : OffQueue Task.ds := ⟨fun _ _ => rfl, fun _ _ => rfl, fun _ _ _ => rfl⟩

/-- No task changes in what is read of it. -/
def Keeps (g : Task → α) (s s' : TaskSystem) : Prop := ∀ j, g (s'.task j) = g (s.task j)

theorem Keeps.refl (g : Task → α) (s : TaskSystem) : Keeps g s s := fun _ => rfl

theorem Keeps.trans (h : Keeps g s s') (h' : Keeps g s' s'') : Keeps g s s'' :=
  fun j => (h' j).trans (h j)

theorem Keeps.setTask (s : TaskSystem) (i : Nat) {f : Task → Task}
    (hf : g (f (s.task i)) = g (s.task i)) : Keeps g s (s.setTask i f) := by
  intro j
  by_cases hj : j = i
  · rw [hj, s.setTask_self, hf]
  · rw [s.setTask_of_ne f hj]

theorem Keeps.malloc (g : Task → α) (s : TaskSystem) (heap : Option Nat) (answer : Nat) :
    Keeps g s (s.heapManagerMalloc heap answer) := fun j => by
  rw [s.heapManagerMalloc_task]

theorem Fills.keeps {b : Multiset Nat} (h : Fills s s' i b) (hg : OffQueue g) : Keeps g s s' := by
  intro j
  by_cases hj : j = i
  · obtain ⟨argv, args, hslot⟩ := h.slot
    rw [hj, hslot]
    exact hg.arguments _ argv args
  · rw [h.others j hj]
    exact hg.next _ _

theorem addTask_keeps (hg : OffQueue g) (s : TaskSystem) (i : Nat) : Keeps g s (s.addTask i) := by
  intro j
  show g ((enqueueReady s.sched i).tasks j) = g (s.sched.tasks j)
  unfold enqueueReady
  simp only []
  rw [push_fields]
  split
  · rw [hg.next]
    by_cases hj : j = i
    · rw [hj, setState, Function.update_self]
      exact hg.state _ _
    · rw [setState_of_ne _ _ hj]
  · exact hg.next _ _

/-- What the start of a kernel thread with this kernel stack reads. -/
def kthreadFields (kthreadEntry stack : Nat) : StartFields where
  esp := TaskSystem.stackTop stack
  ebp := TaskSystem.stackTop stack
  eip := kthreadEntry
  ds := 0x10
  cs := 0x8
  kesp := TaskSystem.stackTop stack

/-- The slot of a kernel thread. -/
theorem createKthread_startFields {name : TaskName} {entry : Nat} {argc : Int}
    {answers : HeapAnswers} (hfree : freeTask s.sched.tasks = some i)
    (hserved : (CreateCall.kthread name entry argc answers).Served s) :
    ((s.createKthread name.name entry argc answers).1.task i).startFields =
      kthreadFields s.kthreadEntry answers.stack := by
  have hentry : ((s.takenSlot i).heapManagerMalloc (some kernelHeap) answers.stack).kthreadEntry =
      s.kthreadEntry := (s.takenSlot i).heapManagerMalloc_rest .. |>.2.2.2.2
  unfold TaskSystem.createKthread TaskSystem.initKernelStack
  rw [TaskSystem.getFreeTask_some hfree]
  simp only [if_neg hserved.1, TaskSystem.copyName_of_lt _ _ name.fits, TaskSystem.setTask_setTask]
  generalize hs₂ : ((s.takenSlot i).heapManagerMalloc _ _).setTask i _ = s₂
  have hslot : (s₂.task i).startFields = kthreadFields s.kthreadEntry answers.stack := by
    rw [← hs₂, TaskSystem.setTask_self, ← hentry]
    rfl
  obtain ⟨b, hfills, -, -⟩ := createArgv_spec s₂ i name entry argc answers
  have hkeeps := hfills.keeps offQueue_startFields
  split
  · next s₃ hr =>
    rw [hr] at hkeeps
    rw [hkeeps i, hslot]
  · next s₃ hr =>
    rw [hr] at hkeeps
    rw [addTask_keeps offQueue_startFields s₃ i i, hkeeps i, hslot]

theorem initUserStack_keepsDs (s : TaskSystem) (i answer stackVariable : Nat) :
    Keeps Task.ds s (s.initUserStack i answer stackVariable).1 := by
  have hstack : Keeps Task.ds s (s.initKernelStack i answer).1 := by
    unfold TaskSystem.initKernelStack
    split
    · exact Keeps.refl _ s
    · exact (Keeps.malloc _ s _ _).trans (Keeps.setTask _ i rfl)
  unfold TaskSystem.initUserStack
  split
  · next s₁ hinit =>
    rw [hinit] at hstack
    exact hstack
  · next s₁ hinit =>
    rw [hinit] at hstack
    split
    · exact hstack
    · exact hstack.trans (Keeps.setTask _ i rfl)

/-- The slot of a thread has the data segment that it had before. -/
theorem createThreadProcess_ds {name : TaskName} {parent entry arg stack stackVariable : Nat}
    (hfree : freeTask s.sched.tasks = some i) :
    ((s.createThreadProcess name.name parent entry arg stack stackVariable).1.task i).ds =
      (s.task i).ds := by
  have htaken : ((s.takenSlot i).task i).ds = (s.task i).ds :=
    Keeps.setTask (g := Task.ds) s i rfl i
  have hstack := initUserStack_keepsDs (s.takenSlot i) i stack stackVariable
  unfold TaskSystem.createThreadProcess
  rw [TaskSystem.getFreeTask_some hfree]
  simp only [TaskSystem.copyName_of_lt _ _ name.fits, TaskSystem.setTask_setTask]
  split
  · next s₁ hinit =>
    rw [hinit] at hstack
    exact (hstack i).trans htaken
  · next s₁ k hinit =>
    rw [hinit] at hstack
    generalize hs₂ : s₁.setTask i _ = s₂
    have hslot : Keeps Task.ds s₁ s₂ := hs₂ ▸ Keeps.setTask s₁ i rfl
    exact (((hstack.trans hslot).trans (addTask_keeps offQueue_ds s₂ i)) i).trans htaken

end Xylophone
