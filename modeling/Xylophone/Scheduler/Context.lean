import Xylophone.Infra.Run
import Xylophone.Syscalls.Dispatch

/-!
# Saving and restoring contexts

`_task_save_context` and `_task_restore_context` are called one after the other, on the stack of the
task that gives up the processor. The return address with which a task goes on is that of its own
call of `_task_restore_context`, which stands on its stack where that of `_task_save_context` was.
Where `round_robin` starts a thread, there is no such call, and it is that of `round_robin`: the
task that goes on restores its context once more, by itself. The word that it then takes for its
`ebp` is the one that `round_robin` has pushed first.

The three calls of a block push their argument and their return address in the same place.

* `call_taskSaveContext`, `savedMemory_holds` — what is saved
* `call_taskRestoreContext` — what is restored
* `Layout.Switching.step` — one step of all tasks
* `resumes_where_left` — every task goes on where it was, in every run
-/

namespace Xylophone

open Infra Memory

/-! ## The source -/

/-- The state of the floating-point unit, as it is stored. -/
abbrev FpuState := Fin 108 → UInt8

/-- `fnsave` -/
def fnsave (m : Memory) (a : Nat) (fpu : FpuState) : Memory := fun b =>
  if h : sub32 b a < 108 then fpu ⟨sub32 b a, h⟩ else m b

/-- `frstor` -/
def frstor (m : Memory) (a : Nat) : FpuState := fun k => m (wrap32 (a + k))

/-- The processor, as a switch of tasks sees it. -/
structure SwitchCpu extends IntCpu where
  eip : Nat
  eflags : Nat
  fpu : FpuState

namespace SwitchCpu

/-- `pushl` -/
def push (c : SwitchCpu) (v : Nat) : SwitchCpu := { c with toIntCpu := c.toIntCpu.push v }

/-- The word that is popped. -/
def top (c : SwitchCpu) : Nat := c.mem.read32 c.esp

/-- The stack without this word. -/
def drop (c : SwitchCpu) : SwitchCpu := { c with esp := wrap32 (c.esp + 4) }

def setEax (c : SwitchCpu) (v : Nat) : SwitchCpu := { c with regs := { c.regs with eax := v } }

def setEcx (c : SwitchCpu) (v : Nat) : SwitchCpu := { c with regs := { c.regs with ecx := v } }

def setEdx (c : SwitchCpu) (v : Nat) : SwitchCpu := { c with regs := { c.regs with edx := v } }

def setEbx (c : SwitchCpu) (v : Nat) : SwitchCpu := { c with regs := { c.regs with ebx := v } }

def setEsi (c : SwitchCpu) (v : Nat) : SwitchCpu := { c with regs := { c.regs with esi := v } }

def setEdi (c : SwitchCpu) (v : Nat) : SwitchCpu := { c with regs := { c.regs with edi := v } }

def setEbp (c : SwitchCpu) (v : Nat) : SwitchCpu := { c with regs := { c.regs with ebp := v } }

def setEsp (c : SwitchCpu) (v : Nat) : SwitchCpu := { c with esp := v }

/-- `popfl` -/
def popf (c : SwitchCpu) : SwitchCpu := { c.drop with eflags := c.top }

/-- `fnsave`, which leaves the unit in the state `fresh`. -/
def saveFpu (c : SwitchCpu) (fresh : FpuState) (a : Nat) : SwitchCpu :=
  { c with mem := fnsave c.mem a c.fpu, fpu := fresh }

/-- `frstor` -/
def restoreFpu (c : SwitchCpu) (a : Nat) : SwitchCpu := { c with fpu := frstor c.mem a }

/-- `movl` to a word of memory. -/
def store (c : SwitchCpu) (a v : Nat) : SwitchCpu := { c with mem := c.mem.write32 a v }

/-- `movl %ebp, %esp`, `popl %ebp` and `ret`. -/
def leaveRet (c : SwitchCpu) : SwitchCpu :=
  let c := c.setEsp c.regs.ebp
  let c := c.drop.setEbp c.top
  { c.drop with eip := c.top }

/-- `_task_save_context` -/
def taskSaveContext (fresh : FpuState) (c : SwitchCpu) : SwitchCpu :=
  let c := c.push c.regs.ebp
  let c := c.setEbp c.esp
  let c := c.push c.regs.eax
  let c := c.setEax (c.mem.read32 (c.esp + 12))
  let c := c.push c.regs.ebx
  let c := c.store (c.regs.eax + 12) c.regs.ebx
  let c := c.store (c.regs.eax + 4) c.regs.ecx
  let c := c.store (c.regs.eax + 8) c.regs.edx
  let c := c.store (c.regs.eax + 24) c.regs.esi
  let c := c.store (c.regs.eax + 28) c.regs.edi
  let c := c.store (c.regs.eax + 16) c.esp
  let c := c.store (c.regs.eax + 20) c.regs.ebp
  -- `pushfl` and `popl %ebx`
  let c := c.push c.eflags
  let c := c.drop.setEbx c.top
  let c := c.store (c.regs.eax + 36) c.regs.ebx
  let c := c.saveFpu fresh (c.regs.eax + 40)
  let c := c.drop.setEbx c.top
  let c := c.drop.setEax c.top
  c.leaveRet

/-- `_task_restore_context` -/
def taskRestoreContext (c : SwitchCpu) : SwitchCpu :=
  let c := c.push c.regs.ebp
  let c := c.setEbp c.esp
  let c := c.push c.regs.eax
  let c := c.setEax (c.mem.read32 (c.esp + 12))
  let c := c.setEbp (c.mem.read32 (c.regs.eax + 20))
  let c := c.setEsp (c.mem.read32 (c.regs.eax + 16))
  let c := c.restoreFpu (c.regs.eax + 40)
  let c := c.setEbx (c.mem.read32 (c.regs.eax + 12))
  let c := c.setEcx (c.mem.read32 (c.regs.eax + 4))
  let c := c.setEdx (c.mem.read32 (c.regs.eax + 8))
  let c := c.setEsi (c.mem.read32 (c.regs.eax + 24))
  let c := c.setEdi (c.mem.read32 (c.regs.eax + 28))
  -- `pushl` and `popfl`
  let c := (c.push (c.mem.read32 (c.regs.eax + 36))).popf
  let c := c.drop.setEax c.top
  c.leaveRet

/-- A call of a function with one argument, which the caller takes from the stack again. -/
def call (f : SwitchCpu → SwitchCpu) (arg ret : Nat) (c : SwitchCpu) : SwitchCpu :=
  (f ((c.push arg).push ret)).drop

end SwitchCpu

/-! ## Memory -/

section Memory

variable {m : Memory} {a b v : Nat} {fpu : FpuState}

/-- A word apart from the one that is written. -/
theorem read32_write32_of_apart (m : Memory) (v : Nat) (ha : a + 4 ≤ 0x100000000)
    (hb : b + 4 ≤ 0x100000000) (h : a + 4 ≤ b ∨ b + 4 ≤ a) :
    (m.write32 b v).read32 a = m.read32 a :=
  (agreeOff_write32 m v (Nat.le_refl b) (Nat.le_refl _) hb).read32 ha h

theorem agreeOff_fnsave (m : Memory) (fpu : FpuState) (hb : b + 108 ≤ 0x100000000) :
    AgreeOff b (b + 108) m (fnsave m b fpu) := by
  intro x hx hout
  unfold fnsave
  rw [dif_neg]
  unfold sub32
  omega

theorem read32_fnsave_of_apart (m : Memory) (fpu : FpuState) (ha : a + 4 ≤ 0x100000000)
    (hb : b + 108 ≤ 0x100000000) (h : a + 4 ≤ b ∨ b + 108 ≤ a) :
    (fnsave m b fpu).read32 a = m.read32 a := (agreeOff_fnsave m fpu hb).read32 ha h

/-- **What is saved is restored.** -/
theorem frstor_fnsave (m : Memory) (fpu : FpuState) (hb : b + 108 ≤ 0x100000000) :
    frstor (fnsave m b fpu) b = fpu := by
  funext k
  have hk := k.isLt
  have hplace : sub32 (wrap32 (b + k)) b = k := by
    unfold sub32 wrap32
    omega
  unfold frstor fnsave
  simp only [hplace, dif_pos hk]

theorem frstor_congr {m' : Memory} (h : AgreeOn a (a + 148) m m') (ha : a + 148 ≤ 0x100000000) :
    frstor m' (a + 40) = frstor m (a + 40) := by
  funext k
  have hk := k.isLt
  unfold frstor
  rw [wrap32_of_lt (by omega)]
  exact h _ (by omega) (by omega)

end Memory

/-! ## One task -/

namespace SwitchCpu

section Evaluation

variable {r : Registers} {e i f v a : Nat} {m : Memory} {fpu : FpuState}

theorem mk_push : push ⟨⟨r, e, m⟩, i, f, fpu⟩ v =
    ⟨⟨r, sub32 e 4, m.write32 (sub32 e 4) v⟩, i, f, fpu⟩ := rfl

theorem mk_top : top ⟨⟨r, e, m⟩, i, f, fpu⟩ = m.read32 e := rfl

theorem mk_drop : drop ⟨⟨r, e, m⟩, i, f, fpu⟩ = ⟨⟨r, wrap32 (e + 4), m⟩, i, f, fpu⟩ := rfl

theorem mk_store : store ⟨⟨r, e, m⟩, i, f, fpu⟩ a v = ⟨⟨r, e, m.write32 a v⟩, i, f, fpu⟩ := rfl

theorem mk_setEax : setEax ⟨⟨r, e, m⟩, i, f, fpu⟩ v = ⟨⟨{ r with eax := v }, e, m⟩, i, f, fpu⟩ :=
  rfl

theorem mk_setEcx : setEcx ⟨⟨r, e, m⟩, i, f, fpu⟩ v = ⟨⟨{ r with ecx := v }, e, m⟩, i, f, fpu⟩ :=
  rfl

theorem mk_setEdx : setEdx ⟨⟨r, e, m⟩, i, f, fpu⟩ v = ⟨⟨{ r with edx := v }, e, m⟩, i, f, fpu⟩ :=
  rfl

theorem mk_setEbx : setEbx ⟨⟨r, e, m⟩, i, f, fpu⟩ v = ⟨⟨{ r with ebx := v }, e, m⟩, i, f, fpu⟩ :=
  rfl

theorem mk_setEsi : setEsi ⟨⟨r, e, m⟩, i, f, fpu⟩ v = ⟨⟨{ r with esi := v }, e, m⟩, i, f, fpu⟩ :=
  rfl

theorem mk_setEdi : setEdi ⟨⟨r, e, m⟩, i, f, fpu⟩ v = ⟨⟨{ r with edi := v }, e, m⟩, i, f, fpu⟩ :=
  rfl

theorem mk_setEbp : setEbp ⟨⟨r, e, m⟩, i, f, fpu⟩ v = ⟨⟨{ r with ebp := v }, e, m⟩, i, f, fpu⟩ :=
  rfl

theorem mk_setEsp : setEsp ⟨⟨r, e, m⟩, i, f, fpu⟩ v = ⟨⟨r, v, m⟩, i, f, fpu⟩ := rfl

theorem mk_popf : popf ⟨⟨r, e, m⟩, i, f, fpu⟩ = ⟨⟨r, wrap32 (e + 4), m⟩, i, m.read32 e, fpu⟩ := rfl

theorem mk_saveFpu {fresh : FpuState} : saveFpu ⟨⟨r, e, m⟩, i, f, fpu⟩ fresh a =
    ⟨⟨r, e, fnsave m a fpu⟩, i, f, fresh⟩ := rfl

theorem mk_restoreFpu : restoreFpu ⟨⟨r, e, m⟩, i, f, fpu⟩ a = ⟨⟨r, e, m⟩, i, f, frstor m a⟩ := rfl

theorem mk_leaveRet : leaveRet ⟨⟨r, e, m⟩, i, f, fpu⟩ =
    ⟨⟨{ r with ebp := m.read32 r.ebp }, wrap32 (wrap32 (r.ebp + 4) + 4), m⟩,
      m.read32 (wrap32 (r.ebp + 4)), f, fpu⟩ := rfl

end Evaluation

/-- What both functions push first, below the stack of the caller: the argument, the return address,
and the registers `ebp` and `eax`. -/
def calledMemory (c : SwitchCpu) (arg ret : Nat) : Memory :=
  (((c.mem.write32 (c.esp - 4) arg).write32 (c.esp - 8) ret).write32 (c.esp - 12)
    c.regs.ebp).write32 (c.esp - 16) c.regs.eax

/-- Memory with the context of the caller in it. -/
def savedMemory (c : SwitchCpu) (t ret : Nat) : Memory :=
  let m := (c.calledMemory t ret).write32 (c.esp - 20) c.regs.ebx
  let m := ((m.write32 (t + 12) c.regs.ebx).write32 (t + 4) c.regs.ecx).write32 (t + 8) c.regs.edx
  let m := (m.write32 (t + 24) c.regs.esi).write32 (t + 28) c.regs.edi
  let m := (m.write32 (t + 16) (c.esp - 20)).write32 (t + 20) (c.esp - 12)
  fnsave ((m.write32 (c.esp - 24) c.eflags).write32 (t + 36) c.eflags) (t + 40) c.fpu

/-- There is room on the stack of the caller, apart from the task. -/
structure Room (c : SwitchCpu) (t : Nat) : Prop where
  regs : c.regs.Words
  eflags : c.eflags < 0x100000000
  esp : c.esp < 0x100000000
  room : 24 ≤ c.esp
  task : t + 148 ≤ 0x100000000
  apart : t + 148 ≤ c.esp - 24 ∨ c.esp ≤ t

variable {c r : SwitchCpu} {t t' ret : Nat} {fresh : FpuState} {m m' : Memory} {lo hi : Nat}

theorem agreeOff_calledMemory (c : SwitchCpu) (arg ret : Nat) (hroom : 16 ≤ c.esp)
    (hesp : c.esp < 0x100000000) : AgreeOff (c.esp - 16) c.esp c.mem (c.calledMemory arg ret) :=
  (((agreeOff_write32 c.mem arg (by omega) (by omega) (by omega)).trans
    (agreeOff_write32 _ ret (by omega) (by omega) (by omega))).trans
    (agreeOff_write32 _ c.regs.ebp (by omega) (by omega) (by omega))).trans
    (agreeOff_write32 _ c.regs.eax (by omega) (by omega) (by omega))

/-- **Saving**: the caller finds everything as it was, but for the unit. -/
theorem call_taskSaveContext (h : Room c t) (hret : ret < 0x100000000) (fresh : FpuState) :
    call (taskSaveContext fresh) t ret c =
      { c with eip := ret, mem := c.savedMemory t ret, fpu := fresh } := by
  obtain ⟨⟨r, E, m⟩, i, f, fpu⟩ := c
  obtain ⟨⟨heax, -, -, hebx, hebp, -, -, -⟩, hf, hesp, hroom, ht, hapart⟩ := h
  simp only at heax hebx hebp hf hesp hroom hapart
  have h4 : E - 4 - 4 = E - 8 := by omega
  have h8 : E - 8 - 4 = E - 12 := by omega
  have h12 : E - 12 - 4 = E - 16 := by omega
  have h16 : E - 16 - 4 = E - 20 := by omega
  have h20 : E - 20 - 4 = E - 24 := by omega
  have h24 : E - 24 + 4 = E - 20 := by omega
  have hebx20 : E - 20 + 4 = E - 16 := by omega
  have hframe : E - 12 + 4 = E - 8 := by omega
  have hcaller : E - 8 + 4 = E - 4 := by omega
  have hback : E - 4 + 4 = E := by omega
  have harg : E - 16 + 12 = E - 4 := by omega
  rw [call, taskSaveContext]
  simp (disch := omega) only [mk_push, mk_drop, mk_top, mk_store, mk_setEax, mk_setEbx, mk_setEbp,
    mk_saveFpu, mk_leaveRet, sub32_of_le, wrap32_of_lt, h4, h8, h12, h16, h20, h24, hebx20, hframe,
    hcaller, hback, harg, read32_fnsave_of_apart, read32_write32_of_apart, read32_write32_self]
  rfl

theorem caller_of_eq {c' : SwitchCpu} {eip : Nat} {fpu : FpuState}
    (h : c' = { c with eip := eip, mem := m, fpu := fpu }) :
    c'.esp = c.esp ∧ c'.regs.ebp = c.regs.ebp := by
  rw [h]
  exact ⟨rfl, rfl⟩

/-- The processor goes on at another place. -/
def behind (c : SwitchCpu) (eip : Nat) : SwitchCpu := { c with eip := eip }

/-- The context of `r` is in the task. -/
structure HoldsTask (m : Memory) (t : Nat) (r : SwitchCpu) : Prop where
  ecx : m.read32 (t + 4) = r.regs.ecx
  edx : m.read32 (t + 8) = r.regs.edx
  ebx : m.read32 (t + 12) = r.regs.ebx
  esp : m.read32 (t + 16) = r.esp - 20
  ebp : m.read32 (t + 20) = r.esp - 12
  esi : m.read32 (t + 24) = r.regs.esi
  edi : m.read32 (t + 28) = r.regs.edi
  eflags : m.read32 (t + 36) = r.eflags
  fpu : frstor m (t + 40) = r.fpu

/-- On the stack is also where it goes on. -/
structure HoldsContext (m : Memory) (t : Nat) (r : SwitchCpu) : Prop extends HoldsTask m t r where
  frame : m.read32 (r.esp - 12) = r.regs.ebp
  eip : m.read32 (r.esp - 8) = r.eip

theorem HoldsTask.congr (h : HoldsTask m t r) (ht : t + 148 ≤ 0x100000000)
    (hagree : AgreeOn t (t + 148) m m') : HoldsTask m' t r where
  ecx := by rw [← h.ecx, hagree.read32 (by omega) (by omega) (by omega)]
  edx := by rw [← h.edx, hagree.read32 (by omega) (by omega) (by omega)]
  ebx := by rw [← h.ebx, hagree.read32 (by omega) (by omega) (by omega)]
  esp := by rw [← h.esp, hagree.read32 (by omega) (by omega) (by omega)]
  ebp := by rw [← h.ebp, hagree.read32 (by omega) (by omega) (by omega)]
  esi := by rw [← h.esi, hagree.read32 (by omega) (by omega) (by omega)]
  edi := by rw [← h.edi, hagree.read32 (by omega) (by omega) (by omega)]
  eflags := by rw [← h.eflags, hagree.read32 (by omega) (by omega) (by omega)]
  fpu := by rw [← h.fpu, frstor_congr hagree ht]

theorem HoldsTask.eip (h : HoldsTask m t r) (eip : Nat) : HoldsTask m t (r.behind eip) :=
  ⟨h.ecx, h.edx, h.ebx, h.esp, h.ebp, h.esi, h.edi, h.eflags, h.fpu⟩

/-- The `ebp` of the task is not in it, only the place of its frame. -/
theorem HoldsTask.setEbp (h : HoldsTask m t r) (v : Nat) : HoldsTask m t (r.setEbp v) :=
  ⟨h.ecx, h.edx, h.ebx, h.esp, h.ebp, h.esi, h.edi, h.eflags, h.fpu⟩

theorem HoldsContext.congr (h : HoldsContext m t r) (ht : t + 148 ≤ 0x100000000)
    (hesp : r.esp < 0x100000000) (hroom : 12 ≤ r.esp) (hblock : AgreeOn t (t + 148) m m')
    (hstack : AgreeOn (r.esp - 12) (r.esp - 4) m m') : HoldsContext m' t r where
  toHoldsTask := h.toHoldsTask.congr ht hblock
  frame := by rw [← h.frame, hstack.read32 (by omega) (by omega) (by omega)]
  eip := by rw [← h.eip, hstack.read32 (by omega) (by omega) (by omega)]

theorem savedMemory_agreeOn (h : Room c t) (ret : Nat) (hhi : hi ≤ 0x100000000)
    (hblock : hi ≤ t ∨ t + 148 ≤ lo) (hstack : hi ≤ c.esp - 24 ∨ c.esp ≤ lo) :
    AgreeOn lo hi c.mem (c.savedMemory t ret) := by
  have hesp := h.esp
  have hroom := h.room
  have ht := h.task
  have hword : ∀ (m : Memory) {a : Nat} (v : Nat), a + 4 ≤ 0x100000000 → hi ≤ a ∨ a + 4 ≤ lo →
      AgreeOn lo hi m (m.write32 a v) := fun m a v ha hout =>
    (agreeOff_write32 m v (Nat.le_refl a) (Nat.le_refl _) ha).agreeOn hhi hout
  have hcalled : AgreeOn lo hi c.mem (c.calledMemory t ret) :=
    (agreeOff_calledMemory c t ret (by omega) hesp).agreeOn hhi (by omega)
  have hfpu : ∀ m, AgreeOn lo hi m (fnsave m (t + 40) c.fpu) := fun m =>
    (agreeOff_fnsave m c.fpu (by omega)).agreeOn hhi (by omega)
  unfold savedMemory
  refine hcalled.trans ((hword _ _ ?_ ?_).trans ((hword _ _ ?_ ?_).trans ((hword _ _ ?_ ?_).trans
    ((hword _ _ ?_ ?_).trans ((hword _ _ ?_ ?_).trans ((hword _ _ ?_ ?_).trans
    ((hword _ _ ?_ ?_).trans ((hword _ _ ?_ ?_).trans ((hword _ _ ?_ ?_).trans
    ((hword _ _ ?_ ?_).trans (hfpu _))))))))))) <;> omega

theorem savedMemory_holds (h : Room c t) (ret : Nat) : HoldsTask (c.savedMemory t ret) t c := by
  obtain ⟨⟨-, hecx, hedx, hebx, -, hesi, hedi, -⟩, heflags, hesp, hroom, ht, hapart⟩ := h
  constructor
  case fpu =>
    unfold savedMemory
    rw [frstor_fnsave _ _ (by omega)]
  all_goals
    unfold savedMemory
    simp (disch := omega) only [read32_fnsave_of_apart, read32_write32_of_apart,
      read32_write32_self]

/-- A task that restores, once the words have been pushed: its own context is complete. -/
theorem HoldsTask.called (h : HoldsTask c.mem t r) (hroom : Room c t) (hret : ret < 0x100000000)
    (arg : Nat) (hesp : c.esp = r.esp) (hebp : c.regs.ebp = r.regs.ebp) :
    HoldsContext (c.calledMemory arg ret) t (r.behind ret) := by
  obtain ⟨⟨-, -, -, -, hebpLt, -, -, -⟩, -, hespLt, hlow, ht, hapart⟩ := hroom
  have hagree : AgreeOn t (t + 148) c.mem (c.calledMemory arg ret) :=
    (agreeOff_calledMemory c arg ret (by omega) hespLt).agreeOn ht (by omega)
  refine ⟨(h.congr ht hagree).eip ret, ?_, ?_⟩
  · show (c.calledMemory arg ret).read32 (r.esp - 12) = r.regs.ebp
    rw [← hesp, ← hebp]
    unfold calledMemory
    simp (disch := omega) only [read32_write32_of_apart, read32_write32_self]
  · show (c.calledMemory arg ret).read32 (r.esp - 8) = ret
    rw [← hesp]
    unfold calledMemory
    simp (disch := omega) only [read32_write32_of_apart, read32_write32_self]

/-- The processor goes on with `r`, which has some word in `eax`. -/
structure GoesOn (r c : SwitchCpu) : Prop where
  registers : { r with mem := c.mem, regs := { r.regs with eax := c.regs.eax } } = c
  eax : c.regs.eax < 0x100000000

/-- **Restoring.** -/
theorem call_taskRestoreContext (hesp : c.esp < 0x100000000) (hroom : 16 ≤ c.esp)
    (ht : t < 0x100000000) (hebp : c.regs.ebp < 0x100000000) (hds : c.regs.ds = r.regs.ds)
    (hr : Room r t) (h : HoldsContext (c.calledMemory t ret) t r) :
    GoesOn r (call taskRestoreContext t ret c) ∧
      (call taskRestoreContext t ret c).mem =
        (c.calledMemory t ret).write32 (r.esp - 24) r.eflags := by
  obtain ⟨⟨rc, E, m⟩, i, f, fpu⟩ := c
  obtain ⟨⟨rr, er, mr⟩, ir, fr, fpur⟩ := r
  obtain ⟨-, hf, hespr, hroomr, htr, hapart⟩ := hr
  obtain ⟨⟨hecx, hedx, hebx, hespw, hebpw, hesi, hedi, heflags, hfpu⟩, hframe, heip⟩ := h
  simp only at hesp hroom hebp hds hf hespr hroomr hapart
  simp only at hecx hedx hebx hespw hebpw hesi hedi heflags hfpu hframe heip
  have h4 : E - 4 - 4 = E - 8 := by omega
  have h8 : E - 8 - 4 = E - 12 := by omega
  have h12 : E - 12 - 4 = E - 16 := by omega
  have harg : E - 16 + 12 = E - 4 := by omega
  have h20 : er - 20 - 4 = er - 24 := by omega
  have h24 : er - 24 + 4 = er - 20 := by omega
  have hebp12 : er - 12 + 4 = er - 8 := by omega
  have hret8 : er - 8 + 4 = er - 4 := by omega
  have hback : er - 4 + 4 = er := by omega
  have hm : ((((m.write32 (E - 4) t).write32 (E - 8) ret).write32 (E - 12) rc.ebp).write32
      (E - 16) rc.eax) = calledMemory ⟨⟨rc, E, m⟩, i, f, fpu⟩ t ret := rfl
  have htask : (calledMemory ⟨⟨rc, E, m⟩, i, f, fpu⟩ t ret).read32 (E - 4) = t := by
    rw [← hm]
    simp (disch := omega) only [read32_write32_of_apart, read32_write32_self]
  generalize calledMemory ⟨⟨rc, E, m⟩, i, f, fpu⟩ t ret = m₁ at *
  have hend : call taskRestoreContext t ret ⟨⟨rc, E, m⟩, i, f, fpu⟩ =
      ⟨⟨{ rr with eax := m₁.read32 (er - 20), ds := rc.ds }, er, m₁.write32 (er - 24) fr⟩,
        ir, fr, fpur⟩ := by
    rw [call, taskRestoreContext]
    simp (disch := omega) only [mk_push, mk_drop, mk_top, mk_setEax, mk_setEcx, mk_setEdx,
      mk_setEbx, mk_setEsi, mk_setEdi, mk_setEbp, mk_setEsp, mk_popf, mk_restoreFpu, mk_leaveRet,
      sub32_of_le, wrap32_of_lt, h4, h8, h12, harg, hm, htask, hecx, hedx, hebx, hespw, hebpw, hesi,
      hedi, heflags, hfpu, h20, h24, hebp12, hret8, hback, hframe, heip, read32_write32_of_apart,
      read32_write32_self]
  rw [hend, hds]
  exact ⟨⟨rfl, read32_lt _ _⟩, rfl⟩

end SwitchCpu

/-! ## All tasks -/

open SwitchCpu

/-- A block of the scheduler that gives up the processor (`scheduler_schedule` and `scheduler_exit`
have one each), with the return addresses of its calls of `_task_save_context`, `round_robin` and
`_task_restore_context`. -/
structure Site where
  behindSave : Nat
  behindBody : Nat
  behindRestore : Nat
  behindSave_lt : behindSave < 0x100000000
  behindRestore_lt : behindRestore < 0x100000000
  ne : behindRestore ≠ behindBody

/-- The tasks, with their stacks, and the contexts in them, are apart. -/
structure Layout where
  task : Nat → Prop
  low : Nat → Nat
  high : Nat → Nat
  high_lt : ∀ t, task t → high t < 0x100000000
  block_le : ∀ t, task t → t + 148 ≤ 0x100000000
  stacks_apart : ∀ t t', task t → task t' → t ≠ t' → high t ≤ low t' ∨ high t' ≤ low t
  blocks_apart : ∀ t t', task t → task t' → t ≠ t' → t + 148 ≤ t' ∨ t' + 148 ≤ t
  block_stack : ∀ t t', task t → task t' → t + 148 ≤ low t' ∨ high t' ≤ t

/-- The processor runs on the stack of the task, in the kernel and with its data segment. -/
structure Layout.OnStack (L : Layout) (t : Nat) (c : SwitchCpu) : Prop where
  regs : c.regs.Words
  ds : c.regs.ds = 0x10
  eflags : c.eflags < 0x100000000
  room : L.low t + 24 ≤ c.esp
  high : c.esp ≤ L.high t

/-- The stack of the task and the context in it are left alone. -/
structure Layout.Kept (L : Layout) (t : Nat) (m m' : Memory) : Prop where
  block : AgreeOn t (t + 148) m m'
  stack : AgreeOn (L.low t) (L.high t) m m'

/-- A task that has given up the processor, with its state in front of its block. For one in whose
place a thread was started, `pushed` is the word that `round_robin` had pushed first. -/
structure Suspended where
  site : Site
  cpu : SwitchCpu
  pushed : Option Nat

/-- The registers with which the task goes on. -/
def Suspended.resumed (x : Suspended) : SwitchCpu :=
  { x.cpu with regs := { x.cpu.regs with ebp := x.pushed.getD x.cpu.regs.ebp } }

structure TaskMachine where
  cpu : SwitchCpu
  current : Nat
  suspended : Nat → Option Suspended

namespace TaskMachine

/-- The current task has given up the processor. -/
def suspend (s : TaskMachine) (σ : Site) (pushed : Option Nat) : Nat → Option Suspended :=
  Function.update s.suspended s.current (some ⟨σ, s.cpu, pushed⟩)

/-- `_task_save_context` has returned. -/
def saved (s : TaskMachine) (σ : Site) (fresh : FpuState) : SwitchCpu :=
  call (taskSaveContext fresh) s.current σ.behindSave s.cpu

end TaskMachine

/-- A task that comes back from `round_robin`, and not from its own restoring, restores again. -/
def goOn (σ : Site) (t : Nat) (c : SwitchCpu) : SwitchCpu :=
  if c.eip = σ.behindBody then call taskRestoreContext t σ.behindRestore c else c

/-- What `round_robin` does to memory. The part of its own stack below `esp` is free. -/
structure Layout.BodyKeeps (L : Layout) (s : TaskMachine) (m m' : Memory) : Prop where
  block : AgreeOn s.current (s.current + 148) m m'
  stack : AgreeOn s.cpu.esp (L.high s.current) m m'
  others : ∀ t x, s.suspended t = some x → L.Kept t m m'

inductive SwitchOp where
  | runs
  | switches (site : Site) (next : Nat)
  | starts (site : Site) (next : Nat)

/-- A step of all tasks: the current task runs, `round_robin` returns with some task as the current
one, or it starts a thread and does not return. It keeps the registers that a function keeps. What
it leaves on the stack, when it does not return, is its return address and what it has pushed. -/
inductive SwitchStep (L : Layout) (fresh : FpuState) : TaskMachine → SwitchOp → TaskMachine → Prop
  | runs {s : TaskMachine} {c : SwitchCpu} (place : L.OnStack s.current c)
      (others : ∀ t x, s.suspended t = some x → L.Kept t s.cpu.mem c.mem) :
      SwitchStep L fresh s .runs { s with cpu := c }
  | switches {s : TaskMachine} {σ : Site} {next : Nat} {x : Suspended} {c : SwitchCpu}
      (keeps : L.BodyKeeps s (s.saved σ fresh).mem c.mem) (place : L.OnStack s.current c)
      (esp : c.esp = (s.saved σ fresh).esp) (ebp : c.regs.ebp = (s.saved σ fresh).regs.ebp)
      (ds : c.regs.ds = (s.saved σ fresh).regs.ds) (selected : s.suspend σ none next = some x) :
      SwitchStep L fresh s (.switches σ next)
        { cpu := goOn x.site next (call taskRestoreContext next σ.behindRestore c)
          current := next
          suspended := Function.update (s.suspend σ none) next none }
  | starts {s : TaskMachine} {σ : Site} {next pushed : Nat} {c : SwitchCpu}
      (keeps : L.BodyKeeps s (s.saved σ fresh).mem c.mem)
      (frame : c.mem.read32 (s.cpu.esp - 12) = pushed)
      (ret : c.mem.read32 (s.cpu.esp - 8) = σ.behindBody) (task : L.task next)
      (place : L.OnStack next c) (selected : s.suspend σ (some pushed) next = none) :
      SwitchStep L fresh s (.starts σ next)
        { cpu := c, current := next, suspended := s.suspend σ (some pushed) }

/-- Memory holds what the task has left. -/
structure Layout.Left (L : Layout) (m : Memory) (t : Nat) (x : Suspended) : Prop where
  task : L.task t
  place : L.OnStack t x.resumed
  context : ∃ eip, (eip = x.site.behindBody ∨ eip = x.site.behindRestore) ∧
    HoldsContext m t (x.resumed.behind eip)
  stack : AgreeOn x.cpu.esp (L.high t) x.cpu.mem m

structure Layout.Switching (L : Layout) (s : TaskMachine) : Prop where
  task : L.task s.current
  place : L.OnStack s.current s.cpu
  current : s.suspended s.current = none
  left : ∀ t x, s.suspended t = some x → L.Left s.cpu.mem t x

section Tasks

variable {L : Layout} {fresh : FpuState} {s s' s₀ : TaskMachine} {σ : Site} {t t' u next pushed : Nat}
  {x y : Suspended} {c : SwitchCpu} {m m' : Memory}

theorem Layout.OnStack.room_task (h : L.OnStack t c) (ht : L.task t) (hu : L.task u) :
    Room c u where
  regs := h.regs
  eflags := h.eflags
  esp := Nat.lt_of_le_of_lt h.high (L.high_lt t ht)
  room := by
    have hroom := h.room
    omega
  task := L.block_le u hu
  apart := by
    have hroom := h.room
    have hhigh := h.high
    have hapart := L.block_stack u t hu ht
    omega

theorem Layout.OnStack.eip (h : L.OnStack t c) (eip : Nat) : L.OnStack t (c.behind eip) :=
  ⟨h.regs, h.ds, h.eflags, h.room, h.high⟩

theorem Layout.OnStack.setEbp (h : L.OnStack t c) {v : Nat} (hv : v < 0x100000000) :
    L.OnStack t (c.setEbp v) :=
  ⟨⟨h.regs.eax, h.regs.ecx, h.regs.edx, h.regs.ebx, hv, h.regs.esi, h.regs.edi, h.regs.ds⟩, h.ds,
    h.eflags, h.room, h.high⟩

theorem Layout.OnStack.of_eq (h : L.OnStack t c) {c' : SwitchCpu} {eip : Nat} {fpu : FpuState}
    (he : c' = { c with eip := eip, mem := m, fpu := fpu }) : L.OnStack t c' := by
  rw [he]
  exact ⟨h.regs, h.ds, h.eflags, h.room, h.high⟩

theorem Layout.Left.congr (h : L.Left m t x) (hkept : L.Kept t m m') : L.Left m' t x := by
  obtain ⟨ht, hplace, ⟨eip, heip, hcontext⟩, hstack⟩ := h
  have hesp : x.resumed.esp = x.cpu.esp := rfl
  have hroom := hplace.room
  have hhigh := hplace.high
  have hlt := L.high_lt t ht
  refine ⟨ht, hplace, ⟨eip, heip, ?_⟩, hstack.trans (hkept.stack.mono (by omega) (Nat.le_refl _))⟩
  refine hcontext.congr (L.block_le t ht) ?_ ?_ hkept.block (hkept.stack.mono ?_ ?_)
  · show x.resumed.esp < 0x100000000
    omega
  · show 12 ≤ x.resumed.esp
    omega
  · show L.low t ≤ x.resumed.esp - 12
    omega
  · show x.resumed.esp - 4 ≤ L.high t
    omega

/-- What changes on the stack of another task is no matter. -/
theorem Layout.kept_of_agreeOff {lo hi : Nat} (ht : L.task t) (hu : L.task u) (hne : u ≠ t)
    (hlo : L.low t ≤ lo) (hhi : hi ≤ L.high t) (h : AgreeOff lo hi m m') : L.Kept u m m' where
  block := by
    have hapart := L.block_stack u t hu ht
    exact h.agreeOn (L.block_le u hu) (by omega)
  stack := by
    have hapart := L.stacks_apart u t hu ht hne
    have hlt := L.high_lt u hu
    exact h.agreeOn (by omega) (by omega)

namespace Layout.Switching

variable (h : L.Switching s)
include h

theorem saved_eq (σ : Site) (fresh : FpuState) : s.saved σ fresh =
    { s.cpu with
      eip := σ.behindSave, mem := s.cpu.savedMemory s.current σ.behindSave, fpu := fresh } :=
  call_taskSaveContext (h.place.room_task h.task h.task) σ.behindSave_lt fresh

theorem onStack_saved (σ : Site) (fresh : FpuState) : L.OnStack s.current (s.saved σ fresh) :=
  h.place.of_eq (h.saved_eq σ fresh)

theorem saved_esp (σ : Site) (fresh : FpuState) :
    (s.saved σ fresh).esp = s.cpu.esp ∧ (s.saved σ fresh).regs.ebp = s.cpu.regs.ebp :=
  caller_of_eq (h.saved_eq σ fresh)

/-- The other tasks keep what they have left, while the current one saves its context and
`round_robin` runs. -/
theorem left_body (hkeeps : L.BodyKeeps s (s.saved σ fresh).mem m) (hx : s.suspended t = some x) :
    L.Left m t x := by
  have hleft := h.left t x hx
  have hne : t ≠ s.current := fun he => by
    rw [he, h.current] at hx
    cases hx
  have hroom := h.place.room_task h.task h.task
  have hblocks := L.blocks_apart t s.current hleft.task h.task hne
  have hstacks := L.stacks_apart t s.current hleft.task h.task hne
  have hblock := L.block_stack t s.current hleft.task h.task
  have hstack := L.block_stack s.current t h.task hleft.task
  have hlow := h.place.room
  have hhigh := h.place.high
  have hlt := L.high_lt t hleft.task
  rw [h.saved_eq] at hkeeps
  refine (hleft.congr ⟨?_, ?_⟩).congr (hkeeps.others t x hx)
  · exact savedMemory_agreeOn hroom _ (L.block_le t hleft.task) (by omega) (by omega)
  · exact savedMemory_agreeOn hroom _ (by omega) (by omega) (by omega)

/-- The context of the current task is in it. -/
theorem block_body (hkeeps : L.BodyKeeps s (s.saved σ fresh).mem m) :
    HoldsTask m s.current s.cpu := by
  have hblock := hkeeps.block
  rw [h.saved_eq] at hblock
  exact (savedMemory_holds (h.place.room_task h.task h.task) _).congr
    (L.block_le _ h.task) hblock

/-- So is what is on its stack. -/
theorem stack_body (hkeeps : L.BodyKeeps s (s.saved σ fresh).mem m) :
    AgreeOn s.cpu.esp (L.high s.current) s.cpu.mem m := by
  have hstack := hkeeps.stack
  have hlow := h.place.room
  have hlt := L.high_lt _ h.task
  have hapart := L.block_stack s.current s.current h.task h.task
  rw [h.saved_eq] at hstack
  refine AgreeOn.trans ?_ hstack
  exact savedMemory_agreeOn (h.place.room_task h.task h.task) _ (by omega) (by omega) (by omega)

/-- **When the context of the next task is restored**, memory holds what all tasks have left, the
one that gives up the processor too. -/
theorem left_called (hkeeps : L.BodyKeeps s (s.saved σ fresh).mem c.mem)
    (hplace : L.OnStack s.current c) (hesp : c.esp = s.cpu.esp) (hebp : c.regs.ebp = s.cpu.regs.ebp)
    (next : Nat) (hx : s.suspend σ none t = some x) :
    L.Left (c.calledMemory next σ.behindRestore) t x := by
  have hlow := hplace.room
  have hhigh := hplace.high
  have hlt := L.high_lt _ h.task
  have hcalled := agreeOff_calledMemory c next σ.behindRestore (by omega) (by omega)
  unfold TaskMachine.suspend at hx
  by_cases ht : t = s.current
  · subst ht
    rw [Function.update_self] at hx
    obtain rfl := Option.some.inj hx
    refine ⟨h.task, h.place, ⟨σ.behindRestore, Or.inr rfl, ?_⟩, ?_⟩
    · exact (h.block_body hkeeps).called (hplace.room_task h.task h.task) σ.behindRestore_lt next
        hesp hebp
    · exact (h.stack_body hkeeps).trans (hcalled.agreeOn (by omega) (by omega))
  · rw [Function.update_of_ne ht] at hx
    have hleft := h.left_body hkeeps hx
    exact hleft.congr (L.kept_of_agreeOff h.task hleft.task ht (by omega) hhigh hcalled)

end Layout.Switching

/-- The processor goes on with a task, and has changed memory only below its stack. -/
structure Layout.Resumed (L : Layout) (m : Memory) (t : Nat) (r c : SwitchCpu) : Prop where
  goesOn : GoesOn r c
  memory : AgreeOff (r.esp - 24) r.esp m c.mem

/-- One restoring. -/
theorem Layout.resumed_restore {r : SwitchCpu} {ret : Nat} (hplace : L.OnStack u c) (hu : L.task u)
    (ht : L.task t) (hr : L.OnStack t r) (h : HoldsContext (c.calledMemory t ret) t r) :
    L.Resumed (c.calledMemory t ret) t r (call taskRestoreContext t ret c) := by
  have hroom := hplace.room_task hu ht
  have hlow := hroom.room
  have htask := hroom.task
  have hback := hr.room_task ht ht
  have hbackLow := hback.room
  have hbackLt := hback.esp
  obtain ⟨hgoesOn, hmem⟩ := call_taskRestoreContext hroom.esp (by omega) (by omega)
    hroom.regs.ebp (hplace.ds.trans hr.ds.symm) hback h
  refine ⟨hgoesOn, ?_⟩
  rw [hmem]
  exact agreeOff_write32 _ r.eflags (Nat.le_refl _) (by omega) (by omega)

theorem Layout.Resumed.onStack {r : SwitchCpu} (h : L.Resumed m t r c) (hr : L.OnStack t r) :
    L.OnStack t c := by
  obtain ⟨⟨heax, hecx, hedx, hebx, hebp, hesi, hedi, hdsLt⟩, hds, heflags, hroom, hhigh⟩ := hr
  have heaxLt := h.goesOn.eax
  rw [← h.goesOn.registers] at heaxLt ⊢
  exact ⟨⟨heaxLt, hecx, hedx, hebx, hebp, hesi, hedi, hdsLt⟩, hds, heflags, hroom, hhigh⟩

/-- Restoring once more, by the task that goes on. -/
theorem Layout.Resumed.again {r : SwitchCpu} {ret : Nat} (h : L.Resumed m t r c) (ht : L.task t)
    (hr : L.OnStack t r) (hcontext : HoldsTask m t r) (hret : ret < 0x100000000) :
    L.Resumed m t (r.behind ret) (call taskRestoreContext t ret c) := by
  have hplace := h.onStack hr
  have hroom := hplace.room_task ht ht
  have hlow := hroom.room
  have hblock := L.block_le t ht
  have hapart := L.block_stack t t ht ht
  have hrlow := hr.room
  have hrhigh := hr.high
  have hesp : c.esp = r.esp := by rw [← h.goesOn.registers]
  have hebp : c.regs.ebp = r.regs.ebp := by rw [← h.goesOn.registers]
  have hheld : HoldsTask c.mem t r :=
    hcontext.congr hblock (h.memory.agreeOn hblock (by omega))
  have hpushed := agreeOff_calledMemory c t ret (by omega) hroom.esp
  have hsecond := L.resumed_restore hplace ht ht (hr.eip ret) (hheld.called hroom hret t hesp hebp)
  refine ⟨hsecond.goesOn, h.memory.trans (AgreeOff.trans ?_ hsecond.memory)⟩
  rw [hesp] at hpushed
  exact hpushed.mono (Nat.sub_le_sub_left (by decide) _) (Nat.le_refl _)

/-- **A task goes on where it was**, also when it restores twice. -/
theorem Layout.Left.goOn {ret : Nat} (h : L.Left (c.calledMemory t ret) t x)
    (hplace : L.OnStack u c) (hu : L.task u) :
    L.Resumed (c.calledMemory t ret) t (x.resumed.behind x.site.behindRestore)
      (goOn x.site t (call taskRestoreContext t ret c)) := by
  obtain ⟨ht, hx, ⟨eip, heip, hcontext⟩, hstack⟩ := h
  have hfirst := L.resumed_restore hplace hu ht (hx.eip eip) hcontext
  have hat : (call taskRestoreContext t ret c).eip = eip := by
    rw [← hfirst.goesOn.registers]
    rfl
  unfold Xylophone.goOn
  rw [hat]
  obtain rfl | rfl := heip
  · -- The task returns from `round_robin`, and restores its own context.
    rw [if_pos rfl]
    exact hfirst.again ht (hx.eip _) hcontext.toHoldsTask x.site.behindRestore_lt
  · rw [if_neg x.site.ne]
    exact hfirst

/-- The task finds its stack as it has left it. -/
theorem Layout.Left.resumed {eip : Nat} (h : L.Left m t x)
    (hresumed : L.Resumed m t (x.resumed.behind eip) c) :
    GoesOn (x.resumed.behind eip) c ∧ AgreeOn x.cpu.esp (L.high t) x.cpu.mem c.mem := by
  have hhigh : x.cpu.esp ≤ L.high t := h.place.high
  have hlt := L.high_lt t h.task
  have hmemory : AgreeOff (x.cpu.esp - 24) x.cpu.esp m c.mem := hresumed.memory
  exact ⟨hresumed.goesOn, h.stack.trans (hmemory.agreeOn (by omega) (Or.inr (Nat.le_refl _)))⟩

/-- The tasks, when the processor goes on with one of them. -/
theorem Layout.Resumed.switching (hleft : ∀ u y, s.suspend σ none u = some y → L.Left m u y)
    {eip : Nat} (hx : s.suspend σ none next = some x) (h : L.Resumed m next (x.resumed.behind eip) c) :
    L.Switching ⟨c, next, Function.update (s.suspend σ none) next none⟩ := by
  have hnext := hleft next x hx
  have hroom := hnext.place.room
  refine ⟨hnext.task, h.onStack (hnext.place.eip _), Function.update_self .., fun u y hy => ?_⟩
  by_cases hu : u = next
  · subst hu
    simp only [Function.update_self] at hy
    cases hy
  · simp only [Function.update_of_ne hu] at hy
    have hother := hleft u y hy
    have hlow : L.low next ≤ x.resumed.esp - 24 := by omega
    exact hother.congr (L.kept_of_agreeOff hnext.task hother.task hu hlow hnext.place.high h.memory)

/-- The tasks, when a thread is started. -/
theorem Layout.Switching.started (h : L.Switching s)
    (hkeeps : L.BodyKeeps s (s.saved σ fresh).mem c.mem)
    (hframe : c.mem.read32 (s.cpu.esp - 12) = pushed)
    (hret : c.mem.read32 (s.cpu.esp - 8) = σ.behindBody) (htask : L.task next)
    (hplace : L.OnStack next c) (hnext : s.suspend σ (some pushed) next = none) :
    L.Switching ⟨c, next, s.suspend σ (some pushed)⟩ := by
  refine ⟨htask, hplace, hnext, fun u x hx => ?_⟩
  simp only [TaskMachine.suspend] at hx
  by_cases hu : u = s.current
  · subst hu
    rw [Function.update_self] at hx
    obtain rfl := Option.some.inj hx
    have hpushed : pushed < 0x100000000 := by
      rw [← hframe]
      exact read32_lt _ _
    have hcontext := ((h.block_body hkeeps).setEbp pushed).eip σ.behindBody
    exact ⟨h.task, h.place.setEbp hpushed, ⟨σ.behindBody, Or.inl rfl, hcontext, hframe, hret⟩,
      h.stack_body hkeeps⟩
  · rw [Function.update_of_ne hu] at hx
    exact h.left_body hkeeps hx

/-- **Every step** keeps what the tasks have left. -/
theorem Layout.Switching.step {op : SwitchOp} (h : L.Switching s)
    (hstep : SwitchStep L fresh s op s') : L.Switching s' := by
  cases hstep with
  | runs hplace hothers =>
    exact ⟨h.task, hplace, h.current, fun t x hx => (h.left t x hx).congr (hothers t x hx)⟩
  | @switches σ next x c hkeeps hplace hesp hebp hds hselected =>
    obtain ⟨hsavedEsp, hsavedEbp⟩ := h.saved_esp σ fresh
    rw [hsavedEsp] at hesp
    rw [hsavedEbp] at hebp
    have hleft := fun t x => h.left_called (t := t) (x := x) hkeeps hplace hesp hebp next
    exact ((hleft next x hselected).goOn hplace h.task).switching hleft hselected
  | starts hkeeps hframe hret htask hplace hselected =>
    exact h.started hkeeps hframe hret htask hplace hselected

/-- **Every task goes on where it was**, in every run: when the scheduler selects a task that has
given up the processor, the processor has its registers (`eax` apart, which the block does not
need), its flags, its floating-point state and its stack, and goes on behind its block. Only for a
task in whose place a thread was started, `ebp` is the word that `round_robin` had pushed. -/
theorem resumes_where_left (htask : L.task s₀.current) (hplace : L.OnStack s₀.current s₀.cpu)
    (hnone : ∀ t, s₀.suspended t = none)
    (hrun : Run (SwitchStep L fresh) (fun _ _ => True) s₀ s)
    (hswitch : SwitchStep L fresh s (.switches σ next) s') :
    ∃ x, s.suspend σ none next = some x ∧ s'.current = next ∧
      GoesOn (x.resumed.behind x.site.behindRestore) s'.cpu ∧
      AgreeOn x.cpu.esp (L.high next) x.cpu.mem s'.cpu.mem := by
  have h₀ : L.Switching s₀ := ⟨htask, hplace, hnone _, fun t x hx => by
    rw [hnone] at hx
    cases hx⟩
  have h : L.Switching s := hrun.invariant (fun _ _ _ hI _ hs => hI.step hs) h₀
  cases hswitch with
  | @switches _ _ x c hkeeps hplace' hesp hebp hds hselected =>
    obtain ⟨hsavedEsp, hsavedEbp⟩ := h.saved_esp σ fresh
    rw [hsavedEsp] at hesp
    rw [hsavedEbp] at hebp
    have hleft := h.left_called hkeeps hplace' hesp hebp next hselected
    have hresumed := hleft.resumed (hleft.goOn hplace' h.task)
    generalize goOn x.site next (call taskRestoreContext next σ.behindRestore c) = c' at hresumed ⊢
    exact ⟨x, hselected, rfl, hresumed⟩

end Tasks

/-! ## Two tasks -/

/-- The block of `scheduler_schedule`. -/
def scheduleSite : Site where
  behindSave := 0xC0001000
  behindBody := 0xC0001010
  behindRestore := 0xC0001020
  behindSave_lt := by decide
  behindRestore_lt := by decide
  ne := by decide

theorem pairLayout_task {t : Nat} (h : t = 0x1000 ∨ t = 0x2000) :
    (if t = 0x1000 then 0x10000 else 0x20000) + 0x1000 =
      (if t = 0x1000 then 0x11000 else 0x21000) ∧ t + 148 ≤ 0x10000 := by
  obtain rfl | rfl := h <;> decide

/-- Two tasks, with a stack of a page each. -/
def pairLayout : Layout where
  task t := t = 0x1000 ∨ t = 0x2000
  low t := if t = 0x1000 then 0x10000 else 0x20000
  high t := if t = 0x1000 then 0x11000 else 0x21000
  high_lt t _ := by split <;> decide
  block_le t ht := Nat.le_trans (pairLayout_task ht).2 (by decide)
  stacks_apart t t' ht ht' hne := by
    obtain rfl | rfl := ht <;> obtain rfl | rfl := ht' <;> first | contradiction | decide
  blocks_apart t t' ht ht' hne := by
    obtain rfl | rfl := ht <;> obtain rfl | rfl := ht' <;> first | contradiction | decide
  block_stack t t' ht ht' := by
    obtain rfl | rfl := ht <;> obtain rfl | rfl := ht' <;> decide

/-- The task that runs. -/
def firstCpu : SwitchCpu where
  regs := ⟨1, 2, 3, 4, 0x10900, 6, 7, 0x10⟩
  esp := 0x10800
  mem := fun _ => 0
  eip := 0xC0002000
  eflags := 2
  fpu := fun _ => 9

def freshFpu : FpuState := fun _ => 0

theorem firstCpu_onStack : pairLayout.OnStack 0x1000 firstCpu :=
  ⟨⟨by decide, by decide, by decide, by decide, by decide, by decide, by decide, by decide⟩,
    rfl, by decide, by decide, by decide⟩

/-- It runs alone. -/
def firstMachine : TaskMachine := ⟨firstCpu, 0x1000, fun _ => none⟩

/-- The memory with the frame of `round_robin` in it, which has pushed `esi` first. -/
def startMemory : Memory :=
  ((firstMachine.saved scheduleSite freshFpu).mem.write32 (0x10800 - 12) 6).write32
    (0x10800 - 8) 0xC0001010

/-- The thread that it starts. -/
def secondCpu : SwitchCpu where
  regs := ⟨0, 0, 0, 0, 0x20F00, 0, 0, 0x10⟩
  esp := 0x20E00
  mem := startMemory
  eip := 0xC0003000
  eflags := 0x202
  fpu := fun _ => 5

theorem secondCpu_onStack : pairLayout.OnStack 0x2000 secondCpu :=
  ⟨⟨by decide, by decide, by decide, by decide, by decide, by decide, by decide, by decide⟩,
    rfl, by decide, by decide, by decide⟩

def secondMachine : TaskMachine :=
  ⟨secondCpu, 0x2000, firstMachine.suspend scheduleSite (some 6)⟩

theorem firstMachine_starts : SwitchStep pairLayout freshFpu firstMachine
    (.starts scheduleSite 0x2000) secondMachine := by
  have hwrite : ∀ (m : Memory) (v : Nat) {lo hi a : Nat}, hi ≤ a ∨ a + 4 ≤ lo →
      a + 4 ≤ 0x100000000 → hi ≤ 0x100000000 → AgreeOn lo hi m (m.write32 a v) :=
    fun m v {lo hi a} hout ha hhi =>
      (agreeOff_write32 m v (Nat.le_refl a) (Nat.le_refl _) ha).agreeOn hhi hout
  refine .starts ⟨?_, ?_, fun t x hx => ?_⟩ ?_ ?_ (Or.inr rfl) secondCpu_onStack ?_
  · exact (hwrite _ _ (by decide) (by decide) (by decide)).trans
      (hwrite _ _ (by decide) (by decide) (by decide))
  · exact (hwrite _ _ (by decide) (by decide) (by decide)).trans
      (hwrite _ _ (by decide) (by decide) (by decide))
  · cases hx
  · show startMemory.read32 (0x10800 - 12) = 6
    unfold startMemory
    rw [read32_write32_of_apart _ _ (by decide) (by decide) (by decide),
      read32_write32_self _ (by decide)]
  · show startMemory.read32 (0x10800 - 8) = 0xC0001010
    unfold startMemory
    rw [read32_write32_self _ (by decide)]
  · show firstMachine.suspend scheduleSite (some 6) 0x2000 = none
    rw [TaskMachine.suspend, Function.update_of_ne (by decide)]
    rfl

theorem firstMachine_switching : pairLayout.Switching firstMachine :=
  ⟨Or.inl rfl, firstCpu_onStack, rfl, fun _ _ hx => by cases hx⟩

/-- A task starts a thread, which gives up the processor again: the task goes on, with a wrong
`ebp`. -/
theorem resumes_where_left_pair : ∃ s', SwitchStep pairLayout freshFpu secondMachine
    (.switches scheduleSite 0x1000) s' ∧ s'.current = 0x1000 ∧
    GoesOn ((Suspended.mk scheduleSite firstCpu (some 6)).resumed.behind 0xC0001020) s'.cpu := by
  have hswitching := firstMachine_switching.step firstMachine_starts
  have hkept : ∀ {lo hi : Nat} (m : Memory), AgreeOn lo hi m m := fun m => AgreeOn.refl _ _ m
  have hself : firstMachine.suspend scheduleSite (some 6) firstMachine.current =
      some ⟨scheduleSite, firstCpu, some 6⟩ := Function.update_self ..
  have hfirst : secondMachine.suspend scheduleSite none 0x1000 =
      some ⟨scheduleSite, firstCpu, some 6⟩ := by
    have hne : 0x1000 ≠ secondMachine.current := by decide
    rw [TaskMachine.suspend, Function.update_of_ne hne]
    exact hself
  obtain ⟨s', hswitch⟩ : ∃ s', SwitchStep pairLayout freshFpu secondMachine
      (.switches scheduleSite 0x1000) s' :=
    ⟨_, .switches ⟨hkept _, hkept _, fun _ _ _ => ⟨hkept _, hkept _⟩⟩
      (hswitching.onStack_saved scheduleSite freshFpu) rfl rfl rfl hfirst⟩
  obtain ⟨x, hx, hcurrent, hgoesOn, -⟩ := resumes_where_left (Or.inl rfl) firstCpu_onStack
    (fun _ => rfl) (Run.single trivial firstMachine_starts) hswitch
  rw [hfirst] at hx
  obtain rfl := Option.some.inj hx
  exact ⟨s', hswitch, hcurrent, hgoesOn⟩

end Xylophone
