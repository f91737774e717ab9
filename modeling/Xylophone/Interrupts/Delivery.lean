import Xylophone.Descriptors.InterruptDescriptorTable
import Xylophone.Syscalls.Dispatch

/-!
# Interrupts, from the gate to `iret`

The processor finds the gate of an interrupt, changes to the kernel's stack when it was in user mode,
and pushes what `iret` takes back. The stub of the number adds the rest of `registers_t`.

* `Trapped.trapFrame_eq` — the frame that `ir_handler` gets
* `irReturn_eq` — what `iret` goes back to
* `softwareInterrupt_user_iff` — the numbers that a program may use in an `int` instruction
* `interrupt_frame` — the frame, when the gates are those of the kernel
-/

namespace Xylophone

open Infra Memory

/-! ## The processor -/

/-- The processor with all that an interrupt changes. -/
structure TrapCpu extends IntCpu where
  es : Nat
  fs : Nat
  gs : Nat
  cs : Nat
  ss : Nat
  eip : Nat
  eflags : Nat

/-- The registers have their widths. -/
structure TrapCpu.Words (c : TrapCpu) : Prop where
  regs : c.regs.Words
  esp : c.esp < 0x100000000
  cs : c.cs < 0x10000
  ss : c.ss < 0x10000
  eip : c.eip < 0x100000000
  eflags : c.eflags < 0x100000000

/-- The exceptions for which the processor pushes an error code. -/
def errorCodeExceptions : List Nat := [8, 10, 11, 12, 13, 14, 17, 21]

namespace TrapCpu

/-- The processor is in user mode. -/
def User (c : TrapCpu) : Prop := c.cs % 4 ≠ 0

instance (c : TrapCpu) : Decidable c.User := inferInstanceAs (Decidable (_ ≠ _))

/-- `pushl` -/
def push (c : TrapCpu) (v : Nat) : TrapCpu := { c with toIntCpu := c.toIntCpu.push v }

/-- The stack that the processor goes on with. In user mode it is the one in the task state
segment. -/
def kernelStack (c : TrapCpu) (tss : Nat) : TrapCpu :=
  if c.User then
    ({ c with esp := c.mem.read32 (tss + 4), ss := c.mem.read32 (tss + 8) % 0x10000 }.push
      c.ss).push c.esp
  else c

/-- The processor goes on where a gate leads. It clears the flags of traps, interrupts, nested tasks
and virtual mode. -/
def enterGate (c : TrapCpu) (g : InterruptGate) : TrapCpu :=
  { c with cs := g.selector, eip := g.offset, eflags := c.eflags &&& 0xFFFCBCFF }

/-- The processor enters an interrupt. Without a gate it raises an exception instead. -/
def deliver (c : TrapCpu) (idt tss n : Nat) (error : Option Nat) : Option TrapCpu :=
  let g := c.mem.readGate (idtEntry idt n)
  if g.Present ∧ g.Interrupt32 then
    let c := (((c.kernelStack tss).push c.eflags).push c.cs).push c.eip
    some ((error.elim c c.push).enterGate g)
  else none

/-- `int`: the gate must be for the level of the program. -/
def softwareInterrupt (c : TrapCpu) (idt tss n : Nat) : Option TrapCpu :=
  if c.cs % 4 ≤ (c.mem.readGate (idtEntry idt n)).privilege then c.deliver idt tss n none else none

/-- `popa` -/
def popa (c : TrapCpu) : TrapCpu :=
  let regs : Registers := {
    edi := c.mem.read32 c.esp
    esi := c.mem.read32 (c.esp + 4)
    ebp := c.mem.read32 (c.esp + 8)
    ebx := c.mem.read32 (c.esp + 16)
    edx := c.mem.read32 (c.esp + 20)
    ecx := c.mem.read32 (c.esp + 24)
    eax := c.mem.read32 (c.esp + 28)
    ds := c.regs.ds }
  { c with regs := regs, esp := wrap32 (c.esp + 32) }

/-- `iret`: the stack is restored when the processor goes back to user mode. -/
def iret (c : TrapCpu) : TrapCpu :=
  let c' := { c with
    eip := c.mem.read32 c.esp
    cs := c.mem.read32 (c.esp + 4) % 0x10000
    eflags := c.mem.read32 (c.esp + 8)
    esp := wrap32 (c.esp + 12) }
  if c'.User then
    { c' with esp := c.mem.read32 (c.esp + 12), ss := c.mem.read32 (c.esp + 16) % 0x10000 }
  else c'

/-! ## The stub -/

/-- `movw %ax, …` for the four data segments. -/
def loadSegments (c : TrapCpu) (ax : Nat) : TrapCpu :=
  { c with regs := { c.regs with ds := ax }, es := ax, fs := ax, gs := ax }

/-- `ir_common_stub` up to the call of `ir_handler`. -/
def irCommonStub (c : TrapCpu) : TrapCpu :=
  let c' := { c with toIntCpu := c.toIntCpu.irCommonStub }
  { c' with regs := { c'.regs with eax := c'.regs.eax / 0x10000 * 0x10000 + 0x10 } }.loadSegments
    0x10

/-- `cli` -/
def cli (c : TrapCpu) : TrapCpu := { c with eflags := c.eflags &&& 0xFFFFFDFF }

/-- The numbers whose stub is an `IR_ERR`. -/
def irErr : List Nat := [8, 10, 11, 12, 13, 14, 17, 21]

/-- The stub of a number, up to the call of `ir_handler`. -/
def ir (c : TrapCpu) (n : Nat) : TrapCpu :=
  let c := c.cli
  let c := if n ∈ irErr then c else c.push 0
  (c.push n).irCommonStub

/-- `ir_common_stub` behind the call of `ir_handler`. -/
def irReturn (c : TrapCpu) : TrapCpu :=
  let eax := c.mem.read32 c.esp
  let c := { c with regs := { c.regs with eax := eax }, esp := wrap32 (c.esp + 4) }
  let c := (c.loadSegments (eax % 0x10000)).popa
  { c with esp := wrap32 (c.esp + 8) }.iret

end TrapCpu

/-- `registers_t` -/
structure TrapFrame extends SavedRegisters where
  interrupt : Nat
  error : Nat
  eip : Nat
  cs : Nat
  eflags : Nat

/-- `registers_t` at an address, without the stack of a program in user mode. -/
def readTrapFrame (m : Memory) (frame : Nat) : TrapFrame where
  toSavedRegisters := readFrame m frame
  interrupt := m.read32 (frame + 36)
  error := m.read32 (frame + 40)
  eip := m.read32 (frame + 44)
  cs := m.read32 (frame + 48)
  eflags := m.read32 (frame + 52)

variable {c c₁ c₂ : TrapCpu} {idt tss n : Nat} {error : Option Nat}

/-! ## What is pushed -/

namespace TrapCpu

/-- The top of the stack that an interrupt is handled on. -/
def trapTop (c : TrapCpu) (tss : Nat) : Nat := if c.User then c.mem.read32 (tss + 4) else c.esp

/-- The segment of this stack. -/
def trapSegment (c : TrapCpu) (tss : Nat) : Nat :=
  if c.User then c.mem.read32 (tss + 8) % 0x10000 else c.ss

/-- The size of what is pushed. -/
def trapSize (c : TrapCpu) : Nat := if c.User then 64 else 56

/-- The words that the processor and the stub of a number push. -/
def trapWords (c : TrapCpu) (n : Nat) (error : Option Nat) : List Nat :=
  (if c.User then [c.ss, c.esp] else []) ++ [c.eflags, c.cs, c.eip, error.getD 0, n]

/-- The words that all stubs push, from the stack pointer `esp`. -/
def commonWords (c : TrapCpu) (esp : Nat) : List Nat :=
  [c.regs.eax, c.regs.ecx, c.regs.edx, c.regs.ebx, esp, c.regs.ebp, c.regs.esi, c.regs.edi,
    c.regs.eax / 0x10000 * 0x10000 + c.regs.ds]

/-- All words that are pushed, from the first one on. -/
def frameWords (c : TrapCpu) (tss n : Nat) (error : Option Nat) : List Nat :=
  c.trapWords n error ++ c.commonWords (c.trapTop tss - c.trapSize + 36)

end TrapCpu

/-- The processor at the call of `ir_handler`, in an interrupt of `c`. -/
structure Trapped (c : TrapCpu) (tss n : Nat) (error : Option Nat) (c₁ : TrapCpu) : Prop where
  esp : c₁.esp + c.trapSize = c.trapTop tss
  kernel : c₁.cs = 0x08
  ss : c₁.ss = c.trapSegment tss
  keeps : AgreeOff c₁.esp (c.trapTop tss) c.mem c₁.mem
  words : ∀ i (h : i < (c.frameWords tss n error).length),
    c₁.mem.read32 (c.trapTop tss - 4 * (i + 1)) = (c.frameWords tss n error)[i]

theorem pushAll_append (c : IntCpu) (vs ws : List Nat) :
    c.pushAll (vs ++ ws) = (c.pushAll vs).pushAll ws := by
  rw [IntCpu.pushAll, List.foldl_append, IntCpu.pushAll, IntCpu.pushAll]

theorem pushAll_regs (c : IntCpu) (vs : List Nat) : (c.pushAll vs).regs = c.regs := by
  induction vs generalizing c with
  | nil => rfl
  | cons v vs ih => rw [pushAll_cons, ih, push_regs]

namespace TrapCpu

@[simp] theorem push_toIntCpu (c : TrapCpu) (v : Nat) :
    (c.push v).toIntCpu = c.toIntCpu.push v := rfl

@[simp] theorem push_cs (c : TrapCpu) (v : Nat) : (c.push v).cs = c.cs := by rw [push]

@[simp] theorem push_ss (c : TrapCpu) (v : Nat) : (c.push v).ss = c.ss := by rw [push]

@[simp] theorem enterGate_toIntCpu (c : TrapCpu) (g : InterruptGate) :
    (c.enterGate g).toIntCpu = c.toIntCpu := by rw [enterGate]

@[simp] theorem enterGate_cs (c : TrapCpu) (g : InterruptGate) :
    (c.enterGate g).cs = g.selector := by rw [enterGate]

@[simp] theorem enterGate_ss (c : TrapCpu) (g : InterruptGate) :
    (c.enterGate g).ss = c.ss := by rw [enterGate]

@[simp] theorem cli_toIntCpu (c : TrapCpu) : c.cli.toIntCpu = c.toIntCpu := by rw [cli]

@[simp] theorem cli_cs (c : TrapCpu) : c.cli.cs = c.cs := by rw [cli]

@[simp] theorem cli_ss (c : TrapCpu) : c.cli.ss = c.ss := by rw [cli]

/-- The processor's registers with the stack of the interrupt, before anything is pushed. -/
def start (c : TrapCpu) (tss : Nat) : IntCpu := { c.toIntCpu with esp := c.trapTop tss }

theorem kernelStack_eq (c : TrapCpu) (tss : Nat) :
    (c.kernelStack tss).toIntCpu = (c.start tss).pushAll (if c.User then [c.ss, c.esp] else []) ∧
      (c.kernelStack tss).ss = c.trapSegment tss := by
  unfold kernelStack start trapTop trapSegment
  by_cases huser : c.User
  · simp only [if_pos huser, push_toIntCpu, push_ss, IntCpu.pushAll, List.foldl_cons,
      List.foldl_nil, and_self]
  · simp only [if_neg huser, IntCpu.pushAll, List.foldl_nil, and_self]

/-- What the processor has done when the stub begins. -/
theorem deliver_eq (h : c.deliver idt tss n error = some c₁) :
    c₁.toIntCpu = (c.start tss).pushAll ((if c.User then [c.ss, c.esp] else []) ++
        ([c.eflags, c.cs, c.eip] ++ error.toList)) ∧
      c₁.cs = (c.mem.readGate (idtEntry idt n)).selector ∧ c₁.ss = c.trapSegment tss := by
  obtain ⟨hstack, hss⟩ := c.kernelStack_eq tss
  simp only [deliver] at h
  split at h
  · rw [pushAll_append, ← hstack, ← hss, ← Option.some.inj h, enterGate_toIntCpu, enterGate_cs,
      enterGate_ss]
    cases error <;>
      simp only [Option.elim, Option.toList, push_toIntCpu, push_ss, IntCpu.pushAll,
        List.cons_append, List.nil_append, List.foldl_cons, List.foldl_nil, and_self]
  · cases h

/-- What the stub does up to the call. -/
theorem ir_eq (c : TrapCpu) (n : Nat) :
    let pre := c.toIntCpu.pushAll ((if n ∈ irErr then [] else [0]) ++ [n])
    (c.ir n).esp = pre.irCommonStub.esp ∧ (c.ir n).mem = pre.irCommonStub.mem ∧
      (c.ir n).cs = c.cs ∧ (c.ir n).ss = c.ss := by
  intro pre
  by_cases hmem : n ∈ irErr
  · simp only [ir, if_pos hmem, pre, irCommonStub, loadSegments, push_toIntCpu, push_cs, push_ss,
      cli_toIntCpu, cli_cs, cli_ss, IntCpu.pushAll, List.nil_append, List.foldl_cons,
      List.foldl_nil, and_self]
  · simp only [ir, if_neg hmem, pre, irCommonStub, loadSegments, push_toIntCpu, push_cs, push_ss,
      cli_toIntCpu, cli_cs, cli_ss, IntCpu.pushAll, List.cons_append, List.nil_append,
      List.foldl_cons, List.foldl_nil, and_self]

/-- The common part of the stubs pushes its words. -/
theorem irCommonStub_pushAll (c : IntCpu) : c.irCommonStub = c.pushAll
    [c.regs.eax, c.regs.ecx, c.regs.edx, c.regs.ebx, c.esp, c.regs.ebp, c.regs.esi, c.regs.edi,
      c.regs.eax / 0x10000 * 0x10000 + c.regs.ds] := rfl

/-- The processor pushes an error code for exactly the numbers whose stub pushes none. -/
theorem trapWords_eq (c : TrapCpu) (herror : error.isSome ↔ n ∈ errorCodeExceptions) :
    (if c.User then [c.ss, c.esp] else []) ++ ([c.eflags, c.cs, c.eip] ++ error.toList) ++
      ((if n ∈ irErr then [] else [0]) ++ [n]) = c.trapWords n error := by
  have hmem : n ∈ irErr ↔ error.isSome := herror.symm
  unfold trapWords
  cases error with
  | none =>
    rw [if_neg (fun h => Bool.false_ne_true (hmem.mp h)), List.append_assoc]
    rfl
  | some e =>
    rw [if_pos (hmem.mpr rfl), List.append_assoc]
    rfl

theorem length_trapWords (c : TrapCpu) (n : Nat) (error : Option Nat) :
    4 * (c.trapWords n error).length + 36 = c.trapSize := by
  unfold trapWords trapSize
  split <;> rfl

theorem length_frameWords (c : TrapCpu) (tss n : Nat) (error : Option Nat) :
    4 * (c.frameWords tss n error).length = c.trapSize := by
  have hcommon : (c.commonWords (c.trapTop tss - c.trapSize + 36)).length = 9 := rfl
  rw [frameWords, List.length_append, hcommon, ← c.length_trapWords n error]
  omega

theorem trapWords_lt (hwords : c.Words) (hn : n < idtEntryCount)
    (herror : ∀ e ∈ error, e < 0x100000000) : ∀ v ∈ c.trapWords n error, v < 0x100000000 := by
  have hcs := hwords.cs
  have hss := hwords.ss
  have hcode : error.getD 0 < 0x100000000 := by
    cases error with
    | none => exact Nat.zero_lt_succ _
    | some e => exact herror e rfl
  unfold idtEntryCount at hn
  intro v hv
  rw [trapWords, List.mem_append] at hv
  rcases hv with hv | hv
  · split at hv
    · simp only [List.mem_cons, List.not_mem_nil, or_false] at hv
      rcases hv with rfl | rfl
      · omega
      · exact hwords.esp
    · cases hv
  · simp only [List.mem_cons, List.not_mem_nil, or_false] at hv
    rcases hv with rfl | rfl | rfl | rfl | rfl
    · exact hwords.eflags
    · omega
    · exact hwords.eip
    · exact hcode
    · omega

theorem commonWords_lt (hwords : c.Words) {esp : Nat} (hesp : esp < 0x100000000) :
    ∀ v ∈ c.commonWords esp, v < 0x100000000 := by
  have hds := hwords.regs.ds
  have heax := hwords.regs.eax
  simp only [commonWords, List.forall_mem_cons, List.not_mem_nil, false_imp_iff, implies_true,
    and_true]
  exact ⟨heax, hwords.regs.ecx, hwords.regs.edx, hwords.regs.ebx, hesp, hwords.regs.ebp,
    hwords.regs.esi, hwords.regs.edi, by omega⟩

end TrapCpu

/-- **The call of `ir_handler`** in an interrupt. -/
theorem trapped_ir (hwords : c.Words) (hn : n < idtEntryCount)
    (hcode : ∀ e ∈ error, e < 0x100000000) (herror : error.isSome ↔ n ∈ errorCodeExceptions)
    (htop : c.trapTop tss < 0x100000000) (hroom : c.trapSize ≤ c.trapTop tss)
    (hkernel : (c.mem.readGate (idtEntry idt n)).selector = 0x08)
    (h : c.deliver idt tss n error = some c₁) : Trapped c tss n error (c₁.ir n) := by
  obtain ⟨hcpu, hcs, hss⟩ := TrapCpu.deliver_eq h
  obtain ⟨hesp', hmem', hcs', hss'⟩ := c₁.ir_eq n
  have hlen := c.length_trapWords n error
  have hstart : (c.start tss).esp = c.trapTop tss := rfl
  obtain ⟨hpreEsp, -, -⟩ := pushAll_spec (c := c.start tss) (by omega) (by omega)
    (TrapCpu.trapWords_lt hwords hn hcode)
  have hpre : c₁.toIntCpu.pushAll ((if n ∈ TrapCpu.irErr then [] else [0]) ++ [n]) =
      (c.start tss).pushAll (c.trapWords n error) := by
    rw [hcpu, ← pushAll_append, c.trapWords_eq herror]
  have hall : ((c.start tss).pushAll (c.trapWords n error)).irCommonStub =
      (c.start tss).pushAll (c.frameWords tss n error) := by
    rw [TrapCpu.irCommonStub_pushAll, pushAll_regs, TrapCpu.frameWords, pushAll_append]
    rw [hpreEsp, hstart, show c.trapTop tss - 4 * (c.trapWords n error).length =
      c.trapTop tss - c.trapSize + 36 by omega]
    rfl
  have hlenAll := c.length_frameWords tss n error
  have hframe : ∀ v ∈ c.frameWords tss n error, v < 0x100000000 := by
    intro v hv
    rcases List.mem_append.mp hv with hv | hv
    · exact TrapCpu.trapWords_lt hwords hn hcode v hv
    · exact TrapCpu.commonWords_lt hwords (by omega) v hv
  obtain ⟨hend, hagree, hread⟩ := pushAll_spec (c := c.start tss) (by omega) (by omega) hframe
  rw [hlenAll, hstart] at hend hagree
  simp only [hpre, hall] at hesp' hmem'
  refine ⟨by omega, ?_, ?_, ?_, ?_⟩
  · rw [hcs', hcs, hkernel]
  · rw [hss', hss]
  · rw [hesp', hmem', hend]
    exact hagree
  · intro i hi
    rw [hmem']
    exact hread i hi

/-! ## The frame -/

namespace TrapCpu

/-- `registers_t` in an interrupt, and behind it the stack of a program in user mode. -/
theorem reverse_frameWords (c : TrapCpu) (tss n : Nat) (error : Option Nat) :
    (c.frameWords tss n error).reverse =
      [c.regs.eax / 0x10000 * 0x10000 + c.regs.ds, c.regs.edi, c.regs.esi, c.regs.ebp,
        c.trapTop tss - c.trapSize + 36, c.regs.ebx, c.regs.edx, c.regs.ecx, c.regs.eax, n,
        error.getD 0, c.eip, c.cs, c.eflags] ++ if c.User then [c.esp, c.ss] else [] := by
  unfold frameWords trapWords commonWords
  split <;> rfl

end TrapCpu

namespace Trapped

variable (h : Trapped c tss n error c₁)
include h

/-- The words from the frame on. -/
theorem read_word {k : Nat} (hk : 4 * k < c.trapSize) :
    c₁.mem.read32 (c₁.esp + 4 * k) = (c.frameWords tss n error).reverse.getD k 0 := by
  have hesp := h.esp
  have hlen := c.length_frameWords tss n error
  have hi : (c.frameWords tss n error).length - 1 - k < (c.frameWords tss n error).length := by
    omega
  have hplace : c.trapTop tss - 4 * ((c.frameWords tss n error).length - 1 - k + 1) =
      c₁.esp + 4 * k := by omega
  have hword := h.words _ hi
  rw [hplace] at hword
  rw [hword, List.getD_eq_getElem _ _ (by rw [List.length_reverse]; omega), List.getElem_reverse]

/-- **The frame of an interrupt**, as `ir_handler` gets it. -/
theorem trapFrame_eq : readTrapFrame c₁.mem c₁.esp =
    { ds := c.regs.eax / 0x10000 * 0x10000 + c.regs.ds, edi := c.regs.edi, esi := c.regs.esi,
      ebp := c.regs.ebp, esp := c₁.esp + 36, ebx := c.regs.ebx, edx := c.regs.edx,
      ecx := c.regs.ecx, eax := c.regs.eax, interrupt := n, error := error.getD 0, eip := c.eip,
      cs := c.cs, eflags := c.eflags } := by
  have hesp := h.esp
  have hsize : 56 ≤ c.trapSize := by
    unfold TrapCpu.trapSize
    split <;> decide
  have hword : ∀ k < 14, c₁.mem.read32 (c₁.esp + 4 * k) =
      (c.frameWords tss n error).reverse.getD k 0 := fun k hk => h.read_word (by omega)
  rw [c.reverse_frameWords, show c.trapTop tss - c.trapSize = c₁.esp by omega] at hword
  simp only [readTrapFrame, readFrame, TrapFrame.mk.injEq, SavedRegisters.mk.injEq]
  exact ⟨⟨hword 0 (by decide), hword 1 (by decide), hword 2 (by decide), hword 3 (by decide),
    hword 4 (by decide), hword 5 (by decide), hword 6 (by decide), hword 7 (by decide),
    hword 8 (by decide)⟩, hword 9 (by decide), hword 10 (by decide), hword 11 (by decide),
    hword 12 (by decide), hword 13 (by decide)⟩

/-- The stack of a program in user mode stands behind the frame. -/
theorem userStack_eq (huser : c.User) :
    c₁.mem.read32 (c₁.esp + 56) = c.esp ∧ c₁.mem.read32 (c₁.esp + 60) = c.ss := by
  have hsize : c.trapSize = 64 := if_pos huser
  have hesp := h.read_word (k := 14) (by omega)
  have hss := h.read_word (k := 15) (by omega)
  rw [c.reverse_frameWords, if_pos huser] at hesp hss
  exact ⟨hesp, hss⟩

end Trapped

/-! ## The way back -/

/-- `ir_handler` has come back: it has left the frame alone, but for the value of `eax` in it. -/
structure Handled (c c₁ : TrapCpu) (result : Nat) (c₂ : TrapCpu) : Prop where
  esp : c₂.esp = c₁.esp
  ss : c₂.ss = c₁.ss
  frame : ∀ k, 4 * k < c.trapSize → k ≠ 8 →
    c₂.mem.read32 (c₁.esp + 4 * k) = c₁.mem.read32 (c₁.esp + 4 * k)
  result : c₂.mem.read32 (c₁.esp + 32) = result

/-- What the end of the stub takes from the stack. -/
theorem irReturn_reads (hroom : c₂.esp + 56 < 0x100000000) :
    c₂.irReturn =
      let word := fun k => c₂.mem.read32 (c₂.esp + k)
      let ds := word 0 % 0x10000
      let user := word 48 % 0x10000 % 4 ≠ 0
      { regs := {
          eax := word 32, ecx := word 28, edx := word 24, ebx := word 20, ebp := word 12,
          esi := word 8, edi := word 4, ds := ds }
        esp := if user then word 56 else c₂.esp + 56
        mem := c₂.mem, es := ds, fs := ds, gs := ds
        cs := word 48 % 0x10000
        ss := if user then word 60 % 0x10000 else c₂.ss
        eip := word 44
        eflags := word 52 } := by
  have hwrap4 : wrap32 (c₂.esp + 4) = c₂.esp + 4 := wrap32_of_lt (by omega)
  have hwrap36 : wrap32 (c₂.esp + 4 + 32) = c₂.esp + 36 := wrap32_of_lt (by omega)
  have hwrap44 : wrap32 (c₂.esp + 36 + 8) = c₂.esp + 44 := wrap32_of_lt (by omega)
  have hwrap56 : wrap32 (c₂.esp + 44 + 12) = c₂.esp + 56 := wrap32_of_lt (by omega)
  simp only [TrapCpu.irReturn, TrapCpu.loadSegments, TrapCpu.popa, hwrap4, hwrap36, hwrap44,
    TrapCpu.iret, hwrap56, TrapCpu.User, Nat.add_assoc, Nat.reduceAdd, Nat.add_zero]
  split <;> rfl

/-- **What `iret` goes back to**: the interrupted program, with the result in `eax`, and with its data
segment in all segment registers for data. -/
theorem irReturn_eq (hwords : c.Words) (htop : c.trapTop tss < 0x100000000) {result : Nat}
    (h : Trapped c tss n error c₁) (hhandled : Handled c c₁ result c₂) :
    c₂.irReturn = { c with
      regs := { c.regs with eax := result }
      es := c.regs.ds
      fs := c.regs.ds
      gs := c.regs.ds
      mem := c₂.mem } := by
  have hesp := h.esp
  have hsize : 56 ≤ c.trapSize := by
    unfold TrapCpu.trapSize
    split <;> decide
  have hframe := h.trapFrame_eq
  simp only [readTrapFrame, readFrame, TrapFrame.mk.injEq, SavedRegisters.mk.injEq] at hframe
  obtain ⟨⟨hds, hedi, hesi, hebp, -, hebx, hedx, hecx, -⟩, -, -, heip, hcs, heflags⟩ := hframe
  have hkeep := hhandled.frame
  have hdsWord : c₂.mem.read32 c₁.esp = _ := (hkeep 0 (by omega) (by decide)).trans hds
  have hediWord : c₂.mem.read32 (c₁.esp + 4) = _ := (hkeep 1 (by omega) (by decide)).trans hedi
  have hesiWord : c₂.mem.read32 (c₁.esp + 8) = _ := (hkeep 2 (by omega) (by decide)).trans hesi
  have hebpWord : c₂.mem.read32 (c₁.esp + 12) = _ := (hkeep 3 (by omega) (by decide)).trans hebp
  have hebxWord : c₂.mem.read32 (c₁.esp + 20) = _ := (hkeep 5 (by omega) (by decide)).trans hebx
  have hedxWord : c₂.mem.read32 (c₁.esp + 24) = _ := (hkeep 6 (by omega) (by decide)).trans hedx
  have hecxWord : c₂.mem.read32 (c₁.esp + 28) = _ := (hkeep 7 (by omega) (by decide)).trans hecx
  have heipWord : c₂.mem.read32 (c₁.esp + 44) = _ := (hkeep 11 (by omega) (by decide)).trans heip
  have hcsWord : c₂.mem.read32 (c₁.esp + 48) = _ := (hkeep 12 (by omega) (by decide)).trans hcs
  have heflagsWord : c₂.mem.read32 (c₁.esp + 52) = _ :=
    (hkeep 13 (by omega) (by decide)).trans heflags
  have hdsLow : (c.regs.eax / 0x10000 * 0x10000 + c.regs.ds) % 0x10000 = c.regs.ds := by
    have hlt := hwords.regs.ds
    omega
  have hcsLow : c.cs % 0x10000 = c.cs := Nat.mod_eq_of_lt hwords.cs
  have hssLow : c.ss % 0x10000 = c.ss := Nat.mod_eq_of_lt hwords.ss
  have hstack : (if c.cs % 4 ≠ 0 then c₂.mem.read32 (c₁.esp + 56) else c₁.esp + 56) = c.esp ∧
      (if c.cs % 4 ≠ 0 then c₂.mem.read32 (c₁.esp + 60) % 0x10000 else c₂.ss) = c.ss := by
    by_cases huser : c.cs % 4 ≠ 0
    · have huserSize : c.trapSize = 64 := if_pos huser
      obtain ⟨hespWord, hssWord⟩ := h.userStack_eq huser
      rw [if_pos huser, if_pos huser]
      refine ⟨(hkeep 14 (by omega) (by decide)).trans hespWord, ?_⟩
      rw [show c₁.esp + 60 = c₁.esp + 4 * 15 from rfl, hkeep 15 (by omega) (by decide), hssWord,
        hssLow]
    · have hkernelSize : c.trapSize = 56 := if_neg huser
      have hkernelTop : c.trapTop tss = c.esp := if_neg huser
      have hkernelSegment : c.trapSegment tss = c.ss := if_neg huser
      rw [if_neg huser, if_neg huser, hhandled.ss, h.ss, hkernelSegment]
      exact ⟨by omega, rfl⟩
  rw [irReturn_reads (by rw [hhandled.esp]; omega)]
  simp only [hhandled.esp, Nat.add_zero, hdsWord, hediWord, hesiWord, hebpWord, hebxWord, hedxWord,
    hecxWord, heipWord, hcsWord, heflagsWord, hhandled.result, hdsLow, hcsLow, hstack.1, hstack.2]

/-! ## The gates of the kernel -/

/-- The interrupt descriptor table is the one that `kernel_interrupts_init` has made. -/
def GatesInstalled (m : Memory) (idt : Nat) (ir : Nat → Nat) : Prop :=
  ∀ n < idtEntryCount, m.readGate (idtEntry idt n) =
    if InterruptNumber n then (installedGate ir n).gate else .ofWords 0 0

theorem gatesInstalled_init (m : Memory) (idt ptr : Nat) (ir : Nat → Nat) :
    GatesInstalled (kernelInterruptsInitTable m idt ptr ir) idt ir :=
  fun _ hn => interruptsInit_gates m idt ptr ir hn

/-- The gates lead to the stubs in the code segment of the kernel, and that of system calls is the
only one for user mode. -/
structure KernelGate (ir : Nat → Nat) (n : Nat) (g : InterruptGate) : Prop where
  present : g.Present ∧ g.Interrupt32
  offset : g.offset = wrap32 (ir n)
  selector : g.selector = 0x08
  privilege : g.privilege = if n = 128 then 3 else 0

theorem installedGate_kernelGate (ir : Nat → Nat) (n : Nat) :
    KernelGate ir n (installedGate ir n).gate := by
  unfold installedGate
  by_cases h : n = 128
  · rw [if_pos h]
    subst h
    exact ⟨⟨show 0x80 ≤ 0xEE % 0x100 by decide, show 0xEE % 0x100 % 0x20 = 0x0E by decide⟩, rfl, rfl,
      show 0xEE % 0x100 / 0x20 % 4 = 3 by decide⟩
  · rw [if_neg h]
    refine ⟨⟨show 0x80 ≤ 0x8E % 0x100 by decide, show 0x8E % 0x100 % 0x20 = 0x0E by decide⟩, rfl,
      rfl, ?_⟩
    rw [if_neg h]
    exact show 0x8E % 0x100 / 0x20 % 4 = 0 by decide

theorem GatesInstalled.kernelGate {m : Memory} {ir : Nat → Nat} (h : GatesInstalled m idt ir)
    (hn : InterruptNumber n) : KernelGate ir n (m.readGate (idtEntry idt n)) := by
  have hlt : n < idtEntryCount := by
    unfold InterruptNumber at hn
    unfold idtEntryCount
    omega
  rw [h n hlt, if_pos hn]
  exact installedGate_kernelGate ir n

/-- The processor enters every interrupt that has a gate, at the stub of its number. -/
theorem GatesInstalled.deliver_eq_some {ir : Nat → Nat} (h : GatesInstalled c.mem idt ir)
    (hn : InterruptNumber n) (tss : Nat) (error : Option Nat) :
    ∃ c₁, c.deliver idt tss n error = some c₁ ∧ c₁.eip = wrap32 (ir n) := by
  have hgate := h.kernelGate hn
  refine ⟨_, if_pos hgate.present, ?_⟩
  rw [TrapCpu.enterGate, hgate.offset]

/-- In user mode the processor does not let a program through any other gate than that of system
calls. -/
theorem GatesInstalled.softwareInterrupt_eq_none {ir : Nat → Nat} (h : GatesInstalled c.mem idt ir)
    (hring : c.cs % 4 = 3) (hn : n < idtEntryCount) (hne : n ≠ 128) (tss : Nat) :
    c.softwareInterrupt idt tss n = none := by
  have hprivilege : (c.mem.readGate (idtEntry idt n)).privilege = 0 := by
    by_cases hnumber : InterruptNumber n
    · rw [(h.kernelGate hnumber).privilege, if_neg hne]
    · rw [h n hn, if_neg hnumber]
      rfl
  rw [TrapCpu.softwareInterrupt, hring, hprivilege, if_neg (by decide)]

/-- **The numbers for `int`**: in user mode only that of system calls, which enters its stub in ring
0 and on the stack of the kernel. For all other numbers the processor raises an exception. -/
theorem softwareInterrupt_user_iff {ir : Nat → Nat} (h : GatesInstalled c.mem idt ir)
    (hring : c.cs % 4 = 3) (hn : n < idtEntryCount) :
    ((∃ c₁, c.softwareInterrupt idt tss n = some c₁ ∧ c₁.cs = 0x08 ∧ c₁.eip = wrap32 (ir n) ∧
      c₁.ss = c.mem.read32 (tss + 8) % 0x10000) ↔ n = 128) ∧
    (n ≠ 128 → c.softwareInterrupt idt tss n = none) := by
  have huser : c.User := by
    rw [TrapCpu.User, hring]
    decide
  refine ⟨⟨?_, ?_⟩, fun hne => h.softwareInterrupt_eq_none hring hn hne tss⟩
  · rintro ⟨c₁, hint, -⟩
    by_contra hne
    rw [h.softwareInterrupt_eq_none hring hn hne tss] at hint
    cases hint
  · rintro rfl
    have hgate := h.kernelGate (Or.inr rfl)
    obtain ⟨c₁, hdeliver, heip⟩ := h.deliver_eq_some (Or.inr rfl) tss none
    obtain ⟨-, hcs, hss⟩ := TrapCpu.deliver_eq hdeliver
    refine ⟨c₁, ?_, hcs.trans hgate.selector, heip, hss.trans (if_pos huser)⟩
    rw [TrapCpu.softwareInterrupt, hring, hgate.privilege, if_pos rfl, if_pos (Nat.le_refl 3),
      hdeliver]

/-- **The frame of every interrupt that has a gate**, from both modes and with or without an error
code: `ir_handler` finds in it what the interrupted program had. -/
theorem interrupt_frame {ir : Nat → Nat} (h : GatesInstalled c.mem idt ir) (hn : InterruptNumber n)
    (hwords : c.Words) (hcode : ∀ e ∈ error, e < 0x100000000)
    (herror : error.isSome ↔ n ∈ errorCodeExceptions) (htop : c.trapTop tss < 0x100000000)
    (hroom : c.trapSize ≤ c.trapTop tss) :
    ∃ c₁, c.deliver idt tss n error = some c₁ ∧ c₁.eip = wrap32 (ir n) ∧
      let frame := (c₁.ir n).esp
      let mem := (c₁.ir n).mem
      frame + c.trapSize = c.trapTop tss ∧ AgreeOff frame (c.trapTop tss) c.mem mem ∧
        readTrapFrame mem frame =
          { ds := c.regs.eax / 0x10000 * 0x10000 + c.regs.ds, edi := c.regs.edi,
            esi := c.regs.esi, ebp := c.regs.ebp, esp := frame + 36, ebx := c.regs.ebx,
            edx := c.regs.edx, ecx := c.regs.ecx, eax := c.regs.eax, interrupt := n,
            error := error.getD 0, eip := c.eip, cs := c.cs, eflags := c.eflags } ∧
        (c.User → mem.read32 (frame + 56) = c.esp ∧ mem.read32 (frame + 60) = c.ss) := by
  obtain ⟨c₁, hdeliver, heip⟩ := h.deliver_eq_some hn tss error
  have hlt : n < idtEntryCount := by
    unfold InterruptNumber at hn
    unfold idtEntryCount
    omega
  have htrapped := trapped_ir hwords hlt hcode herror htop hroom (h.kernelGate hn).selector hdeliver
  exact ⟨c₁, hdeliver, heip, htrapped.esp, htrapped.keeps, htrapped.trapFrame_eq,
    htrapped.userStack_eq⟩

/-! ## A thread of the kernel -/

/-- A thread of the kernel with an empty stack. -/
def threadCpu : TrapCpu where
  regs := ⟨1, 0, 0, 0, 0, 0, 0, 0x10⟩
  esp := 0xC0201000
  mem := kernelInterruptsInitTable (fun _ => 0) 0xC0100000 0xC0108000 fun n => 0xC0101000 + 16 * n
  es := 0x10
  fs := 0x10
  gs := 0x10
  cs := 0x08
  ss := 0x10
  eip := 0xC0102000
  eflags := 0x202

theorem threadCpu_words : threadCpu.Words :=
  ⟨⟨by decide, by decide, by decide, by decide, by decide, by decide, by decide, by decide⟩,
    by decide, by decide, by decide, by decide, by decide⟩

theorem threadCpu_trap (tss : Nat) :
    threadCpu.trapTop tss = 0xC0201000 ∧ threadCpu.trapSize = 56 :=
  ⟨if_neg (by decide), if_neg (by decide)⟩

theorem threadCpu_gates : GatesInstalled threadCpu.mem 0xC0100000 fun n => 0xC0101000 + 16 * n :=
  gatesInstalled_init _ _ _ _

/-- A page fault in the thread. -/
theorem interrupt_frame_pageFault : ∃ c₁,
    threadCpu.deliver 0xC0100000 0xC0110000 14 (some 2) = some c₁ ∧ c₁.eip = 0xC01010E0 ∧
      (readTrapFrame (c₁.ir 14).mem (c₁.ir 14).esp).interrupt = 14 ∧
      (readTrapFrame (c₁.ir 14).mem (c₁.ir 14).esp).error = 2 := by
  obtain ⟨htop, hsize⟩ := threadCpu_trap 0xC0110000
  obtain ⟨c₁, hdeliver, heip, -, -, hframe, -⟩ := interrupt_frame threadCpu_gates
    (show InterruptNumber 14 by decide) threadCpu_words (show ∀ e ∈ some 2, e < 0x100000000 by decide)
    (by decide) (by rw [htop]; decide) (by rw [htop, hsize]; decide)
  refine ⟨c₁, hdeliver, ?_, ?_, ?_⟩
  · rw [heip]
    decide
  · rw [hframe]
  · rw [hframe]
    rfl

/-- A program in user mode. -/
def userCpu : TrapCpu := { threadCpu with cs := 0x1B }

theorem userCpu_gates : GatesInstalled userCpu.mem 0xC0100000 fun n => 0xC0101000 + 16 * n :=
  threadCpu_gates

/-- It enters the stub of system calls, and may not call that of the timer. -/
theorem softwareInterrupt_user_timer :
    (∃ c₁, userCpu.softwareInterrupt 0xC0100000 0xC0110000 128 = some c₁ ∧ c₁.cs = 0x08 ∧
      c₁.eip = 0xC0101800 ∧ c₁.ss = userCpu.mem.read32 (0xC0110000 + 8) % 0x10000) ∧
    userCpu.softwareInterrupt 0xC0100000 0xC0110000 32 = none :=
  ⟨(softwareInterrupt_user_iff userCpu_gates rfl (by decide)).1.mpr rfl,
    (softwareInterrupt_user_iff userCpu_gates rfl (by decide)).2 (by decide)⟩

end Xylophone
