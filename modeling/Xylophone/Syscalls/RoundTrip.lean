import Xylophone.Descriptors.TaskStateSegment
import Xylophone.Interrupts.Delivery

/-!
# A system call, from `int` to `iret`

`_syscall` puts the number and three arguments in registers. The processor, the stub, `ir_handler`
and `_handle_syscalls_interrupt` bring them to the function that is registered for the number, and
its result back to `eax`.

* `int80_eq` — the call that is made, and what the program goes on with
-/

namespace Xylophone

open Infra Memory

/-! ## The source -/

/-- The registers of `_syscall` in front of `int $0x80`. -/
def syscallInput (c : TrapCpu) (i arg1 arg2 arg3 : Nat) : TrapCpu :=
  { c with regs := { c.regs with eax := i, ebx := arg1, ecx := arg2, edx := arg3 } }

/-- Where things are in memory, and the addresses behind the calls on the way. -/
structure SyscallPlaces where
  idt : Nat
  tss : Nat
  table : Nat
  ret₁ : Nat
  ret₂ : Nat
  ret₃ : Nat
  ret₁_lt : ret₁ < 0x100000000
  ret₂_lt : ret₂ < 0x100000000

/-- `int $0x80`, up to the next instruction of the program. -/
def int80 (p : SyscallPlaces) (code : HandlerCode) (c : TrapCpu) :
    Option (TrapCpu × List SyscallCall) :=
  (c.softwareInterrupt p.idt p.tss 128).map fun c₁ =>
    let c₁ := c₁.ir 128
    let handled := handleSyscallsInterrupt code p.table p.ret₃ (c₁.irHandler p.ret₁ p.ret₂)
    ({ c₁ with mem := handled.1 }.irReturn, handled.2)

/-- `_syscall` -/
def syscall (p : SyscallPlaces) (code : HandlerCode) (c : TrapCpu) (i arg1 arg2 arg3 : Nat) :
    Option (TrapCpu × List SyscallCall) := int80 p code (syscallInput c i arg1 arg2 arg3)

/-! ## The way to the handler -/

/-- The kernel is ready for the system calls of a program: the tables are initialised, the program
may use the gate, and there is room on the stack, outside the table. -/
structure SyscallReady (p : SyscallPlaces) (ir : Nat → Nat) (m₀ : Memory)
    (entries : List SyscallEntry) (c : TrapCpu) : Prop where
  words : c.Words
  gates : GatesInstalled c.mem p.idt ir
  initialised : ∀ n < syscallsMaxCount,
    c.mem.read32 (p.table + 4 * n) = (syscallsInit m₀ p.table entries).read32 (p.table + 4 * n)
  fits : p.table + 4 * syscallsMaxCount ≤ 0x100000000
  top : c.trapTop p.tss < 0x100000000
  room : c.trapSize + 36 ≤ c.trapTop p.tss
  apart : p.table + 4 * syscallsMaxCount ≤ c.trapTop p.tss - c.trapSize - 36 ∨
    c.trapTop p.tss ≤ p.table

/-- Where `registers_t` is. -/
def callFrame (p : SyscallPlaces) (c : TrapCpu) : Nat := c.trapTop p.tss - c.trapSize

variable {p : SyscallPlaces} {ir : Nat → Nat} {m₀ : Memory} {entries : List SyscallEntry}
  {code : HandlerCode} {c c₁ : TrapCpu}

theorem pushAll_esp {c : IntCpu} {vs : List Nat} (hesp : c.esp < 0x100000000)
    (hroom : 4 * vs.length ≤ c.esp) : (c.pushAll vs).esp = c.esp - 4 * vs.length := by
  induction vs generalizing c with
  | nil => rfl
  | cons v vs ih =>
    rw [List.length_cons] at hroom ⊢
    have hnext := push_esp hesp (by omega) v
    rw [pushAll_cons, ih (by omega) (by omega), hnext]
    omega

namespace SyscallReady

variable (h : SyscallReady p ir m₀ entries c)
include h

/-- The processor takes every program to the stub. -/
theorem softwareInterrupt_eq_some : ∃ c₁, c.softwareInterrupt p.idt p.tss 128 = some c₁ ∧
    c.deliver p.idt p.tss 128 none = some c₁ := by
  obtain ⟨c₁, hdeliver, -⟩ := h.gates.deliver_eq_some (Or.inr rfl) p.tss none
  have hprivilege := (h.gates.kernelGate (Or.inr rfl)).privilege
  rw [if_pos rfl] at hprivilege
  refine ⟨c₁, ?_, hdeliver⟩
  rw [TrapCpu.softwareInterrupt, hprivilege, if_pos (by omega), hdeliver]

theorem trapped (hdeliver : c.deliver p.idt p.tss 128 none = some c₁) :
    Trapped c p.tss 128 none (c₁.ir 128) := by
  have hroom := h.room
  exact trapped_ir h.words (by decide) (fun _ he => by cases he) (by decide) h.top (by omega)
    (h.gates.kernelGate (Or.inr rfl)).selector hdeliver

/-- The processor in front of the stub: what is pushed later is 44 bytes. -/
theorem entered (hdeliver : c.deliver p.idt p.tss 128 none = some c₁) :
    c₁.regs = c.regs ∧ c₁.esp = callFrame p c + 44 := by
  obtain ⟨hcpu, -, -⟩ := TrapCpu.deliver_eq hdeliver
  have htop := h.top
  have hroom := h.room
  have hregs := congrArg IntCpu.regs hcpu
  have hesp := congrArg IntCpu.esp hcpu
  have hstart : (c.start p.tss).esp = c.trapTop p.tss := rfl
  have hlen : 4 * ((if c.User then [c.ss, c.esp] else []) ++
      ([c.eflags, c.cs, c.eip] ++ (none : Option Nat).toList)).length + 44 = c.trapSize := by
    unfold TrapCpu.trapSize
    split <;> rfl
  rw [pushAll_regs] at hregs
  rw [pushAll_esp (by omega) (by omega), hstart] at hesp
  refine ⟨hregs, ?_⟩
  unfold callFrame
  omega

/-- **The program reaches the handler** with its registers in the frame. -/
theorem atHandler (hdeliver : c.deliver p.idt p.tss 128 none = some c₁) :
    AtHandler m₀ p.table entries c₁.toIntCpu ((c₁.ir 128).irHandler p.ret₁ p.ret₂) := by
  obtain ⟨hregs, hesp⟩ := h.entered hdeliver
  have htrapped := h.trapped hdeliver
  have htop := h.top
  have hroom := h.room
  have hapart := h.apart
  have hfits := h.fits
  have hcount : syscallsMaxCount = 1024 := rfl
  have hsize : 56 ≤ c.trapSize := by
    unfold TrapCpu.trapSize
    split <;> decide
  obtain ⟨hirEsp, hirMem, -, -⟩ := c₁.ir_eq 128
  have hstub : c₁.toIntCpu.pushAll ((if 128 ∈ TrapCpu.irErr then [] else [0]) ++ [128]) =
      c₁.toIntCpu.ir128 := rfl
  have hframe : savedFrame c₁.toIntCpu = (c₁.ir 128).esp := by
    have htrapEsp := htrapped.esp
    unfold callFrame at hesp
    unfold savedFrame
    omega
  have hcallEsp := htrapped.esp
  obtain ⟨hend, hagree, hargument⟩ := irHandler_spec (c := (c₁.ir 128).toIntCpu) (by omega)
    (by omega) p.ret₁_lt p.ret₂_lt
  have hkeeps := htrapped.keeps
  simp only [hstub] at hirMem
  unfold callFrame at hesp
  constructor
  case words => rw [hregs]; exact h.words.regs
  case esp => omega
  case stubRoom => omega
  case saved =>
    rw [hframe, ← hirMem]
    simp (disch := omega) only [readFrame, hagree.read32]
  case argument =>
    rw [hend, show (c₁.ir 128).esp - 12 + 4 = (c₁.ir 128).esp - 8 by omega, hargument, hframe]
  case below => omega
  case room => omega
  case initialised =>
    intro n hn
    rw [← h.initialised n hn, hagree.read32 (by omega) (by omega),
      hkeeps.read32 (by omega) (by omega)]
  case fits => exact hfits
  case apart => omega

end SyscallReady

/-! ## There and back -/

/-- The program that is gone back to, when a word has been stored as its `eax`. -/
theorem irReturn_store (hwords : c.Words) (htop : c.trapTop p.tss < 0x100000000)
    (h : Trapped c p.tss 128 none c₁) {m : Memory} {result : Nat} (hresult : result < 0x100000000)
    (hkeep : ∀ k, 4 * k < c.trapSize →
      m.read32 (c₁.esp + 4 * k) = c₁.mem.read32 (c₁.esp + 4 * k)) :
    { c₁ with mem := m.write32 (c₁.esp + 32) result }.irReturn = { c with
      regs := { c.regs with eax := result }
      es := c.regs.ds
      fs := c.regs.ds
      gs := c.regs.ds
      mem := m.write32 (c₁.esp + 32) result } := by
  have hesp := h.esp
  have hsize : 56 ≤ c.trapSize ∧ c.trapSize % 4 = 0 := by
    unfold TrapCpu.trapSize
    split <;> decide
  have hwrite := agreeOff_write32 m result (Nat.le_refl (c₁.esp + 32)) (Nat.le_refl _) (by omega)
  refine irReturn_eq hwords htop h ⟨rfl, rfl, fun k hk hk8 => ?_, read32_write32_self m hresult⟩
  rw [← hkeep k hk]
  exact hwrite.read32 (by omega) (by omega)

theorem syscallArgs_congr {c c' : IntCpu} (h : c'.regs = c.regs) :
    syscallArgs c' = syscallArgs c := by
  unfold syscallArgs
  rw [h]

/-- **A system call for which a function is registered**: the function gets the arguments, the program
goes on behind `int` with the result in `eax` and no other register changed, and with what the
function has made of memory. Only its data segments are all the one in `ds`. -/
theorem int80_eq (h : SyscallReady p ir m₀ entries c) {f : Nat}
    (hf : registered entries c.regs.eax = some f)
    (hkeep : ∀ m k, 4 * k < c.trapSize →
      (code f (syscallArgs c.toIntCpu) m).2.read32 (callFrame p c + 4 * k) =
        m.read32 (callFrame p c + 4 * k)) :
    ∃ m₁ m₂ result, AgreeOff (callFrame p c - 36) (c.trapTop p.tss) c.mem m₁ ∧
      code f (syscallArgs c.toIntCpu) m₁ = (result, m₂) ∧
      int80 p code c = some ({ c with
        regs := { c.regs with eax := wrap32 result }
        es := c.regs.ds
        fs := c.regs.ds
        gs := c.regs.ds
        mem := m₂.write32 (callFrame p c + 32) (wrap32 result) },
        [⟨f, syscallArgs c.toIntCpu, wrap32 result⟩]) := by
  obtain ⟨c₁, hint, hdeliver⟩ := h.softwareInterrupt_eq_some
  have htrapped := h.trapped hdeliver
  have hhandler := h.atHandler hdeliver
  obtain ⟨hregs, hesp₁⟩ := h.entered hdeliver
  have htop := h.top
  have hroom := h.room
  have hesp := htrapped.esp
  have hat : (c₁.ir 128).esp = callFrame p c := by
    unfold callFrame
    omega
  have hframe : savedFrame c₁.toIntCpu = callFrame p c := by
    unfold savedFrame
    omega
  have hargs : syscallArgs c₁.toIntCpu = syscallArgs c.toIntCpu := syscallArgs_congr hregs
  have hsize : 56 ≤ c.trapSize ∧ c.trapSize % 4 = 0 := by
    unfold TrapCpu.trapSize
    split <;> decide
  have hlt : c.regs.eax < syscallsMaxCount := by
    obtain ⟨e, -, hnum⟩ := registered_isSome_iff.mp (Option.isSome_of_mem hf)
    exact hnum ▸ e.num_lt
  obtain ⟨hcallEsp, hcallAgree, -⟩ := irHandler_spec (c := (c₁.ir 128).toIntCpu) (by omega)
    (by omega) p.ret₁_lt p.ret₂_lt
  obtain ⟨m₁, target, hstack, htarget, hrun⟩ := hhandler.run_eq code p.ret₃
  rw [hregs] at htarget
  rw [htarget hlt, hf, Option.getD_some, hframe, hargs] at hrun
  rw [hcallEsp] at hstack
  have hagree : AgreeOff (callFrame p c - 36) (callFrame p c) (c₁.ir 128).mem m₁ := by
    rw [hat] at hcallAgree hstack
    exact (hcallAgree.mono (by omega) (Nat.le_refl _)).trans (hstack.mono (by omega) (by omega))
  refine ⟨m₁, _, _, ?_, rfl, ?_⟩
  · have hkeeps := htrapped.keeps
    rw [hat] at hkeeps
    have hbelow : callFrame p c ≤ c.trapTop p.tss := Nat.sub_le _ _
    exact (hkeeps.mono (by omega) (Nat.le_refl _)).trans (hagree.mono (Nat.le_refl _) hbelow)
  · have hback := irReturn_store h.words h.top htrapped
      (wrap32_lt (code f (syscallArgs c.toIntCpu) m₁).1) fun k hk => by
        rw [hat, hkeep m₁ k hk, hagree.read32 (by omega) (by omega)]
    rw [← hat] at hrun ⊢
    simp only [int80, hint, Option.map_some, hrun, hback]

/-- `syscalls_init` writes only the table. -/
theorem syscallsInit_agreeOff (m : Memory) {table : Nat}
    (hfits : table + 4 * syscallsMaxCount ≤ 0x100000000) (entries : List SyscallEntry) :
    AgreeOff table (table + 4 * syscallsMaxCount) m (syscallsInit m table entries) := by
  unfold syscallsInit
  have hclear : AgreeOff table (table + 4 * syscallsMaxCount) m
      (memset m table 0 (4 * syscallsMaxCount)) := fun b hb hout =>
    (memset_setsExactly m table (by decide) (by decide)).2 b fun k hk => by
      rw [wrap32_of_lt (by omega)]
      omega
  generalize memset m table 0 (4 * syscallsMaxCount) = m' at hclear
  induction entries generalizing m' with
  | nil => exact hclear
  | cons e es ih =>
    have hnum := e.num_lt
    exact ih _ (hclear.trans (agreeOff_write32 m' e.func (by omega) (by omega) (by omega)))

theorem GatesInstalled.agreeOff {m m' : Memory} {idt lo hi : Nat} (h : GatesInstalled m idt ir)
    (hagree : AgreeOff lo hi m m') (hfits : idt + 8 * idtEntryCount ≤ 0x100000000)
    (hapart : idt + 8 * idtEntryCount ≤ lo ∨ hi ≤ idt) : GatesInstalled m' idt ir := by
  intro n hn
  rw [← h n hn]
  refine readGate_congr fun k hk => hagree.read8 ?_ ?_
  · unfold idtEntry
    omega
  · unfold idtEntry
    omega

/-- The kernel's tables. -/
def programPlaces : SyscallPlaces where
  idt := 0xC0100000
  tss := 0xC0108000
  table := 0xC0110000
  ret₁ := 0xC0104000
  ret₂ := 0xC0104100
  ret₃ := 0xC0104200
  ret₁_lt := by decide
  ret₂_lt := by decide

/-- The memory of a kernel that knows one system call, and has given the task a stack. -/
def programMemory : Memory :=
  kernelTaskStateSegmentSetStack
    (syscallsInit (kernelInterruptsInitTable (fun _ => 0) 0xC0100000 0xC0109000 fun n => n)
      0xC0110000 [pidEntry]) 0xC0108000 0x10 0xC0300000

/-- A program in user mode. -/
def programCpu : TrapCpu where
  regs := ⟨0, 0, 0, 0, 0, 0x44, 0x55, 0x23⟩
  esp := 0xBFFF0000
  mem := programMemory
  es := 0x23
  fs := 0x23
  gs := 0x23
  cs := 0x1B
  ss := 0x23
  eip := 0x400000
  eflags := 0x202

theorem programMemory_agreeOff : AgreeOff 0xC0108004 0xC010800C
    (syscallsInit (kernelInterruptsInitTable (fun _ => 0) 0xC0100000 0xC0109000 fun n => n)
      0xC0110000 [pidEntry]) programMemory :=
  (agreeOff_write32 _ 0x10 (by decide) (by decide) (by decide)).trans
    (agreeOff_write32 _ 0xC0300000 (by decide) (by decide) (by decide))

theorem programMemory_stack : programMemory.read32 (0xC0108000 + 4) = 0xC0300000 :=
  read32_write32_self _ (by decide)

theorem programCpu_ready : SyscallReady programPlaces (fun n => n)
    (kernelInterruptsInitTable (fun _ => 0) 0xC0100000 0xC0109000 fun n => n) [pidEntry]
    (syscallInput programCpu 3 0x11 0x22 0x33) := by
  have htop : (syscallInput programCpu 3 0x11 0x22 0x33).trapTop programPlaces.tss = 0xC0300000 := by
    rw [TrapCpu.trapTop, if_pos (by decide)]
    exact programMemory_stack
  have hsize : (syscallInput programCpu 3 0x11 0x22 0x33).trapSize = 64 := if_pos (by decide)
  have hgates : GatesInstalled
      (syscallsInit (kernelInterruptsInitTable (fun _ => 0) 0xC0100000 0xC0109000 fun n => n)
        0xC0110000 [pidEntry]) 0xC0100000 (fun n => n) :=
    (gatesInstalled_init _ _ _ _).agreeOff (syscallsInit_agreeOff _ (by decide) _) (by decide)
      (by decide)
  constructor
  case words =>
    exact ⟨⟨by decide, by decide, by decide, by decide, by decide, by decide, by decide,
      by decide⟩, by decide, by decide, by decide, by decide, by decide⟩
  case gates => exact hgates.agreeOff programMemory_agreeOff (by decide) (by decide)
  case initialised =>
    intro n hn
    have hcount : syscallsMaxCount = 1024 := rfl
    have htable : programPlaces.table = 0xC0110000 := rfl
    exact programMemory_agreeOff.read32 (by omega) (by omega)
  case fits => decide
  case top =>
    rw [htop]
    decide
  case room =>
    rw [htop, hsize]
    decide
  case apart =>
    rw [htop, hsize]
    decide

/-- The function behind the number says that this is process 7. -/
def pidCode : HandlerCode := fun _ _ m => (7, m)

end Xylophone
