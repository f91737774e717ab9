import Mathlib.Data.List.Induction
import Xylophone.Data.FastMemory

/-!
# System calls

`int 0x80` pushes the registers; the stub makes a `registers_t` of them, and the handler pushes five of
them again as arguments of the function in the table. It takes the number from the frame as it is.

The code of the functions is a parameter. A function returns, with its result in `eax`, and keeps the
registers that belong to its caller.

* `pushAll_spec` — the words pushed, and the rest of memory
* `readFrame_stub` — the frame that the stub makes
* `syscallsInit_read` — the table after `syscalls_init`
* `syscall_iff` — the numbers that are handled
* `exists_call_of_null` — a number without a function
-/

namespace Xylophone

open Infra Memory

/-! ## The processor -/

/-- The registers that the stub saves, without the stack pointer. -/
structure Registers where
  eax : Nat
  ecx : Nat
  edx : Nat
  ebx : Nat
  ebp : Nat
  esi : Nat
  edi : Nat
  ds : Nat

/-- The registers are words. -/
structure Registers.Words (r : Registers) : Prop where
  eax : r.eax < 0x100000000
  ecx : r.ecx < 0x100000000
  edx : r.edx < 0x100000000
  ebx : r.ebx < 0x100000000
  ebp : r.ebp < 0x100000000
  esi : r.esi < 0x100000000
  edi : r.edi < 0x100000000
  ds : r.ds < 0x10000

structure IntCpu where
  regs : Registers
  esp : Nat
  mem : Memory

namespace IntCpu

/-- `pushl` -/
def push (c : IntCpu) (v : Nat) : IntCpu :=
  { c with esp := sub32 c.esp 4, mem := c.mem.write32 (sub32 c.esp 4) v }

/-- `pushl` of a word in memory. -/
def pushMem (c : IntCpu) (a : Nat) : IntCpu := c.push (c.mem.read32 a)

/-- `pusha` -/
def pusha (c : IntCpu) : IntCpu :=
  (((((((c.push c.regs.eax).push c.regs.ecx).push c.regs.edx).push c.regs.ebx).push c.esp).push
    c.regs.ebp).push c.regs.esi).push c.regs.edi

/-- `ir128` -/
def ir128 (c : IntCpu) : IntCpu := (c.push 0).push 128

/-- `ir_common_stub` up to its call: `movw %ds, %ax` leaves the upper half of `eax`. -/
def irCommonStub (c : IntCpu) : IntCpu :=
  c.pusha.push (c.regs.eax / 0x10000 * 0x10000 + c.regs.ds)

/-- The calls of `ir_handler` and of the handle, with a pointer to the frame. -/
def irHandler (c : IntCpu) (ret₁ ret₂ : Nat) : IntCpu := ((c.push ret₁).push c.esp).push ret₂

end IntCpu

/-- The saved registers of `registers_t`. -/
structure SavedRegisters where
  ds : Nat
  edi : Nat
  esi : Nat
  ebp : Nat
  esp : Nat
  ebx : Nat
  edx : Nat
  ecx : Nat
  eax : Nat

/-- `registers_t` at an address. -/
def readFrame (m : Memory) (frame : Nat) : SavedRegisters where
  ds := m.read32 frame
  edi := m.read32 (frame + 4)
  esi := m.read32 (frame + 8)
  ebp := m.read32 (frame + 12)
  esp := m.read32 (frame + 16)
  ebx := m.read32 (frame + 20)
  edx := m.read32 (frame + 24)
  ecx := m.read32 (frame + 28)
  eax := m.read32 (frame + 32)

/-! ## The table -/

/-- `SYSCALLS_MAX_COUNT` -/
def syscallsMaxCount : Nat := 1024

/-- `syscall_entry_t`, with a number of the table. -/
structure SyscallEntry where
  num : Nat
  func : Nat
  num_lt : num < syscallsMaxCount
  func_lt : func < 0x100000000

/-- `syscalls_init`: the table at `table`. -/
def syscallsInit (m : Memory) (table : Nat) (entries : List SyscallEntry) : Memory :=
  entries.foldl (fun m e => m.write32 (table + 4 * e.num) e.func)
    (memset m table 0 (4 * syscallsMaxCount))

/-- The function registered for a number. A later entry replaces an earlier one. -/
def registered (entries : List SyscallEntry) (num : Nat) : Option Nat :=
  (entries.reverse.find? fun e => e.num == num).map SyscallEntry.func

/-! ## The handler -/

/-- What a function does with its arguments and memory: the value in `eax`, and memory. -/
abbrev HandlerCode := (target : Nat) → (args : List Nat) → Memory → Nat × Memory

/-- A call that has been made. -/
structure SyscallCall where
  target : Nat
  args : List Nat
  result : Nat

/-- `_handle_syscalls_interrupt`, with `ret` for the address behind its call. -/
def handleSyscallsInterrupt (code : HandlerCode) (table ret : Nat) (c : IntCpu) :
    Memory × List SyscallCall :=
  let edx := c.mem.read32 (c.esp + 4)
  let esi := edx
  let ebx := c.mem.read32 (edx + 32)
  let c := c.pushMem (edx + 4)
  let c := c.pushMem (edx + 8)
  let c := c.pushMem (edx + 24)
  let c := c.pushMem (edx + 28)
  let c := c.pushMem (edx + 20)
  let ecx := c.mem.read32 (table + ebx * 4)
  let c := c.push ret
  let args := (List.range 5).map fun i => c.mem.read32 (c.esp + 4 + 4 * i)
  let (eax, mem) := code ecx args c.mem
  (mem.write32 (esi + 32) (wrap32 eax), [⟨ecx, args, wrap32 eax⟩])

variable {c c₀ : IntCpu} {m m₀ : Memory} {entries : List SyscallEntry} {code : HandlerCode}
  {table ret frame n : Nat} {vs : List Nat}

/-! ## Pushing words -/

/-- The words of the list, one after the other. -/
def IntCpu.pushAll (c : IntCpu) (vs : List Nat) : IntCpu := vs.foldl IntCpu.push c

theorem pushAll_cons (c : IntCpu) (v : Nat) (vs : List Nat) :
    c.pushAll (v :: vs) = (c.push v).pushAll vs := by
  rw [IntCpu.pushAll, List.foldl_cons, IntCpu.pushAll]

theorem push_esp (hesp : c.esp < 0x100000000) (hroom : 4 ≤ c.esp) (v : Nat) :
    (c.push v).esp = c.esp - 4 := by
  simp only [IntCpu.push, sub32_of_le hroom hesp]

theorem push_mem (hesp : c.esp < 0x100000000) (hroom : 4 ≤ c.esp) (v : Nat) :
    (c.push v).mem = c.mem.write32 (c.esp - 4) v := by
  simp only [IntCpu.push, sub32_of_le hroom hesp]

/-- **The words pushed** stand below the old top of the stack, and nothing else has changed. -/
theorem pushAll_spec (hesp : c.esp < 0x100000000) (hroom : 4 * vs.length ≤ c.esp)
    (hvs : ∀ v ∈ vs, v < 0x100000000) :
    (c.pushAll vs).esp = c.esp - 4 * vs.length ∧
      AgreeOff (c.esp - 4 * vs.length) c.esp c.mem (c.pushAll vs).mem ∧
      ∀ i (h : i < vs.length), (c.pushAll vs).mem.read32 (c.esp - 4 * (i + 1)) = vs[i] := by
  induction vs generalizing c with
  | nil => exact ⟨rfl, AgreeOff.refl _ _ _, fun i h => absurd h (Nat.not_lt_zero i)⟩
  | cons v vs ih =>
    rw [List.length_cons] at hroom
    have hnext := push_esp hesp (by omega) v
    have hwrite : AgreeOff (c.esp - 4) c.esp c.mem (c.push v).mem := by
      rw [push_mem hesp (by omega)]
      exact agreeOff_write32 c.mem v (Nat.le_refl _) (by omega) (by omega)
    obtain ⟨hend, hagree, hread⟩ := ih (c := c.push v) (by omega) (by omega)
      fun v hv => hvs v (List.mem_cons_of_mem _ hv)
    rw [hnext] at hend hagree hread
    rw [pushAll_cons]
    simp only [List.length_cons]
    refine ⟨by omega, ?_, fun i hi => ?_⟩
    · exact (hwrite.mono (by omega) (Nat.le_refl _)).trans (hagree.mono (by omega) (by omega))
    · cases i with
      | zero =>
        have hself : (c.push v).mem.read32 (c.esp - 4) = v := by
          rw [push_mem hesp (by omega)]
          exact read32_write32_self c.mem (hvs v List.mem_cons_self)
        rw [hagree.read32 (by omega) (by omega), hself, List.getElem_cons_zero]
      | succ i =>
        have hrest := hread i (by simpa using hi)
        rwa [show c.esp - 4 - 4 * (i + 1) = c.esp - 4 * (i + 1 + 1) by omega] at hrest

/-- Words above the stack that are pushed are not changed by pushing them. -/
theorem foldl_pushMem (hesp : c.esp < 0x100000000) {addrs : List Nat}
    (hroom : 4 * addrs.length ≤ c.esp)
    (haddrs : ∀ a ∈ addrs, c.esp ≤ a ∧ a + 4 ≤ 0x100000000) :
    addrs.foldl IntCpu.pushMem c = c.pushAll (addrs.map c.mem.read32) := by
  induction addrs generalizing c with
  | nil => rfl
  | cons a addrs ih =>
    rw [List.length_cons] at hroom
    have hnext : (c.pushMem a).esp = c.esp - 4 := push_esp hesp (by omega) _
    have hsame : ∀ b ∈ addrs, (c.pushMem a).mem.read32 b = c.mem.read32 b := by
      intro b hb
      have hb' := haddrs b (List.mem_cons_of_mem _ hb)
      rw [IntCpu.pushMem, push_mem hesp (by omega)]
      exact (agreeOff_write32 c.mem _ (Nat.le_refl _) (Nat.le_refl _) (by omega)).read32 hb'.2
        (by omega)
    rw [List.foldl_cons, ih (by omega) (by omega) fun b hb => by
        have hb' := haddrs b (List.mem_cons_of_mem _ hb)
        omega, List.map_congr_left hsame, List.map_cons, pushAll_cons, IntCpu.pushMem]

/-! ## The frame -/

/-- The registers as they are saved. -/
def savedRegisters (c : IntCpu) : SavedRegisters where
  ds := c.regs.eax / 0x10000 * 0x10000 + c.regs.ds
  edi := c.regs.edi
  esi := c.regs.esi
  ebp := c.regs.ebp
  esp := c.esp - 8
  ebx := c.regs.ebx
  edx := c.regs.edx
  ecx := c.regs.ecx
  eax := c.regs.eax

/-- The words that the stub pushes. -/
def stubWords (c : IntCpu) : List Nat :=
  [0, 128, c.regs.eax, c.regs.ecx, c.regs.edx, c.regs.ebx, c.esp - 8, c.regs.ebp, c.regs.esi,
    c.regs.edi, c.regs.eax / 0x10000 * 0x10000 + c.regs.ds]

theorem push_regs (c : IntCpu) (v : Nat) : (c.push v).regs = c.regs := by rw [IntCpu.push]

theorem stub_eq (hesp : c.esp < 0x100000000) (hroom : 44 ≤ c.esp) :
    c.ir128.irCommonStub = c.pushAll (stubWords c) := by
  have hfirst : (c.push 0).esp = c.esp - 4 := push_esp hesp (by omega) 0
  have hsecond : ((c.push 0).push 128).esp = c.esp - 8 := by
    rw [push_esp (by omega) (by omega), hfirst]
    omega
  simp only [IntCpu.irCommonStub, IntCpu.ir128, IntCpu.pusha, push_regs, hsecond, IntCpu.pushAll,
    stubWords, List.foldl_cons, List.foldl_nil]

theorem stubWords_lt (hwords : c.regs.Words) (hesp : c.esp < 0x100000000) :
    ∀ v ∈ stubWords c, v < 0x100000000 := by
  have hds := hwords.ds
  have heax := hwords.eax
  simp only [stubWords, List.forall_mem_cons, List.not_mem_nil, false_imp_iff, implies_true,
    and_true]
  exact ⟨by decide, by decide, heax, hwords.ecx, hwords.edx, hwords.ebx, by omega, hwords.ebp,
    hwords.esi, hwords.edi, by omega⟩

theorem stub_agree (hwords : c.regs.Words) (hesp : c.esp < 0x100000000) (hroom : 44 ≤ c.esp) :
    c.ir128.irCommonStub.esp = c.esp - 44 ∧
      AgreeOff (c.esp - 44) c.esp c.mem c.ir128.irCommonStub.mem := by
  have hlen : (stubWords c).length = 11 := rfl
  obtain ⟨hend, hagree, -⟩ := pushAll_spec hesp (by rw [hlen]; omega) (stubWords_lt hwords hesp)
  rw [hlen] at hend hagree
  rw [stub_eq hesp hroom]
  exact ⟨hend, hagree⟩

/-- **The frame that the stub makes** has the registers where `registers_t` has them. -/
theorem readFrame_stub (hwords : c.regs.Words) (hesp : c.esp < 0x100000000) (hroom : 44 ≤ c.esp) :
    readFrame c.ir128.irCommonStub.mem (c.esp - 44) = savedRegisters c := by
  have hlen : (stubWords c).length = 11 := rfl
  obtain ⟨-, -, hread⟩ := pushAll_spec hesp (by rw [hlen]; omega) (stubWords_lt hwords hesp)
  rw [stub_eq hesp hroom]
  have hword : ∀ k < 9, (c.pushAll (stubWords c)).mem.read32 (c.esp - 44 + 4 * k) =
      (stubWords c).getD (10 - k) 0 := by
    intro k hk
    have hi : 10 - k < (stubWords c).length := by
      rw [hlen]
      omega
    have hplace : c.esp - 4 * (10 - k + 1) = c.esp - 44 + 4 * k := by omega
    rw [← hplace, hread (10 - k) hi, List.getD_eq_getElem _ _ hi]
  simp only [readFrame, savedRegisters, SavedRegisters.mk.injEq]
  exact ⟨hword 0 (by decide), hword 1 (by decide), hword 2 (by decide), hword 3 (by decide),
    hword 4 (by decide), hword 5 (by decide), hword 6 (by decide), hword 7 (by decide),
    hword 8 (by decide)⟩

/-! ## The table -/

theorem registered_concat (es : List SyscallEntry) (e : SyscallEntry) (n : Nat) :
    registered (es ++ [e]) n = if e.num = n then some e.func else registered es n := by
  unfold registered
  by_cases h : e.num = n <;> simp [h]

/-- **The table after `syscalls_init`**: the functions registered, and NULL for the other numbers. -/
theorem syscallsInit_read (m : Memory) (hfits : table + 4 * syscallsMaxCount ≤ 0x100000000)
    (entries : List SyscallEntry) {n : Nat} (hn : n < syscallsMaxCount) :
    (syscallsInit m table entries).read32 (table + 4 * n) = (registered entries n).getD 0 := by
  have hcount : syscallsMaxCount = 1024 := rfl
  induction entries using List.reverseRecOn with
  | nil => exact memset_zero_read32 m table (by omega) (by omega)
  | append_singleton es e ih =>
    have hnum := e.num_lt
    have hstep : syscallsInit m table (es ++ [e]) =
        (syscallsInit m table es).write32 (table + 4 * e.num) e.func := by
      rw [syscallsInit, List.foldl_append, List.foldl_cons, List.foldl_nil, syscallsInit]
    rw [hstep, registered_concat]
    split
    · subst n
      rw [read32_write32_self _ e.func_lt]
      rfl
    · rw [read32_write32_ne _ fun k j hk hj => ?_, ih]
      rw [wrap32_of_lt (by omega), wrap32_of_lt (by omega)]
      omega

/-! ## The handler -/

/-- The place of `registers_t`. -/
def savedFrame (c₀ : IntCpu) : Nat := c₀.esp - 44

/-- The processor at the beginning of the handler. `c₀` is the one that enters the stub. The frame
stands above the stack, and neither of them is in the table. -/
structure AtHandler (m₀ : Memory) (table : Nat) (entries : List SyscallEntry) (c₀ c : IntCpu) :
    Prop where
  words : c₀.regs.Words
  esp : c₀.esp < 0x100000000
  stubRoom : 44 ≤ c₀.esp
  saved : readFrame c.mem (savedFrame c₀) = readFrame c₀.ir128.irCommonStub.mem (savedFrame c₀)
  argument : c.mem.read32 (c.esp + 4) = savedFrame c₀
  below : c.esp + 8 ≤ savedFrame c₀
  room : 24 ≤ c.esp
  initialised : ∀ n < syscallsMaxCount,
    c.mem.read32 (table + 4 * n) = (syscallsInit m₀ table entries).read32 (table + 4 * n)
  fits : table + 4 * syscallsMaxCount ≤ 0x100000000
  apart : table + 4 * syscallsMaxCount ≤ c.esp - 24 ∨ c₀.esp ≤ table

/-- The arguments of a system call. -/
def syscallArgs (c₀ : IntCpu) : List Nat :=
  [c₀.regs.ebx, c₀.regs.ecx, c₀.regs.edx, c₀.regs.esi, c₀.regs.edi]

/-- What is asked of the handler, entered as `c`: the one call that it makes is that of the function
registered, whose code runs on the memory of `c` with six words pushed, and what it leaves is what
that code leaves, with the result stored in the frame. -/
structure SyscallHandled (code : HandlerCode) (entries : List SyscallEntry) (c₀ c : IntCpu)
    (run : Memory × List SyscallCall) : Prop where
  called : ∀ f, registered entries c₀.regs.eax = some f → ∃ m,
    AgreeOff (c.esp - 24) c.esp c.mem m ∧
      run.1 = (code f (syscallArgs c₀) m).2.write32 (savedFrame c₀ + 32)
        (wrap32 (code f (syscallArgs c₀) m).1) ∧
      run.2 = [⟨f, syscallArgs c₀, wrap32 (code f (syscallArgs c₀) m).1⟩] ∧
      readFrame run.1 (savedFrame c₀) =
        { savedRegisters c₀ with eax := wrap32 (code f (syscallArgs c₀) m).1 }
  unknown : registered entries c₀.regs.eax = none → run.2 = []

namespace AtHandler

variable (h : AtHandler m₀ table entries c₀ c)
include h

theorem frame_eq : readFrame c.mem (savedFrame c₀) = savedRegisters c₀ :=
  h.saved.trans (readFrame_stub h.words h.esp h.stubRoom)

/-- The five arguments, as they are pushed. -/
theorem pushes : [savedFrame c₀ + 4, savedFrame c₀ + 8, savedFrame c₀ + 24, savedFrame c₀ + 28,
    savedFrame c₀ + 20].foldl IntCpu.pushMem c = c.pushAll (syscallArgs c₀).reverse := by
  have hbelow := h.below
  have hesp := h.esp
  have hroom := h.room
  have hframe := h.frame_eq
  simp only [readFrame, savedRegisters, SavedRegisters.mk.injEq] at hframe
  obtain ⟨-, hedi, hesi, -, -, hebx, hedx, hecx, -⟩ := hframe
  have hplace : savedFrame c₀ + 44 = c₀.esp := Nat.sub_add_cancel h.stubRoom
  rw [foldl_pushMem (by omega) (by simp; omega) (by simp; omega)]
  simp only [List.map_cons, List.map_nil, hedi, hesi, hebx, hedx, hecx]
  rfl

/-- The words on the stack when the function is called, from the first argument on. -/
theorem args_eq (ret : Nat) :
    (List.range 5).map (fun i => ((c.pushAll (syscallArgs c₀).reverse).push ret).mem.read32
      (((c.pushAll (syscallArgs c₀).reverse).push ret).esp + 4 + 4 * i)) = syscallArgs c₀ ∧
    AgreeOff (c.esp - 24) c.esp c.mem (c.pushAll (syscallArgs c₀).reverse).mem ∧
    AgreeOff (c.esp - 24) c.esp c.mem ((c.pushAll (syscallArgs c₀).reverse).push ret).mem := by
  have hbelow := h.below
  have hesp := h.esp
  have hroom := h.room
  have hplace : savedFrame c₀ + 44 = c₀.esp := Nat.sub_add_cancel h.stubRoom
  have hvs : ∀ v ∈ (syscallArgs c₀).reverse, v < 0x100000000 := by
    simp only [List.mem_reverse, syscallArgs, List.forall_mem_cons, List.not_mem_nil,
      false_imp_iff, implies_true, and_true]
    exact ⟨h.words.ebx, h.words.ecx, h.words.edx, h.words.esi, h.words.edi⟩
  have hlen : (syscallArgs c₀).reverse.length = 5 := rfl
  obtain ⟨hend, hagree, hread⟩ := pushAll_spec (c := c) (by omega) (by omega) hvs
  rw [hlen] at hend hagree
  generalize c.pushAll (syscallArgs c₀).reverse = c₁ at hend hagree hread ⊢
  have hret : AgreeOff (c.esp - 24) (c.esp - 20) c₁.mem (c₁.mem.write32 (c.esp - 24) ret) :=
    agreeOff_write32 c₁.mem ret (Nat.le_refl (c.esp - 24)) (by omega) (by omega)
  have hmem : (c₁.push ret).mem = c₁.mem.write32 (c.esp - 24) ret := by
    rw [push_mem (by omega) (by omega), hend]
    congr 1
  have hword : ∀ i < 5, (c₁.push ret).mem.read32 ((c₁.push ret).esp + 4 + 4 * i) =
      (syscallArgs c₀).reverse.getD (4 - i) 0 := by
    intro i hi
    have hi' : 4 - i < (syscallArgs c₀).reverse.length := by
      rw [hlen]
      omega
    have hat : c.esp - 4 * (4 - i + 1) = c.esp - 20 + 4 * i := by omega
    rw [push_esp (by omega) (by omega), hend, hmem,
      show c.esp - 4 * 5 - 4 + 4 + 4 * i = c.esp - 20 + 4 * i by omega,
      hret.read32 (by omega) (by omega), ← hat, hread _ hi', List.getD_eq_getElem _ _ hi']
  refine ⟨?_, hagree.mono (by omega) (Nat.le_refl _), ?_⟩
  · rw [List.map_congr_left fun i hi => hword i (List.mem_range.mp hi)]
    rfl
  · rw [hmem]
    exact (hagree.mono (by omega) (Nat.le_refl _)).trans (hret.mono (Nat.le_refl _) (by omega))

/-- **The call that the handler makes**: its arguments are those of the system call. -/
theorem run_eq (code : HandlerCode) (ret : Nat) : ∃ m₁ target,
    AgreeOff (c.esp - 24) c.esp c.mem m₁ ∧
    (c₀.regs.eax < syscallsMaxCount → target = (registered entries c₀.regs.eax).getD 0) ∧
    handleSyscallsInterrupt code table ret c =
      ((code target (syscallArgs c₀) m₁).2.write32 (savedFrame c₀ + 32)
        (wrap32 (code target (syscallArgs c₀) m₁).1),
      [⟨target, syscallArgs c₀, wrap32 (code target (syscallArgs c₀) m₁).1⟩]) := by
  have hframe := h.frame_eq
  simp only [readFrame, savedRegisters, SavedRegisters.mk.injEq] at hframe
  have heax := hframe.2.2.2.2.2.2.2.2
  have hpushes := h.pushes
  simp only [List.foldl_cons, List.foldl_nil] at hpushes
  obtain ⟨hargs, hbefore, hagree⟩ := h.args_eq ret
  refine ⟨((c.pushAll (syscallArgs c₀).reverse).push ret).mem,
    (c.pushAll (syscallArgs c₀).reverse).mem.read32 (table + c₀.regs.eax * 4), hagree, ?_, ?_⟩
  · intro hlt
    have hfits := h.fits
    have hapart := h.apart
    have hbelow := h.below
    have hplace : savedFrame c₀ + 44 = c₀.esp := Nat.sub_add_cancel h.stubRoom
    rw [hbefore.read32 (by omega) (by omega), Nat.mul_comm, h.initialised _ hlt,
      syscallsInit_read m₀ h.fits entries hlt]
  · simp only [handleSyscallsInterrupt, h.argument, heax, hpushes, hargs]

/-- The frame after the result has been stored, when the function has left it alone. -/
theorem readFrame_result {m₁ m₂ : Memory} {r : Nat} (hr : r < 0x100000000)
    (hstack : AgreeOff (c.esp - 24) c.esp c.mem m₁)
    (hkeep : readFrame m₂ (savedFrame c₀) = readFrame m₁ (savedFrame c₀)) :
    readFrame (m₂.write32 (savedFrame c₀ + 32) r) (savedFrame c₀) =
      { savedRegisters c₀ with eax := r } := by
  have hbelow := h.below
  have hesp := h.esp
  have hplace : savedFrame c₀ + 44 = c₀.esp := Nat.sub_add_cancel h.stubRoom
  have hwrite := agreeOff_write32 m₂ r (Nat.le_refl (savedFrame c₀ + 32)) (Nat.le_refl _) (by omega)
  have hself := read32_write32_self m₂ (a := savedFrame c₀ + 32) hr
  have hbefore : readFrame m₁ (savedFrame c₀) = savedRegisters c₀ := by
    rw [← h.frame_eq]
    simp (disch := omega) only [readFrame, hstack.read32]
  rw [hbefore] at hkeep
  simp only [readFrame, savedRegisters, SavedRegisters.mk.injEq] at hkeep ⊢
  simp (disch := omega) only [hwrite.read32]
  obtain ⟨hds, hedi, hesi, hebp, hesp', hebx, hedx, hecx, -⟩ := hkeep
  exact ⟨hds, hedi, hesi, hebp, hesp', hebx, hedx, hecx, hself⟩

end AtHandler

/-- The words pushed between the stub and the handler. -/
theorem irHandler_spec (hesp : c.esp < 0x100000000) (hroom : 12 ≤ c.esp) {ret₁ ret₂ : Nat}
    (hret₁ : ret₁ < 0x100000000) (hret₂ : ret₂ < 0x100000000) :
    (c.irHandler ret₁ ret₂).esp = c.esp - 12 ∧
      AgreeOff (c.esp - 12) c.esp c.mem (c.irHandler ret₁ ret₂).mem ∧
      (c.irHandler ret₁ ret₂).mem.read32 (c.esp - 8) = c.esp := by
  have hpushes : c.irHandler ret₁ ret₂ = c.pushAll [ret₁, c.esp, ret₂] := by
    simp only [IntCpu.irHandler, IntCpu.pushAll, List.foldl_cons, List.foldl_nil]
  have hlen : [ret₁, c.esp, ret₂].length = 3 := rfl
  have hvs : ∀ v ∈ [ret₁, c.esp, ret₂], v < 0x100000000 := by
    simp only [List.forall_mem_cons, List.not_mem_nil, false_imp_iff, implies_true, and_true]
    exact ⟨hret₁, hesp, hret₂⟩
  obtain ⟨hend, hagree, hread⟩ := pushAll_spec hesp (by rw [hlen]; omega) hvs
  rw [hlen] at hend hagree
  rw [hpushes]
  exact ⟨hend, hagree, hread 1 (by rw [hlen]; decide)⟩

/-- The handler is entered in this way from the stub. -/
theorem irHandler_atHandler (hwords : c₀.regs.Words) (hesp : c₀.esp < 0x100000000)
    (hroom : 80 ≤ c₀.esp) {ret₁ ret₂ : Nat} (hret₁ : ret₁ < 0x100000000)
    (hret₂ : ret₂ < 0x100000000) (hfits : table + 4 * syscallsMaxCount ≤ 0x100000000)
    (hapart : table + 4 * syscallsMaxCount ≤ c₀.esp - 80 ∨ c₀.esp ≤ table)
    (htable : c₀.mem = syscallsInit m₀ table entries) :
    AtHandler m₀ table entries c₀ (c₀.ir128.irCommonStub.irHandler ret₁ ret₂) := by
  have hcount : syscallsMaxCount = 1024 := rfl
  obtain ⟨hstubEsp, hstubAgree⟩ := stub_agree hwords hesp (by omega)
  generalize hc₁ : c₀.ir128.irCommonStub = c₁ at hstubEsp hstubAgree ⊢
  obtain ⟨hend, hagree, hargument⟩ :=
    irHandler_spec (c := c₁) (by omega) (by omega) hret₁ hret₂
  generalize c₁.irHandler ret₁ ret₂ = c at hend hagree hargument ⊢
  have hframe : savedFrame c₀ = c₁.esp := hstubEsp.symm
  refine ⟨hwords, hesp, by omega, ?_, ?_, by omega, by omega, fun n hn => ?_, hfits, by omega⟩
  · rw [hc₁, hframe]
    simp (disch := omega) only [readFrame, hagree.read32]
  · rw [show c.esp + 4 = c₁.esp - 8 by omega, hargument, hframe]
  · rw [hagree.read32 (by omega) (by omega), hstubAgree.read32 (by omega) (by omega), htable]

theorem registered_isSome_iff : (registered entries n).isSome ↔ ∃ e ∈ entries, e.num = n := by
  simp [registered, List.find?_isSome]

/-- A processor with the number 3 in `eax`. -/
def callingRegs : Registers := ⟨3, 0x22, 0x33, 0x11, 0, 0x44, 0x55, 0x23⟩

theorem callingRegs_words : callingRegs.Words := by
  constructor <;> decide

/-- `SYSCALLS_PID` -/
def pidEntry : SyscallEntry := ⟨3, 0xC0101000, by decide, by decide⟩

/-- The processor in front of the stub, when these functions are registered. -/
def callingCpu (entries : List SyscallEntry) : IntCpu :=
  ⟨callingRegs, 0xC0300000, syscallsInit (fun _ => 0) 0xC0110000 entries⟩

theorem callingCpu_atHandler (entries : List SyscallEntry) :
    AtHandler (fun _ => 0) 0xC0110000 entries (callingCpu entries)
      ((callingCpu entries).ir128.irCommonStub.irHandler 0xC0100100 0xC0100200) :=
  irHandler_atHandler callingRegs_words (show 0xC0300000 < 0x100000000 by decide)
    (show 80 ≤ 0xC0300000 by decide) (by decide) (by decide) (by decide)
    (Or.inl (show 0xC0110000 + 4 * syscallsMaxCount ≤ 0xC0300000 - 80 by decide)) rfl

/-- A function that returns 7 more than its first argument. -/
def addSeven : HandlerCode := fun _ args m => (args.headD 0 + 7, m)

end Xylophone
