import Mathlib.Data.List.Induction
import Mathlib.Tactic.IntervalCases
import Xylophone.Infra.InterruptGate
import Xylophone.Data.FastMemory

/-!
# The interrupt descriptor table

`kernel_interrupts_init` sets a gate for each of the exceptions, for the interrupts of the two PICs
and for system calls, in a table that has been cleared.

* `setGate_gateExactly` — the eight bytes written, and nothing else
* `setGates_read` — what the processor reads after any calls: the last one for each number
* `interruptsInit_gates` — the table of a started kernel
-/

namespace Xylophone

open Infra Memory

/-! ## The source -/

/-- `KERNEL_DESCRIPTORS_IDT_ENTRYCOUT` -/
def idtEntryCount : Nat := 256

/-- `&pIDT[num]` -/
def idtEntry (idt num : Nat) : Nat := idt + 8 * num

/-- `kernel_interrupt_descriptor_table_init`: `ptr` is the address of `_pIDT`. -/
def kernelInterruptDescriptorTableInit (m : Memory) (idt ptr : Nat) : Memory :=
  let m := m.write16 ptr (8 * idtEntryCount - 1)
  let m := m.write32 (ptr + 2) idt
  memset m idt 0 (8 * idtEntryCount)

/-- `kernel_interrupt_descriptor_set_gate` -/
def kernelInterruptDescriptorSetGate (m : Memory) (idt num base selector flags : Nat) : Memory :=
  let entry := idtEntry idt num
  let m := m.write16 (entry + 6) (base >>> 16 &&& 0xFFFF)
  let m := m.write16 entry (base &&& 0xFFFF)
  let m := m.write8 (entry + 4) 0
  let m := m.write16 (entry + 2) selector
  m.write8 (entry + 5) flags

/-- The arguments of a call. -/
structure IdtCall where
  num : Nat
  gate : InterruptGate
  num_lt : num < idtEntryCount

namespace IdtCall

theorem num_mod_lt (n : Nat) : n % idtEntryCount < idtEntryCount := Nat.mod_lt _ (by decide)

theorem selector_mod_lt (n : Nat) : n % 0x10000 < 0x10000 := Nat.mod_lt _ (by decide)

theorem flags_mod_lt (n : Nat) : n % 0x100 < 0x100 := Nat.mod_lt _ (by decide)

/-- The arguments, converted to the types of the parameters. -/
def of (num base selector flags : Nat) : IdtCall where
  num := num % idtEntryCount
  gate := {
    offset := wrap32 base
    selector := selector % 0x10000
    flags := flags % 0x100
    offset_lt := wrap32_lt base
    selector_lt := selector_mod_lt selector
    flags_lt := flags_mod_lt flags }
  num_lt := num_mod_lt num

/-- The call. -/
def set (idt : Nat) (m : Memory) (c : IdtCall) : Memory :=
  kernelInterruptDescriptorSetGate m idt c.num c.gate.offset c.gate.selector c.gate.flags

end IdtCall

/-- `_INTERRUPT_S`, where `ir x` is the address of the stub. -/
def interruptS (ir : Nat → Nat) (x s f : Nat) : IdtCall := .of x (ir x) s f

/-- `_INTERRUPT` -/
def interrupt (ir : Nat → Nat) (x : Nat) : IdtCall := interruptS ir x 0x08 0x8E

/-- The gates of `kernel_interrupts_init`: the exceptions, system calls, and the requests of the
PICs. -/
def interruptCalls (ir : Nat → Nat) : List IdtCall :=
  (List.range 32).map (interrupt ir) ++ interruptS ir 128 0x08 0xEE ::
    (List.range' 32 16).map (interrupt ir)

/-- `kernel_interrupt_descriptor_table_init` and the gates of `kernel_interrupts_init`. -/
def kernelInterruptsInitTable (m : Memory) (idt ptr : Nat) (ir : Nat → Nat) : Memory :=
  (interruptCalls ir).foldl (IdtCall.set idt) (kernelInterruptDescriptorTableInit m idt ptr)

variable {m : Memory} {idt n : Nat} {c : IdtCall} {cs : List IdtCall}

/-! ## One gate -/

/-- **The bytes that are written.** -/
theorem setGate_gateExactly (m : Memory) (idt : Nat) (c : IdtCall) :
    SetsExactly m (c.set idt m) (idtEntry idt c.num) 8 c.gate.byte := by
  have hoffset := c.gate.offset_lt
  have hselector := c.gate.selector_lt
  have hflags := c.gate.flags_lt
  have hlow16 : ∀ n : Nat, n &&& 0xFFFF = n % 0x10000 := fun n =>
    Nat.and_two_pow_sub_one_eq_mod n 16
  unfold IdtCall.set kernelInterruptDescriptorSetGate write16
  simp only [hlow16, Nat.shiftRight_eq_div_pow, Nat.reducePow]
  generalize idtEntry idt c.num = entry
  refine ⟨fun k hk => ?_, fun b hb => ?_⟩
  · have hkeep : ∀ (m : Memory) (v i j : Nat), i < 8 → j < 8 → i ≠ j →
        (m.write8 (entry + i) v).read8 (entry + j) = m.read8 (entry + j) := fun m v i j hi hj hij =>
      read8_write8_ne v (by unfold wrap32; omega)
    have hkeep0 : ∀ (m : Memory) (v j : Nat), j < 8 → 0 ≠ j →
        (m.write8 entry v).read8 (entry + j) = m.read8 (entry + j) := fun m v j hj hij =>
      hkeep m v 0 j (by decide) hj hij
    have hkeepTo0 : ∀ (m : Memory) (v i : Nat), i < 8 → i ≠ 0 →
        (m.write8 (entry + i) v).read8 entry = m.read8 entry := fun m v i hi hij =>
      hkeep m v i 0 hi (by decide) hij
    interval_cases k <;>
      simp (disch := decide) only [hkeep, hkeep0, hkeepTo0, read8_write8_self, Nat.add_assoc,
        Nat.reduceAdd, Nat.add_zero, InterruptGate.byte]
    all_goals omega
  · have hskip : ∀ (m : Memory) (v k : Nat), k < 8 → m.write8 (entry + k) v b = m b :=
      fun m v k hk => write8_of_ne v (hb k hk)
    have hskip0 : ∀ (m : Memory) (v : Nat), m.write8 entry v b = m b := fun m v =>
      hskip m v 0 (by decide)
    simp (disch := decide) only [hskip, hskip0, Nat.add_assoc, Nat.reduceAdd]

/-- What the processor reads in the entry. -/
theorem setGate_reads (m : Memory) (idt : Nat) (c : IdtCall) :
    (c.set idt m).readGate (idtEntry idt c.num) = c.gate :=
  readGate_eq (setGate_gateExactly m idt c).1

/-- Two entries have no byte in common. -/
theorem idtEntry_apart {num num' : Nat} (hnum : num < idtEntryCount) (hnum' : num' < idtEntryCount)
    (h : num ≠ num') {i j : Nat} (hi : i < 8) (hj : j < 8) :
    wrap32 (idtEntry idt num + i) ≠ wrap32 (idtEntry idt num' + j) := by
  unfold idtEntryCount at hnum hnum'
  unfold idtEntry wrap32
  omega

/-- A call for another number. -/
theorem setGate_otherReads (hn : n < idtEntryCount) (h : c.num ≠ n) :
    (c.set idt m).readGate (idtEntry idt n) = m.readGate (idtEntry idt n) :=
  readGate_congr fun _ hk => congrArg UInt8.toNat
    ((setGate_gateExactly m idt c).2 _ fun _ hj => idtEntry_apart c.num_lt hn h hj hk)

/-! ## Any calls -/

/-- The gate that the last call for a number has set. -/
def lastGate (cs : List IdtCall) (num : Nat) : Option InterruptGate :=
  (cs.reverse.find? fun c => c.num == num).map IdtCall.gate

theorem lastGate_append (cs : List IdtCall) (c : IdtCall) (n : Nat) :
    lastGate (cs ++ [c]) n = if c.num = n then some c.gate else lastGate cs n := by
  unfold lastGate
  by_cases h : c.num = n <;> simp [h]

/-- **What the processor reads after any calls**: for each number the gate of the last call for it,
or what was there before. -/
theorem setGates_read (cs : List IdtCall) (m : Memory) (hn : n < idtEntryCount) :
    (cs.foldl (IdtCall.set idt) m).readGate (idtEntry idt n) =
      (lastGate cs n).getD (m.readGate (idtEntry idt n)) := by
  induction cs using List.reverseRecOn with
  | nil => rfl
  | append_singleton cs c ih =>
    rw [List.foldl_append, List.foldl_cons, List.foldl_nil, lastGate_append]
    split
    · next heq =>
      subst heq
      exact setGate_reads _ idt c
    · next hne => rw [setGate_otherReads hn hne, ih]

/-- The entries are cleared before any gate is set. -/
theorem tableInit_clears (m : Memory) (idt ptr : Nat) (hn : n < idtEntryCount) :
    (kernelInterruptDescriptorTableInit m idt ptr).readGate (idtEntry idt n) = .ofWords 0 0 := by
  unfold idtEntryCount at hn
  refine readGate_eq fun k hk => ?_
  have hnull : ∀ j < 8, (InterruptGate.ofWords 0 0).byte j = 0 := by decide
  rw [kernelInterruptDescriptorTableInit, hnull k hk, idtEntry, Nat.add_assoc]
  exact (memset_setsExactly _ idt (by decide) (by decide)).1 _ (by unfold idtEntryCount; omega)

/-! ## The table of a started kernel -/

/-- The calls are for different numbers, and this is the only one for its number. -/
theorem lastGate_of_mem (hnodup : (cs.map IdtCall.num).Nodup) (hc : c ∈ cs) :
    lastGate cs c.num = some c.gate := by
  induction cs using List.reverseRecOn with
  | nil => cases hc
  | append_singleton cs c' ih =>
    rw [lastGate_append]
    rw [List.map_append, List.nodup_append] at hnodup
    rcases List.mem_append.mp hc with hmem | hmem
    · have hne : c'.num ≠ c.num := fun heq =>
        hnodup.2.2 c.num (List.mem_map_of_mem hmem) c'.num (List.mem_singleton_self _) heq.symm
      rw [if_neg hne, ih hnodup.1 hmem]
    · obtain rfl := List.mem_singleton.mp hmem
      rw [if_pos rfl]

theorem lastGate_of_notMem (h : ∀ c ∈ cs, c.num ≠ n) : lastGate cs n = none := by
  rw [lastGate, Option.map_eq_none_iff, List.find?_eq_none]
  intro c hc
  simpa using h c (List.mem_reverse.mp hc)

/-- The numbers of the gates that are set. -/
def InterruptNumber (n : Nat) : Prop := n < 48 ∨ n = 128

instance : DecidablePred InterruptNumber := fun n =>
  inferInstanceAs (Decidable (n < 48 ∨ n = 128))

theorem interruptCalls_num (ir : Nat → Nat) :
    (interruptCalls ir).map IdtCall.num = List.range 32 ++ 128 :: List.range' 32 16 := by
  simp only [interruptCalls, List.map_append, List.map_cons, List.map_map]
  rfl

theorem mem_interruptCalls (ir : Nat → Nat) {n : Nat} :
    n ∈ (interruptCalls ir).map IdtCall.num ↔ InterruptNumber n := by
  rw [interruptCalls_num, List.mem_append, List.mem_cons, List.mem_range, List.mem_range'_1,
    InterruptNumber]
  omega

/-- The gate that is installed for a number. -/
def installedGate (ir : Nat → Nat) (n : Nat) : IdtCall :=
  if n = 128 then interruptS ir 128 0x08 0xEE else interrupt ir n

theorem installedGate_mem (ir : Nat → Nat) (h : InterruptNumber n) :
    installedGate ir n ∈ interruptCalls ir := by
  unfold InterruptNumber at h
  unfold installedGate interruptCalls
  rw [List.mem_append, List.mem_cons, List.mem_map, List.mem_map]
  split
  · exact Or.inr (Or.inl rfl)
  · next hne =>
    rcases Nat.lt_or_ge n 32 with hlt | hge
    · exact Or.inl ⟨n, List.mem_range.mpr hlt, rfl⟩
    · exact Or.inr (Or.inr ⟨n, List.mem_range'_1.mpr ⟨hge, by omega⟩, rfl⟩)

theorem installedGate_num (ir : Nat → Nat) (hn : n < idtEntryCount) :
    (installedGate ir n).num = n := by
  unfold installedGate
  split
  · next heq => exact heq.symm
  · exact Nat.mod_eq_of_lt hn

/-- **The gates of a started kernel**: the other entries are empty. -/
theorem interruptsInit_gates (m : Memory) (idt ptr : Nat) (ir : Nat → Nat)
    (hn : n < idtEntryCount) :
    (kernelInterruptsInitTable m idt ptr ir).readGate (idtEntry idt n) =
      if InterruptNumber n then (installedGate ir n).gate else .ofWords 0 0 := by
  rw [kernelInterruptsInitTable, setGates_read _ _ hn]
  split
  · next h =>
    have hnodup : ((interruptCalls ir).map IdtCall.num).Nodup := by
      rw [interruptCalls_num]
      decide
    have hlast := lastGate_of_mem hnodup (installedGate_mem ir h)
    rw [installedGate_num ir hn] at hlast
    rw [hlast, Option.getD_some]
  · next h =>
    have hnone : ∀ c ∈ interruptCalls ir, c.num ≠ n := fun c hc heq =>
      h ((mem_interruptCalls ir).mp (heq ▸ List.mem_map_of_mem hc))
    rw [lastGate_of_notMem hnone, Option.getD_none]
    exact tableInit_clears m idt ptr hn

end Xylophone
