import Xylophone.Descriptors.GlobalDescriptorTable

/-!
# The task state segment

`kernel_task_state_segment_int` passes the address of the last byte of the segment where
`kernel_global_descriptor_set_gate` takes a limit, and only twenty bits of it are kept.

* `taskStateSegment_descriptor` — the descriptor that is installed
* `taskStateSegment_descriptor_iff` — the addresses for which its limit is that of the segment
* `taskStateSegment_fields` — what the segment holds
-/

namespace Xylophone

open Infra Memory

/-! ## The source -/

/-- `sizeof(task_state_segment_entry_t)` -/
def tssSize : Nat := 104

/-- `kernel_task_state_segment_set_stack`, for the segment at `tss`. -/
def kernelTaskStateSegmentSetStack (m : Memory) (tss kss kesp : Nat) : Memory :=
  let m := m.write32 (tss + 8) kss
  m.write32 (tss + 4) kesp

/-- `kernel_task_state_segment_int`, for the segment at `tss`. -/
def kernelTaskStateSegmentInt (m : Memory) (gdt tss idx kss kesp : Nat) : Memory :=
  let base := tss
  let m := kernelGlobalDescriptorSetGate m gdt (toInt32 idx) base (wrap32 (base + tssSize - 1))
    0xE9 0x0
  let m := memset m tss 0 tssSize
  -- `ss0` and `esp0`
  let m := m.write32 (tss + 8) kss
  let m := m.write32 (tss + 4) kesp
  -- `cs`, `ds`, `es`, `fs`, `gs` and `ss`
  let m := m.write32 (tss + 76) 0x0b
  let m := m.write32 (tss + 84) 0x13
  let m := m.write32 (tss + 72) 0x13
  let m := m.write32 (tss + 88) 0x13
  let m := m.write32 (tss + 92) 0x13
  m.write32 (tss + 80) 0x13

variable {m : Memory} {gdt tss idx kss kesp : Nat}

/-- No byte of the segment is one of the entry. -/
def SegmentApart (gdt tss : Nat) (index : Int) : Prop :=
  ∀ i < 8, ∀ j < tssSize, wrap32 (gdtEntry gdt index + i) ≠ wrap32 (tss + j)

/-- The table and the segment are two objects. -/
structure DescriptorObjects (gdt tss : Nat) : Prop where
  gdt_fits : gdt + 8 * gdtEntryCount ≤ 0x100000000
  tss_fits : tss + tssSize ≤ 0x100000000
  apart : gdt + 8 * gdtEntryCount ≤ tss ∨ tss + tssSize ≤ gdt

theorem DescriptorObjects.tss_lt (h : DescriptorObjects gdt tss) : tss < 0x100000000 :=
  Nat.lt_of_lt_of_le (Nat.lt_add_of_pos_right (by decide)) h.tss_fits

theorem DescriptorObjects.segmentApart (h : DescriptorObjects gdt tss) {index : Int}
    (h0 : 0 ≤ index) (hlt : index < 8) : SegmentApart gdt tss index := by
  intro i hi j hj
  obtain ⟨hgdt, htss, hapart⟩ := h
  unfold gdtEntryCount at hgdt hapart
  unfold tssSize at htss hapart hj
  have hentry : gdtEntry gdt index = gdt + 8 * index.toNat := by
    unfold gdtEntry
    omega
  rw [hentry, wrap32_of_lt (by omega), wrap32_of_lt (by omega)]
  omega

/-- The call for the descriptor. -/
def segmentGate (tss idx : Nat) : Gate := .of (toInt32 idx) tss (tss + tssSize - 1) 0xE9 0x0

theorem segmentGate_set (m : Memory) (gdt idx : Nat) (htss : tss < 0x100000000) :
    (segmentGate tss idx).set gdt m =
      kernelGlobalDescriptorSetGate m gdt (toInt32 idx) tss (wrap32 (tss + tssSize - 1))
        0xE9 0x0 := by
  simp only [segmentGate, Gate.set, Gate.of, wrap32_of_lt htss, Nat.reduceMod]

/-- The low twenty bits of the last address are left of it. -/
theorem segmentGate_limit (tss idx : Nat) :
    (segmentGate tss idx).descriptor.limit = (tss + 103) % 0x100000 := by
  simp only [segmentGate, Gate.descriptor, Gate.of, wrap32, tssSize]
  omega

/-! ## What is written -/

/-- Behind the call for the descriptor, only the segment is written. -/
theorem taskStateSegment_keeps (htss : tss < 0x100000000) {b : Nat}
    (h : ∀ k < tssSize, wrap32 (tss + k) ≠ b) :
    kernelTaskStateSegmentInt m gdt tss idx kss kesp b =
      (segmentGate tss idx).set gdt m b := by
  have hfield : ∀ (m : Memory) (v k : Nat), k + 4 ≤ tssSize → m.write32 (tss + k) v b = m b :=
    fun m v k hk => write32_of_ne m v fun j hj => by
      rw [Nat.add_assoc]
      exact h (k + j) (by omega)
  rw [segmentGate_set m gdt idx htss]
  unfold kernelTaskStateSegmentInt
  simp (disch := decide) only [hfield]
  exact (memset_setsExactly _ tss (by decide) (by decide)).2 b h

/-- An entry that is apart from the segment. -/
theorem taskStateSegment_entry (htss : tss < 0x100000000) {index : Int}
    (hapart : SegmentApart gdt tss index) :
    (kernelTaskStateSegmentInt m gdt tss idx kss kesp).readDescriptor (gdtEntry gdt index) =
      ((segmentGate tss idx).set gdt m).readDescriptor (gdtEntry gdt index) :=
  readDescriptor_congr fun k hk => congrArg UInt8.toNat
    (taskStateSegment_keeps htss fun j hj => (hapart k hk j hj).symm)

/-- **The descriptor that is installed.** -/
theorem taskStateSegment_descriptor (m : Memory) (kss kesp : Nat) (htss : tss < 0x100000000)
    (hapart : SegmentApart gdt tss (toInt32 idx)) :
    (kernelTaskStateSegmentInt m gdt tss idx kss kesp).readDescriptor
      (gdtEntry gdt (toInt32 idx)) = (segmentGate tss idx).descriptor := by
  rw [taskStateSegment_entry htss hapart]
  exact setGate_decodes m gdt (segmentGate tss idx)

/-- **The table of a started kernel**: the segments that were installed, and at index 5 the
descriptor of the task state segment. -/
theorem startedTable (h : DescriptorObjects gdt tss) (m : Memory) (ptr kss kesp : Nat) :
    let m₀ := kernelGlobalDescriptorTableInstall (kernelGlobalDescriptorTableInit m gdt ptr) gdt
    let m' := kernelTaskStateSegmentInt m₀ gdt tss 5 kss kesp
    (∀ g ∈ installedGates, m'.readDescriptor (gdtEntry gdt g.index) = g.descriptor) ∧
      m'.readDescriptor (gdtEntry gdt 5) = (segmentGate tss 5).descriptor := by
  intro m₀ m'
  have hindex : ∀ g ∈ installedGates, (0 ≤ g.index ∧ g.index < 8) ∧ GdtApart 5 g.index := by
    simp only [installedGates, GdtApart]
    decide
  refine ⟨fun g hg => ?_, ?_⟩
  · obtain ⟨⟨h0, hlt⟩, hapart⟩ := hindex g hg
    rw [← install_decodes (kernelGlobalDescriptorTableInit m gdt ptr) gdt hg]
    exact (taskStateSegment_entry h.tss_lt (h.segmentApart h0 hlt)).trans (setGate_keeps hapart)
  · exact taskStateSegment_descriptor m₀ kss kesp h.tss_lt
      (h.segmentApart (show (0 : Int) ≤ toInt32 5 by decide) (by decide))

/-! ## The fields of the segment -/

/-- The words of the segment after the call, by their offsets. -/
def segmentField (kss kesp : Nat) : Nat → Nat
  | 4 => kesp
  | 8 => kss
  | 72 => 0x13
  | 76 => 0x0b
  | 80 => 0x13
  | 84 => 0x13
  | 88 => 0x13
  | 92 => 0x13
  | _ => 0

/-- A field next to one that is written. -/
theorem read32_field_ne (m : Memory) (tss v : Nat) {i j : Nat} (hi : i < tssSize) (hj : j < tssSize)
    (hi4 : i % 4 = 0) (hj4 : j % 4 = 0) (hij : i ≠ j) :
    (m.write32 (tss + i) v).read32 (tss + j) = m.read32 (tss + j) :=
  read32_write32_ne v fun k l hk hl => by
    unfold tssSize at hi hj
    unfold wrap32
    omega

/-- **What the segment holds.** -/
theorem taskStateSegment_fields (m : Memory) (gdt tss idx : Nat) (hkss : kss < 0x100000000)
    (hkesp : kesp < 0x100000000) {k : Nat} (hk : k < 26) :
    (kernelTaskStateSegmentInt m gdt tss idx kss kesp).read32 (tss + 4 * k) =
      segmentField kss kesp (4 * k) := by
  have hzero : ∀ (m : Memory) (j : Nat), j + 4 ≤ tssSize →
      (memset m tss 0 tssSize).read32 (tss + j) = 0 := fun m j hj =>
    memset_zero_read32 m tss (by decide) hj
  have hself : ∀ (m : Memory) (i v : Nat), v < 0x100000000 →
      (m.write32 (tss + i) v).read32 (tss + i) = v := fun m i v hv => read32_write32_self m hv
  unfold kernelTaskStateSegmentInt
  interval_cases k <;>
    simp (disch := first | assumption | decide) only [Nat.reduceMul, read32_field_ne, hself, hzero,
      segmentField]

/-- The other fields do not depend on the stack. -/
theorem segmentField_stack (kss kesp kss' kesp' : Nat) {k : Nat} (hk : k < 26) (h1 : k ≠ 1)
    (h2 : k ≠ 2) : segmentField kss kesp (4 * k) = segmentField kss' kesp' (4 * k) := by
  interval_cases k <;> first | rfl | contradiction

/-- A later call sets the stack, and nothing else in the segment. -/
theorem setStack_fields {kss' kesp' : Nat} (hkss' : kss' < 0x100000000)
    (hkesp' : kesp' < 0x100000000)
    (h : ∀ k < 26, m.read32 (tss + 4 * k) = segmentField kss kesp (4 * k)) {k : Nat} (hk : k < 26) :
    (kernelTaskStateSegmentSetStack m tss kss' kesp').read32 (tss + 4 * k) =
      segmentField kss' kesp' (4 * k) := by
  unfold kernelTaskStateSegmentSetStack
  by_cases h1 : k = 1
  · subst h1
    exact read32_write32_self _ hkesp'
  have hin : 4 * k < tssSize := by
    unfold tssSize
    omega
  rw [read32_field_ne _ tss kesp' (show 4 < tssSize by decide) hin rfl (by omega) (by omega)]
  by_cases h2 : k = 2
  · subst h2
    exact read32_write32_self _ hkss'
  rw [read32_field_ne _ tss kss' (show 8 < tssSize by decide) hin rfl (by omega) (by omega), h k hk,
    segmentField_stack kss kesp kss' kesp' hk h1 h2]

/-! ## The limit -/

/-- The descriptor at the index is the one of the bytes of the segment. -/
def SegmentInstalled (m : Memory) (gdt tss idx : Nat) : Prop :=
  let d := m.readDescriptor (gdtEntry gdt (toInt32 idx))
  d.base = tss ∧ d.limit = tssSize - 1 ∧ d.ByteGranular

/-- The low twenty bits of the last address are the limit of the segment when those of the first one
are zero. -/
theorem segmentInstalled_iff (m : Memory) (kss kesp : Nat) (htss : tss < 0x100000000)
    (hapart : SegmentApart gdt tss (toInt32 idx)) :
    SegmentInstalled (kernelTaskStateSegmentInt m gdt tss idx kss kesp) gdt tss idx ↔
      tss % 0x100000 = 0 := by
  have hbase : (segmentGate tss idx).descriptor.base = tss := wrap32_of_lt htss
  have hgranular : (segmentGate tss idx).descriptor.ByteGranular :=
    show 0 % 0x100 / 0x10 / 8 = 0 from rfl
  rw [SegmentInstalled, taskStateSegment_descriptor m kss kesp htss hapart]
  simp only [hbase, segmentGate_limit, hgranular, tssSize, and_true, true_and]
  omega

/-- What a call for an entry is for: the descriptor with these fields, and nothing else written. -/
def GatesDecode : Prop :=
  ∀ (m : Memory) (gdt : Nat) (index : Int) (base limit access granularity : Nat),
    base < 0x100000000 → limit < 0x100000000 → access < 0x100 → granularity < 0x100 →
    let m' := kernelGlobalDescriptorSetGate m gdt index base limit access granularity
    let d := m'.readDescriptor (gdtEntry gdt index)
    (d.base = base ∧ d.limit = limit % 0x100000 ∧ d.access = access ∧
      d.flags = granularity / 0x10) ∧
    (∀ index', GdtApart index index' →
      m'.readDescriptor (gdtEntry gdt index') = m.readDescriptor (gdtEntry gdt index')) ∧
    ∀ b, (∀ k < 8, wrap32 (gdtEntry gdt index + k) ≠ b) → m' b = m b

theorem gatesDecode : GatesDecode := by
  intro m gdt index base limit access granularity hbase hlimit haccess hgranularity m' d
  let g : Gate := ⟨index, base, limit, access, granularity, hbase, hlimit, haccess, hgranularity⟩
  have hd : d = g.descriptor := setGate_decodes m gdt g
  refine ⟨?_, fun index' h => setGate_keeps (g := g) h, (setGate_setsExactly m gdt g).2⟩
  rw [hd]
  exact ⟨rfl, rfl, rfl, rfl⟩

/-- **When the descriptors are the ones that the calls are for**: every entry is, and the one of the
task state segment for a segment at a multiple of `2 ^ 20`. -/
theorem descriptors_installed_iff (m : Memory) (kss kesp : Nat) (htss : tss < 0x100000000)
    (hapart : SegmentApart gdt tss (toInt32 idx)) :
    GatesDecode ∧ SegmentInstalled (kernelTaskStateSegmentInt m gdt tss idx kss kesp) gdt tss idx ↔
      tss % 0x100000 = 0 :=
  (and_iff_right gatesDecode).trans (segmentInstalled_iff m kss kesp htss hapart)

/-- A segment at such an address. -/
theorem descriptors_installed_five :
    GatesDecode ∧ SegmentInstalled
      (kernelTaskStateSegmentInt (fun _ => 0) 0xC010A000 0xC0200000 5 0x10 0xC0110000)
      0xC010A000 0xC0200000 5 ↔ 0xC0200000 % 0x100000 = 0 :=
  descriptors_installed_iff _ 0x10 0xC0110000 (by decide)
    (DescriptorObjects.segmentApart ⟨by decide, by decide, by decide⟩ (by decide) (by decide))

/-- A segment that does not stand at such an address has another limit. -/
theorem descriptor_limit_wrong :
    ¬ ∀ (m : Memory) (gdt tss idx kss kesp : Nat), tss < 0x100000000 →
      SegmentApart gdt tss (toInt32 idx) →
      GatesDecode ∧
        SegmentInstalled (kernelTaskStateSegmentInt m gdt tss idx kss kesp) gdt tss idx := by
  intro h
  have hobjects : DescriptorObjects 0xC010A000 0xC010A060 := ⟨by decide, by decide, by decide⟩
  have hapart : SegmentApart 0xC010A000 0xC010A060 (toInt32 5) :=
    hobjects.segmentApart (by decide) (by decide)
  have hinstalled := (h (fun _ => 0) 0xC010A000 0xC010A060 5 0x10 0xC0110000 (by decide) hapart).2
  have hmultiple := (segmentInstalled_iff _ 0x10 0xC0110000 (by decide) hapart).mp hinstalled
  exact absurd hmultiple (by decide)

end Xylophone
