import Mathlib.Tactic.IntervalCases
import Xylophone.Infra.SegmentDescriptor
import Xylophone.Data.FastMemory

/-!
# The global descriptor table

`kernel_global_descriptor_set_gate` writes the fields of a packed entry one after the other. The
upper part of the limit and the flags share a byte, which is written twice.

* `setGate_setsExactly` — the eight bytes written, and nothing else
* `setGate_decodes`, `setGate_keeps` — what the processor reads in this entry and in the others
* `setGates_decodes` — the entries after any calls for different indices
-/

namespace Xylophone

open Infra Memory

/-! ## The source -/

/-- `&pGDT[index]` -/
def gdtEntry (gdt : Nat) (index : Int) : Nat := ((gdt + 8 * index) % 0x100000000).toNat

/-- `kernel_global_descriptor_set_gate` -/
def kernelGlobalDescriptorSetGate (m : Memory) (gdt : Nat) (index : Int)
    (base limit access granularity : Nat) : Memory :=
  let entry := gdtEntry gdt index
  let m := m.write16 (entry + 2) (base &&& 0xFFFF)
  let m := m.write8 (entry + 4) (base >>> 16 &&& 0xFF)
  let m := m.write8 (entry + 7) (base >>> 24 &&& 0xFF)
  let m := m.write16 entry (limit &&& 0xFFFF)
  let m := m.write8 (entry + 6) (limit >>> 16 &&& 0x0F)
  let m := m.write8 (entry + 6) (m.read8 (entry + 6) ||| (granularity &&& 0xF0))
  m.write8 (entry + 5) access

/-- The arguments of a call. -/
structure Gate where
  index : Int
  base : Nat
  limit : Nat
  access : Nat
  granularity : Nat
  base_lt : base < 0x100000000
  limit_lt : limit < 0x100000000
  access_lt : access < 0x100
  granularity_lt : granularity < 0x100

namespace Gate

theorem byte_lt (n : Nat) : n % 0x100 < 0x100 := Nat.mod_lt _ (by decide)

/-- The arguments, converted to the types of the parameters. -/
def of (index : Int) (base limit access granularity : Nat) : Gate where
  index := index
  base := wrap32 base
  limit := wrap32 limit
  access := access % 0x100
  granularity := granularity % 0x100
  base_lt := wrap32_lt base
  limit_lt := wrap32_lt limit
  access_lt := byte_lt access
  granularity_lt := byte_lt granularity

/-- The call. -/
def set (gdt : Nat) (m : Memory) (g : Gate) : Memory :=
  kernelGlobalDescriptorSetGate m gdt g.index g.base g.limit g.access g.granularity

/-- What the call is for: the base, the low twenty bits of the limit, and the access byte. The flags
are the upper half of `granularity`. -/
def descriptor (g : Gate) : SegmentDescriptor where
  base := g.base
  limit := g.limit % 0x100000
  access := g.access
  flags := g.granularity / 0x10
  base_lt := g.base_lt
  limit_lt := Nat.mod_lt _ (by decide)
  access_lt := g.access_lt
  flags_lt := Nat.div_lt_of_lt_mul g.granularity_lt

end Gate

/-- `KERNEL_DESCRIPTORS_GDT_ENTRYCOUT` -/
def gdtEntryCount : Nat := 8

/-- `kernel_global_descriptor_table_init`: `ptr` is the address of `_pGDT`. -/
def kernelGlobalDescriptorTableInit (m : Memory) (gdt ptr : Nat) : Memory :=
  let m := m.write16 ptr (8 * gdtEntryCount - 1)
  let m := m.write32 (ptr + 2) gdt
  memset m gdt 0 (8 * gdtEntryCount)

/-- The calls of `kernel_global_descriptor_table_install`. Index 5 is left to the task state
segment. -/
def installedGates : List Gate :=
  [.of 0 0 0 0 0,
    -- the segments of the kernel
    .of 1 0 0xFFFFFFFF 0x9A 0xCF,
    .of 2 0 0xFFFFFFFF 0x92 0xCF,
    -- those of user mode
    .of 3 0 0xFFFFFFFF 0xFA 0xCF,
    .of 4 0 0xFFFFFFFF 0xF2 0xCF,
    -- and those of real mode
    .of 6 0 0xFFFFFFFF 0x9A 0x0F,
    .of 7 0 0xFFFFFFFF 0x92 0x0F]

/-- `kernel_global_descriptor_table_install` -/
def kernelGlobalDescriptorTableInstall (m : Memory) (gdt : Nat) : Memory :=
  installedGates.foldl (Gate.set gdt) m

variable {m : Memory} {gdt : Nat} {g : Gate} {gs : List Gate}

/-! ## One entry -/

/-- The flags over the upper part of the limit. -/
theorem granularity_or {upper granularity : Nat} (hupper : upper < 0x10)
    (hg : granularity < 0x100) :
    upper ||| (granularity &&& 0xF0) = upper + 0x10 * (granularity / 0x10) := by
  have hmask : ∀ n < 0x100, n &&& 0xF0 = (n / 0x10) <<< 4 := by decide +kernel
  rw [hmask granularity hg, Nat.or_comm,
    ← Nat.shiftLeft_add_eq_or_of_lt (show _ < 2 ^ 4 from hupper), Nat.shiftLeft_eq]
  omega

/-- **The bytes that are written.** -/
theorem setGate_setsExactly (m : Memory) (gdt : Nat) (g : Gate) :
    SetsExactly m (g.set gdt m) (gdtEntry gdt g.index) 8 g.descriptor.byte := by
  have hbase := g.base_lt
  have hlimit := g.limit_lt
  have haccess := g.access_lt
  have hgranularity := g.granularity_lt
  have hlow16 : ∀ n : Nat, n &&& 0xFFFF = n % 0x10000 := fun n =>
    Nat.and_two_pow_sub_one_eq_mod n 16
  have hlow8 : ∀ n : Nat, n &&& 0xFF = n % 0x100 := fun n => Nat.and_two_pow_sub_one_eq_mod n 8
  have hlow4 : ∀ n : Nat, n &&& 0x0F = n % 0x10 := fun n => Nat.and_two_pow_sub_one_eq_mod n 4
  have hupper : g.limit / 0x10000 % 0x10 % 0x100 < 0x10 := by omega
  have hor := granularity_or hupper hgranularity
  unfold Gate.set kernelGlobalDescriptorSetGate write16
  simp only [hlow16, hlow8, hlow4, Nat.shiftRight_eq_div_pow, Nat.reducePow, read8_write8_self, hor]
  generalize gdtEntry gdt g.index = entry
  refine ⟨fun k hk => ?_, fun b hb => ?_⟩
  · have hkeep : ∀ (m : Memory) (v i j : Nat), i < 8 → j < 8 → i ≠ j →
        (m.write8 (entry + i) v).read8 (entry + j) = m.read8 (entry + j) := fun m v i j hi hj hij =>
      read8_write8_ne v (by unfold wrap32; omega)
    have hkeep0 : ∀ (m : Memory) (v j : Nat), j < 8 → 0 ≠ j →
        (m.write8 entry v).read8 (entry + j) = m.read8 (entry + j) := fun m v j hj hij =>
      hkeep m v 0 j (by decide) hj hij
    have hkeepTo0 : ∀ (m : Memory) (v i : Nat), i < 8 → i ≠ 0 →
        (m.write8 (entry + i) v).read8 entry = m.read8 entry := fun m v i hi hij =>
      hkeep m v i 0 hi (by decide) hij
    interval_cases k <;>
      simp (disch := decide) only [hkeep, hkeep0, hkeepTo0, read8_write8_self, Nat.add_assoc,
        Nat.add_zero, Gate.descriptor, SegmentDescriptor.byte]
    all_goals omega
  · have hskip : ∀ (m : Memory) (v k : Nat), k < 8 → m.write8 (entry + k) v b = m b :=
      fun m v k hk => write8_of_ne v (hb k hk)
    have hskip0 : ∀ (m : Memory) (v : Nat), m.write8 entry v b = m b := fun m v =>
      hskip m v 0 (by decide)
    simp (disch := decide) only [hskip, hskip0, Nat.add_assoc]

/-- **What the processor reads in the entry.** -/
theorem setGate_decodes (m : Memory) (gdt : Nat) (g : Gate) :
    (g.set gdt m).readDescriptor (gdtEntry gdt g.index) = g.descriptor :=
  readDescriptor_eq (setGate_setsExactly m gdt g).1

/-! ## The other entries -/

/-- The entries at the two indices are eight bytes apart, or more. -/
def GdtApart (index index' : Int) : Prop := index % 0x20000000 ≠ index' % 0x20000000

theorem gdtEntry_apart {index index' : Int} (h : GdtApart index index') {i j : Nat} (hi : i < 8)
    (hj : j < 8) : wrap32 (gdtEntry gdt index + i) ≠ wrap32 (gdtEntry gdt index' + j) := by
  unfold GdtApart at h
  unfold gdtEntry wrap32
  omega

/-- A write to another entry. -/
theorem setGate_keeps {index : Int} (h : GdtApart g.index index) :
    (g.set gdt m).readDescriptor (gdtEntry gdt index) = m.readDescriptor (gdtEntry gdt index) :=
  readDescriptor_congr fun _ hk => congrArg UInt8.toNat
    ((setGate_setsExactly m gdt g).2 _ fun _ hj => gdtEntry_apart h hj hk)

/-- Writes to other entries. -/
theorem setGates_keep {index : Int} (h : ∀ g ∈ gs, GdtApart g.index index) (m : Memory) :
    (gs.foldl (Gate.set gdt) m).readDescriptor (gdtEntry gdt index) =
      m.readDescriptor (gdtEntry gdt index) := by
  induction gs generalizing m with
  | nil => rfl
  | cons g gs ih =>
    rw [List.foldl_cons, ih (fun g' hg' => h g' (List.mem_cons_of_mem _ hg'))]
    exact setGate_keeps (h g List.mem_cons_self)

/-- **Calls for different entries**: each of them is read as it was written. -/
theorem setGates_decode (hapart : gs.Pairwise fun g g' => GdtApart g'.index g.index) (m : Memory)
    (hg : g ∈ gs) : (gs.foldl (Gate.set gdt) m).readDescriptor (gdtEntry gdt g.index) =
      g.descriptor := by
  induction gs generalizing m with
  | nil => cases hg
  | cons g' gs ih =>
    obtain ⟨hlater, hrest⟩ := List.pairwise_cons.mp hapart
    rw [List.foldl_cons]
    rcases List.mem_cons.mp hg with rfl | hg
    · rw [setGates_keep hlater]
      exact setGate_decodes m gdt g
    · exact ih hrest _ hg

/-! ## The table -/

/-- **The table that is installed**, but for the entry that is left out. -/
theorem install_decodes (m : Memory) (gdt : Nat) (hg : g ∈ installedGates) :
    (kernelGlobalDescriptorTableInstall m gdt).readDescriptor (gdtEntry gdt g.index) =
      g.descriptor := by
  refine setGates_decode ?_ m hg
  simp only [installedGates, GdtApart]
  decide

/-- The table is cleared before anything is installed. -/
theorem init_clears (m : Memory) (gdt ptr : Nat) {index : Nat} (hindex : index < gdtEntryCount) :
    (kernelGlobalDescriptorTableInit m gdt ptr).readDescriptor (gdtEntry gdt index) =
      .ofWords 0 0 := by
  unfold gdtEntryCount at hindex
  refine readDescriptor_eq fun k hk => ?_
  have hplace : wrap32 (gdtEntry gdt index + k) = wrap32 (gdt + (8 * index + k)) := by
    unfold gdtEntry wrap32
    omega
  have hnull : ∀ j < 8, (SegmentDescriptor.ofWords 0 0).byte j = 0 := by decide
  rw [kernelGlobalDescriptorTableInit, hnull k hk, Memory.read8, hplace]
  exact (memset_setsExactly _ gdt (by decide) (by decide)).1 _ (by unfold gdtEntryCount; omega)

/-- The entry that is left out is empty. -/
theorem install_reserved (m : Memory) (gdt ptr : Nat) :
    (kernelGlobalDescriptorTableInstall (kernelGlobalDescriptorTableInit m gdt ptr)
      gdt).readDescriptor (gdtEntry gdt 5) = .ofWords 0 0 := by
  have hothers : ∀ g ∈ installedGates, GdtApart g.index 5 := by
    simp only [installedGates, GdtApart]
    decide
  rw [kernelGlobalDescriptorTableInstall, setGates_keep hothers]
  exact init_clears m gdt ptr (show 5 < gdtEntryCount by decide)

end Xylophone
