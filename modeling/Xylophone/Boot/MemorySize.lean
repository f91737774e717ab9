import Xylophone.Boot.AvailableMemory

/-!
# Memory of 4 GiB and more

The lengths of the regions have 64 bits, and `multiboot2_get_physical_memory_size` adds them up in 32.

* `memory_size_exact_iff` — the memory maps of which the size is reported
* `exists_wrapped_memory_size` — a machine with 4 GiB
-/

namespace Xylophone

open Infra

variable {m : Memory} {fuel addr : Nat} {tags : List MultibootTag}

/-- The size of memory, as far as 32 bits go. -/
def clampedMemory (map : List MultibootMmapEntry) : Nat := min (countedMemory map) 0xFFFFFFFF

/-- A sum modulo `2 ^ 32` is the sum cut off at the largest word. -/
theorem wrap32_eq_min_iff (n : Nat) :
    wrap32 n = min n 0xFFFFFFFF ↔ n < 0x100000000 ∨ n % 0x100000000 = 0xFFFFFFFF := by
  unfold wrap32
  omega

/-- **The memory maps of which the size is reported**: the regions that count have less than 4 GiB
together, or by chance one byte less than a multiple of it. -/
theorem memory_size_exact_iff (h : HoldsInfo m addr tags) (hfuel : tagFuel tags < fuel) :
    multiboot2GetPhysicalMemorySize m fuel addr 0 = some (clampedMemory (memoryMap tags)) ↔
      countedMemory (memoryMap tags) < 0x100000000 ∨
        countedMemory (memoryMap tags) % 0x100000000 = 0xFFFFFFFF := by
  have hsize := multiboot2GetPhysicalMemorySize_holds h hfuel (by decide : 0 < 0x100000000)
  rw [hsize, zero_add, Option.some_inj]
  exact wrap32_eq_min_iff _

/-- 31 MiB in three regions. -/
theorem memory_size_exact_iff_holeMemory :
    multiboot2GetPhysicalMemorySize holeMemory 8 0x10000 0 = some (clampedMemory holeMap) ↔
      countedMemory holeMap < 0x100000000 ∨ countedMemory holeMap % 0x100000000 = 0xFFFFFFFF :=
  memory_size_exact_iff holeMemory_holdsInfo (by decide)

/-! ## A machine with 4 GiB -/

/-- 3 GiB from 1 MiB on, and 1 GiB behind 4 GiB. -/
def largeTags : List MultibootTag :=
  [.other 4 16, .mmap 24 [⟨0x100000, 0xC0000000, 1⟩, ⟨0x100000000, 0x40000000, 1⟩]]

def largeMemory : Memory := memoryOfWords 0x10000
  [96, 0, 4, 16, 640, 0x7C00, 6, 64, 24, 0, 0x100000, 0, 0xC0000000, 0, 1, 0, 0, 1, 0x40000000, 0,
    1, 0, 0, 8]

theorem largeMemory_holdsInfo : HoldsInfo largeMemory 0x10000 largeTags where
  held := by
    refine ⟨rfl, rfl, ⟨by decide, by decide, by decide⟩, rfl, rfl, ⟨by decide, rfl, ?_⟩, rfl⟩
    exact ⟨rfl, rfl, trivial⟩
  fits := by decide

/-- **A machine with 4 GiB** is reported to have no memory. -/
theorem exists_wrapped_memory_size :
    multiboot2GetPhysicalMemorySize largeMemory 8 0x10000 0 = some 0 ∧
    ¬ ∀ (m : Memory) (fuel addr : Nat) (tags : List MultibootTag), HoldsInfo m addr tags →
      tagFuel tags < fuel →
        multiboot2GetPhysicalMemorySize m fuel addr 0 = some (clampedMemory (memoryMap tags)) := by
  have hzero : multiboot2GetPhysicalMemorySize largeMemory 8 0x10000 0 = some 0 := by
    have hsize := multiboot2GetPhysicalMemorySize_holds largeMemory_holdsInfo
      (by decide : tagFuel largeTags < 8) (by decide : 0 < 0x100000000)
    rw [hsize]
    rfl
  refine ⟨hzero, fun hall => ?_⟩
  have hclamped := hall _ 8 _ _ largeMemory_holdsInfo (by decide)
  rw [hzero] at hclamped
  revert hclamped
  decide

end Xylophone
