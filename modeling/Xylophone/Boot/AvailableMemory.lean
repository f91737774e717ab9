import Xylophone.Boot.Multiboot2
import Xylophone.Infra.Run
import Xylophone.Paging.PhysicalMemory

/-!
# Blocks and the memory map

`kernel_main` gives the physical memory manager as much memory as the map marks available, less
the size of the kernel. Block numbers start at physical address 0 and know nothing of the regions.

* `handsOut_iff` — a new manager can hand out every block below its number of blocks
* `handed_out_available` — blocks from 1 MiB on are available exactly when the available regions
  have no hole up to the last block
* `exists_block_in_hole` — a map with a hole below 16 MiB
-/

namespace Xylophone

open Infra

/-! ## Sizing the manager -/

/-- `kernel_context->system_physical_memory_manager` at boot. -/
def clearedPhysicalMemoryManager : PhysicalMemoryManager where
  bitmap := bitmapInit 0
  isInitialized := false
  blockUsed := 0
  failed := false
  hasFailure := false

/-- `kernel_main` up to `physical_memory_manager_init`. The information structure is at `addr`. -/
def kernelMainMemory (m : Memory) (fuel addr startOfKernel endOfKernel : Nat)
    (array : Option (Nat → BitVec 32)) : Option PhysicalMemoryManager :=
  (multiboot2GetPhysicalMemorySize m fuel addr 0).map fun reservedMemory =>
    let useableMemory := sub32 reservedMemory (sub32 endOfKernel startOfKernel)
    physicalMemoryManagerInit clearedPhysicalMemoryManager useableMemory false array

/-- The number of blocks for a memory map and a size of the kernel. -/
def blockCount (map : List MultibootMmapEntry) (kernelSize : Nat) : Nat :=
  sub32 (wrap32 (countedMemory map)) kernelSize / 0x20000 * 32

/-! ## Handing out blocks -/

inductive BlockOp where
  | allocate
  | free (block : Nat)

/-- The next state of the manager. -/
def PhysicalMemoryManager.next (pmm : PhysicalMemoryManager) : BlockOp → PhysicalMemoryManager
  | .allocate => (allocateBlock pmm).1
  | .free block => freeBlock pmm block

/-- A step, as a relation. -/
def BlockStep (pmm : PhysicalMemoryManager) (op : BlockOp) (pmm' : PhysicalMemoryManager) : Prop :=
  pmm.next op = pmm'

/-- There is a run after which the manager hands out the block. -/
def HandsOut (pmm : PhysicalMemoryManager) (block : Nat) : Prop :=
  block ≠ noBlock ∧
    ∃ pmm', Run BlockStep (fun _ _ => True) pmm pmm' ∧ (allocateBlock pmm').2 = block

variable {pmm pmm' : PhysicalMemoryManager} {block : Nat}

/-- A step keeps the number of blocks. -/
theorem PmmReady.step {op : BlockOp} (hr : PmmReady pmm) (hstep : BlockStep pmm op pmm') :
    PmmReady pmm' ∧ pmm'.bitmap.bitCount = pmm.bitmap.bitCount := by
  obtain rfl := hstep
  cases op with
  | allocate =>
    show PmmReady (allocateBlock pmm).1 ∧ (allocateBlock pmm).1.bitmap.bitCount = _
    rcases allocateBlock_cases hr with ⟨b, _, _, _, htake⟩ | ⟨_, hnone⟩
    · rw [htake]
      exact ⟨takeBlock_ready hr b, rfl⟩
    · rw [hnone]
      exact ⟨hr, rfl⟩
  | free b => exact ⟨freeBlock_ready hr b, freeBlock_bitCount b⟩

/-- A run keeps the number of blocks. -/
theorem PmmReady.run (hr : PmmReady pmm) (hrun : Run BlockStep (fun _ _ => True) pmm pmm') :
    PmmReady pmm' ∧ pmm'.bitmap.bitCount = pmm.bitmap.bitCount :=
  hrun.invariant (I := fun p => PmmReady p ∧ p.bitmap.bitCount = pmm.bitmap.bitCount)
    (fun _ _ _ h _ hstep => ⟨(h.1.step hstep).1, (h.1.step hstep).2.trans h.2⟩) ⟨hr, rfl⟩

/-- When the first `n` blocks are in use, block `n` is next. -/
theorem allocateBlock_range {n : Nat} (hr : PmmReady pmm) (hbits : pmm.bitmap.bits = Finset.range n)
    (hn : n < pmm.bitmap.bitCount) : allocateBlock pmm = (takeBlock pmm n, n) := by
  rcases allocateBlock_cases hr with ⟨b, hlt, hfree, hbefore, htake⟩ | ⟨hall, _⟩
  · have hb : b = n := by
      rw [hbits, Finset.mem_range] at hfree
      by_contra hne
      have hlater := hbefore n (by omega)
      rw [hbits, Finset.mem_range] at hlater
      omega
    rw [htake, hb]
  · rw [hbits] at hall
    have hsame := congrArg Finset.card hall
    rw [Finset.card_range, Finset.card_range] at hsame
    omega

/-- The first `n` blocks can be taken one after the other. -/
theorem exists_run_taken (hr : PmmReady pmm) (hnew : pmm.bitmap.bits = ∅) {n : Nat}
    (hn : n ≤ pmm.bitmap.bitCount) :
    ∃ pmm', Run BlockStep (fun _ _ => True) pmm pmm' ∧ pmm'.bitmap.bits = Finset.range n := by
  induction n with
  | zero => exact ⟨pmm, Run.refl _, by rw [hnew, Finset.range_zero]⟩
  | succ n ih =>
    obtain ⟨p, hrun, hbits⟩ := ih (by omega)
    obtain ⟨hready, hcount⟩ := hr.run hrun
    have htake := allocateBlock_range hready hbits (by omega)
    refine ⟨_, hrun.tail (a := .allocate) trivial rfl, ?_⟩
    show (allocateBlock p).1.bitmap.bits = _
    rw [htake, takeBlock_bits hready (by omega), hbits, Finset.range_add_one]

/-- **A new manager can hand out every block it counts, and no other.** -/
theorem handsOut_iff (hr : PmmReady pmm) (hnew : pmm.bitmap.bits = ∅) :
    HandsOut pmm block ↔ block < pmm.bitmap.bitCount := by
  constructor
  · rintro ⟨hne, p, hrun, rfl⟩
    obtain ⟨hready, hcount⟩ := hr.run hrun
    rcases allocateBlock_cases hready with ⟨b, hlt, _, _, htake⟩ | ⟨_, hnone⟩
    · rw [htake]
      omega
    · exact absurd (by rw [hnone]) hne
  · intro hlt
    obtain ⟨p, hrun, hbits⟩ := exists_run_taken hr hnew hlt.le
    obtain ⟨hready, hcount⟩ := hr.run hrun
    have hle := hr.bitCount_le
    refine ⟨by unfold noBlock; omega, p, hrun, ?_⟩
    rw [allocateBlock_range hready hbits (by omega)]

/-- A manager that is not initialised hands out nothing. -/
theorem not_handsOut (h : pmm.isInitialized = false) : ¬HandsOut pmm block := by
  rintro ⟨hne, p, hrun, hblock⟩
  have hp : p.isInitialized = false := by
    refine hrun.invariant (I := fun p => p.isInitialized = false) (fun p op p' hp _ hstep => ?_) h
    obtain rfl := hstep
    cases op with
    | allocate =>
      show (allocateBlock p).1.isInitialized = false
      unfold allocateBlock
      rw [if_neg (by simp [hp])]
      exact hp
    | free b =>
      show (freeBlock p b).isInitialized = false
      unfold freeBlock
      rw [if_neg (by simp [hp])]
      exact hp
  unfold allocateBlock at hblock
  rw [if_neg (by simp [hp])] at hblock
  exact hne hblock.symm

/-! ## Available memory -/

/-- The region is available and the page lies in it. -/
def MultibootMmapEntry.Offers (e : MultibootMmapEntry) (page : Nat) : Prop :=
  e.type = multibootMemoryAvailable ∧ e.addr ≤ page * 0x1000 ∧
    (page + 1) * 0x1000 ≤ e.addr + e.len

instance (e : MultibootMmapEntry) (page : Nat) : Decidable (e.Offers page) :=
  inferInstanceAs (Decidable (_ ∧ _))

/-- The page lies in a region that the map marks available. -/
def AvailablePage (map : List MultibootMmapEntry) (page : Nat) : Prop := ∃ e ∈ map, e.Offers page

instance (map : List MultibootMmapEntry) (page : Nat) : Decidable (AvailablePage map page) :=
  inferInstanceAs (Decidable (∃ e ∈ map, _))

/-- There is no hole in available memory from 1 MiB up to page `n`. -/
def Unbroken (map : List MultibootMmapEntry) (n : Nat) : Prop :=
  ∀ page, 0x100 ≤ page → page < n → AvailablePage map page

/-- The usual map: what counts is one region from 1 MiB on, and the kernel fits into it. -/
theorem unbroken_single {map : List MultibootMmapEntry} {e : MultibootMmapEntry} {kernelSize : Nat}
    (hmem : e ∈ map) (htype : e.type = multibootMemoryAvailable) (haddr : e.addr = 0x100000)
    (honly : countedMemory map = e.len) (hlen : e.len < 0x100000000)
    (hkernel : kernelSize ≤ e.len) :
    Unbroken map (blockCount map kernelSize) := by
  intro page hlow hpage
  refine ⟨e, hmem, htype, by omega, ?_⟩
  unfold blockCount at hpage
  rw [honly, wrap32_of_lt hlen, sub32_of_le hkernel hlen] at hpage
  omega

/-! ## The manager of the kernel -/

/-- The manager that `kernel_main` sets up hands out the blocks below `blockCount`, unless there
was no memory for its bitmap. -/
theorem kernelMainMemory_handsOut {m : Memory} {fuel addr : Nat} {tags : List MultibootTag}
    (h : HoldsInfo m addr tags) (hfuel : tagFuel tags < fuel) (startOfKernel endOfKernel : Nat)
    (array : Option (Nat → BitVec 32)) :
    ∃ pmm, kernelMainMemory m fuel addr startOfKernel endOfKernel array = some pmm ∧
      ∀ block, HandsOut pmm block ↔
        array ≠ none ∧ block < blockCount (memoryMap tags) (sub32 endOfKernel startOfKernel) := by
  unfold kernelMainMemory
  rw [multiboot2GetPhysicalMemorySize_holds h hfuel (by decide), zero_add]
  refine ⟨_, rfl, fun block => ?_⟩
  cases array with
  | none =>
    constructor
    · exact fun hout => absurd hout (not_handsOut rfl)
    · exact fun hout => absurd rfl hout.1
  | some array =>
    have hsize := sub32_lt (wrap32 (countedMemory (memoryMap tags)))
      (sub32 endOfKernel startOfKernel)
    have hnew : clearedPhysicalMemoryManager.isInitialized = false := rfl
    have hready := physicalMemoryManagerInit_ready false array hnew hsize
    have hbits := (physicalMemoryManagerInit_bits false array hnew hsize).1
    have hcount : (physicalMemoryManagerInit clearedPhysicalMemoryManager
        (sub32 (wrap32 (countedMemory (memoryMap tags))) (sub32 endOfKernel startOfKernel)) false
        (some array)).bitmap.bitCount =
        blockCount (memoryMap tags) (sub32 endOfKernel startOfKernel) := by
      show sub32 _ _ / 0x1000 / 32 * 4 / 4 * 32 = sub32 _ _ / 0x20000 * 32
      omega
    rw [handsOut_iff hready hbits, hcount]
    exact ⟨fun hlt => ⟨Option.some_ne_none array, hlt⟩, fun hout => hout.2⟩

/-- **Available memory.** For every memory map, `kernel_main` sets up a manager; and every block
from 1 MiB on that it can hand out lies in an available region if and only if there was no memory
for its bitmap, or available memory has no hole from 1 MiB up to the last block. -/
theorem handed_out_available {m : Memory} {fuel addr startOfKernel endOfKernel : Nat}
    {tags : List MultibootTag} {array : Option (Nat → BitVec 32)} (h : HoldsInfo m addr tags)
    (hfuel : tagFuel tags < fuel) :
    ∃ pmm, kernelMainMemory m fuel addr startOfKernel endOfKernel array = some pmm ∧
      ((∀ block, HandsOut pmm block → 0x100 ≤ block → AvailablePage (memoryMap tags) block) ↔
        array = none ∨ Unbroken (memoryMap tags)
          (blockCount (memoryMap tags) (sub32 endOfKernel startOfKernel))) := by
  obtain ⟨pmm, hpmm, hout⟩ :=
    kernelMainMemory_handsOut h hfuel startOfKernel endOfKernel array
  refine ⟨pmm, hpmm, ?_⟩
  constructor
  · intro hall
    by_cases harray : array = none
    · exact Or.inl harray
    · exact Or.inr fun page hlow hlt => hall page ((hout page).mpr ⟨harray, hlt⟩) hlow
  · rintro (harray | hunbroken) block hblock hlow
    · exact absurd harray ((hout block).mp hblock).1
    · exact hunbroken block hlow ((hout block).mp hblock).2

/-! ## A map with a hole -/

/-- The memory that holds these words from `base` on. -/
def memoryOfWords (base : Nat) (words : List Nat) : Memory := fun a =>
  UInt8.ofNat (words.getD ((a - base) / 4) 0 / 0x100 ^ ((a - base) % 4))

/-- 640 KiB of low memory, and 31 MiB from 1 MiB on with a hole of 1 MiB below 16 MiB. -/
def holeMap : List MultibootMmapEntry :=
  [⟨0, 0xA0000, 1⟩, ⟨0x100000, 0xE00000, 1⟩, ⟨0xF00000, 0x100000, 2⟩, ⟨0x1000000, 0x1000000, 1⟩]

/-- The memory map, after the tag for basic memory information. -/
def holeTags : List MultibootTag := [.other 4 16, .mmap 24 holeMap]

/-- The information structure with these tags, at address 0x10000. -/
def holeMemory : Memory := memoryOfWords 0x10000
  ([144, 0, 4, 16, 640, 0x7C00, 6, 112, 24, 0] ++
    holeMap.flatMap (fun e => [e.addr, 0, e.len, 0, e.type, 0]) ++ [0, 8])

theorem holeMemory_holdsInfo : HoldsInfo holeMemory 0x10000 holeTags where
  held := by
    refine ⟨rfl, rfl, ⟨by decide, by decide, by decide⟩, rfl, rfl, ⟨by decide, rfl, ?_⟩, rfl⟩
    exact ⟨rfl, rfl, rfl, rfl, trivial⟩
  fits := by decide

theorem handed_out_available_holeMemory :
    ∃ pmm, kernelMainMemory holeMemory 8 0x10000 0xC0100000 0xC0200000 (some fun _ => 0) =
        some pmm ∧
      ((∀ block, HandsOut pmm block → 0x100 ≤ block → AvailablePage holeMap block) ↔
        (some fun _ => 0 : Option (Nat → BitVec 32)) = none ∨
          Unbroken holeMap (blockCount holeMap 0x100000)) :=
  handed_out_available holeMemory_holdsInfo (by decide)

/-- **A block in the hole.** The kernel takes 1 MiB, and block 0xF00 is no memory. -/
theorem exists_block_in_hole :
    ¬ ∀ (m : Memory) (fuel addr startOfKernel endOfKernel : Nat) (tags : List MultibootTag)
        (array : Option (Nat → BitVec 32)) (pmm : PhysicalMemoryManager), HoldsInfo m addr tags →
      kernelMainMemory m fuel addr startOfKernel endOfKernel array = some pmm →
        ∀ block, HandsOut pmm block → 0x100 ≤ block → AvailablePage (memoryMap tags) block := by
  intro hall
  obtain ⟨pmm, hpmm, hout⟩ := kernelMainMemory_handsOut holeMemory_holdsInfo (by decide : _ < 8)
    0xC0100000 0xC0200000 (some fun _ => 0)
  have hblock : HandsOut pmm 0xF00 := (hout 0xF00).mpr ⟨Option.some_ne_none _, by decide⟩
  have hin := hall _ _ _ _ _ _ _ _ holeMemory_holdsInfo hpmm 0xF00 hblock (by decide)
  revert hin
  decide

end Xylophone
