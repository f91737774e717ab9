import Xylophone.Data.Bitmap
import Xylophone.Infra.Word

/-!
# `physical-memory-manager.c`

The physical memory manager hands out blocks of 4 KiB, first free block first, and keeps a
bitmap of the blocks it has handed out and a count of them.

* `allocateBlock_cases` — an allocation takes the first block whose bit is clear, or there is none
* `freeBlock_bits` — freeing a block clears its bit and lowers the count
-/

namespace Xylophone

open Infra

/--
`physical_memory_manager_t`. Of the failure handle only matters whether there is one: a handle
that is installed returns and leaves the manager alone.
-/
structure PhysicalMemoryManager where
  bitmap : Bitmap
  isInitialized : Bool
  blockUsed : Nat
  failed : Bool
  hasFailure : Bool

/-- `(uint32_t)(-1)`, returned for "no block". -/
def noBlock : Nat := 0xFFFFFFFF

/--
`physical_memory_manager_init`. The bitmap is placed in memory from the heap; `array` is what
that memory holds, `none` when the heap returns `NULL`.
-/
def physicalMemoryManagerInit (pmm : PhysicalMemoryManager) (memorySize : Nat) (hasFailure : Bool)
    (array : Option (Nat → BitVec 32)) : PhysicalMemoryManager :=
  if pmm.isInitialized then pmm
  else
    let bitmap := bitmapInit 4
    let bitCount := memorySize / 0x1000
    let size := bitCount / bitmap.bitsPerEntry * bitmap.sizeofTypeT
    let pmm := { pmm with
      blockUsed := 0, failed := false, hasFailure := hasFailure, bitmap := bitmap }
    match array with
    | none => pmm
    | some array =>
      { pmm with bitmap := bitmapClear (bitmapPlace bitmap array size), isInitialized := true }

/-- `physical_memory_manager_is_valid_block`. -/
def isValidBlock (pmm : PhysicalMemoryManager) (block : Nat) : Bool :=
  decide (bitmapIndexFromBit pmm.bitmap block < pmm.bitmap.memorySize / pmm.bitmap.sizeofTypeT)

/-- `physical_memory_manager_get_first_free_block`. -/
def getFirstFreeBlock (pmm : PhysicalMemoryManager) : Option Nat :=
  if pmm.isInitialized then
    (List.range pmm.bitmap.bitCount).find? fun i => !bitmapTest pmm.bitmap i
  else none

/-- `physical_memory_manager_allocate_block`. -/
def allocateBlock (pmm : PhysicalMemoryManager) : PhysicalMemoryManager × Nat :=
  if pmm.isInitialized then
    match getFirstFreeBlock pmm with
    | some block =>
      ({ pmm with bitmap := bitmapSet pmm.bitmap block, blockUsed := wrap32 (pmm.blockUsed + 1) },
        block)
    | none => (pmm, noBlock)
  else (pmm, noBlock)

/-- `physical_memory_manager_free_block`. The block is not tested, and the bit of one that the manager
does not have lies in the memory behind the bitmap. -/
def freeBlock (pmm : PhysicalMemoryManager) (block : Nat) : PhysicalMemoryManager :=
  if pmm.isInitialized then
    { pmm with bitmap := bitmapReset pmm.bitmap block, blockUsed := sub32 pmm.blockUsed 1 }
  else pmm

/-! ## A manager that has been initialised -/

/-- The manager is up, and there is a 20-bit frame number for each of its blocks. -/
structure PmmReady (pmm : PhysicalMemoryManager) : Prop where
  initialized : pmm.isInitialized = true
  words : pmm.bitmap.Words
  bitCount_le : pmm.bitmap.bitCount ≤ 0x100000

theorem physicalMemoryManagerInit_ready {pmm : PhysicalMemoryManager} {memorySize : Nat}
    (hasFailure : Bool) (array : Nat → BitVec 32) (hnew : pmm.isInitialized = false)
    (hsize : memorySize < 0x100000000) :
    PmmReady (physicalMemoryManagerInit pmm memorySize hasFailure (some array)) := by
  unfold physicalMemoryManagerInit
  rw [if_neg (by simp [hnew])]
  refine ⟨rfl, ⟨rfl, rfl, rfl⟩, ?_⟩
  show memorySize / 0x1000 / 32 * 4 / 4 * 32 ≤ 0x100000
  omega

/-- No block of a manager that has just been initialised is in use. -/
theorem physicalMemoryManagerInit_bits {pmm : PhysicalMemoryManager} {memorySize : Nat}
    (hasFailure : Bool) (array : Nat → BitVec 32) (hnew : pmm.isInitialized = false)
    (hsize : memorySize < 0x100000000) :
    (physicalMemoryManagerInit pmm memorySize hasFailure (some array)).bitmap.bits = ∅ ∧
      (physicalMemoryManagerInit pmm memorySize hasFailure (some array)).blockUsed = 0 := by
  have hready := physicalMemoryManagerInit_ready hasFailure array hnew hsize
  unfold physicalMemoryManagerInit at *
  rw [if_neg (by simp [hnew])] at *
  refine ⟨?_, rfl⟩
  rw [Finset.eq_empty_iff_forall_notMem]
  intro i hi
  obtain ⟨hlt, htest⟩ := mem_bits.mp hi
  rw [bitmapTest_eq hready.words] at htest
  have hin : i < memorySize / 0x1000 / 32 * 4 / 4 * 32 := hlt
  have hzero : (bitmapClear (bitmapPlace (bitmapInit 4) array
      (memorySize / 0x1000 / 32 * 4))).array (i / 32) = 0 := by
    unfold bitmapClear
    exact if_pos (show i / 32 * 4 < memorySize / 0x1000 / 32 * 4 by omega)
  have hbit : ((0 : BitVec 32).getLsbD (i % 32)) = true := by
    rw [← hzero]
    exact htest
  simp at hbit

variable {pmm : PhysicalMemoryManager}

theorem isValidBlock_of_lt (hr : PmmReady pmm) {block : Nat} (h : block < pmm.bitmap.bitCount) :
    isValidBlock pmm block = true := by
  have hcount := hr.words.bitCount
  unfold isValidBlock bitmapIndexFromBit
  rw [hr.words.bitsPerEntry, hr.words.sizeofTypeT, decide_eq_true_eq]
  omega

theorem isValidBlock_noBlock (hr : PmmReady pmm) : isValidBlock pmm noBlock = false := by
  have hcount := hr.words.bitCount
  have hle := hr.bitCount_le
  unfold isValidBlock bitmapIndexFromBit noBlock
  rw [hr.words.bitsPerEntry, hr.words.sizeofTypeT, decide_eq_false_iff_not]
  omega

/-- The state after the block has been handed out. -/
def takeBlock (pmm : PhysicalMemoryManager) (block : Nat) : PhysicalMemoryManager :=
  { pmm with bitmap := bitmapSet pmm.bitmap block, blockUsed := wrap32 (pmm.blockUsed + 1) }

/-- **First free block, or none.** -/
theorem allocateBlock_cases (hr : PmmReady pmm) :
    (∃ block, block < pmm.bitmap.bitCount ∧ block ∉ pmm.bitmap.bits ∧
      (∀ j, j < block → j ∈ pmm.bitmap.bits) ∧
      allocateBlock pmm = (takeBlock pmm block, block)) ∨
    (pmm.bitmap.bits = Finset.range pmm.bitmap.bitCount ∧ allocateBlock pmm = (pmm, noBlock)) := by
  unfold allocateBlock getFirstFreeBlock
  simp only [hr.initialized, if_true]
  cases hfind : (List.range pmm.bitmap.bitCount).find? fun i => !bitmapTest pmm.bitmap i with
  | some block =>
    left
    obtain ⟨htest, hmem, hbefore⟩ := List.find?_range_eq_some.mp hfind
    have hlt : block < pmm.bitmap.bitCount := List.mem_range.mp hmem
    refine ⟨block, hlt, ?_, ?_, by simp only [takeBlock, hr.initialized]⟩
    · intro hin
      rw [(mem_bits.mp hin).2] at htest
      cases htest
    · intro j hj
      exact mem_bits.mpr ⟨by omega, by simpa using hbefore j hj⟩
  | none =>
    right
    refine ⟨?_, rfl⟩
    ext i
    rw [mem_bits, Finset.mem_range]
    have hall := List.find?_eq_none.mp hfind
    exact ⟨fun h => h.1, fun h => ⟨h, by simpa using hall i (List.mem_range.mpr h)⟩⟩

theorem takeBlock_ready (hr : PmmReady pmm) (block : Nat) : PmmReady (takeBlock pmm block) :=
  ⟨hr.initialized, bitmapSet_words hr.words block, hr.bitCount_le⟩

theorem takeBlock_bits (hr : PmmReady pmm) {block : Nat} (h : block < pmm.bitmap.bitCount) :
    (takeBlock pmm block).bitmap.bits = insert block pmm.bitmap.bits := mem_bits_set hr.words h

theorem freeBlock_ready (hr : PmmReady pmm) (block : Nat) : PmmReady (freeBlock pmm block) := by
  unfold freeBlock
  rw [if_pos hr.initialized]
  exact ⟨hr.initialized, bitmapReset_words hr.words block, hr.bitCount_le⟩

theorem freeBlock_bits (hr : PmmReady pmm) (block : Nat) :
    (freeBlock pmm block).bitmap.bits = pmm.bitmap.bits.erase block := by
  unfold freeBlock
  rw [if_pos hr.initialized]
  exact mem_bits_reset hr.words

theorem freeBlock_blockUsed (hr : PmmReady pmm) (block : Nat) :
    (freeBlock pmm block).blockUsed = sub32 pmm.blockUsed 1 := by
  unfold freeBlock
  rw [if_pos hr.initialized]

theorem freeBlock_bitCount (block : Nat) :
    (freeBlock pmm block).bitmap.bitCount = pmm.bitmap.bitCount := by
  unfold freeBlock
  split <;> rfl

/-! ## The count -/

/-- The count is the number of blocks in use. -/
def CountExact (pmm : PhysicalMemoryManager) : Prop := pmm.blockUsed = pmm.bitmap.bits.card

theorem card_bits_le (pmm : PhysicalMemoryManager) :
    pmm.bitmap.bits.card ≤ pmm.bitmap.bitCount := by
  have := Finset.card_filter_le (Finset.range pmm.bitmap.bitCount) fun i =>
    bitmapTest pmm.bitmap i = true
  rw [Finset.card_range] at this
  exact this

theorem CountExact.take (h : CountExact pmm) (hr : PmmReady pmm) {block : Nat}
    (hlt : block < pmm.bitmap.bitCount) (hfree : block ∉ pmm.bitmap.bits) :
    CountExact (takeBlock pmm block) := by
  have hle := card_bits_le pmm
  have hcount := hr.bitCount_le
  unfold CountExact at *
  rw [takeBlock_bits hr hlt, Finset.card_insert_of_notMem hfree, ← h]
  exact wrap32_of_lt (by omega)

theorem CountExact.free (h : CountExact pmm) (hr : PmmReady pmm) {block : Nat}
    (hused : block ∈ pmm.bitmap.bits) : CountExact (freeBlock pmm block) := by
  have hle := card_bits_le pmm
  have hcount := hr.bitCount_le
  have hpos : 0 < pmm.bitmap.bits.card := Finset.card_pos.mpr ⟨block, hused⟩
  unfold CountExact at *
  rw [freeBlock_bits hr, freeBlock_blockUsed hr, Finset.card_erase_of_mem hused, h]
  exact sub32_of_le (by omega) (by omega)

end Xylophone
