import Mathlib.Order.Bounds.Basic
import Xylophone.Infra.Run
import Xylophone.Paging.PhysicalMemory

/-!
# Runs of the physical memory manager

From `physical_memory_manager_init` on, blocks are allocated and blocks that are allocated are
freed, in any order. The bitmap is then the set of the blocks that are allocated, and the three
bounds of the manager, computed in three ways, agree.

* `blockPool_exact` — what the next call does, in every state reached
-/

namespace Xylophone

open Infra

/-- A physical memory manager, and the blocks that are currently allocated. -/
structure BlockPool where
  pmm : PhysicalMemoryManager
  used : Finset Nat

inductive BlockCall where
  | allocate
  | free (block : Nat)
deriving DecidableEq, Repr

/-- One call. Only blocks that are allocated are freed. -/
inductive PoolStep : BlockPool → BlockCall → BlockPool → Prop where
  | allocate {p : BlockPool} :
      PoolStep p .allocate ⟨(allocateBlock p.pmm).1,
        if (allocateBlock p.pmm).2 = noBlock then p.used
        else insert (allocateBlock p.pmm).2 p.used⟩
  | free {p : BlockPool} {block : Nat} (allocated : block ∈ p.used) :
      PoolStep p (.free block) ⟨freeBlock p.pmm block, p.used.erase block⟩

/-! ## The words of the bitmap that a call touches -/

/-- The bits that the loop of `physical_memory_manager_get_first_free_block` tests. -/
def testedBits (pmm : PhysicalMemoryManager) : List Nat :=
  if pmm.isInitialized then
    match getFirstFreeBlock pmm with
    | some block => List.range (block + 1)
    | none => List.range pmm.bitmap.bitCount
  else []

/-- The words of the array that `physical_memory_manager_allocate_block` reads or writes. -/
def allocateWords (pmm : PhysicalMemoryManager) : List Nat :=
  (testedBits pmm ++ (getFirstFreeBlock pmm).toList).map (bitmapIndexFromBit pmm.bitmap)

/-- The words of the array that `physical_memory_manager_free_block` reads or writes. -/
def freeWords (pmm : PhysicalMemoryManager) (block : Nat) : List Nat :=
  if pmm.isInitialized then [bitmapIndexFromBit pmm.bitmap block] else []

/-- The word lies within the `memory_size` bytes of the array. -/
def WordInside (pmm : PhysicalMemoryManager) (word : Nat) : Prop :=
  (word + 1) * 4 ≤ pmm.bitmap.memorySize

/-! ## What the manager does -/

/-- A manager for `memorySize` bytes with the blocks `used` allocated, whose bitmap was placed on
`array`. -/
structure PoolExact (memorySize : Nat) (array : Nat → BitVec 32) (p : BlockPool) : Prop where
  /-- The least block that is not allocated is returned, and only it is marked. -/
  least : (allocateBlock p.pmm).2 ≠ noBlock →
    IsLeast {b | b < p.pmm.bitmap.bitCount ∧ b ∉ p.used} (allocateBlock p.pmm).2 ∧
      (allocateBlock p.pmm).1.bitmap.bits = insert (allocateBlock p.pmm).2 p.pmm.bitmap.bits
  /-- There is no block exactly when all are allocated, and then nothing changes. -/
  exhausted : ((allocateBlock p.pmm).2 = noBlock ↔ p.used = Finset.range p.pmm.bitmap.bitCount) ∧
    ((allocateBlock p.pmm).2 = noBlock → (allocateBlock p.pmm).1 = p.pmm)
  marked : p.pmm.bitmap.bits = p.used
  bitCount_le : p.pmm.bitmap.bitCount ≤ memorySize / 0x1000
  valid : ∀ b, isValidBlock p.pmm b = true ↔ b < p.pmm.bitmap.bitCount
  invalid : isValidBlock p.pmm noBlock = false
  count : p.pmm.blockUsed = p.used.card
  /-- No word outside of `memory_size` bytes is touched: not by an allocation, -/
  allocateInside : ∀ w ∈ allocateWords p.pmm, WordInside p.pmm w
  /-- not when a block that is allocated is freed, -/
  freeInside : ∀ b ∈ p.used, ∀ w ∈ freeWords p.pmm b, WordInside p.pmm w
  /-- and not so far. -/
  outside : ∀ w, ¬ WordInside p.pmm w → p.pmm.bitmap.array w = array w

/-- What every call preserves. -/
structure BlockInvariant (memorySize : Nat) (array : Nat → BitVec 32) (p : BlockPool) : Prop where
  words : p.pmm.bitmap.Words
  whole : p.pmm.bitmap.memorySize = memorySize / 0x1000 / 32 * 4
  initialized : p.pmm.isInitialized = true
  used : p.pmm.bitmap.bits = p.used
  count : CountExact p.pmm
  outside : ∀ w, ¬ WordInside p.pmm w → p.pmm.bitmap.array w = array w

variable {pmm : PhysicalMemoryManager} {memorySize : Nat} {array : Nat → BitVec 32}
  {p p' : BlockPool}

namespace BlockInvariant

theorem bitCount_eq (h : BlockInvariant memorySize array p) :
    p.pmm.bitmap.bitCount = memorySize / 0x1000 / 32 * 32 := by
  rw [h.words.bitCount, h.whole, Nat.mul_div_cancel _ (by decide)]

theorem ready (h : BlockInvariant memorySize array p) (hsize : memorySize < 0x100000000) :
    PmmReady p.pmm := by
  have hcount := h.bitCount_eq
  exact ⟨h.initialized, h.words, by omega⟩

/-- The word of a bit of the bitmap. -/
theorem wordInside (h : BlockInvariant memorySize array p) {b : Nat}
    (hb : b < p.pmm.bitmap.bitCount) : WordInside p.pmm (bitmapIndexFromBit p.pmm.bitmap b) := by
  have hcount := h.bitCount_eq
  unfold WordInside bitmapIndexFromBit
  rw [h.words.bitsPerEntry, h.whole]
  omega

theorem lt_of_used (h : BlockInvariant memorySize array p) {b : Nat} (hb : b ∈ p.used) :
    b < p.pmm.bitmap.bitCount := by
  rw [← h.used] at hb
  exact (mem_bits.mp hb).1

/-- A write to the word of a bit of the bitmap. -/
theorem outside_of_ne (h : BlockInvariant memorySize array p) {b w : Nat}
    (hb : b < p.pmm.bitmap.bitCount) (hw : ¬ WordInside p.pmm w) :
    w ≠ bitmapIndexFromBit p.pmm.bitmap b := by
  rintro rfl
  exact hw (h.wordInside hb)

theorem take (h : BlockInvariant memorySize array p) (hsize : memorySize < 0x100000000) {b : Nat}
    (hb : b < p.pmm.bitmap.bitCount) (hfree : b ∉ p.pmm.bitmap.bits) :
    BlockInvariant memorySize array ⟨takeBlock p.pmm b, insert b p.used⟩ where
  words := bitmapSet_words h.words b
  whole := h.whole
  initialized := h.initialized
  used := by
    rw [takeBlock_bits (h.ready hsize) hb, h.used]
  count := h.count.take (h.ready hsize) hb hfree
  outside := fun w hw =>
    (if_neg (h.outside_of_ne hb hw)).trans (h.outside w hw)

theorem free (h : BlockInvariant memorySize array p) (hsize : memorySize < 0x100000000) {b : Nat}
    (hb : b ∈ p.used) :
    BlockInvariant memorySize array ⟨freeBlock p.pmm b, p.used.erase b⟩ := by
  have hready := h.ready hsize
  have hcount := h.count.free hready (by rw [h.used]; exact hb)
  have hbits := freeBlock_bits hready b
  have hfree : freeBlock p.pmm b = { p.pmm with
      bitmap := bitmapReset p.pmm.bitmap b, blockUsed := sub32 p.pmm.blockUsed 1 } :=
    if_pos h.initialized
  refine ⟨(freeBlock_ready hready b).words, ?_, ?_, ?_, hcount, fun w hw => ?_⟩
  · rw [hfree]
    exact h.whole
  · exact (freeBlock_ready hready b).initialized
  · rw [hbits, h.used]
  · rw [hfree] at hw ⊢
    exact (if_neg (h.outside_of_ne (h.lt_of_used hb) hw)).trans (h.outside w hw)

theorem step {c : BlockCall} (hsize : memorySize < 0x100000000)
    (h : BlockInvariant memorySize array p) (hstep : PoolStep p c p') :
    BlockInvariant memorySize array p' := by
  cases hstep with
  | allocate =>
    obtain ⟨b, hb, hfree, -, halloc⟩ | ⟨-, halloc⟩ := allocateBlock_cases (h.ready hsize)
    · have hcount := (h.ready hsize).bitCount_le
      have hne : b ≠ noBlock := by
        unfold noBlock
        omega
      rw [halloc, if_neg hne]
      exact h.take hsize hb hfree
    · rw [halloc, if_pos rfl]
      exact h
  | free hb => exact h.free hsize hb

end BlockInvariant

/-! ## The words that are touched -/

theorem lt_of_getFirstFreeBlock {b : Nat} (h : getFirstFreeBlock pmm = some b) :
    b < pmm.bitmap.bitCount := by
  unfold getFirstFreeBlock at h
  split at h
  · exact List.mem_range.mp (List.mem_of_find?_eq_some h)
  · cases h

theorem lt_of_testedBits {b : Nat} (h : b ∈ testedBits pmm) : b < pmm.bitmap.bitCount := by
  unfold testedBits at h
  split at h
  · split at h
    · next first hfirst =>
      have hlt := lt_of_getFirstFreeBlock hfirst
      have hle := List.mem_range.mp h
      omega
    · exact List.mem_range.mp h
  · cases h

/-- An allocation touches words of bits of the bitmap only. -/
theorem exists_bit_of_allocateWords {w : Nat} (h : w ∈ allocateWords pmm) :
    ∃ b < pmm.bitmap.bitCount, w = bitmapIndexFromBit pmm.bitmap b := by
  obtain ⟨b, hb, rfl⟩ := List.mem_map.mp h
  refine ⟨b, ?_, rfl⟩
  obtain hb | hb := List.mem_append.mp hb
  · exact lt_of_testedBits hb
  · exact lt_of_getFirstFreeBlock (Option.mem_toList.mp hb)

/-! ## Every state reached -/

theorem BlockInvariant.exact (h : BlockInvariant memorySize array p)
    (hsize : memorySize < 0x100000000) : PoolExact memorySize array p := by
  have hready := h.ready hsize
  have hcount := h.bitCount_eq
  have hno : ∀ b < p.pmm.bitmap.bitCount, b ≠ noBlock := by
    intro b hb
    unfold noBlock
    omega
  refine ⟨fun hne => ?_, ⟨?_, fun hnone => ?_⟩, h.used, by omega, fun b => ?_,
    isValidBlock_noBlock hready, ?_, fun w hw => ?_, fun b hb w hw => ?_, h.outside⟩
  · obtain ⟨b, hb, hfree, hbefore, halloc⟩ | ⟨-, halloc⟩ := allocateBlock_cases hready
    · rw [halloc]
      refine ⟨⟨⟨hb, by rwa [← h.used]⟩, fun c hc => ?_⟩, takeBlock_bits hready hb⟩
      -- a smaller block is in use
      by_contra hlt
      exact hc.2 (h.used ▸ hbefore c (Nat.lt_of_not_le hlt))
    · exact absurd (by rw [halloc]) hne
  · obtain ⟨b, hb, hfree, -, halloc⟩ | ⟨hfull, halloc⟩ := allocateBlock_cases hready
    · rw [halloc, ← h.used]
      refine iff_of_false (hno b hb) fun hall => hfree ?_
      rw [hall]
      exact Finset.mem_range.mpr hb
    · rw [halloc, ← h.used]
      exact iff_of_true rfl hfull
  · obtain ⟨b, hb, -, -, halloc⟩ | ⟨-, halloc⟩ := allocateBlock_cases hready
    · rw [halloc] at hnone
      exact absurd hnone (hno b hb)
    · rw [halloc]
  · unfold isValidBlock bitmapIndexFromBit
    rw [h.words.bitsPerEntry, h.words.sizeofTypeT, decide_eq_true_eq, h.words.bitCount]
    omega
  · rw [h.count, h.used]
  · obtain ⟨b, hb, rfl⟩ := exists_bit_of_allocateWords hw
    exact h.wordInside hb
  · unfold freeWords at hw
    rw [if_pos h.initialized, List.mem_singleton] at hw
    rw [hw]
    exact h.wordInside (h.lt_of_used hb)

theorem blockInvariant_init {memorySize : Nat} (hasFailure : Bool) (array : Nat → BitVec 32)
    (hnew : pmm.isInitialized = false) (hsize : memorySize < 0x100000000) :
    BlockInvariant memorySize array
      ⟨physicalMemoryManagerInit pmm memorySize hasFailure (some array), ∅⟩ := by
  have hready := physicalMemoryManagerInit_ready hasFailure array hnew hsize
  obtain ⟨hbits, hused⟩ := physicalMemoryManagerInit_bits hasFailure array hnew hsize
  refine ⟨hready.words, ?_, hready.initialized, hbits, ?_, fun w hw => ?_⟩
  · unfold physicalMemoryManagerInit
    rw [if_neg (by simp [hnew])]
    rfl
  · unfold CountExact
    rw [hbits, hused, Finset.card_empty]
  · unfold physicalMemoryManagerInit WordInside at *
    rw [if_neg (by simp [hnew])] at *
    refine if_neg fun hin => hw ?_
    show (w + 1) * 4 ≤ memorySize / 0x1000 / 32 * 4
    have hin' : w * 4 < memorySize / 0x1000 / 32 * 4 := hin
    omega

/-- Without memory for the bitmap the manager does not come up. -/
theorem physicalMemoryManagerInit_none (memorySize : Nat) (hasFailure : Bool)
    (hnew : pmm.isInitialized = false) :
    (physicalMemoryManagerInit pmm memorySize hasFailure none).isInitialized = false ∧
      (physicalMemoryManagerInit pmm memorySize hasFailure none).bitmap = bitmapInit 4 ∧
      (physicalMemoryManagerInit pmm memorySize hasFailure none).blockUsed = 0 := by
  unfold physicalMemoryManagerInit
  rw [if_neg (by simp [hnew])]
  exact ⟨hnew, rfl, rfl⟩

theorem allocateBlock_down (h : pmm.isInitialized = false) : allocateBlock pmm = (pmm, noBlock) :=
  if_neg (by simp [h])

/-- A manager without blocks. -/
theorem poolExact_down {pmm' : PhysicalMemoryManager} (hdown : pmm'.isInitialized = false)
    (hbitmap : pmm'.bitmap = bitmapInit 4) (hused : pmm'.blockUsed = 0) :
    PoolExact memorySize (fun _ => 0) ⟨pmm', ∅⟩ := by
  have halloc := allocateBlock_down hdown
  have hvalid : ∀ b, isValidBlock pmm' b = false := by
    intro b
    unfold isValidBlock
    rw [hbitmap, decide_eq_false_iff_not]
    exact Nat.not_lt_zero _
  have hbits : pmm'.bitmap.bits = ∅ := by
    rw [hbitmap]
    rfl
  have hcount : pmm'.bitmap.bitCount = 0 := by
    rw [hbitmap]
    rfl
  refine ⟨fun hne => absurd (by rw [halloc]) hne, ⟨iff_of_true (by rw [halloc]) ?_, fun _ => ?_⟩,
    hbits, ?_, fun b => ?_, hvalid _, hused, fun w hw => ?_, nofun, fun w _ => ?_⟩
  · rw [hcount]
    rfl
  · rw [halloc]
  · rw [hcount]
    exact Nat.zero_le _
  · rw [hvalid, hcount]
    exact iff_of_false Bool.false_ne_true (Nat.not_lt_zero b)
  · obtain ⟨b, hb, -⟩ := exists_bit_of_allocateWords hw
    rw [hcount] at hb
    exact absurd hb (Nat.not_lt_zero b)
  · rw [hbitmap]
    rfl

/-- **What the next call does, in every state that is reached.** `array` is the memory that the heap
has given for the bitmap, if it has. -/
theorem blockPool_exact {memorySize : Nat} (hsize : memorySize < 0x100000000) (hasFailure : Bool)
    (array : Option (Nat → BitVec 32)) (hnew : pmm.isInitialized = false)
    (hrun : Run PoolStep (fun _ _ => True)
      ⟨physicalMemoryManagerInit pmm memorySize hasFailure array, ∅⟩ p) :
    PoolExact memorySize (array.getD fun _ => 0) p := by
  cases array with
  | some array =>
    have hinv : BlockInvariant memorySize array p :=
      hrun.invariant (fun _ _ _ hI _ hstep => hI.step hsize hstep)
        (blockInvariant_init hasFailure array hnew hsize)
    exact hinv.exact hsize
  | none =>
    obtain ⟨hdown, hbitmap, hused⟩ := physicalMemoryManagerInit_none memorySize hasFailure hnew
    generalize physicalMemoryManagerInit pmm memorySize hasFailure none = pmm'
      at hdown hbitmap hused hrun
    -- nothing can be allocated and so nothing can be freed
    have hsame : p = ⟨pmm', ∅⟩ := by
      refine hrun.invariant (I := fun q => q = ⟨pmm', ∅⟩) (fun q c q' hq _ hstep => ?_) rfl
      subst hq
      cases hstep with
      | allocate => rw [allocateBlock_down hdown, if_pos rfl]
      | free hb => cases hb
    rw [hsame]
    exact poolExact_down hdown hbitmap hused

/-- The manager of a kernel that has not called `physical_memory_manager_init` yet. -/
def downManager : PhysicalMemoryManager := ⟨bitmapInit 4, false, 0, false, false⟩

/-- 64 blocks: two are allocated and the first is freed again. -/
theorem blockPool_exact_secondBlock : ∃ p : BlockPool,
    p.used = {1} ∧ PoolExact 0x40000 (fun _ => 0) p := by
  refine ⟨_, ?_, @blockPool_exact downManager _ 0x40000 (by decide) false (some fun _ => 0) rfl
    (((Run.single trivial .allocate).tail trivial .allocate).tail trivial (@PoolStep.free _ 0 ?_))⟩
  · decide +kernel
  · decide +kernel

end Xylophone
