import Mathlib.Data.Finset.Card
import Mathlib.Data.Finset.Range

/-!
# `bitmap.h`

A bitmap over an array of 32-bit words. The array is read and written by word and offset; what
the rest of the kernel sees is a set of bit numbers (`Bitmap.bits`). The words from `memorySize` on
are the memory behind the array: writing there changes no bit of the bitmap, and what else lies in
that memory is for the caller to say (`giveBack`).

* `mem_bits_set`, `mem_bits_clear` — setting and clearing one bit changes that bit only
-/

namespace Xylophone

/-- `bitmap_t`. -/
structure Bitmap where
  array : Nat → BitVec 32
  bitCount : Nat
  memorySize : Nat
  sizeofTypeT : Nat
  bitsPerEntry : Nat

/-- `bitmap_init`. -/
def bitmapInit (sizeofTypeT : Nat) : Bitmap where
  array := fun _ => 0
  bitCount := 0
  memorySize := 0
  sizeofTypeT := sizeofTypeT
  bitsPerEntry := sizeofTypeT * 8

/-- `bitmap_set_memory_size`. -/
def bitmapSetMemorySize (bitmap : Bitmap) (memorySize : Nat) : Bitmap :=
  { bitmap with
    memorySize := memorySize
    bitCount := memorySize / bitmap.sizeofTypeT * bitmap.bitsPerEntry }

/-- `bitmap_place`: the array is the memory at the placement. -/
def bitmapPlace (bitmap : Bitmap) (array : Nat → BitVec 32) (memorySize : Nat) : Bitmap :=
  bitmapSetMemorySize { bitmap with array := array } memorySize

/-- `bitmap_clear`. -/
def bitmapClear (bitmap : Bitmap) : Bitmap :=
  { bitmap with array := fun i => if i * 4 < bitmap.memorySize then 0 else bitmap.array i }

/-- `bitmap_index_from_bit`. -/
def bitmapIndexFromBit (bitmap : Bitmap) (idx : Nat) : Nat := idx / bitmap.bitsPerEntry

/-- `bitmap_offset_from_bit`. -/
def bitmapOffsetFromBit (bitmap : Bitmap) (idx : Nat) : Nat := idx % bitmap.bitsPerEntry

/-- `(array[index] >> offset) & 0x1`. -/
def bitmapTest (bitmap : Bitmap) (idx : Nat) : Bool :=
  (bitmap.array (bitmapIndexFromBit bitmap idx) >>> bitmapOffsetFromBit bitmap idx) &&& 1#32 ≠ 0#32

/-- `array[index] |= (0x1 << offset)`. -/
def bitmapSet (bitmap : Bitmap) (idx : Nat) : Bitmap :=
  { bitmap with
    array := fun i =>
      if i = bitmapIndexFromBit bitmap idx then
        bitmap.array i ||| (1#32 <<< bitmapOffsetFromBit bitmap idx)
      else bitmap.array i }

/-- `array[index] &= ~(0x1 << offset)`. -/
def bitmapReset (bitmap : Bitmap) (idx : Nat) : Bitmap :=
  { bitmap with
    array := fun i =>
      if i = bitmapIndexFromBit bitmap idx then
        bitmap.array i &&& ~~~(1#32 <<< bitmapOffsetFromBit bitmap idx)
      else bitmap.array i }

/-- The bitmap counts 32 bits to a word, as the physical memory manager sets it up. -/
structure Bitmap.Words (bitmap : Bitmap) : Prop where
  bitsPerEntry : bitmap.bitsPerEntry = 32
  sizeofTypeT : bitmap.sizeofTypeT = 4
  bitCount : bitmap.bitCount = bitmap.memorySize / 4 * 32

variable {bitmap : Bitmap} {i j : Nat}

theorem and_one_eq_zero_iff (w : BitVec 32) (n : Nat) :
    (w >>> n) &&& 1#32 = 0#32 ↔ w.getLsbD n = false := by
  constructor
  · intro h
    have := congrArg (fun v => BitVec.getLsbD v 0) h
    simpa using this
  · intro h
    apply BitVec.eq_of_getLsbD_eq
    intro k hk
    rcases Nat.eq_zero_or_pos k with rfl | hpos
    · simp [h]
    · simp only [BitVec.getLsbD_and, BitVec.getLsbD_one, BitVec.getLsbD_zero]
      simp
      omega

/-- The word-and-offset test reads one bit of one word. -/
theorem bitmapTest_eq (hw : bitmap.Words) :
    bitmapTest bitmap i = (bitmap.array (i / 32)).getLsbD (i % 32) := by
  unfold bitmapTest bitmapIndexFromBit bitmapOffsetFromBit
  rw [hw.bitsPerEntry]
  cases h : (bitmap.array (i / 32)).getLsbD (i % 32) with
  | false => simpa using (and_one_eq_zero_iff _ _).mpr h
  | true =>
    have : ¬ (bitmap.array (i / 32) >>> (i % 32)) &&& 1#32 = 0#32 := by
      rw [and_one_eq_zero_iff, h]
      simp
    simpa using this

theorem bitmapSet_words (hw : bitmap.Words) (i : Nat) : (bitmapSet bitmap i).Words :=
  ⟨hw.bitsPerEntry, hw.sizeofTypeT, hw.bitCount⟩

theorem bitmapReset_words (hw : bitmap.Words) (i : Nat) : (bitmapReset bitmap i).Words :=
  ⟨hw.bitsPerEntry, hw.sizeofTypeT, hw.bitCount⟩

/-- Two bit numbers are the same word and offset only when they are equal. -/
theorem div_mod_inj (h : i / 32 = j / 32) (h' : i % 32 = j % 32) : i = j := by omega

theorem getLsbD_one_shiftLeft {n k : Nat} (hk : k < 32) :
    (1#32 <<< n).getLsbD k = decide (k = n) := by
  rw [BitVec.getLsbD_shiftLeft]
  by_cases hkn : k < n
  · simp [hkn]
    omega
  · rw [BitVec.getLsbD_one]
    simp only [hkn, decide_false, Bool.not_false, Bool.and_true]
    rw [decide_eq_true hk]
    simp
    omega

/-- **Setting a bit sets that bit only.** -/
theorem bitmapTest_set (hw : bitmap.Words) :
    bitmapTest (bitmapSet bitmap i) j = (decide (j = i) || bitmapTest bitmap j) := by
  rw [bitmapTest_eq (bitmapSet_words hw i), bitmapTest_eq hw]
  unfold bitmapSet bitmapIndexFromBit bitmapOffsetFromBit
  simp only [hw.bitsPerEntry]
  have hlt : j % 32 < 32 := Nat.mod_lt _ (by decide)
  split
  · next he =>
    rw [BitVec.getLsbD_or, getLsbD_one_shiftLeft hlt, Bool.or_comm]
    congr 1
    simp only [decide_eq_decide]
    constructor
    · exact fun hm => div_mod_inj he hm
    · rintro rfl
      rfl
  · next hne =>
    have : j ≠ i := by
      rintro rfl
      exact hne rfl
    simp [this]

/-- **Clearing a bit clears that bit only.** -/
theorem bitmapTest_reset (hw : bitmap.Words) :
    bitmapTest (bitmapReset bitmap i) j = (!decide (j = i) && bitmapTest bitmap j) := by
  rw [bitmapTest_eq (bitmapReset_words hw i), bitmapTest_eq hw]
  unfold bitmapReset bitmapIndexFromBit bitmapOffsetFromBit
  simp only [hw.bitsPerEntry]
  have hlt : j % 32 < 32 := Nat.mod_lt _ (by decide)
  split
  · next he =>
    rw [BitVec.getLsbD_and, BitVec.getLsbD_not, getLsbD_one_shiftLeft hlt, Bool.and_comm]
    have hiff : (j % 32 = i % 32) ↔ j = i := ⟨fun hm => div_mod_inj he hm, fun h => by rw [h]⟩
    simp [hlt, hiff]
  · next hne =>
    have : j ≠ i := by
      rintro rfl
      exact hne rfl
    simp [this]

/-- Clearing a bit that was just set gives the old array back. -/
theorem bitmapReset_set (hw : bitmap.Words) (hclear : bitmapTest bitmap i = false) :
    bitmapReset (bitmapSet bitmap i) i = bitmap := by
  rw [bitmapTest_eq hw] at hclear
  unfold bitmapReset bitmapSet bitmapIndexFromBit bitmapOffsetFromBit
  obtain ⟨array, bitCount, memorySize, sizeofTypeT, bitsPerEntry⟩ := bitmap
  obtain rfl : bitsPerEntry = 32 := hw.bitsPerEntry
  simp only [Bitmap.mk.injEq, and_true]
  funext k
  by_cases hk : k = i / 32
  · subst hk
    simp only [if_true]
    apply BitVec.eq_of_getLsbD_eq
    intro b hb
    rw [BitVec.getLsbD_and, BitVec.getLsbD_not, BitVec.getLsbD_or, getLsbD_one_shiftLeft hb]
    by_cases hbi : b = i % 32
    · simp only [hbi, hclear]
      simp
    · simp [hbi, hb]
  · simp only [if_neg hk]

/-! ## The bitmap as a set -/

/-- The bits that are set. -/
def Bitmap.bits (bitmap : Bitmap) : Finset Nat :=
  (Finset.range bitmap.bitCount).filter fun i => bitmapTest bitmap i = true

theorem mem_bits : i ∈ bitmap.bits ↔ i < bitmap.bitCount ∧ bitmapTest bitmap i = true := by
  simp [Bitmap.bits]

theorem mem_bits_set (hw : bitmap.Words) (hi : i < bitmap.bitCount) :
    (bitmapSet bitmap i).bits = insert i bitmap.bits := by
  ext k
  rw [mem_bits, bitmapTest_set hw, Finset.mem_insert, mem_bits]
  show k < bitmap.bitCount ∧ _ ↔ _
  simp only [Bool.or_eq_true, decide_eq_true_eq]
  constructor
  · rintro ⟨hk, rfl | hk'⟩
    · exact Or.inl rfl
    · exact Or.inr ⟨hk, hk'⟩
  · rintro (rfl | ⟨hk, hk'⟩)
    · exact ⟨hi, Or.inl rfl⟩
    · exact ⟨hk, Or.inr hk'⟩

theorem mem_bits_reset (hw : bitmap.Words) :
    (bitmapReset bitmap i).bits = bitmap.bits.erase i := by
  ext k
  rw [mem_bits, bitmapTest_reset hw, Finset.mem_erase, mem_bits]
  show k < bitmap.bitCount ∧ _ ↔ _
  simp only [Bool.and_eq_true, Bool.not_eq_true', decide_eq_false_iff_not]
  constructor
  · rintro ⟨hk, hne, hk'⟩
    exact ⟨hne, hk, hk'⟩
  · rintro ⟨hne, hk, hk'⟩
    exact ⟨hk, hne, hk'⟩

end Xylophone
