import Xylophone.Heap.Layout

/-!
# Cutting a block out of a hole

`placeBlock` and `carve`, the last part of `allocate`. `placeBlock_spec` says what the first
does to an interval of the heap, in exact arithmetic; `carve_spec` puts it together with the
front remainder of an aligned request and replaces the hole in the layout.

An aligned request is not always cut well: `CarveOk` is the condition under which the front
remainder and the tail remainder have room for their own tags and the block really fits.
-/

namespace Xylophone

open Infra

variable {W : Type}

/-- The tiles of a block of `newSize` bytes at the front of `holeSize` bytes at `pos`. -/
def blockTiles (pos holeSize newSize : Nat) : List HeapTile :=
  ⟨pos, newSize, false⟩ ::
    if holeSize = newSize then [] else [⟨pos + newSize, holeSize - newSize, true⟩]

theorem tiles_blockTiles {pos holeSize newSize : Nat} (h : newSize ≤ holeSize) :
    Tiles pos (blockTiles pos holeSize newSize) (pos + holeSize) := by
  unfold blockTiles
  split
  · next he => simp [he]
  · simp only [tiles_cons, Tile.stop_mk, tiles_nil, true_and]
    omega

/-- The index after the block: what is left of the hole is inserted, if anything is left. -/
def placeIndex (lt : Nat → Nat → Bool) (array : OrderedArray Nat) (pos holeSize newSize : Nat) :
    OrderedArray Nat :=
  if holeSize = newSize then array else (orderedArrayInsert lt array (pos + newSize)).1

/-- The effect of `placeBlock` on the interval `[pos, pos + holeSize)`. -/
structure BlockPlaced (s s' : HeapState W) (pos holeSize newSize : Nat) : Prop where
  agree : Memory.AgreeOff pos (pos + holeSize) s.mem s'.mem
  heap : s'.heap = { s.heap with heapArray := s'.heap.heapArray }
  paging : s'.paging = s.paging
  tags : ∀ t ∈ blockTiles pos holeSize newSize, TileTags s'.mem t
  array : s'.heap.heapArray =
    placeIndex (isLessThan s'.mem) s.heap.heapArray pos holeSize newSize

/-- `placeBlock` with a remainder that is empty or has room for its tags. -/
theorem placeBlock_spec (s : HeapState W) (pos holeSize size newSize : Nat)
    (hsize : newSize = size + 20) (hfit : newSize = holeSize ∨ newSize + 20 ≤ holeSize)
    (hin : pos + holeSize ≤ s.heap.endAddress) (hend : s.heap.endAddress < 0x100000000) :
    BlockPlaced s (placeBlock s pos holeSize size newSize).1 pos holeSize newSize ∧
      (placeBlock s pos holeSize size newSize).2 = pos + 12 := by
  have hfoot : wrap32 (pos + 12 + size) = pos + newSize - 8 := by
    rw [wrap32_of_lt (by omega)]; omega
  have hrest : sub32 holeSize newSize = holeSize - newSize := sub32_of_le (by omega) (by omega)
  have hhole : wrap32 (pos + 12 + size + 8) = pos + newSize := by
    rw [wrap32_of_lt (by omega)]; omega
  have hres : wrap32 (pos + 12) = pos + 12 := wrap32_of_lt (by omega)
  -- the block
  obtain ⟨htag, hag⟩ := tileTags_write s.mem pos newSize false (by omega) (by omega)
  rw [show (false : Bool).toNat = 0 from rfl] at htag hag
  unfold placeBlock
  simp only [hfoot, hrest, hhole, hres]
  generalize writeFooter (writeHeader s.mem pos newSize 0) (pos + newSize - 8) pos = m at htag hag ⊢
  refine ⟨?_, trivial⟩
  rcases hfit with he | hlt
  · -- the block takes all of it
    rw [if_neg (by omega)]
    refine ⟨hag.mono (Nat.le_refl _) (by omega), rfl, rfl, ?_, (if_pos he.symm).symm⟩
    intro t ht
    rw [blockTiles, if_pos he.symm, List.mem_singleton] at ht
    rw [ht]
    exact htag
  · -- the rest becomes a hole
    have hfoot' : sub32 (wrap32 (pos + newSize + (holeSize - newSize))) 8
        = pos + newSize + (holeSize - newSize) - 8 := by
      rw [wrap32_of_lt (by omega), sub32_of_le (by omega) (by omega)]
    simp only [hfoot']
    rw [if_pos (by omega), if_pos (by omega)]
    obtain ⟨htag', hag'⟩ := tileTags_write m (pos + newSize) (holeSize - newSize) true (by omega)
      (by omega)
    rw [show (true : Bool).toNat = 1 from rfl,
      show pos + newSize + (holeSize - newSize) = pos + holeSize by omega] at htag' hag'
    rw [show pos + newSize + (holeSize - newSize) = pos + holeSize by omega]
    refine ⟨(hag.mono (Nat.le_refl _) (by omega)).trans (hag'.mono (by omega) (Nat.le_refl _)),
      rfl, rfl, ?_, (if_neg (by omega)).symm⟩
    intro t ht
    rw [blockTiles, if_neg (by omega)] at ht
    rcases List.mem_cons.mp ht with rfl | ht
    · exact htag.frame hag' (Or.inl (Nat.le_refl _)) (by simp only [Tile.stop_mk]; omega)
    · rw [List.mem_singleton] at ht
      subst ht
      exact htag'

/-! ## `carve` -/

/-- The size of the hole that `carve` leaves in front of an aligned block. -/
def frontSize (pos : Nat) : Nat := 0xFF4 - pos % 0x1000

/--
An aligned block of `newSize` bytes is cut well out of the hole: the front remainder has room
for its tags, the block fits behind it, and what is left behind the block is nothing or has
room for its tags as well.
-/
def CarveOk (pos holeSize newSize : Nat) : Prop :=
  pos % 0x1000 ≤ 0xFE0 ∧
    (newSize + frontSize pos = holeSize ∨ newSize + frontSize pos + 20 ≤ holeSize)

instance (pos holeSize newSize : Nat) : Decidable (CarveOk pos holeSize newSize) :=
  inferInstanceAs (Decidable (_ ∧ _))

/-- The tiles that `carve` makes of a hole. -/
def carveTiles (pos holeSize newSize : Nat) (shouldAlign : Bool) : List HeapTile :=
  if shouldAlign then
    ⟨pos, frontSize pos, true⟩ :: blockTiles (pos + frontSize pos) (holeSize - frontSize pos) newSize
  else blockTiles pos holeSize (if holeSize < newSize + 20 then holeSize else newSize)

/-- Where the block starts in the hole. -/
def carvePos (pos : Nat) (shouldAlign : Bool) : Nat :=
  if shouldAlign then pos + frontSize pos else pos

/-- The index after `carve` has used the entry `i`. -/
def carveIndex (lt : Nat → Nat → Bool) (array : OrderedArray Nat) (i pos holeSize newSize : Nat)
    (shouldAlign : Bool) : OrderedArray Nat :=
  if shouldAlign then
    placeIndex lt array (pos + frontSize pos) (holeSize - frontSize pos) newSize
  else
    placeIndex lt (orderedArrayRemove array i) pos holeSize
      (if holeSize < newSize + 20 then holeSize else newSize)

/-- The effect of `carve` on a hole of `holeSize` bytes at `pos`. -/
structure Carved (s s' : HeapState W) (i pos holeSize newSize : Nat) (shouldAlign : Bool) :
    Prop where
  agree : Memory.AgreeOff pos (pos + holeSize) s.mem s'.mem
  heap : s'.heap = { s.heap with heapArray := s'.heap.heapArray }
  paging : s'.paging = s.paging
  tags : ∀ t ∈ carveTiles pos holeSize newSize shouldAlign, TileTags s'.mem t
  array : s'.heap.heapArray =
    carveIndex (isLessThan s'.mem) s.heap.heapArray i pos holeSize newSize shouldAlign

theorem carve_spec {s : HeapState W} {i size newSize pos holeSize : Nat} {shouldAlign : Bool}
    (hsize : newSize = size + 20) (hpos : orderedArrayGet s.heap.heapArray i = pos)
    (hhole : headerSize s.mem pos = holeSize) (hlow : 0x1000 ≤ pos) (hroom : 20 ≤ holeSize)
    (hin : pos + holeSize ≤ s.heap.endAddress) (hend : s.heap.endAddress < 0x100000000)
    (hfit : shouldAlign = false → newSize ≤ holeSize)
    (hok : shouldAlign = true → CarveOk pos holeSize newSize) :
    Carved s (carve s i size newSize shouldAlign).1 i pos holeSize newSize shouldAlign ∧
      (carve s i size newSize shouldAlign).2 = carvePos pos shouldAlign + 12 := by
  unfold carve
  simp only [hpos, hhole]
  cases shouldAlign with
  | false =>
    have hle := hfit rfl
    have hleft : sub32 holeSize newSize = holeSize - newSize := sub32_of_le hle (by omega)
    rw [if_neg (by simp), hleft]
    by_cases hsmall : holeSize < newSize + 20
    · rw [if_pos (by omega), if_pos (by omega)]
      obtain ⟨h, hres⟩ := placeBlock_spec (removeHole s i) pos holeSize
        (wrap32 (size + (holeSize - newSize))) holeSize
        (by rw [wrap32_of_lt (by omega)]; omega) (Or.inl rfl) hin hend
      refine ⟨⟨h.agree, h.heap, h.paging, ?_, ?_⟩, hres⟩
      · simpa [carveTiles, hsmall] using h.tags
      · rw [h.array]
        simp [carveIndex, hsmall, removeHole]
    · rw [if_neg (by omega), if_neg (by omega)]
      obtain ⟨h, hres⟩ := placeBlock_spec (removeHole s i) pos holeSize size newSize hsize
        (Or.inr (by omega)) hin hend
      refine ⟨⟨h.agree, h.heap, h.paging, ?_, ?_⟩, hres⟩
      · simpa [carveTiles, hsmall] using h.tags
      · rw [h.array]
        simp [carveIndex, hsmall, removeHole]
  | true =>
    obtain ⟨hmod, hrest⟩ := hok rfl
    have hfront : frontSize pos = 0xFF4 - pos % 0x1000 := rfl
    have hbig : ¬ sub32 holeSize newSize < 20 := by
      rw [sub32_of_le (by omega) (by omega)]; omega
    have hmask : pos &&& 0xFFFFF000 ≠ 0 := by
      rw [ne_eq, and_high20_eq_zero (by omega)]; omega
    have hsize2 : sub32 (0x1000 - (pos &&& 0xFFF)) 12 = frontSize pos := by
      rw [and_low12, sub32_of_le (by omega) (by omega)]; omega
    have hpos2 : wrap32 (pos + frontSize pos) = pos + frontSize pos := wrap32_of_lt (by omega)
    have hsub : sub32 holeSize (frontSize pos) = holeSize - frontSize pos :=
      sub32_of_le (by omega) (by omega)
    have hfoot : sub32 (pos + frontSize pos) 8 = pos + frontSize pos - 8 :=
      sub32_of_le (by omega) (by omega)
    rw [if_pos ⟨rfl, hmask⟩, if_neg hbig, if_neg hbig]
    simp only [hsize2, hpos2, hsub, hfoot]
    obtain ⟨htag, hag⟩ := tileTags_write s.mem pos (frontSize pos) true (by omega) (by omega)
    rw [show (true : Bool).toNat = 1 from rfl] at htag hag
    generalize writeFooter (writeHeader s.mem pos (frontSize pos) 1) (pos + frontSize pos - 8) pos = m
      at htag hag ⊢
    obtain ⟨h, hres⟩ := placeBlock_spec { s with mem := m } (pos + frontSize pos)
      (holeSize - frontSize pos) size newSize hsize (by omega)
      (by show pos + frontSize pos + (holeSize - frontSize pos) ≤ s.heap.endAddress; omega) hend
    have hag' : Memory.AgreeOff (pos + frontSize pos) (pos + holeSize) m _ :=
      h.agree.mono (Nat.le_refl _) (by omega)
    refine ⟨⟨(hag.mono (Nat.le_refl _) (by omega)).trans (hag'.mono (by omega) (Nat.le_refl _)),
      h.heap, h.paging, ?_, ?_⟩, hres⟩
    · intro t ht
      rw [carveTiles, if_pos rfl] at ht
      rcases List.mem_cons.mp ht with rfl | ht
      · exact htag.frame hag' (Or.inl (Nat.le_refl _)) (by simp only [Tile.stop_mk]; omega)
      · exact h.tags t ht
    · rw [h.array]
      simp [carveIndex]

end Xylophone
