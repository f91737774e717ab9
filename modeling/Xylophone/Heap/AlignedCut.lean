import Xylophone.Heap.WellFormed

/-!
# Page-aligned requests on a well-formed heap

An aligned block is cut out of the middle of a hole. What is left in front of it keeps the entry of
the hole in the index. Its size is what remains up to the page boundary less a header, whatever that
is: it may be too small for its own tags, nothing, or a negative number. The entry keeps its place
although the hole has become smaller.

* `AlignedOk` — the holes out of which an aligned block is cut well
* `aligned_malloc_iff` — exactly from these
* `exists_bad_aligned_cut` — the request that follows on a block of 4068 bytes
-/

namespace Xylophone

open Infra

variable {W : Type} {s s₁ : HeapState W} {xs ys front rest : List HeapTile} {t block : HeapTile}

/-- A block of `newSize` bytes is cut well out of the hole `t`. -/
structure AlignedOk (s : HeapState W) (t : HeapTile) (newSize : Nat) : Prop where
  /-- On the first page nothing is cut off in front. -/
  low : t.start < 0x1000 →
    t.start = 0xFF4 ∧ newSize ≤ t.size ∧ (t.size < newSize + 20 ∨ 20 ≤ newSize)
  high : 0x1000 ≤ t.start →
    20 ≤ newSize ∧ CarveOk t.start t.size newSize ∧ AlignedCutOk s t.start t.size newSize

instance (s : HeapState W) (t : HeapTile) (newSize : Nat) : Decidable (AlignedOk s t newSize) :=
  decidable_of_iff ((t.start < 0x1000 → _ ∧ _ ∧ (_ ∨ _)) ∧ (0x1000 ≤ t.start → _ ∧ _ ∧ _))
    ⟨fun h => ⟨h.1, h.2⟩, fun h => ⟨h.low, h.high⟩⟩

/-- What an aligned request of `size` bytes is to do to the hole `t`. -/
def AlignedCut (ops : PagingOps W) (s : HeapState W) (xs : List HeapTile) (t : HeapTile)
    (ys : List HeapTile) (size : Nat) : Prop :=
  ∃ s' address front block rest, heapManagerMalloc ops s size true = some (s', address) ∧
    address % 0x1000 = 0 ∧ HoleCut s s' xs t ys front block rest (wrap32 (size + 20)) address

/-! ## What a good cut says about `placeBlock` -/

theorem orderedArrayInsert_sublist {α : Type} (lt : α → α → Bool) (oa : OrderedArray α) (item : α) :
    oa.array.Sublist (orderedArrayInsert lt oa item).1.array := by
  unfold orderedArrayInsert
  split
  · exact List.Sublist.refl _
  · have h := (List.sublist_cons_self item (oa.array.drop
      (lowerBound lt oa.array item oa.array.length 0 oa.array.length))).append_left
      (oa.array.take (lowerBound lt oa.array item oa.array.length 0 oa.array.length))
    rwa [List.take_append_drop] at h

/-- `placeBlock` takes nothing out of the index. -/
theorem placeBlock_sublist (s : HeapState W) (pos holeSize size newSize : Nat) :
    s.index.Sublist (placeBlock s pos holeSize size newSize).1.index := by
  unfold placeBlock
  dsimp only
  split
  · exact orderedArrayInsert_sublist ..
  · exact List.Sublist.refl _

/-- The block is where `placeBlock` puts it. -/
theorem HoleCut.start_eq {pos holeSize size blockSize newSize : Nat}
    (hcut : HoleCut s (placeBlock s₁ pos holeSize size blockSize).1 xs t ys front block rest newSize
      (placeBlock s₁ pos holeSize size blockSize).2) (hpos : pos < 0x100000000) :
    block.start = pos := by
  have haddress : wrap32 (pos + 12) = block.start + 12 := hcut.payload
  have hroom := hcut.wellFormed.room (t := block) (by simp)
  have hstop := hcut.wellFormed.stop_lt (t := block) (by simp)
  unfold Tile.stop wrap32 at *
  omega

/-- **The block and the rest are those that `placeBlock` has made.** -/
theorem HoleCut.placeBlock {pos holeSize size blockSize newSize : Nat}
    (hcut : HoleCut s (placeBlock s₁ pos holeSize size blockSize).1 xs t ys front block rest newSize
      (placeBlock s₁ pos holeSize size blockSize).2) (hpos : pos < 0x100000000)
    (hlt : blockSize < 0x100000000) (hsize : wrap32 (size + 20) = blockSize)
    (hstop : t.stop = pos + holeSize) (htlt : t.stop < 0x100000000)
    (hend : t.stop ≤ s₁.heap.endAddress)
    (hinside : ∀ a, t.start < a → a < t.stop → a ∉ s₁.index) :
    20 ≤ blockSize ∧ (blockSize = holeSize ∨ blockSize + 20 ≤ holeSize ∧ IndexRoom s₁) := by
  have hstart := hcut.start_eq hpos
  have hblock := hcut.wellFormed.tags block (by simp)
  have hroom := hblock.room
  obtain ⟨hlo, hhi⟩ := hcut.tiles.mem_bounds (t := block) (by simp)
  obtain ⟨-, hrest⟩ := tiles_split.mp hcut.tiles
  have hstop' : block.stop = pos + block.size := by rw [Tile.stop, hstart]
  have hlt' := hcut.wellFormed.stop_lt (t := block) (by simp)
  by_cases hnone : sub32 holeSize blockSize = 0
  · have heq : blockSize = holeSize := by
      unfold sub32 at hnone
      omega
    omega
  -- the tags that are written last are those of the hole behind the block
  have hhole : wrap32 (pos + 12 + size + 8) = wrap32 (pos + blockSize) := by
    unfold wrap32 at *
    omega
  have hlast : sub32 (wrap32 (wrap32 (pos + blockSize) + sub32 holeSize blockSize)) 8
      = t.stop - 8 := by
    unfold wrap32 sub32
    omega
  have hplace : ∃ m m', (Xylophone.placeBlock s₁ pos holeSize size blockSize).1 = insertHole
      { s₁ with mem := m' } (wrap32 (pos + blockSize)) ∧ m' = writeFooter
        (writeHeader m (wrap32 (pos + blockSize)) (sub32 holeSize blockSize) 1)
        (t.stop - 8) (wrap32 (pos + blockSize)) := by
    refine ⟨writeFooter (writeHeader s₁.mem pos blockSize 0) (wrap32 (pos + 12 + size)) pos, _, ?_,
      rfl⟩
    unfold Xylophone.placeBlock
    simp only [hhole, hlast]
    rw [if_pos (Nat.pos_of_ne_zero hnone), if_pos (by omega)]
  obtain ⟨m, m', hplace, hm'⟩ := hplace
  generalize Xylophone.placeBlock s₁ pos holeSize size blockSize = r at hcut hblock hplace
  have hmem : r.1.mem = m' := by rw [hplace]; rfl
  have hfooter : footerHeader r.1.mem (t.stop - 8) = wrap32 (pos + blockSize) := by
    rw [hmem, hm']
    exact (footerAt_writeFooter _ (by omega) (wrap32_lt _)).header
  match rest, hcut, hrest with
  | [], hcut, hrest =>
    -- the footer at the end is that of the block, so it starts where the hole does
    have hback : footerHeader r.1.mem (block.stop - 8) = block.start := hblock.footer.header
    rw [show block.stop = t.stop from hrest, hfooter, hstart] at hback
    obtain rfl : blockSize = 0 := by
      unfold wrap32 at hback
      omega
    have hwrap : wrap32 (pos + 0) = pos := wrap32_of_lt hpos
    have hheader : HeaderAt (writeHeader m pos (sub32 holeSize 0) 1) pos (sub32 holeSize 0) true :=
      headerAt_writeHeader m true (by omega) (sub32_lt ..)
    have hhole' : headerIsHole r.1.mem pos = 1 := by
      rw [hmem, hm', hwrap]
      exact (hheader.frame (agreeOff_writeFooter (Nat.le_refl _) (Nat.le_refl _) (by omega))
        (Or.inl (by omega)) (by omega)).isHole
    have hblock' := hblock.header.isHole
    rw [hstart, hhole', hcut.isBlock] at hblock'
    cases hblock'
  | [b], hcut, hrest =>
    have hb := hcut.wellFormed.tags b (by simp)
    have hkind := (hcut.behind.2 b (by simp)).1
    obtain ⟨hbstart, hbstop⟩ := hrest
    have hbstop : b.stop = t.stop := hbstop
    have hback : footerHeader r.1.mem (b.stop - 8) = b.start := hb.footer.header
    rw [hbstop, hfooter, hbstart, hstop'] at hback
    have hbroom := hb.room
    have heq : blockSize = block.size := by
      unfold wrap32 at hback
      omega
    refine ⟨by omega, Or.inr ⟨?_, ?_⟩⟩
    · unfold Tile.stop at *
      omega
    · -- the hole behind the block has got into the index
      have hin : b.start ∈ r.1.index := (hcut.wellFormed.index _).mpr ⟨b, by simp, rfl, hkind⟩
      refine Nat.lt_of_not_le fun hfull => hinside b.start ?_ ?_ ?_
      · omega
      · unfold Tile.stop at *
        omega
      · rw [hplace] at hin
        have hin : b.start ∈ (orderedArrayInsert (isLessThan m') s₁.heap.heapArray
          (wrap32 (pos + blockSize))).1.array := hin
        rw [orderedArrayInsert_full hfull] at hin
        exact hin

/-! ## When the cut is good -/

variable {i size : Nat}

/-- `carve` on a hole that it cuts something off in front. -/
theorem carve_front {pos holeSize newSize : Nat}
    (hpos : orderedArrayGet s.heap.heapArray i = pos) (hhole : headerSize s.mem pos = holeSize)
    (hlow : 0x1000 ≤ pos) (hlt : pos < 0x100000000) :
    ∃ m, carve s i size newSize true = placeBlock { s with mem := m }
      (wrap32 (pos + sub32 (0x1000 - pos % 0x1000) 12))
      (sub32 holeSize (sub32 (0x1000 - pos % 0x1000) 12))
      (cutPayload size holeSize newSize) (cutSize holeSize newSize) := by
  have hmask : pos &&& 0xFFFFF000 ≠ 0 := by
    rw [ne_eq, and_high20_eq_zero hlt]
    omega
  unfold carve
  simp only [hpos, hhole]
  rw [if_pos ⟨trivial, hmask⟩]
  simp only [and_low12]
  exact ⟨_, rfl⟩

/-- The hole in front of the block is the old one, cut off. -/
theorem HoleCut.front_hole {s' : HeapState W} {address newSize k : Nat}
    (hcut : HoleCut s s' xs t ys front block rest newSize address) (hentry : t.start ∈ s.index)
    (hsublist : s.index.Sublist s'.index) (hstart : block.start = t.start + k) :
    ∃ u ∈ front, u.start = t.start ∧ u.size = k := by
  obtain ⟨hbefore, -⟩ := tiles_split.mp hcut.tiles
  have hlength := hcut.before.1
  match front, hbefore, hcut, hlength with
  | [], hbefore, hcut, _ =>
    -- the entry of the old hole would be one of the block
    obtain ⟨u, hu, hustart, hukind⟩ := (hcut.wellFormed.index _).mp (hsublist.subset hentry)
    have hublock : u = block := hcut.wellFormed.tiles.eq_of_start hcut.wellFormed.pos hu
      (by simp) (hustart.trans hbefore)
    rw [hublock, hcut.isBlock] at hukind
    cases hukind
  | [u], ⟨hustart, hustop⟩, _, _ =>
    have hustop : u.stop = block.start := hustop
    refine ⟨u, List.mem_singleton.mpr rfl, hustart, ?_⟩
    unfold Tile.stop at hustop
    omega

/-- The holes of the index have the sizes they had, except for the one that is cut. -/
theorem HoleCut.headerSize_eq {s' : HeapState W} {address newSize : Nat} {u : HeapTile}
    (h : WellFormed s (xs ++ t :: ys))
    (hcut : HoleCut s s' xs t ys front block rest newSize address) (hu : u ∈ front)
    (hustart : u.start = t.start) {a : Nat} (ha : a ∈ s.index) :
    headerSize s'.mem a = sizeWith s t.start u.size a := by
  unfold sizeWith
  split
  · next heq =>
    have hfront := hcut.wellFormed.size_headerSize (t := u) (by simp [hu])
    rw [hustart] at hfront
    rw [heq, hfront]
  · next hne =>
    obtain ⟨v, hv, rfl, -⟩ := (h.index a).mp ha
    rw [h.size_headerSize hv]
    refine hcut.wellFormed.size_headerSize ?_
    simp only [List.mem_append, List.mem_cons] at hv ⊢
    obtain hv | rfl | hv := hv
    · exact Or.inl (Or.inl hv)
    · exact absurd rfl hne
    · exact Or.inr hv

/-- On the first page the whole hole has been cut. -/
theorem AlignedOk.low_of_cut {s' : HeapState W} {address : Nat} (h : WellFormed s (xs ++ t :: ys))
    (hi : i < s.index.length) (hget : s.index[i] = t.start) (hlow : t.start < 0x1000)
    (hcarve : carve s i size (wrap32 (size + 20)) true = (s', address))
    (haligned : address % 0x1000 = 0)
    (hcut : HoleCut s s' xs t ys front block rest (wrap32 (size + 20)) address) :
    t.start = 0xFF4 ∧ wrap32 (size + 20) ≤ t.size ∧
      (t.size < wrap32 (size + 20) + 20 ∨ 20 ≤ wrap32 (size + 20)) := by
  have ht : t ∈ xs ++ t :: ys := by simp
  have hsize := h.size_headerSize ht
  have hstop := (h.tiles.mem_bounds ht).2
  have hlt := h.stop_lt ht
  have htstop : t.stop = t.start + t.size := rfl
  have hnew := wrap32_lt (size + 20)
  have hpayload := @wrap32_cutPayload size t.size (by omega)
  have hcutlt : cutSize t.size (wrap32 (size + 20)) < 0x100000000 := cutSize_lt (by omega) hnew
  have haddress := hcut.payload
  have hfront : t.start &&& 0xFFFFF000 = 0 := (and_high20_eq_zero (by omega)).mpr hlow
  rw [carve_whole ((orderedArrayGet_eq hi).trans hget) hsize (fun _ => hfront)] at hcarve
  obtain rfl := congrArg Prod.fst hcarve
  obtain rfl := congrArg Prod.snd hcarve
  have hstart := hcut.start_eq (by omega)
  have hinside : ∀ a, t.start < a → a < t.stop → a ∉ (removeHole s i).index :=
    fun a hlo hhi hmem => h.not_mem_index_inside ht hlo hhi ((h.mem_remove hi hget a).mp hmem).1
  have htlt : t.start < 0x100000000 := by omega
  obtain ⟨hmin, hfit⟩ := hcut.placeBlock htlt hcutlt hpayload htstop hlt hstop hinside
  refine ⟨by omega, ?_⟩
  unfold cutSize sub32 at hmin hfit
  split at hmin
  · rw [if_pos ‹_›] at hfit
    omega
  · rw [if_neg ‹_›] at hfit
    omega

/-- From the second page on the hole in front keeps the entry, and the index is still in order. -/
theorem AlignedOk.high_of_cut {s' : HeapState W} {address : Nat} (h : WellFormed s (xs ++ t :: ys))
    (hi : i < s.index.length) (hget : s.index[i] = t.start) (hlow : 0x1000 ≤ t.start)
    (hcarve : carve s i size (wrap32 (size + 20)) true = (s', address))
    (hcut : HoleCut s s' xs t ys front block rest (wrap32 (size + 20)) address) :
    20 ≤ wrap32 (size + 20) ∧ CarveOk t.start t.size (wrap32 (size + 20)) ∧
      AlignedCutOk s t.start t.size (wrap32 (size + 20)) := by
  have ht : t ∈ xs ++ t :: ys := by simp
  have hsize := h.size_headerSize ht
  have hroom := h.room ht
  have hstop := (h.tiles.mem_bounds ht).2
  have hlt := h.stop_lt ht
  have htstop : t.stop = t.start + t.size := rfl
  have hnew := wrap32_lt (size + 20)
  have hpayload := @wrap32_cutPayload size t.size (by omega)
  have hcutlt : cutSize t.size (wrap32 (size + 20)) < 0x100000000 := cutSize_lt (by omega) hnew
  obtain ⟨m, hc⟩ := @carve_front _ _ _ size _ _ (wrap32 (size + 20))
    ((orderedArrayGet_eq hi).trans hget) hsize hlow (by omega)
  rw [hc] at hcarve
  obtain rfl := congrArg Prod.fst hcarve
  obtain rfl := congrArg Prod.snd hcarve
  have hstart := hcut.start_eq (wrap32_lt _)
  have hbroom := hcut.wellFormed.room (t := block) (by simp)
  obtain ⟨hlo, hhi⟩ := hcut.tiles.mem_bounds (t := block) (by simp)
  have hmod : t.start % 0x1000 ≤ 0xFF4 := by
    unfold wrap32 sub32 at hstart
    omega
  have hsize2 : sub32 (0x1000 - t.start % 0x1000) 12 = frontSize t.start := by
    unfold sub32 frontSize
    omega
  have hfsize : frontSize t.start = 0xFF4 - t.start % 0x1000 := rfl
  have hbstop : block.stop = block.start + block.size := rfl
  rw [hsize2] at hcut hstart
  have hwrap : wrap32 (t.start + frontSize t.start) = t.start + frontSize t.start := by
    unfold wrap32 at *
    omega
  rw [hwrap] at hcut hstart
  have hsub : sub32 t.size (frontSize t.start) = t.size - frontSize t.start :=
    sub32_of_le (by omega) (by omega)
  rw [hsub] at hcut
  have hsublist : s.index.Sublist _ := placeBlock_sublist { s with mem := m }
    (t.start + frontSize t.start) (t.size - frontSize t.start)
    (cutPayload size t.size (wrap32 (size + 20))) (cutSize t.size (wrap32 (size + 20)))
  have hplt : t.start + frontSize t.start < 0x100000000 := by omega
  have htstop' : t.stop = t.start + frontSize t.start + (t.size - frontSize t.start) := by omega
  obtain ⟨hmin, hfit⟩ := hcut.placeBlock hplt hcutlt hpayload htstop' hlt hstop
    fun a => h.not_mem_index_inside ht
  have hroomFor : IndexRoom { s with mem := m } → IndexRoom s := id
  generalize placeBlock { s with mem := m } (t.start + frontSize t.start)
    (t.size - frontSize t.start) (cutPayload size t.size (wrap32 (size + 20)))
    (cutSize t.size (wrap32 (size + 20))) = r at hcut hsublist
  obtain ⟨u, hu, hustart, husize⟩ := hcut.front_hole (hget ▸ List.getElem_mem hi) hsublist hstart
  have huroom := (hcut.before.2 u hu).2
  have hnewSize : cutSize t.size (wrap32 (size + 20)) = wrap32 (size + 20) := by
    unfold cutSize
    refine if_neg fun hsmall => ?_
    have hfit := hfit.imp_right And.left
    unfold cutSize at hfit
    rw [if_pos hsmall] at hfit
    omega
  rw [hnewSize] at hmin hfit
  have hfit' := hfit.imp_right And.left
  refine ⟨hmin, ⟨by omega, by omega⟩, ?_, hfit.imp (fun heq => by omega) fun hr => hroomFor hr.2⟩
  have hsorted := hcut.wellFormed.sorted.sublist hsublist
  refine hsorted.imp_of_mem fun {a b} ha hb hab => ?_
  rw [← husize, ← hcut.headerSize_eq h hu hustart ha, ← hcut.headerSize_eq h hu hustart hb]
  exact hab

/-- **A good cut, only from the holes of `AlignedOk`.** -/
theorem AlignedOk.of_cut {s' : HeapState W} {address : Nat} (h : WellFormed s (xs ++ t :: ys))
    (hi : i < s.index.length) (hget : s.index[i] = t.start)
    (hcarve : carve s i size (wrap32 (size + 20)) true = (s', address))
    (haligned : address % 0x1000 = 0)
    (hcut : HoleCut s s' xs t ys front block rest (wrap32 (size + 20)) address) :
    AlignedOk s t (wrap32 (size + 20)) where
  low := fun hlow => AlignedOk.low_of_cut h hi hget hlow hcarve haligned hcut
  high := fun hlow => AlignedOk.high_of_cut h hi hget hlow hcarve hcut

/-- **A good cut, from the holes of `AlignedOk`.** -/
theorem AlignedOk.carved (h : WellFormed s (xs ++ t :: ys)) (hi : i < s.index.length)
    (hget : s.index[i] = t.start) (hkind : t.kind = true) (hsize : size < 0x100000000)
    (hok : AlignedOk s t (wrap32 (size + 20))) :
    ∃ front block rest, (carve s i size (wrap32 (size + 20)) true).2 % 0x1000 = 0 ∧
      HoleCut s (carve s i size (wrap32 (size + 20)) true).1 xs t ys front block rest
        (wrap32 (size + 20)) (carve s i size (wrap32 (size + 20)) true).2 := by
  have ht : t ∈ xs ++ t :: ys := by simp
  have hroom := h.room ht
  have hstop := (h.tiles.mem_bounds ht).2
  have hlt := h.stop_lt ht
  have htstop : t.stop = t.start + t.size := rfl
  obtain ⟨hlow, hhigh⟩ := hok
  by_cases hpage : t.start < 0x1000
  · obtain ⟨hstart, hle, hbig⟩ := hlow hpage
    have hfront : t.start &&& 0xFFFFF000 = 0 := (and_high20_eq_zero (by omega)).mpr hpage
    have hleft : sub32 t.size (wrap32 (size + 20)) = t.size - wrap32 (size + 20) :=
      sub32_of_le hle (by omega)
    obtain ⟨block, rest, hbstart, hcut⟩ := @WellFormed.carve_whole _ _ _ _ _ h _ size
      (wrap32 (size + 20)) true hi hget hkind (fun _ => hfront)
      (by
        unfold cutSize cutPayload
        rw [hleft]
        split
        · unfold wrap32 at *
          omega
        · unfold wrap32 at *
          omega)
      (by
        unfold cutSize
        rw [hleft]
        split
        · exact Or.inl rfl
        · exact Or.inr (by omega))
      (by
        unfold cutSize
        split <;> omega)
    refine ⟨[], block, rest, ?_, hcut⟩
    rw [hcut.payload, hbstart, hstart]
  obtain ⟨hmin, hcarve, hord, hspace⟩ := hhigh (Nat.le_of_not_lt hpage)
  obtain ⟨hmod, hfit⟩ := hcarve
  have hfsize : frontSize t.start = 0xFF4 - t.start % 0x1000 := rfl
  have hnowrap : wrap32 (size + 20) = size + 20 := by
    unfold wrap32 at *
    omega
  rw [hnowrap] at hmin hfit hspace ⊢
  obtain ⟨hcarved, haddress⟩ := @carve_spec _ s i size (size + 20) t.start t.size true rfl
    ((orderedArrayGet_eq hi).trans hget) (h.size_headerSize ht) (by omega) hroom hstop h.end_lt nofun
    fun _ => ⟨hmod, hfit⟩
  generalize carve s i size (size + 20) true = r at hcarved haddress ⊢
  have hagree : Memory.AgreeOff t.start t.stop s.mem r.1.mem := hcarved.agree
  have htags : ∀ u ∈ [⟨t.start, frontSize t.start, true⟩] ++
      blockTiles (t.start + frontSize t.start) (t.size - frontSize t.start) (size + 20),
      TileTags r.1.mem u := hcarved.tags
  have hentry : t.start ∈ s.index := hget ▸ List.getElem_mem hi
  have hwith : ∀ a ∈ s.index, headerSize r.1.mem a = sizeWith s t.start (frontSize t.start) a := by
    intro a ha
    unfold sizeWith
    split
    · next heq =>
      rw [heq]
      exact (htags _ List.mem_cons_self).header.size
    · next hne =>
      obtain ⟨v, hv, rfl, -⟩ := (h.index a).mp ha
      have hout : v.stop ≤ t.start ∨ t.stop ≤ v.start := by
        obtain rfl | hd | hd := h.tiles.disjoint hv ht
        · exact absurd rfl hne
        · exact Or.inl hd
        · exact Or.inr hd
      rw [h.size_headerSize hv]
      exact ((h.tags v hv).frame hagree hout (Nat.le_of_lt (h.stop_lt hv))).header.size
  have hsorted : s.index.Pairwise fun a b => headerSize r.1.mem a ≤ headerSize r.1.mem b := by
    refine List.Pairwise.imp_of_mem (fun {a b} ha hb hab => ?_) hord
    rw [hwith a ha, hwith b hb]
    exact hab
  have htiles : Tiles t.start ([⟨t.start, frontSize t.start, true⟩] ++
      blockTiles (t.start + frontSize t.start) (t.size - frontSize t.start) (size + 20)) t.stop :=
    @tiles_carveTiles _ _ _ true nofun fun _ => ⟨hmod, hfit⟩
  have hnew := h.cut hcarved.heap hagree htiles htags hcarved.array
    (fun a => by
      by_cases ha : a = t.start
      · rw [ha]
        exact iff_of_true hentry (Or.inr ⟨_, List.mem_singleton.mpr rfl, rfl, rfl⟩)
      · refine ⟨fun hmem => Or.inl ⟨hmem, ha⟩, ?_⟩
        rintro (⟨hmem, -⟩ | ⟨u, hu, rfl, -⟩)
        · exact hmem
        · exact absurd (by rw [List.mem_singleton.mp hu]) ha)
    h.once hsorted h.capacity (hspace.imp (fun heq => by omega) id)
  refine ⟨[⟨t.start, frontSize t.start, true⟩], ⟨t.start + frontSize t.start, size + 20, false⟩, _,
    ?_, hkind, rfl, Nat.le_refl _, haddress, ⟨Nat.le_refl _, fun u hu => ?_⟩, ?_, htiles, hagree,
    hcarved.heap, hcarved.paging, hnew⟩
  · rw [haddress, carvePos, if_pos rfl]
    omega
  · rw [List.mem_singleton.mp hu]
    exact ⟨rfl, show 20 ≤ frontSize t.start by omega⟩
  · by_cases heq : t.size - frontSize t.start = size + 20
    · rw [if_pos heq]
      simp
    · rw [if_neg heq]
      refine ⟨Nat.le_refl _, fun u hu => ?_⟩
      rw [List.mem_singleton.mp hu]
      exact ⟨rfl, show 20 ≤ t.size - frontSize t.start - (size + 20) by omega⟩

/-- **Exactly from the holes of `AlignedOk` an aligned block is cut well.** `t` is the hole that
`find_smallest_hole` has chosen. -/
theorem aligned_malloc_iff (ops : PagingOps W) (h : WellFormed s (xs ++ t :: ys))
    (hstatus : s.heap.status = .initialized) (hsize : size < 0x100000000)
    (hfind : findSmallestHole s (wrap32 (size + 20)) true = some i)
    (hchosen : s.index[i]? = some t.start) :
    AlignedCut ops s xs t ys size ↔ AlignedOk s t (wrap32 (size + 20)) := by
  obtain ⟨hi, hget⟩ := List.getElem?_eq_some_iff.mp hchosen
  have hkind : t.kind = true := by
    obtain ⟨u, hu, hstart, hkind⟩ := (h.index t.start).mp (hget ▸ List.getElem_mem hi)
    rwa [← h.tiles.eq_of_start h.pos hu (by simp) hstart]
  have hmalloc : heapManagerMalloc ops s size true
      = some (carve s i size (wrap32 (size + 20)) true) := by
    unfold heapManagerMalloc allocate
    rw [hstatus]
    simp only [hfind]
  constructor
  · rintro ⟨s', address, front, block, rest, heq, haligned, hcut⟩
    rw [hmalloc] at heq
    exact AlignedOk.of_cut h hi hget (Option.some.inj heq) haligned hcut
  · intro hok
    obtain ⟨front, block, rest, haligned, hcut⟩ := hok.carved h hi hget hkind hsize
    exact ⟨_, _, front, block, rest, hmalloc, haligned, hcut⟩

/-- The first aligned request on the kernel heap. -/
theorem aligned_malloc_iff_oneHole :
    AlignedCut servingOps (heapOf 0xC0481000 0xC0500000 [⟨0xC0481000, 0x7F000, true⟩]) []
        ⟨0xC0481000, 0x7F000, true⟩ [] 100 ↔
      AlignedOk (heapOf 0xC0481000 0xC0500000 [⟨0xC0481000, 0x7F000, true⟩])
        ⟨0xC0481000, 0x7F000, true⟩ (wrap32 (100 + 20)) :=
  aligned_malloc_iff servingOps
    (wellFormed_heapOf (by simp) (by simp) (by decide) (by simp) (by decide))
    rfl (by decide) (i := 0) (by decide +kernel) rfl

/-- Behind a block of 4068 bytes the hole starts 8 bytes before a page: the header of the aligned
block comes to stand on the footer of that block. -/
theorem exists_bad_aligned_cut : ∃ (s : HeapState Unit) (xs : List HeapTile) (t : HeapTile)
    (ys : List HeapTile), WellFormed s (xs ++ t :: ys) ∧ s.heap.status = .initialized ∧
      findSmallestHole s (wrap32 (100 + 20)) true = some 0 ∧ s.index[0]? = some t.start ∧
      ¬ AlignedCut servingOps s xs t ys 100 := by
  have h : WellFormed (heapOf 0xC0481000 0xC0500000
      [⟨0xC0481000, 4068 + 20, false⟩, ⟨0xC0481FF8, 0x7E008, true⟩])
      ([⟨0xC0481000, 4068 + 20, false⟩] ++ ⟨0xC0481FF8, 0x7E008, true⟩ :: []) :=
    wellFormed_heapOf (by simp) (by simp) (by decide) (by simp) (by decide)
  refine ⟨_, _, _, _, h, rfl, by decide +kernel, rfl, ?_⟩
  rintro ⟨s', address, front, block, rest, heq, haligned, hcut⟩
  have hok := @AlignedOk.of_cut _ _ _ _ _ _ _ _ 0 100 _ _ h (by decide) rfl
    (Option.some.inj heq) haligned hcut
  exact absurd (hok.high (by decide)).2.1.1 (by decide)

end Xylophone
