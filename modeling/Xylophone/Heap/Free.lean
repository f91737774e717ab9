import Xylophone.Heap.Allocate

/-!
# `unallocate` on a heap in order

Under `FreeOk`, a condition on the state before the call, `unallocate` keeps the layout: the
freed block becomes a hole, alone or together with the hole on its left, and every other block
stays where it is. The condition excludes three things the code does not check:

* the bytes before the first block look like the footer of a hole;
* the word 64 bytes after the last footer looks like the header of a hole. The code means to
  look at the next tile, which starts 8 bytes after that footer, so a match is an accident;
* the contraction leaves less than a header and a footer for the hole at the end.
-/

namespace Xylophone

open Infra

variable {W : Type} {s s' : HeapState W} {ts : List HeapTile} {t : HeapTile}

/-! ## The condition -/

/-- The memory once `unallocate` has marked the block at `header` as a hole. -/
def markedHole (s : HeapState W) (header : Nat) : Memory := setHeaderIsHole s.mem header 1

/-- The header of the hole that the block at `header` ends up in. -/
def mergedHeader (s : HeapState W) (header : Nat) : Nat :=
  if leftIsHole (markedHole s header) header then footerHeader s.mem (sub32 header 8) else header

/-- The end of the heap after the block at `header` is freed, when it was the last tile. -/
def releasedEnd (s : HeapState W) (header : Nat) : Nat :=
  s.heap.startAddress + contractedLength (mergedHeader s header - s.heap.startAddress)

/-- Freeing the block of `address` goes well. -/
structure FreeOk (s : HeapState W) (address : Nat) : Prop where
  left : address = s.heap.startAddress + 12 →
    leftIsHole (markedHole s (address - 12)) (address - 12) = false
  right : rightIsHole s.mem (address - 12 + headerSize s.mem (address - 12) - 8) = false
  stop : address - 12 + headerSize s.mem (address - 12) = s.heap.endAddress →
    mergedHeader s (address - 12) + 20 ≤ releasedEnd s (address - 12) ∧
      releasedEnd s (address - 12) < 0x100000000

instance (s : HeapState W) (address : Nat) : Decidable (FreeOk s address) :=
  decidable_of_iff ((_ = _ → _ = false) ∧ _ = false ∧ (_ = _ → _ ∧ _))
    ⟨fun h => ⟨h.1, h.2.1, h.2.2⟩, fun h => ⟨h.left, h.right, h.stop⟩⟩

/-! ## The left merge -/

/-- Where the layout is cut around the freed tile `t` and the hole it is merged into. -/
structure MergeSplit (s : HeapState W) (ts : List HeapTile) (t : HeapTile)
    (xs vs ys : List HeapTile)
    (header : Nat) : Prop where
  tiles : ts = xs ++ vs ++ ys
  left : Tiles s.heap.startAddress xs header
  mid : Tiles header vs t.stop
  right : Tiles t.stop ys s.heap.endAddress
  header_eq : header = mergedHeader s t.start
  merged : (vs = [t] ∧ header = t.start ∧ leftIsHole (markedHole s t.start) t.start = false) ∨
    ∃ l, vs = [l, t] ∧ header = l.start ∧ l.kind = true ∧
      leftIsHole (markedHole s t.start) t.start = true

/-- The memory after the left merge: one hole from `header` to the end of the freed block. -/
structure MergedTags (s : HeapState W) (t : HeapTile) (header : Nat) (m : Memory) : Prop where
  agree : Memory.AgreeOff header t.stop s.mem m
  room : header + 20 ≤ t.stop
  headerAt : HeaderAt m header (t.stop - header) true
  footerAt : FooterAt m (t.stop - 8) header

/-- What a free relies on: the tags of the block, and those of the tile on its left. -/
structure Freeable (s : HeapState W) (ts : List HeapTile) (t : HeapTile) : Prop where
  mem : t ∈ ts
  end_lt : s.heap.endAddress < 0x100000000
  tiles : Tiles s.heap.startAddress ts s.heap.endAddress
  tags : TileTags s.mem t
  leftTags : ∀ l ∈ ts, l.stop = t.start → TileTags s.mem l

theorem HeapLayout.freeable (h : HeapLayout s ts) (ht : t ∈ ts) (hk : t.kind = false) :
    Freeable s ts t := by
  refine ⟨ht, h.end_lt, h.tiles, h.tags_of_block ht hk, fun l hl hstop => h.tags hl ?_⟩
  have hbounds := h.bounds ht
  have hpos := h.pos t ht
  unfold Tile.stop at *
  omega

theorem Freeable.marked (h : Freeable s ts t) :
    Memory.AgreeOff (t.start + 8) (t.start + 9) s.mem (markedHole s t.start) := by
  have hbounds := h.tiles.mem_bounds h.mem
  have hend := h.end_lt
  have hroom := h.tags.room
  unfold Tile.stop at hbounds
  exact Memory.agreeOff_write8 _ _ (Nat.le_refl _) (by omega) (by omega)

/-- The tile on the left of the block, after the block has been marked. -/
theorem Freeable.left_marked (h : Freeable s ts t) {l : HeapTile} (hl : l ∈ ts)
    (hlstop : l.stop = t.start) :
    sub32 t.start 8 = l.stop - 8 ∧ HeaderAt (markedHole s t.start) l.start l.size l.kind ∧
      FooterAt (markedHole s t.start) (l.stop - 8) l.start := by
  have hagree := h.marked
  have hbounds := h.tiles.mem_bounds h.mem
  have hend := h.end_lt
  have hltags := h.leftTags l hl hlstop
  have hlroom := hltags.room
  have hroom := h.tags.room
  have hstop : t.stop = t.start + t.size := rfl
  have hls : l.stop = l.start + l.size := rfl
  refine ⟨?_, hltags.header.frame hagree (by omega) (by omega),
    hltags.footer.frame hagree (by omega) (by omega)⟩
  rw [sub32_of_le (by omega) (by omega)]
  omega

/-- The left test sees whether the tile on the left is a hole. -/
theorem Freeable.leftIsHole_eq (h : Freeable s ts t) {l : HeapTile} (hl : l ∈ ts)
    (hlstop : l.stop = t.start) : leftIsHole (markedHole s t.start) t.start = l.kind := by
  obtain ⟨hsub, hheader, hfooter⟩ := h.left_marked hl hlstop
  simp only [leftIsHole, hsub, hfooter.magic, hfooter.header, hheader.isHole]
  cases l.kind <;> rfl

theorem Freeable.mergeLeft (h : Freeable s ts t)
    (hleft : t.start = s.heap.startAddress → leftIsHole (markedHole s t.start) t.start = false) :
    ∃ xs vs ys header m, MergeSplit s ts t xs vs ys header ∧ MergedTags s t header m ∧
      Xylophone.mergeLeft (markedHole s t.start) t.start (t.stop - 8) = (m, header) := by
  have htags := h.tags
  have ht := h.mem
  have hbounds := h.tiles.mem_bounds ht
  have hend := h.end_lt
  have hroom := htags.room
  have hstop : t.stop = t.start + t.size := rfl
  -- the marked block
  have hmark : HeaderAt (markedHole s t.start) t.start t.size true :=
    htags.header.setIsHole true (by omega)
  have hagree := h.marked
  have hfoot : FooterAt (markedHole s t.start) (t.stop - 8) t.start :=
    htags.footer.frame hagree (by omega) (by omega)
  obtain ⟨xs, ys, rfl⟩ := List.append_of_mem ht
  obtain ⟨hx, hy⟩ := tiles_split.mp h.tiles
  -- without a hole on the left nothing else happens
  have halone : leftIsHole (markedHole s t.start) t.start = false →
      ∃ xs' vs ys' header m, MergeSplit s (xs ++ t :: ys) t xs' vs ys' header ∧
        MergedTags s t header m ∧
        Xylophone.mergeLeft (markedHole s t.start) t.start (t.stop - 8) = (m, header) := by
    intro hno
    refine ⟨xs, [t], ys, t.start, markedHole s t.start, ⟨by simp, hx, ⟨rfl, rfl⟩, hy, ?_,
      Or.inl ⟨rfl, rfl, hno⟩⟩, ⟨hagree.mono (by omega) (by omega), by omega, ?_, hfoot⟩, ?_⟩
    · rw [mergedHeader, if_neg (by simp [hno])]
    · rw [show t.stop - t.start = t.size by omega]
      exact hmark
    · rw [Xylophone.mergeLeft, if_neg (by simp [hno])]
  rcases Nat.lt_or_ge s.heap.startAddress t.start with hlt | hge
  · -- there is a tile on the left
    obtain ⟨ws, l, rfl, hlstop⟩ := h.tiles.exists_pred hlt
    have hl : l ∈ ws ++ [l] ++ t :: ys := by simp
    have hltags := h.leftTags l hl hlstop
    have hlroom := hltags.room
    have hlb := h.tiles.mem_bounds hl
    have hls : l.stop = l.start + l.size := rfl
    obtain ⟨hsub, hlh, hlf⟩ := h.left_marked hl hlstop
    have htest := h.leftIsHole_eq hl hlstop
    by_cases hkind : l.kind = false
    · exact halone (htest.trans hkind)
    · have hkind : l.kind = true := by simpa using hkind
      rw [hkind] at htest hlh
      obtain ⟨hxw, -⟩ := tiles_split.mp hx
      have hwrap : wrap32 (l.size + t.size) = t.stop - l.start := by
        rw [wrap32_of_lt (by omega)]
        omega
      -- the footer of the block now points to the left hole
      have hset : FooterAt (setFooterHeader (markedHole s t.start) (t.stop - 8) l.start)
          (t.stop - 8) l.start := hfoot.setHeader (by omega) (by omega)
      have hag1 : Memory.AgreeOff (t.stop - 4) t.stop (markedHole s t.start)
          (setFooterHeader (markedHole s t.start) (t.stop - 8) l.start) :=
        Memory.agreeOff_write32 _ _ (by omega) (by omega) (by omega)
      have hlh1 := hlh.frame hag1 (by omega) (by omega)
      generalize hm1 : setFooterHeader (markedHole s t.start) (t.stop - 8) l.start = m1
        at hset hag1 hlh1
      -- and the left hole takes the size of the block
      have hlh2 : HeaderAt (setHeaderSize m1 l.start (t.stop - l.start)) l.start
          (t.stop - l.start) true := hlh1.setSize (by omega) (by omega)
      have hag2 : Memory.AgreeOff l.start (l.start + 12) m1
          (setHeaderSize m1 l.start (t.stop - l.start)) :=
        Memory.agreeOff_write32 _ _ (by omega) (by omega) (by omega)
      refine ⟨ws, [l, t], ys, l.start, setHeaderSize m1 l.start (t.stop - l.start),
        ⟨by simp, hxw, ⟨rfl, hlstop.symm, rfl⟩, hy, ?_, Or.inr ⟨l, rfl, rfl, hkind, htest⟩⟩,
        ⟨?_, by omega, hlh2, hset.frame hag2 (by omega) (by omega)⟩, ?_⟩
      · rw [mergedHeader, if_pos (by simp [htest]), hsub]
        exact hltags.footer.header.symm
      · exact ((hagree.mono (by omega) (by omega)).trans (hag1.mono (by omega) (by omega))).trans
          (hag2.mono (Nat.le_refl _) (by omega))
      · rw [Xylophone.mergeLeft, if_pos (by simp [htest])]
        simp only [hsub, hlf.header, hmark.size, hm1, hlh1.size, hwrap]
  · exact halone (hleft (by omega))

/-! ## The right merge -/

/--
The word that `unallocate` looks at on the right stands behind the freed block or, wrapped
around, below the heap. The writes of the left merge do not reach it.
-/
theorem rightIsHole_congr {m m' : Memory} {lo footer : Nat} (hlo : 0x1000 ≤ lo)
    (hfoot : footer + 8 < 0x100000000) (hag : Memory.AgreeOff lo (footer + 8) m m') :
    rightIsHole m' footer = rightIsHole m footer := by
  have hread : ∀ k, k < 12 →
      m'.read8 (wrap32 (footer + 64) + k) = m.read8 (wrap32 (footer + 64) + k) := by
    intro k hk
    refine hag.read8_wrap ?_
    unfold wrap32
    omega
  have hmagic : headerMagic m' (wrap32 (footer + 64)) = headerMagic m (wrap32 (footer + 64)) :=
    Memory.read32_congr fun k hk => hread k (by omega)
  have hhole : headerIsHole m' (wrap32 (footer + 64)) = headerIsHole m (wrap32 (footer + 64)) :=
    hread 8 (by omega)
  simp only [rightIsHole, hmagic, hhole]

/-! ## The contraction -/

theorem contract_spec (ops : PagingOps W) (s : HeapState W) (newSize : Nat) :
    ∃ p, contract ops s newSize =
      ({ heap := { s.heap with
          endAddress := wrap32 (s.heap.startAddress + contractedLength newSize) }
         mem := s.mem
         paging := p }, contractedLength newSize) := ⟨_, rfl⟩

/-- The last hole when something of it is left: its size and its footer are set anew. -/
theorem shrinkHole_spec {header testHeader i removed size : Nat}
    (hsize : sub32 (headerSize s.mem header) removed = size) (hroom : 20 ≤ size)
    (hlt : header + size < 0x100000000) {old : Nat} (hheader : HeaderAt s.mem header old true) :
    ∃ m, shrinkHole s header testHeader i removed = { s with mem := m } ∧
      Memory.AgreeOff header 0x100000000 s.mem m ∧ TileTags m ⟨header, size, true⟩ := by
  have hfoot : sub32 (wrap32 (header + size)) 8 = header + size - 8 := by
    rw [wrap32_of_lt hlt, sub32_of_le (by omega) hlt]
  have hset : HeaderAt (setHeaderSize s.mem header size) header size true :=
    hheader.setSize (by omega) (by omega)
  have hag1 : Memory.AgreeOff header 0x100000000 s.mem (setHeaderSize s.mem header size) :=
    Memory.agreeOff_write32 _ _ (by omega) (by omega) (by omega)
  have hag2 : Memory.AgreeOff (header + size - 8) 0x100000000 (setHeaderSize s.mem header size)
      (writeFooter (setHeaderSize s.mem header size) (header + size - 8) header) :=
    agreeOff_writeFooter (Nat.le_refl _) (by omega) (by omega)
  unfold shrinkHole
  rw [hsize, if_pos (by omega), hfoot]
  exact ⟨_, rfl, hag1.trans (hag2.mono (by omega) (Nat.le_refl _)), hroom,
    hset.frame hag2 (by omega) (by omega), footerAt_writeFooter _ (by omega) (by omega)⟩

/-- The contraction of a heap whose last hole starts at `header`. -/
theorem releaseEnd_spec (ops : PagingOps W) {header testHeader i newEnd : Nat}
    (hnew : newEnd = s.heap.startAddress + contractedLength (header - s.heap.startAddress))
    (hstart : s.heap.startAddress ≤ header) (hroom : header + 20 ≤ s.heap.endAddress)
    (hend : s.heap.endAddress < 0x100000000) (hstop : header + 20 ≤ newEnd)
    (hlt : newEnd < 0x100000000)
    (hheader : HeaderAt s.mem header (s.heap.endAddress - header) true) :
    ∃ m p, releaseEnd ops s header testHeader i =
        { heap := { s.heap with endAddress := newEnd }, mem := m, paging := p } ∧
      Memory.AgreeOff header 0x100000000 s.mem m ∧ TileTags m ⟨header, newEnd - header, true⟩ := by
  have hsub : sub32 header s.heap.startAddress = header - s.heap.startAddress :=
    sub32_of_le hstart (by omega)
  have hold : sub32 s.heap.endAddress s.heap.startAddress
      = s.heap.endAddress - s.heap.startAddress := sub32_of_le (by omega) hend
  have hnewEnd : wrap32 (s.heap.startAddress + contractedLength (header - s.heap.startAddress))
      = newEnd := by rw [← hnew, wrap32_of_lt hlt]
  -- the length may have been raised to the minimum: the difference then wraps around twice
  have hsize : sub32 (s.heap.endAddress - header) (sub32 (s.heap.endAddress - s.heap.startAddress)
      (contractedLength (header - s.heap.startAddress))) = newEnd - header := by
    unfold sub32
    omega
  obtain ⟨p, hc⟩ := contract_spec ops s (header - s.heap.startAddress)
  rw [hnewEnd] at hc
  unfold releaseEnd
  rw [hsub, hold, hc]
  obtain ⟨s₁, hs₁⟩ : ∃ s₁ : HeapState W, s₁ =
      { heap := { s.heap with endAddress := newEnd }, mem := s.mem, paging := p } := ⟨_, rfl⟩
  have hmem : s₁.mem = s.mem := by rw [hs₁]
  have hshrink : sub32 (headerSize s₁.mem header) (sub32 (s.heap.endAddress - s.heap.startAddress)
      (contractedLength (header - s.heap.startAddress))) = newEnd - header := by
    rw [hmem, hheader.size]
    exact hsize
  obtain ⟨m, heq, hag, htags⟩ := @shrinkHole_spec W s₁ header testHeader i _ _ hshrink (by omega)
    (by omega) _ (by rw [hmem]; exact hheader)
  rw [hmem] at hag
  rw [hs₁] at heq
  exact ⟨m, p, heq, hag, htags⟩

/-! ## `unallocate` -/

/-- Whether the word that `unallocate` takes for the header on the right of the block `t` looks like
that of a hole. -/
def rightLooksHole (s : HeapState W) (t : HeapTile) : Bool :=
  rightIsHole (mergeLeft (markedHole s t.start) t.start (t.stop - 8)).1 (t.stop - 8)

/-- `unallocate`, when nothing is merged on the right. -/
theorem Freeable.unallocate_eq (ops : PagingOps W) (h : Freeable s ts t)
    (hright : rightLooksHole s t = false) {m : Memory} {header : Nat}
    (hmerge : Xylophone.mergeLeft (markedHole s t.start) t.start (t.stop - 8) = (m, header))
    (i₀ : Nat) {s₀ s₁ : HeapState W} (hs₀ : s₀ = { s with mem := m })
    (hs₁ : (if t.stop = s.heap.endAddress then
        releaseEnd ops s₀ header (wrap32 (t.stop - 8 + 64)) i₀ else s₀) = s₁) :
    unallocate ops s (t.start + 12) i₀ =
      if leftIsHole (markedHole s t.start) t.start then s₁ else insertHole s₁ header := by
  have hbounds := h.tiles.mem_bounds h.mem
  have hend := h.end_lt
  have hroom := h.tags.room
  have hstop : t.stop = t.start + t.size := rfl
  have hheader : sub32 (t.start + 12) 12 = t.start := by
    rw [sub32_of_le (by omega) (by omega), Nat.add_sub_cancel]
  have hfoot : sub32 (wrap32 (t.start + t.size)) 8 = t.stop - 8 := by
    rw [wrap32_of_lt (by omega), sub32_of_le (by omega) (by omega), hstop]
  have hheap : s₀.heap = s.heap := by rw [hs₀]
  have hnoRight : mergeRight s₀ header (t.stop - 8) i₀ = (s₀, t.stop - 8, i₀) := by
    rw [rightLooksHole, hmerge] at hright
    unfold mergeRight
    rw [if_neg]
    rw [hs₀, hright]
    exact Bool.false_ne_true
  have hwrap : wrap32 (t.stop - 8 + 8) = t.stop := by
    rw [wrap32_of_lt (by omega)]
    omega
  subst hs₁
  unfold unallocate
  rw [if_neg (by omega), hheader]
  simp only [h.tags.header.size, hfoot]
  rw [← markedHole, hmerge]
  simp only [← hs₀, hnoRight, hwrap, hheap]
  cases leftIsHole (markedHole s t.start) t.start <;> rfl

/-- What freeing the block `t` does to the state: a hole of `size` bytes at `header`. -/
structure FreeEffect (s s' : HeapState W) (t : HeapTile) (header size : Nat) : Prop where
  size_eq : header + size =
    if t.stop = s.heap.endAddress then releasedEnd s t.start else t.stop
  startAddress : s'.heap.startAddress = s.heap.startAddress
  endAddress : s'.heap.endAddress =
    if t.stop = s.heap.endAddress then releasedEnd s t.start else s.heap.endAddress
  end_lt : s'.heap.endAddress < 0x100000000
  agree : Memory.AgreeOff header
    (if t.stop = s.heap.endAddress then 0x100000000 else t.stop) s.mem s'.mem
  tags : TileTags s'.mem ⟨header, size, true⟩
  status : s'.heap.status = s.heap.status
  array : s'.heap.heapArray =
    if leftIsHole (markedHole s t.start) t.start then s.heap.heapArray
    else (orderedArrayInsert (isLessThan s'.mem) s.heap.heapArray header).1

/-- **What `unallocate` does.** Nothing is asked of the index. -/
theorem Freeable.unallocate (ops : PagingOps W) (h : Freeable s ts t)
    (hleft : t.start = s.heap.startAddress → leftIsHole (markedHole s t.start) t.start = false)
    (hright : rightLooksHole s t = false)
    (hrelease : t.stop = s.heap.endAddress →
      mergedHeader s t.start + 20 ≤ releasedEnd s t.start ∧ releasedEnd s t.start < 0x100000000)
    (i₀ : Nat) : ∃ xs vs ys header size, MergeSplit s ts t xs vs ys header ∧
      FreeEffect s (Xylophone.unallocate ops s (t.start + 12) i₀) t header size := by
  have hbounds := h.tiles.mem_bounds h.mem
  have hend := h.end_lt
  obtain ⟨xs, vs, ys, header, m, hs, hm, hmerge⟩ := h.mergeLeft hleft
  have hmroom := hm.room
  have hlo : s.heap.startAddress ≤ header := hs.left.le
  -- the state after the left merge
  obtain ⟨s₀, hs₀⟩ : ∃ s₀ : HeapState W, s₀ = { s with mem := m } := ⟨_, rfl⟩
  have hheap : s₀.heap = s.heap := by rw [hs₀]
  have hmem₀ : s₀.mem = m := by rw [hs₀]
  -- the insertion changes the index only
  have hinsert : ∀ s₁ : HeapState W, s₁.heap.heapArray = s.heap.heapArray →
      ∃ s', (if leftIsHole (markedHole s t.start) t.start then s₁ else insertHole s₁ header) = s' ∧
        s'.mem = s₁.mem ∧ s'.heap.startAddress = s₁.heap.startAddress ∧
        s'.heap.endAddress = s₁.heap.endAddress ∧ s'.heap.status = s₁.heap.status ∧
        s'.heap.heapArray =
          if leftIsHole (markedHole s t.start) t.start then s.heap.heapArray
          else (orderedArrayInsert (isLessThan s'.mem) s.heap.heapArray header).1 := by
    intro s₁ harr
    cases leftIsHole (markedHole s t.start) t.start with
    | true => exact ⟨_, rfl, rfl, rfl, rfl, rfl, harr⟩
    | false => exact ⟨_, rfl, rfl, rfl, rfl, rfl, by rw [← harr]; rfl⟩
  by_cases he : t.stop = s.heap.endAddress
  · obtain ⟨newEnd, hnewEnd⟩ : ∃ n, releasedEnd s t.start = n := ⟨_, rfl⟩
    obtain ⟨hstopRoom, hstopLt⟩ := hrelease he
    rw [← hs.header_eq, hnewEnd] at hstopRoom
    rw [hnewEnd] at hstopLt
    have hnew : newEnd = s.heap.startAddress + contractedLength (header - s.heap.startAddress) := by
      rw [← hnewEnd, releasedEnd, hs.header_eq]
    have hlast := hm.headerAt
    rw [he] at hlast
    obtain ⟨m', p, hrel, hag, htags⟩ := @releaseEnd_spec W s₀ ops header
      (wrap32 (t.stop - 8 + 64)) i₀ newEnd (by rw [hheap]; exact hnew) (by rw [hheap]; exact hlo)
      (by rw [hheap]; omega) (by rw [hheap]; exact hend) hstopRoom hstopLt
      (by rw [hheap, hmem₀]; exact hlast)
    clear hnew
    rw [hheap] at hrel
    rw [hmem₀] at hag
    obtain ⟨s₁, hs₁⟩ : ∃ s₁ : HeapState W, s₁ =
        { heap := { s.heap with endAddress := newEnd }, mem := m', paging := p } := ⟨_, rfl⟩
    have hrelease : (if t.stop = s.heap.endAddress then
        releaseEnd ops s₀ header (wrap32 (t.stop - 8 + 64)) i₀ else s₀) = s₁ := by
      rw [if_pos he, hrel, hs₁]
    have heq := h.unallocate_eq ops hright hmerge i₀ hs₀ hrelease
    obtain ⟨s', hs', hmem, hst, hen, hstatus, harr⟩ := hinsert s₁ (by rw [hs₁])
    rw [hs₁] at hmem hst hen hstatus
    rw [hs'] at heq
    rw [heq]
    refine ⟨xs, vs, ys, header, newEnd - header, hs, ?_, hst, ?_, by rw [hen]; exact hstopLt, ?_,
      by rw [hmem]; exact htags, hstatus, harr⟩
    · rw [if_pos he, hnewEnd]
      omega
    · rw [if_pos he, hnewEnd]
      exact hen
    · rw [if_pos he, hmem]
      exact (hm.agree.mono (Nat.le_refl _) (by omega)).trans hag
  · have heq := h.unallocate_eq ops hright hmerge i₀ hs₀ (if_neg he)
    obtain ⟨s', hs', hmem, hst, hen, hstatus, harr⟩ := hinsert s₀ (by rw [hheap])
    rw [hs₀] at hmem hst hen hstatus
    rw [hs'] at heq
    rw [heq]
    refine ⟨xs, vs, ys, header, t.stop - header, hs, ?_, hst, ?_, by rw [hen]; exact hend, ?_, ?_,
      hstatus, harr⟩
    · rw [if_neg he]
      omega
    · rw [if_neg he]
      exact hen
    · rw [if_neg he, hmem]
      exact hm.agree
    · rw [hmem]
      refine ⟨show 20 ≤ t.stop - header by omega, hm.headerAt, ?_⟩
      rw [Tile.stop_mk, show header + (t.stop - header) = t.stop by omega]
      exact hm.footerAt

/-- The effect of freeing the block `t`: a hole of `size` bytes at `header`. -/
structure Freed (s s' : HeapState W) (ts : List HeapTile) (t : HeapTile) (xs vs ys : List HeapTile)
    (header size : Nat) : Prop where
  split : MergeSplit s ts t xs vs ys header
  size_eq : header + size =
    if t.stop = s.heap.endAddress then releasedEnd s t.start else t.stop
  layout : HeapLayout s' (xs ++ [⟨header, size, true⟩] ++ ys)
  status : s'.heap.status = s.heap.status
  array : s'.heap.heapArray =
    if leftIsHole (markedHole s t.start) t.start then s.heap.heapArray
    else (orderedArrayInsert (isLessThan s'.mem) s.heap.heapArray header).1

/-- The layout after the block `t` has become part of a hole of `size` bytes at `header`. -/
theorem HeapLayout.freed (h : HeapLayout s ts) {xs vs ys : List HeapTile} {header size top : Nat}
    (hs : MergeSplit s ts t xs vs ys header) (ht : t ∈ ts) (hk : t.kind = false)
    (hstart : s'.heap.startAddress = s.heap.startAddress)
    (hend : s'.heap.endAddress < 0x100000000)
    (htop : header + size = if t.stop = s.heap.endAddress then s'.heap.endAddress else t.stop)
    (hsame : t.stop ≠ s.heap.endAddress → s'.heap.endAddress = s.heap.endAddress ∧ top = t.stop)
    (hag : Memory.AgreeOff header top s.mem s'.mem)
    (htags : TileTags s'.mem ⟨header, size, true⟩)
    (harr : s'.heap.heapArray =
      if leftIsHole (markedHole s t.start) t.start then s.heap.heapArray
      else (orderedArrayInsert (isLessThan s'.mem) s.heap.heapArray header).1) :
    HeapLayout s' (xs ++ [⟨header, size, true⟩] ++ ys) := by
  obtain ⟨hts, hx, hv, hy, -, hmerged⟩ := hs
  have hlt : header < s.heap.endAddress := by
    have h1 := hv.le
    have h2 := hy.le
    have h3 := htags.room
    rcases hmerged with ⟨rfl, hh, -⟩ | ⟨l, rfl, hh, -, -⟩
    · have := h.pos t ht
      unfold Tile.stop at *
      omega
    · have := h.pos t ht
      have := (hv.mem_bounds (t := t) (by simp)).1
      unfold Tile.stop at *
      omega
  -- the freed block has no entry in the index
  have hblock : t.start ∉ s.index := by
    intro hmem
    obtain ⟨u, hu, he, huk⟩ := h.indexed _ hmem
    rw [h.eq_of_start hu ht he, hk] at huk
    cases huk
  have hys : t.stop = s.heap.endAddress → ys = [] := by
    intro he
    cases ys with
    | nil => rfl
    | cons u us =>
      have h1 := (hy.mem_bounds (List.mem_cons_self ..))
      have h2 := h.pos u (by rw [hts]; simp)
      unfold Tile.stop at *
      omega
  have hyNew : Tiles (header + size) ys s'.heap.endAddress := by
    rw [htop]
    by_cases he : t.stop = s.heap.endAddress
    · rw [if_pos he, hys he]
      rfl
    · rw [if_neg he, (hsame he).1]
      exact hy
  have hlay := h
  rw [hts] at hlay
  have hnew : Tiles header [(⟨header, size, true⟩ : HeapTile)] (header + size) := ⟨rfl, rfl⟩
  refine hlay.splice hstart hend hx hnew hyNew (Or.inl hlt) ?_ hag (by simpa using htags) ?_ ?_ ?_
  · intro hne
    have he : t.stop ≠ s.heap.endAddress := fun he => hne (hys he)
    rw [htop, if_neg he]
    exact ⟨(hsame he).1, Nat.le_of_eq (hsame he).2⟩
  · -- an entry stands for an old hole to the left or right, or for the new hole
    intro a ha
    rw [HeapState.index, harr] at ha
    rcases hmerged with ⟨hvs, hh, hno⟩ | ⟨l, hvs, hh, hlk, hyes⟩
    · rw [if_neg (by simp [hno])] at ha
      rcases mem_orderedArrayInsert ha with rfl | hmem
      · exact Or.inr ⟨_, List.mem_singleton.mpr rfl, rfl, rfl⟩
      · refine Or.inl ⟨hmem, ?_⟩
        rw [hvs]
        intro v hv' he
        rw [List.mem_singleton.mp hv'] at he
        exact hblock (he ▸ hmem)
    · rw [if_pos hyes] at ha
      by_cases he : a = header
      · exact Or.inr ⟨_, List.mem_singleton.mpr rfl, he.symm, rfl⟩
      · refine Or.inl ⟨ha, ?_⟩
        rw [hvs]
        intro v hv' he'
        simp only [List.mem_cons, List.not_mem_nil, or_false] at hv'
        rcases hv' with rfl | rfl
        · exact he (by rw [hh, he'])
        · exact hblock (he' ▸ ha)
  · intro a ha _
    rw [HeapState.index, harr]
    split
    · exact ha
    · exact mem_orderedArrayInsert_of_mem ha
  · rw [HeapState.index, harr]
    rcases hmerged with ⟨-, hh, hno⟩ | ⟨l, -, -, -, hyes⟩
    · rw [if_neg (by simp [hno])]
      exact orderedArrayInsert_nodup h.nodup (hh ▸ hblock)
    · rw [if_pos hyes]
      exact h.nodup

/-- **Freeing a block under `FreeOk`.** -/
theorem unallocate_spec (ops : PagingOps W) (h : HeapLayout s ts) (ht : t ∈ ts)
    (hk : t.kind = false) (hok : FreeOk s (t.start + 12)) (i₀ : Nat) :
    ∃ xs vs ys header size,
      Freed s (unallocate ops s (t.start + 12) i₀) ts t xs vs ys header size ∧
        FreeEffect s (unallocate ops s (t.start + 12) i₀) t header size := by
  have hbounds := h.bounds ht
  have hend := h.end_lt
  have hroom := h.room t ht
  have hstop : t.stop = t.start + t.size := rfl
  have hsize := h.size_headerSize ht
  obtain ⟨hleft, hright, hrelease⟩ := hok
  rw [Nat.add_sub_cancel] at hleft hright hrelease
  rw [hsize, ← hstop] at hright hrelease
  have hfree := h.freeable ht hk
  -- the left merge does not reach the word on the right
  have hlooks : rightLooksHole s t = false := by
    obtain ⟨xs, vs, ys, header, m, hs, hm, hmerge⟩ :=
      hfree.mergeLeft fun he => hleft (by rw [he])
    have hag : Memory.AgreeOff s.heap.startAddress (t.stop - 8 + 8) s.mem m :=
      hm.agree.mono hs.left.le (by omega)
    rw [rightLooksHole, hmerge]
    exact (rightIsHole_congr h.start_pos (by omega) hag).trans hright
  obtain ⟨xs, vs, ys, header, size, hs, he⟩ :=
    hfree.unallocate ops (fun he => hleft (by rw [he])) hlooks hrelease i₀
  refine ⟨xs, vs, ys, header, size, ⟨hs, he.size_eq, ?_, he.status, he.array⟩, he⟩
  have hsize_eq := he.size_eq
  have hendAddress := he.endAddress
  refine h.freed hs ht hk he.startAddress he.end_lt ?_ (fun hne => ?_) he.agree he.tags he.array
  · split
    · next hlast => rw [hsize_eq, hendAddress, if_pos hlast, if_pos hlast]
    · next hne => rw [hsize_eq, if_neg hne]
  · rw [hendAddress, if_neg hne, if_neg hne]
    exact ⟨rfl, rfl⟩

/-- The other blocks stay where they are. -/
theorem Freed.keep {xs vs ys : List HeapTile} {header size : Nat}
    (hf : Freed s s' ts t xs vs ys header size) {u : HeapTile} (hu : u ∈ ts) (hk : u.kind = false)
    (hne : u ≠ t) : u ∈ xs ++ [⟨header, size, true⟩] ++ ys := by
  rw [hf.split.tiles] at hu
  simp only [List.mem_append] at hu
  rcases hu with (hu | hu) | hu
  · simp [hu]
  · rcases hf.split.merged with ⟨hvs, -, -⟩ | ⟨l, hvs, -, hlk, -⟩
    · rw [hvs] at hu
      exact absurd (List.mem_singleton.mp hu) hne
    · rw [hvs] at hu
      simp only [List.mem_cons, List.not_mem_nil, or_false] at hu
      rcases hu with rfl | rfl
      · rw [hlk] at hk
        cases hk
      · exact absurd rfl hne
  · simp [hu]

end Xylophone
