import Xylophone.Heap.Index

/-!
# Well-formed heaps

A heap is well formed when its headers tile it, every tile has its footer, and the index holds
exactly the holes, smallest first. Nothing is asked of the address where it starts.

* `WellFormed.cut` — a hole is replaced by a block and the holes in front of it and behind it
* `malloc_unaligned_exact` — a request that some hole has room for, without alignment
-/

namespace Xylophone

open Infra

variable {W : Type} {s s' : HeapState W} {ts xs ys front rest : List HeapTile} {t block : HeapTile}

/-- The memory and the index of `s` describe the heap cut into the tiles `ts`, exactly. -/
structure WellFormed (s : HeapState W) (ts : List HeapTile) : Prop where
  end_lt : s.heap.endAddress < 0x100000000
  tiles : Tiles s.heap.startAddress ts s.heap.endAddress
  tags : ∀ t ∈ ts, TileTags s.mem t
  index : ∀ a, a ∈ s.index ↔ ∃ t ∈ ts, t.start = a ∧ t.kind = true
  once : s.index.Nodup
  sorted : s.index.Pairwise fun a b => headerSize s.mem a ≤ headerSize s.mem b
  capacity : s.index.length ≤ s.heap.heapArray.maxSize

namespace WellFormed

theorem room (h : WellFormed s ts) (ht : t ∈ ts) : 20 ≤ t.size := (h.tags t ht).room

theorem pos (h : WellFormed s ts) : ∀ t ∈ ts, 0 < t.size := fun _ ht =>
  Nat.lt_of_lt_of_le (by decide) (h.room ht)

theorem size_headerSize (h : WellFormed s ts) (ht : t ∈ ts) : headerSize s.mem t.start = t.size :=
  (h.tags t ht).header.size

theorem stop_lt (h : WellFormed s ts) (ht : t ∈ ts) : t.stop < 0x100000000 :=
  Nat.lt_of_le_of_lt (h.tiles.mem_bounds ht).2 h.end_lt

/-- The hole of an entry. -/
theorem exists_hole (h : WellFormed s ts) {i : Nat} (hi : i < s.index.length) :
    ∃ xs t ys, ts = xs ++ t :: ys ∧ t.kind = true ∧ s.index[i] = t.start := by
  obtain ⟨t, ht, hstart, hkind⟩ := (h.index _).mp (List.getElem_mem hi)
  obtain ⟨xs, ys, rfl⟩ := List.append_of_mem ht
  exact ⟨xs, t, ys, rfl, hkind, hstart.symm⟩

/-- The tiles on both sides do not start where the tile does. -/
theorem start_ne (h : WellFormed s (xs ++ t :: ys)) {u : HeapTile} (hu : u ∈ xs ∨ u ∈ ys) :
    u.start ≠ t.start := by
  obtain ⟨hx, hy⟩ := tiles_split.mp h.tiles
  have ht := h.room (t := t) (by simp)
  obtain hu | hu := hu
  · have hle := (hx.mem_bounds hu).2
    have hroom := h.room (t := u) (by simp [hu])
    unfold Tile.stop at hle
    omega
  · have hle := (hy.mem_bounds hu).1
    unfold Tile.stop at hle
    omega

/-- No hole starts inside a tile. -/
theorem not_mem_index_inside (h : WellFormed s ts) (ht : t ∈ ts) {a : Nat} (hlo : t.start < a)
    (hhi : a < t.stop) : a ∉ s.index := by
  intro hmem
  obtain ⟨u, hu, rfl, -⟩ := (h.index a).mp hmem
  have hroom := h.room hu
  obtain rfl | hd | hd := h.tiles.disjoint ht hu
  · omega
  · omega
  · unfold Tile.stop at *
    omega

/-- The index without the entry of a hole. -/
theorem mem_remove (h : WellFormed s ts) {i : Nat} (hi : i < s.index.length)
    (hget : s.index[i] = t.start) (a : Nat) :
    a ∈ (orderedArrayRemove s.heap.heapArray i).array ↔ a ∈ s.index ∧ a ≠ t.start := by
  rw [mem_orderedArrayRemove h.once hi, ← hget]
  exact and_comm

/--
**A hole is replaced.** In its place come `front` and then a block of `newSize` bytes with what is
left behind it. `oa` is the index before the hole behind the block is inserted.
-/
theorem cut (h : WellFormed s (xs ++ t :: ys)) {oa : OrderedArray Nat} {pos holeSize newSize : Nat}
    (hheap : s'.heap = { s.heap with heapArray := s'.heap.heapArray })
    (hag : Memory.AgreeOff t.start t.stop s.mem s'.mem)
    (htiles : Tiles t.start (front ++ blockTiles pos holeSize newSize) t.stop)
    (htags : ∀ u ∈ front ++ blockTiles pos holeSize newSize, TileTags s'.mem u)
    (harray : s'.heap.heapArray = placeIndex (isLessThan s'.mem) oa pos holeSize newSize)
    (hoa : ∀ a, a ∈ oa.array ↔ a ∈ s.index ∧ a ≠ t.start ∨
      ∃ u ∈ front, u.start = a ∧ u.kind = true)
    (honce : oa.array.Nodup)
    (hsorted : oa.array.Pairwise fun a b => headerSize s'.mem a
      ≤ headerSize s'.mem b)
    (hcapacity : oa.array.length ≤ oa.maxSize)
    (hroom : holeSize = newSize ∨ oa.array.length < oa.maxSize) :
    WellFormed s' (xs ++ (front ++ blockTiles pos holeSize newSize) ++ ys) := by
  have hsame : s'.heap.startAddress = s.heap.startAddress ∧
      s'.heap.endAddress = s.heap.endAddress := by
    rw [hheap]
    exact ⟨rfl, rfl⟩
  obtain ⟨hx, hy⟩ := tiles_split.mp h.tiles
  have ht := h.stop_lt (t := t) (by simp)
  -- the other tiles keep their tags
  have hkeep : ∀ u, u ∈ xs ∨ u ∈ ys → TileTags s'.mem u := by
    intro u hu
    have hmem : u ∈ xs ++ t :: ys := by
      obtain hu | hu := hu
      · simp [hu]
      · simp [hu]
    refine (h.tags u hmem).frame hag ?_ (Nat.le_of_lt (h.stop_lt hmem))
    obtain hu | hu := hu
    · exact Or.inl (hx.mem_bounds hu).2
    · exact Or.inr (hy.mem_bounds hu).1
  obtain ⟨hsorted', hcapacity', -, hcomplete⟩ := placeIndex_spec hsorted hcapacity hroom
  rw [← harray] at hsorted' hcapacity' hcomplete
  have hindex : s'.index = (placeIndex (isLessThan s'.mem) oa pos holeSize newSize).array := by
    rw [HeapState.index, harray]
  refine ⟨by rw [hsame.2]; exact h.end_lt, ?_, fun u hu => ?_, fun a => ⟨fun ha => ?_, ?_⟩, ?_,
    hsorted', hcapacity'⟩
  · rw [hsame.1, hsame.2]
    exact h.tiles.replace htiles
  · simp only [List.mem_append] at hu
    obtain (hu | hu) | hu := hu
    · exact hkeep u (Or.inl hu)
    · exact htags u (List.mem_append.mpr hu)
    · exact hkeep u (Or.inr hu)
  · rw [hindex] at ha
    obtain ha | ⟨u, hu, hstart, hkind⟩ := mem_placeIndex ha
    · obtain ⟨ha, hne⟩ | ⟨u, hu, hstart, hkind⟩ := (hoa a).mp ha
      · obtain ⟨u, hu, hstart, hkind⟩ := (h.index a).mp ha
        refine ⟨u, ?_, hstart, hkind⟩
        simp only [List.mem_append, List.mem_cons] at hu ⊢
        obtain hu | rfl | hu := hu
        · exact Or.inl (Or.inl hu)
        · exact absurd hstart.symm hne
        · exact Or.inr hu
      · exact ⟨u, by simp [hu], hstart, hkind⟩
    · exact ⟨u, by simp [hu], hstart, hkind⟩
  · rintro ⟨u, hu, rfl, hkind⟩
    have hold : u ∈ xs ∨ u ∈ ys → u.start ∈ s'.index := by
      intro hu
      rw [hindex]
      refine mem_placeIndex_of_mem ((hoa _).mpr (Or.inl ⟨(h.index _).mpr ⟨u, ?_, rfl, hkind⟩,
        h.start_ne hu⟩))
      obtain hu | hu := hu
      · simp [hu]
      · simp [hu]
    simp only [List.mem_append] at hu
    obtain (hu | hu | hu) | hu := hu
    · exact hold (Or.inl hu)
    · rw [hindex]
      exact mem_placeIndex_of_mem ((hoa _).mpr (Or.inr ⟨u, hu, rfl, hkind⟩))
    · exact hcomplete u hu hkind
    · exact hold (Or.inr hu)
  · rw [hindex]
    refine placeIndex_nodup honce fun hne hmem => ?_
    -- the hole behind the block starts inside the old hole
    obtain ⟨r, hr, hstart⟩ : ∃ r ∈ blockTiles pos holeSize newSize, r.start = pos + newSize := by
      rw [blockTiles, if_neg hne]
      exact ⟨_, List.mem_cons_of_mem _ (List.mem_singleton.mpr rfl), rfl⟩
    have hroom' := (htags r (List.mem_append_right _ hr)).room
    have hbounds := htiles.mem_bounds (List.mem_append_right _ hr)
    rw [← hstart] at hmem
    unfold Tile.stop at hbounds
    obtain ⟨hmem, hne⟩ | ⟨u, hu, hstart', -⟩ := (hoa _).mp hmem
    · refine h.not_mem_index_inside (t := t) (by simp) ?_ ?_ hmem
      · omega
      · unfold Tile.stop
        omega
    · -- and not where a hole in front starts
      have hlt := (List.pairwise_append.mp htiles.pairwise).2.2 u hu r hr
      have hu := (htags u (List.mem_append_left _ hu)).room
      unfold Tile.stop at hlt
      omega

end WellFormed

/-! ## Every tiling is the layout of a heap -/

/-- A memory with the tags of the tiles. -/
def tagMemory : List HeapTile → Memory
  | [] => fun _ => 0
  | t :: ts =>
    writeFooter (writeHeader (tagMemory ts) t.start t.size t.kind.toNat) (t.stop - 8) t.start

theorem tileTags_tagMemory : ∀ {ts : List HeapTile} {a b : Nat}, Tiles a ts b →
    (∀ t ∈ ts, 20 ≤ t.size) → b < 0x100000000 → ∀ t ∈ ts, TileTags (tagMemory ts) t
  | [], _, _, _, _, _ => nofun
  | t :: ts, a, b, h, hroom, hb => by
    have hstop := (h.mem_bounds (List.mem_cons_self (a := t))).2
    obtain ⟨htag, hag⟩ := tileTags_write (tagMemory ts) t.start t.size t.kind
      (hroom t List.mem_cons_self) (Nat.lt_of_le_of_lt hstop hb)
    intro u hu
    obtain rfl | hu := List.mem_cons.mp hu
    · exact htag
    · have hrest := tileTags_tagMemory h.2 (fun u hu => hroom u (List.mem_cons_of_mem _ hu)) hb u hu
      obtain ⟨hlo, hhi⟩ := h.2.mem_bounds hu
      exact hrest.frame hag (Or.inr hlo) (Nat.le_of_lt (Nat.lt_of_le_of_lt hhi hb))

/-- A heap with the tiles `ts`. -/
def heapOf (start stop : Nat) (ts : List HeapTile) : HeapState Unit where
  heap :=
    { placementAddress := 0, status := .initialized, isSupervisor := true, isReadonly := false
      useIdentityMapping := false, startAddress := start, endAddress := stop, maxEndAddress := stop
      heapArray := ⟨(ts.filter (·.kind)).map (·.start), heapIndexSize⟩ }
  mem := tagMemory ts
  paging := ()

/-- It is well formed when the holes stand in the order of their sizes. -/
theorem wellFormed_heapOf {start stop : Nat} (h : Tiles start ts stop)
    (hroom : ∀ t ∈ ts, 20 ≤ t.size)
    (hstop : stop < 0x100000000)
    (hsorted : (ts.filter (·.kind)).Pairwise fun t u => t.size ≤ u.size)
    (hcapacity : ts.length ≤ heapIndexSize) : WellFormed (heapOf start stop ts) ts := by
  have htags := tileTags_tagMemory h hroom hstop
  have hpairwise := h.pairwise.filter (·.kind)
  refine ⟨hstop, h, htags, fun a => ?_, ?_, ?_, ?_⟩
  · show a ∈ (ts.filter (·.kind)).map (·.start) ↔ _
    simp only [List.mem_map, List.mem_filter]
    exact ⟨fun ⟨t, ht, he⟩ => ⟨t, ht.1, he, ht.2⟩, fun ⟨t, ht, he, hk⟩ => ⟨t, ⟨ht, hk⟩, he⟩⟩
  · refine List.pairwise_map.mpr (hpairwise.imp_of_mem fun {t u} ht _ htu => ?_)
    have hroom := hroom t (List.mem_of_mem_filter ht)
    unfold Tile.stop at htu
    omega
  · refine List.pairwise_map.mpr (hsorted.imp_of_mem fun {t u} ht hu htu => ?_)
    show headerSize (tagMemory ts) t.start ≤ headerSize (tagMemory ts) u.start
    rw [(htags t (List.mem_of_mem_filter ht)).header.size,
      (htags u (List.mem_of_mem_filter hu)).header.size]
    exact htu
  · show ((ts.filter (·.kind)).map (·.start)).length ≤ heapIndexSize
    rw [List.length_map]
    exact (List.length_filter_le ..).trans hcapacity

/-! ## Cutting a block out of a hole -/

/-- A block of at least `newSize` bytes has been cut out of the hole `t`, between the holes `front`
and `rest`, of which there may be none. -/
structure HoleCut (s s' : HeapState W) (xs : List HeapTile) (t : HeapTile)
    (ys front : List HeapTile)
    (block : HeapTile) (rest : List HeapTile) (newSize address : Nat) : Prop where
  isHole : t.kind = true
  isBlock : block.kind = false
  size : newSize ≤ block.size
  payload : address = block.start + 12
  before : front.length ≤ 1 ∧ ∀ u ∈ front, u.kind = true ∧ 20 ≤ u.size
  behind : rest.length ≤ 1 ∧ ∀ u ∈ rest, u.kind = true ∧ 20 ≤ u.size
  tiles : Tiles t.start (front ++ block :: rest) t.stop
  agree : Memory.AgreeOff t.start t.stop s.mem s'.mem
  heap : s'.heap = { s.heap with heapArray := s'.heap.heapArray }
  paging : s'.paging = s.paging
  wellFormed : WellFormed s' (xs ++ (front ++ block :: rest) ++ ys)

/-- The size of the block that `carve` makes when it cuts nothing off in front. -/
def cutSize (holeSize newSize : Nat) : Nat :=
  if sub32 holeSize newSize < 20 then holeSize else newSize

/-- The size of its payload. -/
def cutPayload (size holeSize newSize : Nat) : Nat :=
  if sub32 holeSize newSize < 20 then wrap32 (size + sub32 holeSize newSize) else size

theorem wrap32_cutPayload {size holeSize : Nat} (hhole : holeSize < 0x100000000) :
    wrap32 (cutPayload size holeSize (wrap32 (size + 20)) + 20)
      = cutSize holeSize (wrap32 (size + 20)) := by
  unfold cutPayload cutSize
  split
  · unfold sub32 wrap32
    omega
  · rfl

theorem cutSize_lt {holeSize newSize : Nat} (hhole : holeSize < 0x100000000)
    (hnew : newSize < 0x100000000) : cutSize holeSize newSize < 0x100000000 := by
  unfold cutSize
  split <;> assumption

/-- `carve` on a hole that it cuts nothing off in front. -/
theorem carve_whole {i size newSize pos holeSize : Nat} {shouldAlign : Bool}
    (hpos : orderedArrayGet s.heap.heapArray i = pos) (hhole : headerSize s.mem pos = holeSize)
    (hfront : shouldAlign = true → pos &&& 0xFFFFF000 = 0) :
    carve s i size newSize shouldAlign = placeBlock (removeHole s i) pos holeSize
      (cutPayload size holeSize newSize) (cutSize holeSize newSize) := by
  unfold carve
  simp only [hpos, hhole]
  rw [if_neg (fun h => h.2 (hfront h.1))]
  rfl

/-- **Such a cut, when the block and what is left have room for their tags.** -/
theorem WellFormed.carve_whole (h : WellFormed s (xs ++ t :: ys)) {i size newSize : Nat}
    {shouldAlign : Bool} (hi : i < s.index.length) (hget : s.index[i] = t.start)
    (hkind : t.kind = true) (hfront : shouldAlign = true → t.start &&& 0xFFFFF000 = 0)
    (hsize : cutSize t.size newSize = cutPayload size t.size newSize + 20)
    (hfit : cutSize t.size newSize = t.size ∨ cutSize t.size newSize + 20 ≤ t.size)
    (hle : newSize ≤ cutSize t.size newSize) :
    ∃ block rest, block.start = t.start ∧
      HoleCut s (carve s i size newSize shouldAlign).1 xs t ys [] block rest newSize
        (carve s i size newSize shouldAlign).2 := by
  have ht : t ∈ xs ++ t :: ys := by simp
  have hstop := (h.tiles.mem_bounds ht).2
  rw [Xylophone.carve_whole ((orderedArrayGet_eq hi).trans hget) (h.size_headerSize ht) hfront]
  generalize cutSize t.size newSize = blockSize at *
  generalize cutPayload size t.size newSize = payload at *
  obtain ⟨hplaced, haddress⟩ := placeBlock_spec (removeHole s i) t.start t.size payload blockSize
    hsize hfit hstop h.end_lt
  generalize placeBlock (removeHole s i) t.start t.size payload blockSize = r at hplaced haddress ⊢
  have hremove := h.mem_remove hi hget
  have hshort : (orderedArrayRemove s.heap.heapArray i).array.length <
      (orderedArrayRemove s.heap.heapArray i).maxSize := by
    have hcapacity := h.capacity
    rw [orderedArrayRemove_array, orderedArrayRemove_maxSize, List.length_eraseIdx_of_lt hi]
    show s.index.length - 1 < _
    omega
  have hagree : Memory.AgreeOff t.start t.stop s.mem r.1.mem := hplaced.agree
  -- the other holes keep their sizes
  have hsame : ∀ a ∈ (orderedArrayRemove s.heap.heapArray i).array,
      headerSize r.1.mem a = headerSize s.mem a := by
    intro a ha
    obtain ⟨ha, hne⟩ := (hremove a).mp ha
    obtain ⟨u, hu, rfl, -⟩ := (h.index a).mp ha
    have hu' := h.tags u hu
    have hlt := h.stop_lt hu
    have hout : u.stop ≤ t.start ∨ t.stop ≤ u.start := by
      obtain rfl | hd | hd := h.tiles.disjoint hu ht
      · exact absurd rfl hne
      · exact Or.inl hd
      · exact Or.inr hd
    rw [(hu'.frame hagree hout (Nat.le_of_lt hlt)).header.size, hu'.header.size]
  have hsorted : (orderedArrayRemove s.heap.heapArray i).array.Pairwise
      fun a b => headerSize r.1.mem a ≤ headerSize r.1.mem b := by
    rw [orderedArrayRemove_array]
    refine (h.sorted.sublist (List.eraseIdx_sublist _ i)).imp_of_mem fun {a b} ha hb hab => ?_
    rw [← orderedArrayRemove_array] at ha hb
    rw [hsame a ha, hsame b hb]
    exact hab
  have honce : (orderedArrayRemove s.heap.heapArray i).array.Nodup := by
    rw [orderedArrayRemove_array]
    exact h.once.eraseIdx i
  have htiles : Tiles t.start ([] ++ blockTiles t.start t.size blockSize) t.stop :=
    tiles_blockTiles (by omega)
  have hnew := h.cut hplaced.heap hagree htiles hplaced.tags hplaced.array
    (fun a => (hremove a).trans (by simp))
    honce hsorted (Nat.le_of_lt hshort)
    (Or.inr hshort)
  have hroom := h.room ht
  refine ⟨⟨t.start, blockSize, false⟩, _, rfl, hkind, rfl, hle, haddress, by simp, ?_,
    tiles_blockTiles (by omega), hagree, hplaced.heap, hplaced.paging, hnew⟩
  by_cases heq : t.size = blockSize
  · rw [if_pos heq]
    simp
  · rw [if_neg heq]
    refine ⟨Nat.le_refl _, fun u hu => ?_⟩
    rw [List.mem_singleton.mp hu]
    exact ⟨rfl, show 20 ≤ t.size - blockSize by omega⟩

/-! ## Requests without alignment -/

/-- **A request that some hole has room for, without alignment.** The block and the hole that may be
left behind it cover the hole, and nothing else changes. -/
theorem malloc_unaligned_exact (ops : PagingOps W) (h : WellFormed s ts)
    (hstatus : s.heap.status = .initialized) {size : Nat} (hsize : size + 20 < 0x100000000)
    (hhole : ∃ t ∈ ts, t.kind = true ∧ size + 20 ≤ t.size) :
    ∃ xs t ys s' block rest, ts = xs ++ t :: ys ∧
      heapManagerMalloc ops s size false = some (s', t.start + 12) ∧
      HoleCut s s' xs t ys [] block rest (size + 20) (t.start + 12) := by
  have hwrap : wrap32 (size + 20) = size + 20 := wrap32_of_lt hsize
  have hfits : ∀ a, holeFits s.mem (size + 20) false a = true ↔ size + 20 ≤ headerSize s.mem a :=
    fun a => decide_eq_true_iff
  obtain ⟨i, hfind⟩ : ∃ i, findSmallestHole s (size + 20) false = some i := by
    obtain ⟨t, ht, hkind, hfit⟩ := hhole
    refine Option.ne_none_iff_exists'.mp fun hnone => ?_
    have hno := findSmallestHole_none hnone t.start ((h.index _).mpr ⟨t, ht, rfl, hkind⟩)
    rw [(hfits _).mpr (by rw [h.size_headerSize ht]; exact hfit)] at hno
    cases hno
  obtain ⟨hi, hfit⟩ := findSmallestHole_some hfind
  obtain ⟨xs, t, ys, rfl, hkind, hget⟩ := h.exists_hole hi
  have ht : t ∈ xs ++ t :: ys := by simp
  have hle : size + 20 ≤ t.size := by
    rw [hget] at hfit
    rw [← h.size_headerSize ht]
    exact (hfits _).mp hfit
  have hlt : t.size < 0x100000000 := by
    have hstop := h.stop_lt ht
    unfold Tile.stop at hstop
    omega
  have hleft : sub32 t.size (size + 20) = t.size - (size + 20) := sub32_of_le hle hlt
  obtain ⟨block, rest, hstart, hcut⟩ := @WellFormed.carve_whole _ _ _ _ _ h _ size (size + 20) false
    hi hget hkind nofun
    (by
      unfold cutSize cutPayload
      rw [hleft]
      split
      · rw [wrap32_of_lt (by omega)]
        omega
      · rfl)
    (by
      unfold cutSize
      rw [hleft]
      split
      · exact Or.inl rfl
      · exact Or.inr (by omega))
    (by
      unfold cutSize
      split <;> omega)
  have hmalloc : heapManagerMalloc ops s size false
      = some (carve s i size (size + 20) false) := by
    unfold heapManagerMalloc allocate
    rw [hstatus]
    simp only [hwrap, hfind]
  have haddress := hcut.payload
  rw [hstart] at haddress
  refine ⟨xs, t, ys, _, block, rest, rfl, ?_, haddress ▸ hcut⟩
  rw [hmalloc, ← haddress]

/-- A heap with a block, a hole of 64 bytes, a block, and a hole to the end. -/
def mixedTiles : List HeapTile :=
  [⟨0xC0481000, 0x200, false⟩, ⟨0xC0481200, 64, true⟩, ⟨0xC0481240, 0x100, false⟩,
    ⟨0xC0481340, 0x7ECC0, true⟩]

theorem malloc_unaligned_exact_mixedTiles : ∃ xs t ys s' block rest, mixedTiles = xs ++ t :: ys ∧
    heapManagerMalloc servingOps (heapOf 0xC0481000 0xC0500000 mixedTiles) 40 false
      = some (s', t.start + 12) ∧
    HoleCut (heapOf 0xC0481000 0xC0500000 mixedTiles) s' xs t ys [] block rest (40 + 20)
      (t.start + 12) :=
  malloc_unaligned_exact servingOps
    (wellFormed_heapOf (by simp [mixedTiles]) (by simp [mixedTiles]) (by decide)
      (by simp [mixedTiles]) (by decide))
    rfl (by decide) ⟨⟨0xC0481200, 64, true⟩, by simp [mixedTiles], rfl, by decide⟩

end Xylophone
