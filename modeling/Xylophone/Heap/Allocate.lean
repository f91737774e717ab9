import Xylophone.Heap.Place

/-!
# `allocate` on a heap in order

Under `AllocateOk`, a condition on the state before the call, `allocate` keeps the layout: the
blocks stay where they are, and a block that it returns is new. The condition excludes three
things the code does not check:

* the length of the request with its tags passes `2 ^ 32`, or so does the end of the heap after
  the expansion;
* the highest hole, which takes the space of an expansion, does not reach the end of the heap;
* an aligned block leaves a remainder that cannot hold its own tags (`CarveOk`).
-/

namespace Xylophone

open Infra

variable {W : Type}

/-! ## The condition -/

/-- The length of the heap. -/
def HeapState.length (s : HeapState W) : Nat := s.heap.endAddress - s.heap.startAddress

/-- The length of the heap after an expansion for a block of `newSize` bytes. -/
def HeapState.grownLength (s : HeapState W) (newSize : Nat) : Nat := pagesFor (s.length + newSize)

/-- The hole that takes the space of an expansion: the highest one, or a new one at the end. -/
def growthHole (s : HeapState W) (newSize : Nat) : Nat × Nat :=
  let growth := s.grownLength newSize - s.length
  match highestHole s.heap.heapArray.array with
  | none => (s.heap.endAddress, growth)
  | some idx =>
    let header := orderedArrayGet s.heap.heapArray idx
    (header, headerSize s.mem header + growth)

/-- An expansion for a block of `newSize` bytes goes well. -/
structure GrowOk (s : HeapState W) (newSize : Nat) (shouldAlign : Bool) : Prop where
  noWrap : s.heap.startAddress + s.grownLength newSize < 0x100000000
  atEnd : (growthHole s newSize).1 + (growthHole s newSize).2 =
    s.heap.startAddress + s.grownLength newSize
  carve : shouldAlign = true →
    sizeFits newSize true (growthHole s newSize).1 (growthHole s newSize).2 = true →
    CarveOk (growthHole s newSize).1 (growthHole s newSize).2 newSize

/-- The limit test of `allocate`, with the wrapped sums of the source. -/
def overLimit (s : HeapState W) (newSize : Nat) : Prop :=
  s.heap.maxEndAddress < wrap32 (s.heap.startAddress +
    wrap32 (sub32 s.heap.endAddress s.heap.startAddress + newSize))

instance (s : HeapState W) (newSize : Nat) (shouldAlign : Bool) :
    Decidable (GrowOk s newSize shouldAlign) :=
  decidable_of_iff (_ ∧ _ ∧ (shouldAlign = true → _ → _))
    ⟨fun h => ⟨h.1, h.2.1, h.2.2⟩, fun h => ⟨h.noWrap, h.atEnd, h.carve⟩⟩

instance (s : HeapState W) (newSize : Nat) : Decidable (overLimit s newSize) :=
  inferInstanceAs (Decidable (_ < _))

/-- An allocation of `size` bytes goes well. -/
structure AllocateOk (s : HeapState W) (size : Nat) (shouldAlign : Bool) : Prop where
  size_lt : size + 20 < 0x100000000
  carve : ∀ i, findSmallestHole s (size + 20) shouldAlign = some i → shouldAlign = true →
    CarveOk (orderedArrayGet s.heap.heapArray i)
      (headerSize s.mem (orderedArrayGet s.heap.heapArray i)) (size + 20)
  grow : findSmallestHole s (size + 20) shouldAlign = none → ¬ overLimit s (size + 20) →
    GrowOk s (size + 20) shouldAlign

instance (s : HeapState W) (size : Nat) (shouldAlign : Bool) :
    Decidable (AllocateOk s size shouldAlign) :=
  match hfind : findSmallestHole s (size + 20) shouldAlign with
  | some i =>
    decidable_of_iff (size + 20 < 0x100000000 ∧ (shouldAlign = true →
        CarveOk (orderedArrayGet s.heap.heapArray i)
          (headerSize s.mem (orderedArrayGet s.heap.heapArray i)) (size + 20)))
      ⟨fun h => ⟨h.1, fun j hj => Option.some.inj (hfind.symm.trans hj) ▸ h.2,
        fun hn => absurd (hfind.symm.trans hn) (by simp)⟩, fun h => ⟨h.size_lt, h.carve i hfind⟩⟩
  | none =>
    decidable_of_iff (size + 20 < 0x100000000 ∧
        (¬ overLimit s (size + 20) → GrowOk s (size + 20) shouldAlign))
      ⟨fun h => ⟨h.1, fun j hj => absurd (hfind.symm.trans hj) (by simp), fun _ => h.2⟩,
        fun h => ⟨h.size_lt, h.grow hfind⟩⟩

/-! ## Finding a hole -/

theorem findSmallestHole_some {s : HeapState W} {newSize i : Nat} {shouldAlign : Bool}
    (h : findSmallestHole s newSize shouldAlign = some i) :
    ∃ hi : i < s.index.length, holeFits s.mem newSize shouldAlign s.index[i] = true :=
  let ⟨hi, hp, _⟩ := List.findIdx?_eq_some_iff_getElem.mp h
  ⟨hi, hp⟩

theorem findSmallestHole_none {s : HeapState W} {newSize : Nat} {shouldAlign : Bool}
    (h : findSmallestHole s newSize shouldAlign = none) :
    ∀ a ∈ s.index, holeFits s.mem newSize shouldAlign a = false :=
  List.findIdx?_eq_none_iff.mp h

theorem orderedArrayGet_eq {s : HeapState W} {i : Nat} (hi : i < s.index.length) :
    orderedArrayGet s.heap.heapArray i = s.index[i] := List.getD_eq_getElem _ _ hi

/-! ## The highest hole -/

/-- The search returns the place of the highest entry, when one is higher than the value that it was
given. -/
theorem highestHoleLoop_spec : ∀ (l : List Nat) (i value : Nat) (idx : Option Nat),
    (highestHoleLoop l i value idx = idx ∧ ∀ a ∈ l, a ≤ value) ∨
      ∃ (k : Nat) (hk : k < l.length), highestHoleLoop l i value idx = some (i + k) ∧
        value < l[k] ∧ ∀ a ∈ l, a ≤ l[k]
  | [], _, _, _ => Or.inl ⟨rfl, nofun⟩
  | tmp :: rest, i, value, idx => by
    rw [highestHoleLoop]
    split
    · next hlt =>
      right
      obtain ⟨heq, hle⟩ | ⟨k, hk, heq, hhigh, hle⟩ := highestHoleLoop_spec rest (i + 1) tmp (some i)
      · refine ⟨0, by simp, heq, hlt, fun a ha => ?_⟩
        obtain rfl | ha := List.mem_cons.mp ha
        · exact Nat.le_refl _
        · exact hle a ha
      · refine ⟨k + 1, by simpa using hk, by rw [heq]; congr 1; omega, ?_, fun a ha => ?_⟩
        · rw [List.getElem_cons_succ]
          omega
        · rw [List.getElem_cons_succ]
          obtain rfl | ha := List.mem_cons.mp ha
          · exact Nat.le_of_lt hhigh
          · exact hle a ha
    · next hge =>
      obtain ⟨heq, hle⟩ | ⟨k, hk, heq, hhigh, hle⟩ := highestHoleLoop_spec rest (i + 1) value idx
      · refine Or.inl ⟨heq, fun a ha => ?_⟩
        obtain rfl | ha := List.mem_cons.mp ha
        · exact Nat.le_of_not_lt hge
        · exact hle a ha
      · refine Or.inr ⟨k + 1, by simpa using hk, by rw [heq]; congr 1; omega, ?_, fun a ha => ?_⟩
        · rw [List.getElem_cons_succ]
          exact hhigh
        · rw [List.getElem_cons_succ]
          obtain rfl | ha := List.mem_cons.mp ha
          · omega
          · exact hle a ha

/-- **The highest hole.** -/
theorem highestHole_some {l : List Nat} {j : Nat} (h : highestHole l = some j) :
    ∃ hj : j < l.length, ∀ a ∈ l, a ≤ l[j] := by
  obtain ⟨heq, -⟩ | ⟨k, hk, heq, -, hle⟩ := highestHoleLoop_spec l 0 0 none
  · cases heq.symm.trans h
  · obtain rfl : 0 + k = j := Option.some.inj (heq.symm.trans h)
    rw [Nat.zero_add] at *
    exact ⟨hk, by simpa using hle⟩

/-- There is none when no entry is above 0. -/
theorem highestHole_none {l : List Nat} (h : highestHole l = none) : ∀ a ∈ l, a = 0 := by
  obtain ⟨-, hle⟩ | ⟨k, -, heq, -⟩ := highestHoleLoop_spec l 0 0 none
  · exact fun a ha => Nat.le_zero.mp (hle a ha)
  · cases heq.symm.trans h

/-! ## Cutting a block out of a hole of the layout -/

theorem tiles_carveTiles {pos holeSize newSize : Nat} {shouldAlign : Bool}
    (hfit : shouldAlign = false → newSize ≤ holeSize)
    (hok : shouldAlign = true → CarveOk pos holeSize newSize) :
    Tiles pos (carveTiles pos holeSize newSize shouldAlign) (pos + holeSize) := by
  cases shouldAlign with
  | false =>
    have := hfit rfl
    exact tiles_blockTiles (by split <;> omega)
  | true =>
    obtain ⟨-, hrest⟩ := hok rfl
    refine tiles_cons.mpr ⟨rfl, ?_⟩
    have := @tiles_blockTiles (pos + frontSize pos) (holeSize - frontSize pos) newSize (by omega)
    rw [show pos + frontSize pos + (holeSize - frontSize pos) = pos + holeSize by omega] at this
    exact this

/-- The block is one of the new tiles, and long enough for the payload. -/
theorem exists_block_carveTiles {pos holeSize newSize : Nat} {shouldAlign : Bool}
    (hfit : shouldAlign = false → newSize ≤ holeSize) :
    ∃ t ∈ carveTiles pos holeSize newSize shouldAlign,
      t.kind = false ∧ t.start = carvePos pos shouldAlign ∧ newSize ≤ t.size := by
  cases shouldAlign with
  | false =>
    have := hfit rfl
    refine ⟨_, List.mem_cons_self .., rfl, rfl, ?_⟩
    simp only []
    split <;> omega
  | true => exact ⟨_, List.mem_cons_of_mem _ (List.mem_cons_self ..), rfl, rfl, Nat.le_refl _⟩

variable {s s' : HeapState W} {xs ys : List HeapTile} {t : HeapTile}

/-- An entry of the index after `placeBlock` was there before, or is the remainder. -/
theorem mem_placeIndex {lt : Nat → Nat → Bool} {array : OrderedArray Nat}
    {pos holeSize newSize a : Nat} (h : a ∈ (placeIndex lt array pos holeSize newSize).array) :
    a ∈ array.array ∨ ∃ t ∈ blockTiles pos holeSize newSize, t.start = a ∧ t.kind = true := by
  unfold placeIndex at h
  split at h
  · exact Or.inl h
  · next hne =>
    rcases mem_orderedArrayInsert h with rfl | hmem
    · refine Or.inr ⟨⟨pos + newSize, holeSize - newSize, true⟩, ?_, rfl, rfl⟩
      rw [blockTiles, if_neg hne]
      simp
    · exact Or.inl hmem

theorem mem_placeIndex_of_mem {lt : Nat → Nat → Bool} {array : OrderedArray Nat}
    {pos holeSize newSize a : Nat} (h : a ∈ array.array) :
    a ∈ (placeIndex lt array pos holeSize newSize).array := by
  unfold placeIndex
  split
  · exact h
  · exact mem_orderedArrayInsert_of_mem h

theorem placeIndex_nodup {lt : Nat → Nat → Bool} {array : OrderedArray Nat}
    {pos holeSize newSize : Nat} (hnd : array.array.Nodup)
    (hnew : holeSize ≠ newSize → pos + newSize ∉ array.array) :
    (placeIndex lt array pos holeSize newSize).array.Nodup := by
  unfold placeIndex
  split
  · exact hnd
  · next hne => exact orderedArrayInsert_nodup hnd (hnew hne)

/-- No entry of the index lies strictly inside a tile. -/
theorem HeapLayout.not_mem_index_inside {ts : List HeapTile} (h : HeapLayout s ts) (ht : t ∈ ts)
    {a : Nat} (hlo : t.start < a) (hhi : a < t.stop) : a ∉ s.index := by
  intro hmem
  obtain ⟨u, hu, rfl, -⟩ := h.indexed a hmem
  have := h.room u hu
  rcases h.tiles.disjoint ht hu with rfl | hd | hd
  · omega
  · omega
  · unfold Tile.stop at *
    omega

/-- **Cutting a block out of a hole keeps the layout.** -/
theorem HeapLayout.carve {i newSize : Nat} {shouldAlign : Bool}
    (h : HeapLayout s (xs ++ t :: ys)) (hi : i < s.index.length) (hget : s.index[i] = t.start)
    (hnew : 20 ≤ newSize) (hfit : shouldAlign = false → newSize ≤ t.size)
    (hok : shouldAlign = true → CarveOk t.start t.size newSize)
    (hc : Carved s s' i t.start t.size newSize shouldAlign) :
    HeapLayout s' (xs ++ carveTiles t.start t.size newSize shouldAlign ++ ys) := by
  obtain ⟨hx, hy⟩ := tiles_split.mp h.tiles
  have hroom := h.room t (by simp)
  have hle := (h.bounds (t := t) (by simp)).2
  have hsame : s'.heap.startAddress = s.heap.startAddress ∧
      s'.heap.endAddress = s.heap.endAddress := by rw [hc.heap]; exact ⟨rfl, rfl⟩
  have hsplit : HeapLayout s (xs ++ [t] ++ ys) := by simpa using h
  have hstop : t.stop = t.start + t.size := rfl
  -- what the index holds besides the cut hole
  have hremoved : ∀ a, a ∈ (orderedArrayRemove s.heap.heapArray i).array ↔
      a ≠ t.start ∧ a ∈ s.index := by
    intro a
    rw [mem_orderedArrayRemove h.nodup hi, ← hget]
  refine hsplit.splice hsame.1 (by rw [hsame.2]; exact h.end_lt) hx
    (tiles_carveTiles hfit hok) (by rw [hsame.2]; exact hy) (Or.inl (by omega))
    (fun _ => ⟨hsame.2, Nat.le_refl _⟩) hc.agree hc.tags ?_ ?_ ?_
  · intro a ha
    show _ ∨ _
    rw [HeapState.index, hc.array] at ha
    cases shouldAlign with
    | false =>
      rcases mem_placeIndex ha with hmem | ⟨u, hu, he, hk⟩
      · obtain ⟨hne, hmem⟩ := (hremoved a).mp hmem
        exact Or.inl ⟨hmem, by simpa using Ne.symm hne⟩
      · exact Or.inr ⟨u, hu, he, hk⟩
    | true =>
      rcases mem_placeIndex ha with hmem | ⟨u, hu, he, hk⟩
      · by_cases he : a = t.start
        · exact Or.inr ⟨_, List.mem_cons_self .., he.symm, rfl⟩
        · exact Or.inl ⟨hmem, by simpa using Ne.symm he⟩
      · exact Or.inr ⟨u, List.mem_cons_of_mem _ hu, he, hk⟩
  · rintro a hmem ⟨y, hy', rfl⟩
    have hne : y.start ≠ t.start := by
      have := (hy.mem_bounds hy').1
      omega
    rw [HeapState.index, hc.array]
    cases shouldAlign with
    | false => exact mem_placeIndex_of_mem ((hremoved _).mpr ⟨hne, hmem⟩)
    | true => exact mem_placeIndex_of_mem hmem
  · rw [HeapState.index, hc.array]
    have hinside : ∀ a, t.start < a → a < t.stop → a ∉ s.index :=
      fun a => h.not_mem_index_inside (by simp)
    cases shouldAlign with
    | false =>
      have hle := hfit rfl
      refine placeIndex_nodup ?_ ?_
      · rw [orderedArrayRemove_array]
        exact h.nodup.eraseIdx i
      · intro hne hmem
        refine hinside _ ?_ ?_ ((hremoved _).mp hmem).2
        · split <;> omega
        · split at hne <;> split <;> omega
    | true =>
      obtain ⟨-, hrest⟩ := hok rfl
      refine placeIndex_nodup h.nodup ?_
      intro hne
      exact hinside _ (by omega) (by omega)

/-! ## Growing the heap -/

/--
The paging manager satisfies every request. It comes back, leaves the heap's record alone, and
keeps the memory below the first address asked for. What a page holds that has just been mapped
is not known.
-/
structure PagingOps.Serves (ops : PagingOps W) : Prop where
  allocate : ∀ s a b k w, ∃ m p, ops.allocateRange s a b k w = some { s with mem := m, paging := p } ∧
    Memory.AgreeOff a 0x100000000 s.mem m
  identityAllocate : ∀ s a b k w, ∃ m p,
    ops.identityAllocateRange s a b k w = some { s with mem := m, paging := p } ∧
      Memory.AgreeOff a 0x100000000 s.mem m

theorem PagingOps.Serves.requestPages {ops : PagingOps W} (h : ops.Serves) (s : HeapState W)
    (a b : Nat) : ∃ m p, requestPages ops s a b = some { s with mem := m, paging := p } ∧
      Memory.AgreeOff a 0x100000000 s.mem m := by
  unfold Xylophone.requestPages
  split
  · exact h.identityAllocate _ _ _ _ _
  · exact h.allocate _ _ _ _ _

/-- The effect of an expansion for a block of `newSize` bytes. -/
structure Grown (s s' : HeapState W) (newSize : Nat) : Prop where
  status : s'.heap.status = s.heap.status
  start : s'.heap.startAddress = s.heap.startAddress
  stop : s'.heap.endAddress = s.heap.startAddress + s.grownLength newSize
  maxSize : s'.heap.heapArray.maxSize = s.heap.heapArray.maxSize
  agree : Memory.AgreeOff (growthHole s newSize).1 0x100000000 s.mem s'.mem
  tags : TileTags s'.mem ⟨(growthHole s newSize).1, (growthHole s newSize).2, true⟩
  index : s'.index = s.index ∧ (growthHole s newSize).1 ∈ s.index ∨ s.index = [] ∧ s'.heap.heapArray =
    (orderedArrayInsert (isLessThan s'.mem) s.heap.heapArray (growthHole s newSize).1).1

theorem le_grownLength (s : HeapState W) (newSize : Nat) :
    s.length + newSize ≤ s.grownLength newSize := le_pagesFor _

/-- The length that `allocate` asks `expand` for, when the sum does not wrap around. -/
theorem HeapLayout.newLength {ts : List HeapTile} (h : HeapLayout s ts) {newSize : Nat}
    (hwrap : s.heap.startAddress + s.grownLength newSize < 0x100000000) :
    wrap32 (sub32 s.heap.endAddress s.heap.startAddress + newSize) = s.length + newSize := by
  have hle := h.tiles.le
  have hend := h.end_lt
  have hgrown := le_grownLength s newSize
  rw [sub32_of_le hle hend]
  exact wrap32_of_lt (show s.length + newSize < 0x100000000 by omega)

theorem expand_spec {ops : PagingOps W} (hops : ops.Serves) {newSize : Nat} (hnew : 0 < newSize)
    (hwrap : s.heap.startAddress + s.grownLength newSize < 0x100000000) :
    ∃ m p, expand ops s (s.length + newSize) = some
        { s with
          heap := { s.heap with endAddress := s.heap.startAddress + s.grownLength newSize }
          mem := m
          paging := p } ∧
      Memory.AgreeOff s.heap.endAddress 0x100000000 s.mem m := by
  have hround : roundToPage (s.length + newSize) = s.grownLength newSize :=
    roundToPage_eq (show s.grownLength newSize < 0x100000000 by omega)
  obtain ⟨m, p, hreq, hag⟩ := hops.requestPages s s.heap.endAddress
    (s.heap.startAddress + s.grownLength newSize)
  refine ⟨m, p, ?_, hag⟩
  unfold expand
  rw [if_neg (by omega)]
  simp only [hround, wrap32_of_lt hwrap, hreq, Option.map_some]

/-- Either the index is empty, or the highest hole is the last tile and takes the new space. -/
theorem HeapLayout.growthHole {ts : List HeapTile} (h : HeapLayout s ts) {newSize : Nat}
    (hat : (growthHole s newSize).1 + (growthHole s newSize).2 =
      s.heap.startAddress + s.grownLength newSize) :
    (s.index = [] ∧ highestHole s.index = none ∧
      Xylophone.growthHole s newSize = (s.heap.endAddress, s.grownLength newSize - s.length)) ∨
    ∃ xs t idx, ts = xs ++ [t] ∧ t.kind = true ∧ t.stop = s.heap.endAddress ∧ t.start ∈ s.index ∧
      highestHole s.index = some idx ∧ orderedArrayGet s.heap.heapArray idx = t.start ∧
      Xylophone.growthHole s newSize = (t.start, t.size + (s.grownLength newSize - s.length)) := by
  have hpos : ∀ a ∈ s.index, 0 < a := by
    intro a ha
    obtain ⟨t, ht, rfl, -⟩ := h.indexed a ha
    have := (h.bounds ht).1
    have := h.start_pos
    omega
  cases hhigh : highestHole s.heap.heapArray.array with
  | none =>
    have hnil : s.index = [] := List.eq_nil_iff_forall_not_mem.mpr fun a ha => by
      have hzero := highestHole_none hhigh a ha
      have := hpos a ha
      omega
    exact Or.inl ⟨hnil, rfl, by simp only [Xylophone.growthHole, hhigh]⟩
  | some idx =>
    obtain ⟨hlt, -⟩ := highestHole_some hhigh
    have hget := orderedArrayGet_eq hlt
    obtain ⟨t, ht, hstart, hkind⟩ := h.indexed s.index[idx] (List.getElem_mem hlt)
    have hsize := h.size_headerSize ht
    have hgrowth : Xylophone.growthHole s newSize
        = (t.start, t.size + (s.grownLength newSize - s.length)) := by
      simp only [Xylophone.growthHole, hhigh, hget, ← hstart, hsize]
    -- the hole reaches the end of the heap, so it is the last tile
    have hstop : t.stop = s.heap.endAddress := by
      rw [hgrowth] at hat
      have hle := h.tiles.le
      have hgrown := le_grownLength s newSize
      unfold HeapState.length Tile.stop at *
      simp only [] at hat
      omega
    obtain ⟨xs, ys, rfl⟩ := List.append_of_mem ht
    obtain rfl : ys = [] :=
      h.tiles.last_of_stop (fun u hu => h.pos u (by simp [hu])) hstop
    exact Or.inr ⟨xs, t, idx, rfl, hkind, hstop, hstart ▸ List.getElem_mem hlt, rfl,
      hget.trans hstart.symm, hgrowth⟩

/-- **An expansion under `GrowOk`.** -/
theorem HeapLayout.grown {ops : PagingOps W} (hops : ops.Serves) {ts : List HeapTile}
    (h : HeapLayout s ts) {newSize : Nat} {shouldAlign : Bool} (hnew : 20 ≤ newSize)
    (hok : GrowOk s newSize shouldAlign) :
    ∃ s₁, expand ops s (s.length + newSize) = some s₁ ∧
      Grown s (absorbExpansion s₁ s.heap.endAddress s.length) newSize := by
  have hwrap := hok.noWrap
  have hat := hok.atEnd
  have hgrown := le_grownLength s newSize
  have hlen : s.heap.startAddress + s.length = s.heap.endAddress := by
    have := h.tiles.le
    unfold HeapState.length
    omega
  obtain ⟨m, p, hexp, hag⟩ := expand_spec hops (by omega : 0 < newSize) hwrap
  refine ⟨_, hexp, ?_⟩
  have hgrowth : sub32 (sub32 (s.heap.startAddress + s.grownLength newSize) s.heap.startAddress)
      s.length = s.grownLength newSize - s.length := by
    rw [sub32_of_le (by omega) hwrap, Nat.add_sub_cancel_left, sub32_of_le (by omega) (by omega)]
  have hpos := h.start_pos
  rcases h.growthHole hat with ⟨hnil, hhigh, hhole⟩ | ⟨xs, t, idx, rfl, hkind, hstop, hmem, hhigh,
    hget, hhole⟩
  · -- a new hole
    rw [HeapState.index] at hhigh
    have hfoot : sub32 (wrap32 (s.heap.endAddress + (s.grownLength newSize - s.length))) 8
        = s.heap.endAddress + (s.grownLength newSize - s.length) - 8 := by
      rw [wrap32_of_lt (by omega), sub32_of_le (by omega) (by omega)]
    obtain ⟨htag, hag'⟩ := tileTags_write m s.heap.endAddress (s.grownLength newSize - s.length) true
      (by omega) (by omega)
    rw [show (true : Bool).toNat = 1 from rfl] at htag hag'
    unfold absorbExpansion
    simp only [hhigh, hgrowth, hfoot]
    refine ⟨rfl, rfl, rfl, orderedArrayInsert_maxSize, ?_, ?_, Or.inr ⟨hnil, ?_⟩⟩
    · rw [hhole]
      exact hag.trans (hag'.mono (Nat.le_refl _) (by omega))
    · rw [hhole]
      exact htag
    · rw [hhole]
      rfl
  · -- the last tile grows
    rw [HeapState.index] at hhigh
    have ht : t ∈ xs ++ [t] := by simp
    have hroom := h.room t ht
    have hstop' : t.start + t.size = s.heap.endAddress := hstop
    have hheader := (h.headers t ht).frame hag (by omega) (by omega)
    have hnewSize : wrap32 (headerSize m t.start + (s.grownLength newSize - s.length))
        = t.size + (s.grownLength newSize - s.length) := by
      rw [hheader.size, wrap32_of_lt (by omega)]
    rw [hkind] at hheader
    have hset := @HeaderAt.setSize _ _ _ _ hheader (t.size + (s.grownLength newSize - s.length))
      (by omega) (by omega)
    have hagset : Memory.AgreeOff t.start 0x100000000 m
        (setHeaderSize m t.start (t.size + (s.grownLength newSize - s.length))) :=
      Memory.agreeOff_write32 _ _ (by omega) (by omega) (by omega)
    unfold absorbExpansion
    simp only [hhigh, hgrowth]
    have hget' : orderedArrayGet s.heap.heapArray idx = t.start := hget
    simp only [hget', hnewSize, hset.size]
    generalize setHeaderSize m t.start (t.size + (s.grownLength newSize - s.length)) = m'
      at hset hagset ⊢
    have hfoot : sub32 (wrap32 (t.start + (t.size + (s.grownLength newSize - s.length)))) 8
        = t.start + (t.size + (s.grownLength newSize - s.length)) - 8 := by
      rw [wrap32_of_lt (by omega), sub32_of_le (by omega) (by omega)]
    rw [hfoot]
    have hagf : Memory.AgreeOff (t.start + (t.size + (s.grownLength newSize - s.length)) - 8)
        0x100000000 m' (writeFooter m'
          (t.start + (t.size + (s.grownLength newSize - s.length)) - 8) t.start) :=
      agreeOff_writeFooter (Nat.le_refl _) (by omega) (by omega)
    refine ⟨rfl, rfl, rfl, rfl, ?_, ?_, Or.inl ⟨rfl, by rw [hhole]; exact hmem⟩⟩
    · rw [hhole]
      exact ((hag.mono (by omega) (Nat.le_refl _)).trans hagset).trans
        (hagf.mono (by omega) (Nat.le_refl _))
    · rw [hhole]
      exact ⟨show 20 ≤ t.size + (s.grownLength newSize - s.length) by omega,
        hset.frame hagf (by omega) (by omega),
        footerAt_writeFooter _ (by omega) (by omega)⟩

/-- The layout after an expansion: the last tile is the hole that took the new space. -/
structure GrownLayout (s s' : HeapState W) (ts xs : List HeapTile) (newSize : Nat) : Prop where
  layout : HeapLayout s' (xs ++ [⟨(growthHole s newSize).1, (growthHole s newSize).2, true⟩])
  old : ∀ u ∈ xs, u ∈ ts
  keep : ∀ u ∈ ts, u ∈ xs ∨ u.kind = true ∧ u.start = (growthHole s newSize).1
  /-- An entry other than the grown hole was there before, with the same size. -/
  index : ∀ a ∈ s'.index, a = (growthHole s newSize).1 ∨
    (a ∈ s.index ∧ headerSize s'.mem a = headerSize s.mem a)

theorem HeapLayout.of_grown {ts : List HeapTile} (h : HeapLayout s ts) {newSize : Nat}
    (hat : (Xylophone.growthHole s newSize).1 + (Xylophone.growthHole s newSize).2 =
      s.heap.startAddress + s.grownLength newSize)
    (hwrap : s.heap.startAddress + s.grownLength newSize < 0x100000000)
    (hg : Grown s s' newSize) : ∃ xs, GrownLayout s s' ts xs newSize := by
  have hagree := hg.agree
  have htags := hg.tags
  have hindex := hg.index
  have hstop := hg.stop
  -- entries to the left of the grown hole keep their sizes
  have hsize : ∀ u ∈ ts, u.stop ≤ (Xylophone.growthHole s newSize).1 →
      headerSize s'.mem u.start = headerSize s.mem u.start := by
    intro u hu hle
    have hroom := h.room u hu
    have hend := (h.bounds hu).2
    have := h.end_lt
    unfold Tile.stop at *
    rw [h.size_headerSize hu]
    exact ((h.headers u hu).frame hagree (by omega) (by omega)).size
  rcases h.growthHole hat with ⟨hnil, -, hhole⟩ | ⟨xs, t, idx, rfl, hkind, hts, hmem, -, -, hhole⟩
  · rw [hhole] at hat htags hagree hsize
    simp only [] at hat htags hagree hsize
    obtain ⟨-, harr⟩ : s.index = [] ∧ _ := hindex.resolve_left (fun hl => by rw [hnil] at hl; cases hl.2)
    rw [hhole] at harr
    have hmemIdx : ∀ a ∈ s'.index, a = s.heap.endAddress := by
      intro a ha
      rw [HeapState.index, harr] at ha
      rcases mem_orderedArrayInsert ha with rfl | hbad
      · rfl
      · rw [HeapState.index] at hnil
        rw [hnil] at hbad
        cases hbad
    have hlay : HeapLayout s (ts ++ [] ++ []) := by simpa using h
    have hgrowth : Tiles s.heap.endAddress
        [(⟨s.heap.endAddress, s.grownLength newSize - s.length, true⟩ : HeapTile)]
        (s.heap.startAddress + s.grownLength newSize) := ⟨rfl, hat⟩
    have hnew := hlay.splice hg.start
      (by rw [hstop]; exact hwrap) h.tiles hgrowth hstop.symm (Or.inr hnil)
      (fun hne => absurd rfl hne) hagree (by simpa using htags)
      (fun a ha => Or.inr ⟨_, List.mem_singleton.mpr rfl, (hmemIdx a ha).symm, rfl⟩)
      (by rintro a - ⟨y, hy, -⟩; cases hy)
      (by rw [HeapState.index, harr]; exact orderedArrayInsert_nodup h.nodup (by
            rw [HeapState.index] at hnil; rw [hnil]; exact List.not_mem_nil))
    refine ⟨ts, ?_, fun u hu => hu, fun u hu => Or.inl hu, ?_⟩
    · rw [hhole]
      simpa using hnew
    · intro a ha
      rw [hhole]
      exact Or.inl (hmemIdx a ha)
  · rw [hhole] at hat htags hagree hsize
    simp only [] at hat htags hagree hsize
    have hidx : s'.index = s.index := by
      rcases hindex with ⟨he, -⟩ | ⟨hnil, -⟩
      · exact he
      · rw [hnil] at hmem
        cases hmem
    obtain ⟨hx, -⟩ := tiles_split.mp h.tiles
    have hlt : t.start < s.heap.endAddress := by
      have := h.pos t (by simp)
      unfold Tile.stop at hts
      omega
    have hlay : HeapLayout s (xs ++ [t] ++ []) := by simpa using h
    have hgrowth : Tiles t.start
        [(⟨t.start, t.size + (s.grownLength newSize - s.length), true⟩ : HeapTile)]
        (s.heap.startAddress + s.grownLength newSize) := ⟨rfl, hat⟩
    have hnew := hlay.splice hg.start
      (by rw [hstop]; exact hwrap) hx hgrowth hstop.symm (Or.inl hlt)
      (fun hne => absurd rfl hne) hagree (by simpa using htags)
      (by
        intro a ha
        rw [hidx] at ha
        by_cases he : a = t.start
        · exact Or.inr ⟨_, List.mem_singleton.mpr rfl, he.symm, rfl⟩
        · exact Or.inl ⟨ha, by simpa using Ne.symm he⟩)
      (by rintro a - ⟨y, hy, -⟩; cases hy) (by rw [hidx]; exact h.nodup)
    refine ⟨xs, ?_, fun u hu => by simp [hu], ?_, ?_⟩
    · rw [hhole]
      simpa using hnew
    · intro u hu
      rw [hhole]
      rcases List.mem_append.mp hu with hu | hu
      · exact Or.inl hu
      · obtain rfl := List.mem_singleton.mp hu
        exact Or.inr ⟨hkind, rfl⟩
    · intro a ha
      rw [hidx] at ha
      rw [hhole]
      by_cases he : a = t.start
      · exact Or.inl he
      · obtain ⟨u, hu, rfl, -⟩ := h.indexed a ha
        have hu' : u ∈ xs := by
          rcases List.mem_append.mp hu with hu | hu
          · exact hu
          · obtain rfl := List.mem_singleton.mp hu
            exact absurd rfl he
        exact Or.inr ⟨ha, hsize u hu (hx.mem_bounds hu').2⟩

/-! ## `allocate` -/

/-- A block for `size` bytes has been cut out of the tile `t`, the entry `i` of the index. -/
structure CutOut (s s' : HeapState W) (xs : List HeapTile) (t : HeapTile) (ys : List HeapTile)
    (i size : Nat) (shouldAlign : Bool) (address : Nat) : Prop where
  kind : t.kind = true
  entry : s.index[i]? = some t.start
  fits : shouldAlign = false → size + 20 ≤ t.size
  carveOk : shouldAlign = true → CarveOk t.start t.size (size + 20)
  carved : Carved s s' i t.start t.size (size + 20) shouldAlign
  layout : HeapLayout s' (xs ++ carveTiles t.start t.size (size + 20) shouldAlign ++ ys)
  address : address = carvePos t.start shouldAlign + 12

theorem HeapLayout.cutOut {ts : List HeapTile} (h : HeapLayout s ts) {i size : Nat}
    {shouldAlign : Bool} (hfind : findSmallestHole s (size + 20) shouldAlign = some i)
    (hok : shouldAlign = true → CarveOk (orderedArrayGet s.heap.heapArray i)
      (headerSize s.mem (orderedArrayGet s.heap.heapArray i)) (size + 20)) :
    ∃ xs t ys, ts = xs ++ t :: ys ∧ CutOut s (Xylophone.carve s i size (size + 20) shouldAlign).1
      xs t ys i size shouldAlign (Xylophone.carve s i size (size + 20) shouldAlign).2 := by
  obtain ⟨hi, hfits⟩ := findSmallestHole_some hfind
  have hget := orderedArrayGet_eq hi
  obtain ⟨t, ht, hstart, hkind⟩ := h.indexed s.index[i] (List.getElem_mem hi)
  have hsize := h.size_headerSize ht
  rw [hget, ← hstart, hsize] at hok
  have hfit : shouldAlign = false → size + 20 ≤ t.size := by
    rintro rfl
    rw [holeFits, ← hstart, hsize, sizeFits] at hfits
    simpa using hfits
  have hbounds := h.bounds ht
  unfold Tile.stop at hbounds
  have hpos := h.start_pos
  obtain ⟨hc, hres⟩ := @carve_spec _ _ _ _ _ _ _ shouldAlign (rfl : size + 20 = size + 20)
    (hget.trans hstart.symm) hsize (by omega) (h.room t ht) (by omega) h.end_lt hfit hok
  obtain ⟨xs, ys, rfl⟩ := List.append_of_mem ht
  refine ⟨xs, t, ys, rfl, hkind, ?_, hfit, hok, hc, ?_, hres⟩
  · rw [List.getElem?_eq_getElem hi, hstart]
  · exact h.carve hi hstart.symm (by omega) hfit hok hc

/--
Everything an allocation can do to a heap in order, when it goes well: nothing, cut a block out
of a hole, or grow the heap and then give up or cut a block out of the grown hole.
-/
inductive AllocateStep (s s' : HeapState W) (ts : List HeapTile) (size : Nat) (shouldAlign : Bool)
    (address : Nat) : Prop where
  | refused (same : s' = s) (null : address = 0)
  | cut (i : Nat) (xs : List HeapTile) (t : HeapTile) (ys : List HeapTile) (tiles : ts = xs ++ t :: ys)
    (found : findSmallestHole s (size + 20) shouldAlign = some i)
    (cut : CutOut s s' xs t ys i size shouldAlign address)
  | grown (xs : List HeapTile) (none : findSmallestHole s (size + 20) shouldAlign = none)
    (limit : ¬ overLimit s (size + 20)) (grown : Grown s s' (size + 20))
    (layout : GrownLayout s s' ts xs (size + 20))
    (again : findSmallestHole s' (size + 20) shouldAlign = Option.none) (null : address = 0)
  | grownCut (s₁ : HeapState W) (xs : List HeapTile) (i : Nat)
    (none : findSmallestHole s (size + 20) shouldAlign = none)
    (limit : ¬ overLimit s (size + 20)) (grown : Grown s s₁ (size + 20))
    (layout : GrownLayout s s₁ ts xs (size + 20))
    (fits : sizeFits (size + 20) shouldAlign (growthHole s (size + 20)).1
      (growthHole s (size + 20)).2 = true)
    (cut : CutOut s₁ s' xs ⟨(growthHole s (size + 20)).1, (growthHole s (size + 20)).2, true⟩ [] i
      size shouldAlign address)

theorem allocate_cases {ops : PagingOps W} (hops : ops.Serves) {ts : List HeapTile}
    (h : HeapLayout s ts) {size : Nat} {shouldAlign : Bool} (hok : AllocateOk s size shouldAlign) :
    ∃ s' address, allocate ops s size shouldAlign = some (s', address) ∧
      AllocateStep s s' ts size shouldAlign address := by
  have hsize : wrap32 (size + 20) = size + 20 := wrap32_of_lt hok.size_lt
  unfold allocate
  simp only [hsize]
  cases hfind : findSmallestHole s (size + 20) shouldAlign with
  | some i =>
    obtain ⟨xs, t, ys, hts, hcut⟩ := h.cutOut hfind (hok.carve i hfind)
    exact ⟨_, _, rfl, .cut i xs t ys hts hfind hcut⟩
  | none =>
    simp only []
    split
    · exact ⟨_, _, rfl, .refused rfl rfl⟩
    · next hlimit =>
      have hgrow := hok.grow hfind hlimit
      rw [h.newLength hgrow.noWrap]
      obtain ⟨s₁, hexp, hg⟩ := h.grown hops (by omega) hgrow
      obtain ⟨xs, hlay⟩ := h.of_grown hgrow.atEnd hgrow.noWrap hg
      rw [hexp, Option.map_some, sub32_of_le h.tiles.le h.end_lt, ← HeapState.length]
      generalize absorbExpansion s₁ s.heap.endAddress s.length = s₂ at hg hlay ⊢
      refine ⟨_, _, rfl, ?_⟩
      simp only [hsize]
      cases hagain : findSmallestHole s₂ (size + 20) shouldAlign with
      | none => exact .grown xs hfind hlimit hg hlay hagain rfl
      | some i =>
        -- no other entry can fit: its size has not changed
        obtain ⟨hi, hfits⟩ := findSmallestHole_some hagain
        have hentry : s₂.index[i] = (growthHole s (size + 20)).1 := by
          rcases hlay.index _ (List.getElem_mem hi) with he | ⟨hmem, hsame⟩
          · exact he
          · have hno := findSmallestHole_none hfind _ hmem
            rw [holeFits, ← hsame, ← holeFits, hfits] at hno
            cases hno
        have hgsize := hg.tags.header.size
        rw [holeFits, hentry, hgsize] at hfits
        have hcarve : shouldAlign = true → CarveOk (orderedArrayGet s₂.heap.heapArray i)
            (headerSize s₂.mem (orderedArrayGet s₂.heap.heapArray i)) (size + 20) := by
          intro hal
          rw [orderedArrayGet_eq hi, hentry, hgsize]
          exact hgrow.carve hal (hal ▸ hfits)
        obtain ⟨xs', t, ys, hts, hcut⟩ := hlay.layout.cutOut hagain hcarve
        have hstart : t.start = (growthHole s (size + 20)).1 := by
          have he := hcut.entry
          rw [List.getElem?_eq_getElem hi, hentry] at he
          exact (Option.some.inj he).symm
        -- the tile is the last one
        have ht : t = ⟨(growthHole s (size + 20)).1, (growthHole s (size + 20)).2, true⟩ :=
          hlay.layout.eq_of_start (by rw [hts]; simp) (by simp) hstart
        have hys : ys = [] := by
          have htiles := hlay.layout.tiles
          rw [hts] at htiles
          refine htiles.last_of_stop (fun u hu => hlay.layout.pos u (by rw [hts]; simp [hu])) ?_
          rw [ht, hg.stop]
          exact hgrow.atEnd
        rw [hys] at hts hcut
        obtain ⟨rfl, -⟩ := List.append_inj' hts rfl
        exact .grownCut s₂ xs i hfind hlimit hg hlay hfits (ht ▸ hcut)

/-- What an allocation gives: no block, or a new one with room for `size` bytes. -/
structure Allocated (ts ts' : List HeapTile) (size address : Nat) : Prop where
  keep : ∀ u ∈ ts, u.kind = false → u ∈ ts'
  block : address ≠ 0 → ∃ t ∈ ts', t.kind = false ∧ address = t.start + 12 ∧ size + 20 ≤ t.size ∧
    ∀ u ∈ ts, u.kind = false → u.start ≠ t.start

theorem CutOut.allocated {xs ys : List HeapTile} {t : HeapTile} {i size address : Nat}
    {shouldAlign : Bool} (h : HeapLayout s (xs ++ t :: ys))
    (hc : CutOut s s' xs t ys i size shouldAlign address) :
    Allocated (xs ++ t :: ys) (xs ++ carveTiles t.start t.size (size + 20) shouldAlign ++ ys) size
      address := by
  have hold : ∀ u ∈ xs ++ t :: ys, u.kind = false → u ∈ xs ∨ u ∈ ys := by
    intro u hu hk
    rcases List.mem_append.mp hu with hu | hu
    · exact Or.inl hu
    · rcases List.mem_cons.mp hu with rfl | hu
      · rw [hc.kind] at hk
        cases hk
      · exact Or.inr hu
  refine ⟨fun u hu hk => ?_, fun _ => ?_⟩
  · rcases hold u hu hk with hu | hu
    · simp [hu]
    · simp [hu]
  · obtain ⟨b, hb, hk, hstart, hsize⟩ := @exists_block_carveTiles t.start _ _ _ hc.fits
    refine ⟨b, by simp [hb], hk, by rw [hc.address, hstart], hsize, ?_⟩
    -- the block lies in the hole, and the other blocks lie outside of it
    intro u hu huk he
    obtain ⟨hx, hy⟩ := tiles_split.mp h.tiles
    have hin := (tiles_carveTiles hc.fits hc.carveOk).mem_bounds hb
    have hbpos : 0 < b.size := by omega
    have hupos := h.pos u hu
    unfold Tile.stop at hin
    rcases hold u hu huk with hu | hu
    · have := (hx.mem_bounds hu).2
      unfold Tile.stop at this
      omega
    · have := (hy.mem_bounds hu).1
      unfold Tile.stop at this
      omega

theorem Allocated.of_grown {ts xs zs : List HeapTile} {newSize size address : Nat}
    (hl : GrownLayout s s' ts xs newSize)
    (h : Allocated (xs ++ [⟨(growthHole s newSize).1, (growthHole s newSize).2, true⟩]) zs size
      address) : Allocated ts zs size address := by
  have hold : ∀ u ∈ ts, u.kind = false → u ∈ xs := by
    intro u hu hk
    rcases hl.keep u hu with hu | ⟨hk', -⟩
    · exact hu
    · rw [hk] at hk'
      cases hk'
  refine ⟨fun u hu hk => h.keep u (by simp [hold u hu hk]) hk, fun hne => ?_⟩
  obtain ⟨t, ht, hk, ha, hsize, hnew⟩ := h.block hne
  exact ⟨t, ht, hk, ha, hsize, fun u hu huk => hnew u (by simp [hold u hu huk]) huk⟩

/-- **An allocation that goes well keeps the layout.** -/
theorem AllocateStep.layout {ts : List HeapTile} {size address : Nat} {shouldAlign : Bool}
    (h : HeapLayout s ts) (hstep : AllocateStep s s' ts size shouldAlign address) :
    ∃ ts', HeapLayout s' ts' ∧ Allocated ts ts' size address := by
  cases hstep with
  | refused same null =>
    subst same
    exact ⟨ts, h, fun u hu _ => hu, fun hne => absurd null hne⟩
  | cut i xs t ys tiles _ cut =>
    subst tiles
    exact ⟨_, cut.layout, cut.allocated h⟩
  | grown xs _ _ _ layout _ null =>
    refine ⟨_, layout.layout, fun u hu hk => ?_, fun hne => absurd null hne⟩
    rcases layout.keep u hu with hu | ⟨hk', -⟩
    · simp [hu]
    · rw [hk] at hk'
      cases hk'
  | grownCut s₁ xs i _ _ _ layout _ cut =>
    exact ⟨_, cut.layout, Allocated.of_grown layout (cut.allocated layout.layout)⟩

theorem AllocateStep.status {ts : List HeapTile} {size address : Nat} {shouldAlign : Bool}
    (hstep : AllocateStep s s' ts size shouldAlign address) :
    s'.heap.status = s.heap.status := by
  cases hstep with
  | refused same _ => rw [same]
  | cut i xs t ys _ _ cut => rw [cut.carved.heap]
  | grown xs _ _ grown _ _ _ => exact grown.status
  | grownCut s₁ xs i _ _ grown _ _ cut =>
    rw [cut.carved.heap]
    exact grown.status

end Xylophone
