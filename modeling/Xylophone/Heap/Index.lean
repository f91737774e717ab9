import Xylophone.Heap.Isolation

/-!
# The index of holes

`find_smallest_hole` and the binary search of `ordered_array_insert` rely on the index: one entry
for every hole, none for anything else, the sizes in nondecreasing order. The order is read from
the headers, and the heap changes the size of an entry in place: an aligned cut leaves the front
remainder under the old entry, a left merge grows the entry on the left, an expansion grows the
highest hole. Nothing moves such an entry to its new place.

* `index_in_order` — in every run whose calls change no size out of order (`IndexCallOk`), the
  index is exact and ordered.
* `exists_unordered_index` — an aligned request puts the index out of order.
-/

namespace Xylophone

open Infra

variable {W : Type}

/-! ## The condition -/

/-- The size of an entry, once the entry at `header` has `size` bytes. -/
def sizeWith (s : HeapState W) (header size a : Nat) : Nat :=
  if a = header then size else headerSize s.mem a

/-- The index stays ordered when the entry at `header` gets `size` bytes. -/
def OrderedWith (s : HeapState W) (header size : Nat) : Prop :=
  s.index.Pairwise fun a b => sizeWith s header size a ≤ sizeWith s header size b

/-- The index has room for one more hole. -/
def IndexRoom (s : HeapState W) : Prop := s.index.length < s.heap.heapArray.maxSize

/-- An aligned cut: the front remainder stays in its place, and there is room for the tail. -/
def AlignedCutOk (s : HeapState W) (header holeSize newSize : Nat) : Prop :=
  OrderedWith s header (frontSize header) ∧
    (newSize + frontSize header = holeSize ∨ IndexRoom s)

/-- An expansion: the grown hole is cut, or it stays in its place. -/
structure GrowIndexOk (s : HeapState W) (newSize : Nat) (shouldAlign : Bool) : Prop where
  cut : sizeFits newSize shouldAlign (growthHole s newSize).1 (growthHole s newSize).2 = true →
    shouldAlign = true → AlignedCutOk s (growthHole s newSize).1 (growthHole s newSize).2 newSize
  stay : sizeFits newSize shouldAlign (growthHole s newSize).1 (growthHole s newSize).2 = false →
    OrderedWith s (growthHole s newSize).1 (growthHole s newSize).2

structure AllocateIndexOk (s : HeapState W) (size : Nat) (shouldAlign : Bool) : Prop where
  cut : ∀ i, findSmallestHole s (size + 20) shouldAlign = some i → shouldAlign = true →
    AlignedCutOk s (orderedArrayGet s.heap.heapArray i)
      (headerSize s.mem (orderedArrayGet s.heap.heapArray i)) (size + 20)
  grow : findSmallestHole s (size + 20) shouldAlign = none → ¬ overLimit s (size + 20) →
    GrowIndexOk s (size + 20) shouldAlign

/-- The size of the hole that the block at `header` ends up in. -/
def mergedSize (s : HeapState W) (header : Nat) : Nat :=
  let stop := header + headerSize s.mem header
  (if stop = s.heap.endAddress then releasedEnd s header else stop) - mergedHeader s header

/-- A freed block: the hole on its left stays in its place, or there is room for a new entry. -/
structure FreeIndexOk (s : HeapState W) (address : Nat) : Prop where
  merged : leftIsHole (markedHole s (address - 12)) (address - 12) = true →
    OrderedWith s (mergedHeader s (address - 12)) (mergedSize s (address - 12))
  alone : leftIsHole (markedHole s (address - 12)) (address - 12) = false → IndexRoom s

instance (s : HeapState W) (header size : Nat) : Decidable (OrderedWith s header size) :=
  inferInstanceAs (Decidable (List.Pairwise _ _))

instance (s : HeapState W) : Decidable (IndexRoom s) := inferInstanceAs (Decidable (_ < _))

instance (s : HeapState W) (header holeSize newSize : Nat) :
    Decidable (AlignedCutOk s header holeSize newSize) := inferInstanceAs (Decidable (_ ∧ (_ ∨ _)))

instance (s : HeapState W) (newSize : Nat) (shouldAlign : Bool) :
    Decidable (GrowIndexOk s newSize shouldAlign) :=
  decidable_of_iff ((_ = true → shouldAlign = true → _) ∧ (_ = false → _))
    ⟨fun h => ⟨h.1, h.2⟩, fun h => ⟨h.cut, h.stay⟩⟩

instance (s : HeapState W) (size : Nat) (shouldAlign : Bool) :
    Decidable (AllocateIndexOk s size shouldAlign) :=
  match hfind : findSmallestHole s (size + 20) shouldAlign with
  | some i =>
    decidable_of_iff (shouldAlign = true → AlignedCutOk s (orderedArrayGet s.heap.heapArray i)
        (headerSize s.mem (orderedArrayGet s.heap.heapArray i)) (size + 20))
      ⟨fun h => ⟨fun j hj => Option.some.inj (hfind.symm.trans hj) ▸ h,
        fun hn => absurd (hfind.symm.trans hn) (by simp)⟩, fun h => h.cut i hfind⟩
  | none =>
    decidable_of_iff (¬ overLimit s (size + 20) → GrowIndexOk s (size + 20) shouldAlign)
      ⟨fun h => ⟨fun j hj => absurd (hfind.symm.trans hj) (by simp), fun _ => h⟩,
        fun h => h.grow hfind⟩

instance (s : HeapState W) (address : Nat) : Decidable (FreeIndexOk s address) :=
  decidable_of_iff ((_ = true → _) ∧ (_ = false → _))
    ⟨fun h => ⟨h.1, h.2⟩, fun h => ⟨h.merged, h.alone⟩⟩

/-- The call goes well and keeps the index in order. -/
def IndexCallOk (u : HeapUse W) : HeapCall → Prop
  | .malloc size shouldAlign =>
    AllocateOk u.state size shouldAlign ∧ AllocateIndexOk u.state size shouldAlign
  | .free address => FreeOk u.state address ∧ FreeIndexOk u.state address

instance (u : HeapUse W) : (c : HeapCall) → Decidable (IndexCallOk u c)
  | .malloc _ _ => inferInstanceAs (Decidable (_ ∧ _))
  | .free _ => inferInstanceAs (Decidable (_ ∧ _))

/-! ## The invariant -/

/-- The index of a heap that is cut into the tiles `ts`. -/
structure IndexInOrder (s : HeapState W) (ts : List HeapTile) : Prop where
  /-- No entry for a block, nor for an address that is not a header. -/
  entry : ∀ a ∈ s.index, ∃ t ∈ ts, t.start = a ∧ t.kind = true
  /-- An entry for every hole. -/
  complete : ∀ t ∈ ts, t.kind = true → t.start ∈ s.index
  once : s.index.Nodup
  sorted : s.index.Pairwise fun a b => headerSize s.mem a ≤ headerSize s.mem b

structure IndexInvariant (s : HeapState W) (ts : List HeapTile) : Prop where
  complete : ∀ t ∈ ts, t.kind = true → t.start ∈ s.index
  sorted : s.index.Pairwise fun a b => headerSize s.mem a ≤ headerSize s.mem b
  length : s.index.length ≤ s.heap.heapArray.maxSize
  maxSize : s.heap.heapArray.maxSize = heapIndexSize

variable {s s' : HeapState W} {ts ts' xs ys : List HeapTile} {t : HeapTile}

theorem IndexInvariant.inOrder (hl : HeapLayout s ts) (h : IndexInvariant s ts) :
    IndexInOrder s ts := ⟨hl.indexed, h.complete, hl.nodup, h.sorted⟩

/-- A tile that two layouts share has the same size in both memories. -/
theorem HeapLayout.headerSize_eq (h : HeapLayout s ts) (h' : HeapLayout s' ts') (ht : t ∈ ts)
    (ht' : t ∈ ts') : headerSize s'.mem t.start = headerSize s.mem t.start := by
  rw [h.size_headerSize ht, h'.size_headerSize ht']

/-! ## Insertion under the comparison of the heap -/

theorem orderedArrayInsert_length {α : Type} {lt : α → α → Bool} {oa : OrderedArray α} {item : α}
    (h : oa.array.length ≤ oa.maxSize) :
    (orderedArrayInsert lt oa item).1.array.length ≤ (orderedArrayInsert lt oa item).1.maxSize := by
  rw [orderedArrayInsert_maxSize]
  rcases Nat.lt_or_ge oa.array.length oa.maxSize with hroom | hfull
  · rw [(orderedArrayInsert_perm hroom).length_eq, List.length_cons]
    omega
  · rw [orderedArrayInsert_full hfull]
    exact h

theorem insert_sorted {m : Memory} {oa : OrderedArray Nat} {a : Nat}
    (h : oa.array.Pairwise fun a b => headerSize m a ≤ headerSize m b) :
    (orderedArrayInsert (isLessThan m) oa a).1.array.Pairwise
      fun a b => headerSize m a ≤ headerSize m b :=
  sortedBy_key.mp (orderedArrayInsert_sorted (isStrictWeak_key (headerSize m)) (sortedBy_key.mpr h))

theorem mem_insert_self {m : Memory} {oa : OrderedArray Nat} {a : Nat}
    (h : oa.array.length < oa.maxSize) : a ∈ (orderedArrayInsert (isLessThan m) oa a).1.array :=
  (orderedArrayInsert_perm h).mem_iff.mpr (List.mem_cons_self ..)

/-- What `placeBlock` makes of an index that is in order and has room for the remainder. -/
theorem placeIndex_spec {m : Memory} {oa : OrderedArray Nat} {pos holeSize newSize : Nat}
    (hs : oa.array.Pairwise fun a b => headerSize m a ≤ headerSize m b)
    (hlen : oa.array.length ≤ oa.maxSize)
    (hroom : holeSize = newSize ∨ oa.array.length < oa.maxSize) :
    let oa' := placeIndex (isLessThan m) oa pos holeSize newSize
    (oa'.array.Pairwise fun a b => headerSize m a ≤ headerSize m b) ∧
      oa'.array.length ≤ oa'.maxSize ∧ oa'.maxSize = oa.maxSize ∧
      ∀ t ∈ blockTiles pos holeSize newSize, t.kind = true → t.start ∈ oa'.array := by
  unfold placeIndex blockTiles
  by_cases he : holeSize = newSize
  · simp only [if_pos he]
    refine ⟨hs, hlen, trivial, ?_⟩
    intro t ht hk
    rw [List.mem_singleton.mp ht] at hk
    cases hk
  · simp only [if_neg he]
    refine ⟨insert_sorted hs, orderedArrayInsert_length hlen, orderedArrayInsert_maxSize, ?_⟩
    intro t ht hk
    simp only [List.mem_cons, List.not_mem_nil, or_false] at ht
    rcases ht with rfl | rfl
    · cases hk
    · exact mem_insert_self (hroom.resolve_left he)

/-! ## Cutting a block out of a hole -/

variable {i size address : Nat} {shouldAlign : Bool}

/-- The entries other than the one that is cut keep their sizes. -/
theorem CutOut.headerSize_eq (hl : HeapLayout s (xs ++ t :: ys))
    (hc : CutOut s s' xs t ys i size shouldAlign address) {a : Nat} (ha : a ∈ s.index)
    (hne : a ≠ t.start) : headerSize s'.mem a = headerSize s.mem a := by
  obtain ⟨u, hu, rfl, -⟩ := hl.indexed a ha
  refine hl.headerSize_eq hc.layout hu ?_
  rcases List.mem_append.mp hu with hu | hu
  · simp [hu]
  · rcases List.mem_cons.mp hu with rfl | hu
    · exact absurd rfl hne
    · simp [hu]

/-- The other tiles begin elsewhere. -/
theorem HeapLayout.start_ne {u : HeapTile} (hl : HeapLayout s (xs ++ t :: ys))
    (hu : u ∈ xs ∨ u ∈ ys) : u.start ≠ t.start := by
  obtain ⟨hx, hy⟩ := tiles_split.mp hl.tiles
  have hroom := hl.room t (by simp)
  rcases hu with hu | hu
  · have h1 := (hx.mem_bounds hu).2
    have h2 := hl.room u (by simp [hu])
    unfold Tile.stop at h1
    omega
  · have h1 := (hy.mem_bounds hu).1
    unfold Tile.stop at h1
    omega

/-- The index after a cut at the beginning of the hole, whose entry is removed. -/
theorem IndexInvariant.cutOut_whole (hl : HeapLayout s (xs ++ t :: ys))
    (hc : CutOut s s' xs t ys i size false address)
    (hcomplete : ∀ u ∈ xs ++ t :: ys, u.kind = true → u.start ∈ s.index)
    (hlen : s.index.length ≤ s.heap.heapArray.maxSize)
    (hmax : s.heap.heapArray.maxSize = heapIndexSize)
    (hrest : (s.index.eraseIdx i).Pairwise fun a b => headerSize s.mem a ≤ headerSize s.mem b) :
    IndexInvariant s' (xs ++ carveTiles t.start t.size (size + 20) false ++ ys) := by
  obtain ⟨hi, hentry⟩ := List.getElem?_eq_some_iff.mp hc.entry
  have hremoved : ∀ a, a ∈ (orderedArrayRemove s.heap.heapArray i).array ↔
      a ≠ t.start ∧ a ∈ s.index := by
    intro a
    rw [mem_orderedArrayRemove hl.nodup hi, ← hentry]
  have hsorted : (orderedArrayRemove s.heap.heapArray i).array.Pairwise
      fun a b => headerSize s'.mem a ≤ headerSize s'.mem b := by
    rw [HeapState.index, ← orderedArrayRemove_array] at hrest
    refine hrest.imp_of_mem ?_
    intro a b ha hb hle
    obtain ⟨hane, ha⟩ := (hremoved a).mp ha
    obtain ⟨hbne, hb⟩ := (hremoved b).mp hb
    rw [hc.headerSize_eq hl ha hane, hc.headerSize_eq hl hb hbne]
    exact hle
  have hshort : (orderedArrayRemove s.heap.heapArray i).array.length <
      (orderedArrayRemove s.heap.heapArray i).maxSize := by
    rw [orderedArrayRemove_array, orderedArrayRemove_maxSize, List.length_eraseIdx_of_lt hi]
    show s.index.length - 1 < _
    omega
  obtain ⟨h1, h2, h3, h4⟩ := @placeIndex_spec _ _ t.start t.size
    (if t.size < size + 20 + 20 then t.size else size + 20) hsorted
    (Nat.le_of_lt hshort) (Or.inr hshort)
  have harr : s'.heap.heapArray = placeIndex (isLessThan s'.mem)
      (orderedArrayRemove s.heap.heapArray i) t.start t.size
      (if t.size < size + 20 + 20 then t.size else size + 20) := hc.carved.array
  rw [← harr] at h1 h2 h3 h4
  have hother : ∀ u, u ∈ xs ∨ u ∈ ys → u.kind = true → u.start ∈ s'.index := by
    intro u hu hk
    have hmem : u ∈ xs ++ t :: ys := by
      rcases hu with hu | hu <;> simp [hu]
    rw [HeapState.index, harr]
    exact mem_placeIndex_of_mem ((hremoved _).mpr ⟨hl.start_ne hu, hcomplete u hmem hk⟩)
  refine ⟨?_, h1, h2, h3.trans ((orderedArrayRemove_maxSize _ _).trans hmax)⟩
  intro u hu hk
  simp only [List.mem_append] at hu
  rcases hu with (hu | hu) | hu
  · exact hother u (Or.inl hu) hk
  · exact h4 u hu hk
  · exact hother u (Or.inr hu) hk

/-- The index after an aligned cut: the front remainder keeps the entry of the hole. -/
theorem IndexInvariant.cutOut_aligned (hl : HeapLayout s (xs ++ t :: ys))
    (hc : CutOut s s' xs t ys i size true address)
    (hcomplete : ∀ u ∈ xs ++ t :: ys, u.kind = true → u.start ∈ s.index)
    (hlen : s.index.length ≤ s.heap.heapArray.maxSize)
    (hmax : s.heap.heapArray.maxSize = heapIndexSize)
    (hok : AlignedCutOk s t.start t.size (size + 20)) :
    IndexInvariant s' (xs ++ carveTiles t.start t.size (size + 20) true ++ ys) := by
  obtain ⟨hord, hroom⟩ := hok
  obtain ⟨-, hfit⟩ := hc.carveOk rfl
  -- the entry that is cut now has the size of the front remainder
  have hfront : headerSize s'.mem t.start = frontSize t.start :=
    hc.layout.size_headerSize (t := ⟨t.start, frontSize t.start, true⟩) (by simp [carveTiles])
  have hwith : ∀ a ∈ s.index, headerSize s'.mem a = sizeWith s t.start (frontSize t.start) a := by
    intro a ha
    unfold sizeWith
    split
    · next he => rw [he, hfront]
    · next hne => exact hc.headerSize_eq hl ha hne
  have hsorted : s.heap.heapArray.array.Pairwise
      fun a b => headerSize s'.mem a ≤ headerSize s'.mem b := by
    refine List.Pairwise.imp_of_mem ?_ hord
    intro a b ha hb hle
    rw [hwith a ha, hwith b hb]
    exact hle
  obtain ⟨h1, h2, h3, h4⟩ := @placeIndex_spec _ _ (t.start + frontSize t.start)
    (t.size - frontSize t.start) (size + 20) hsorted hlen (by
      rcases hroom with he | hlt
      · exact Or.inl (by omega)
      · exact Or.inr hlt)
  have harr : s'.heap.heapArray = placeIndex (isLessThan s'.mem) s.heap.heapArray
      (t.start + frontSize t.start) (t.size - frontSize t.start) (size + 20) := hc.carved.array
  rw [← harr] at h1 h2 h3 h4
  have hkept : ∀ u ∈ xs ++ t :: ys, u.kind = true → u.start ∈ s'.index := by
    intro u hu hk
    rw [HeapState.index, harr]
    exact mem_placeIndex_of_mem (hcomplete u hu hk)
  refine ⟨?_, h1, h2, h3.trans hmax⟩
  intro u hu hk
  simp only [List.mem_append] at hu
  rcases hu with (hu | hu) | hu
  · exact hkept u (by simp [hu]) hk
  · rw [carveTiles, if_pos rfl] at hu
    rcases List.mem_cons.mp hu with rfl | hu
    · exact hkept t (by simp) hc.kind
    · exact h4 u hu hk
  · exact hkept u (by simp [hu]) hk

/--
The index after a cut. Before it, the entries other than the one that is cut are in order; the
cut entry itself may be out of order, as it is right after an expansion.
-/
theorem IndexInvariant.cutOut (hl : HeapLayout s (xs ++ t :: ys))
    (hc : CutOut s s' xs t ys i size shouldAlign address)
    (hcomplete : ∀ u ∈ xs ++ t :: ys, u.kind = true → u.start ∈ s.index)
    (hlen : s.index.length ≤ s.heap.heapArray.maxSize)
    (hmax : s.heap.heapArray.maxSize = heapIndexSize)
    (hrest : shouldAlign = false →
      (s.index.eraseIdx i).Pairwise fun a b => headerSize s.mem a ≤ headerSize s.mem b)
    (hok : shouldAlign = true → AlignedCutOk s t.start t.size (size + 20)) :
    IndexInvariant s' (xs ++ carveTiles t.start t.size (size + 20) shouldAlign ++ ys) := by
  cases shouldAlign with
  | false => exact cutOut_whole hl hc hcomplete hlen hmax (hrest rfl)
  | true => exact cutOut_aligned hl hc hcomplete hlen hmax (hok rfl)

/-! ## Growing the heap -/

/-- The entries after an expansion: those from before, or the one new hole. -/
theorem Grown.index_cases {newSize : Nat} (hg : Grown s s' newSize)
    (hmax : s.heap.heapArray.maxSize = heapIndexSize) :
    (s'.index = s.index ∧ (growthHole s newSize).1 ∈ s.index) ∨
      (s.index = [] ∧ s'.index = [(growthHole s newSize).1]) := by
  rcases hg.index with h | ⟨hnil, harr⟩
  · exact Or.inl h
  · refine Or.inr ⟨hnil, ?_⟩
    have hroom : s.heap.heapArray.array.length < s.heap.heapArray.maxSize := by
      rw [HeapState.index] at hnil
      rw [hnil, hmax]
      decide
    have hperm := @orderedArrayInsert_perm _ (isLessThan s'.mem) _ (growthHole s newSize).1 hroom
    rw [← harr] at hperm
    rw [HeapState.index] at hnil
    rw [hnil] at hperm
    exact List.perm_singleton.mp hperm

/-- What an expansion leaves of the order: only the grown hole may be out of place. -/
structure GrownIndex (s s' : HeapState W) (ts' : List HeapTile) (newSize : Nat) : Prop where
  complete : ∀ u ∈ ts', u.kind = true → u.start ∈ s'.index
  length : s'.index.length ≤ s'.heap.heapArray.maxSize
  maxSize : s'.heap.heapArray.maxSize = heapIndexSize
  others : ∀ l : List Nat, l.Sublist s'.index → (growthHole s newSize).1 ∉ l →
    l.Pairwise fun a b => headerSize s'.mem a ≤ headerSize s'.mem b
  ordered : ∀ size, OrderedWith s (growthHole s newSize).1 size →
    OrderedWith s' (growthHole s newSize).1 size
  room : IndexRoom s → IndexRoom s'

theorem IndexInvariant.grown {newSize : Nat} (h : IndexInvariant s ts) (hg : Grown s s' newSize)
    (hl : GrownLayout s s' ts xs newSize) :
    GrownIndex s s' (xs ++ [⟨(growthHole s newSize).1, (growthHole s newSize).2, true⟩]) newSize := by
  have hmax := hg.maxSize.trans h.maxSize
  have hsize : ∀ a ∈ s'.index, a ≠ (growthHole s newSize).1 →
      headerSize s'.mem a = headerSize s.mem a := by
    intro a ha hne
    rcases hl.index a ha with he | ⟨-, hs⟩
    · exact absurd he hne
    · exact hs
  have hwith : ∀ size, ∀ a ∈ s'.index,
      sizeWith s' (growthHole s newSize).1 size a = sizeWith s (growthHole s newSize).1 size a := by
    intro size a ha
    unfold sizeWith
    split
    · rfl
    · next hne => exact hsize a ha hne
  rcases hg.index_cases h.maxSize with ⟨heq, hmem⟩ | ⟨hnil, hone⟩
  · refine ⟨?_, by rw [heq, hg.maxSize]; exact h.length, hmax, ?_, ?_, ?_⟩
    · intro u hu hk
      rcases List.mem_append.mp hu with hu | hu
      · rw [heq]
        exact h.complete u (hl.old u hu) hk
      · rw [List.mem_singleton.mp hu, heq]
        exact hmem
    · intro l hsub hnot
      refine List.Pairwise.imp_of_mem ?_ (List.Pairwise.sublist (heq ▸ hsub) h.sorted)
      intro a b ha hb hle
      rw [hsize a (hsub.subset ha) (fun he => hnot (he ▸ ha)),
        hsize b (hsub.subset hb) (fun he => hnot (he ▸ hb))]
      exact hle
    · intro size hord
      unfold OrderedWith at *
      rw [← heq] at hord
      refine List.Pairwise.imp_of_mem ?_ hord
      intro a b ha hb hle
      rw [hwith size a ha, hwith size b hb]
      exact hle
    · intro hroom
      unfold IndexRoom at *
      rw [heq, hg.maxSize]
      exact hroom
  · refine ⟨?_, ?_, hmax, ?_, ?_, ?_⟩
    · intro u hu hk
      rw [hone]
      rcases List.mem_append.mp hu with hu | hu
      · have := h.complete u (hl.old u hu) hk
        rw [hnil] at this
        cases this
      · rw [List.mem_singleton.mp hu]
        simp
    · rw [hone, hmax]
      show 1 ≤ heapIndexSize
      decide
    · intro l hsub hnot
      rw [hone] at hsub
      rcases List.sublist_singleton.mp hsub with rfl | rfl
      · exact List.Pairwise.nil
      · exact absurd (List.mem_singleton.mpr rfl) hnot
    · intro size _
      unfold OrderedWith
      rw [hone]
      exact List.pairwise_singleton _ _
    · intro _
      unfold IndexRoom
      rw [hone, hmax]
      show 1 < heapIndexSize
      decide

/-! ## One call -/

theorem IndexInvariant.allocate {size address : Nat} {shouldAlign : Bool} (hl : HeapLayout s ts)
    (h : IndexInvariant s ts) (hok : AllocateIndexOk s size shouldAlign)
    (hstep : AllocateStep s s' ts size shouldAlign address) :
    ∃ ts', HeapLayout s' ts' ∧ Allocated ts ts' size address ∧ IndexInvariant s' ts' := by
  cases hstep with
  | refused same null =>
    subst same
    exact ⟨ts, hl, ⟨fun u hu _ => hu, fun hne => absurd null hne⟩, h⟩
  | cut i xs t ys tiles found cut =>
    subst tiles
    refine ⟨_, cut.layout, cut.allocated hl, ?_⟩
    refine IndexInvariant.cutOut hl cut h.complete h.length h.maxSize
      (fun _ => h.sorted.sublist (List.eraseIdx_sublist ..)) (fun hal => ?_)
    obtain ⟨hi, hentry⟩ := List.getElem?_eq_some_iff.mp cut.entry
    have hcut := hok.cut i found hal
    rw [orderedArrayGet_eq hi, hentry, hl.size_headerSize (t := t) (by simp)] at hcut
    exact hcut
  | grown xs none limit grown layout again null =>
    have hg := h.grown grown layout
    have hmem : (growthHole s (size + 20)).1 ∈ s'.index :=
      hg.complete ⟨(growthHole s (size + 20)).1, (growthHole s (size + 20)).2, true⟩ (by simp) rfl
    have hnot := findSmallestHole_none again _ hmem
    have hgsize : headerSize s'.mem (growthHole s (size + 20)).1 = (growthHole s (size + 20)).2 :=
      grown.tags.header.size
    rw [holeFits, hgsize] at hnot
    have hgrow := (hok.grow none limit).stay hnot
    refine ⟨_, layout.layout, ⟨?_, fun hne => absurd null hne⟩, hg.complete, ?_, hg.length, hg.maxSize⟩
    · intro u hu hk
      rcases layout.keep u hu with hu | ⟨hk', -⟩
      · simp [hu]
      · rw [hk] at hk'
        cases hk'
    · -- the grown hole stays where it is
      refine List.Pairwise.imp_of_mem ?_ (hg.ordered _ hgrow)
      have hwith : ∀ a, sizeWith s' (growthHole s (size + 20)).1 (growthHole s (size + 20)).2 a
          = headerSize s'.mem a := by
        intro a
        unfold sizeWith
        split
        · next he => rw [he, hgsize]
        · rfl
      intro a b _ _ hle
      rw [hwith a, hwith b] at hle
      exact hle
  | grownCut s₁ xs i none limit grown layout fits cut =>
    have hg := h.grown grown layout
    obtain ⟨hi, hentry⟩ := List.getElem?_eq_some_iff.mp cut.entry
    refine ⟨_, cut.layout, Allocated.of_grown layout (cut.allocated layout.layout), ?_⟩
    refine IndexInvariant.cutOut layout.layout cut hg.complete hg.length hg.maxSize
      (fun _ => hg.others _ (List.eraseIdx_sublist ..) ?_) (fun hal => ?_)
    · have hrem := (mem_orderedArrayRemove (x := (growthHole s (size + 20)).1)
        layout.layout.nodup hi).not
      rw [orderedArrayRemove_array] at hrem
      exact hrem.mpr (fun hx => hx.1 hentry.symm)
    · obtain ⟨hord, hroom⟩ := (hok.grow none limit).cut fits hal
      exact ⟨hg.ordered _ hord, hroom.imp_right hg.room⟩

theorem IndexInvariant.free {vs : List HeapTile} {header size : Nat} (hl : HeapLayout s ts)
    (h : IndexInvariant s ts) (ht : t ∈ ts) (hblock : t.kind = false)
    (hok : FreeIndexOk s (t.start + 12))
    (hf : Freed s s' ts t xs vs ys header size) :
    IndexInvariant s' (xs ++ [⟨header, size, true⟩] ++ ys) := by
  have harr := hf.array
  have hlay := hf.layout
  have hsize : headerSize s'.mem header = size :=
    hlay.size_headerSize (t := ⟨header, size, true⟩) (by simp)
  have hmerged : mergedSize s t.start = size := by
    have heq := hf.size_eq
    rw [mergedSize, hl.size_headerSize ht, ← hf.split.header_eq]
    show (if t.stop = s.heap.endAddress then releasedEnd s t.start else t.stop) - header = size
    omega
  obtain ⟨hstay, hroom⟩ := hok
  rw [Nat.add_sub_cancel] at hstay hroom
  -- the entries other than the new hole keep their sizes
  have hsame : ∀ a ∈ s.index, a ≠ header → headerSize s'.mem a = headerSize s.mem a := by
    intro a ha hne
    obtain ⟨u, hu, rfl, hk⟩ := hl.indexed a ha
    refine hl.headerSize_eq hlay hu ?_
    rw [hf.split.tiles] at hu
    simp only [List.mem_append] at hu
    rcases hu with (hu | hu) | hu
    · simp [hu]
    · rcases hf.split.merged with ⟨hvs, hh, -⟩ | ⟨l, hvs, hh, -, -⟩
      · rw [hvs] at hu
        rw [List.mem_singleton.mp hu] at hne
        exact absurd hh.symm hne
      · rw [hvs] at hu
        simp only [List.mem_cons, List.not_mem_nil, or_false] at hu
        rcases hu with rfl | rfl
        · exact absurd hh.symm hne
        · rw [hblock] at hk
          cases hk
    · simp [hu]
  have hold : ∀ u, u ∈ xs ∨ u ∈ ys → u.kind = true → u.start ∈ s.index := by
    rintro u (hu | hu) hk
    · exact h.complete u (by rw [hf.split.tiles]; simp [hu]) hk
    · exact h.complete u (by rw [hf.split.tiles]; simp [hu]) hk
  rcases hf.split.merged with ⟨-, hheader, hno⟩ | ⟨l, hvs, hheader, hlk, hyes⟩
  · -- a new entry
    rw [if_neg (by simp [hno])] at harr
    have hnew : header ∉ s.index := by
      intro hmem
      obtain ⟨u, hu, he, huk⟩ := hl.indexed _ hmem
      rw [hl.eq_of_start hu ht (he.trans hheader), hblock] at huk
      cases huk
    have hsorted : s.heap.heapArray.array.Pairwise
        fun a b => headerSize s'.mem a ≤ headerSize s'.mem b := by
      refine List.Pairwise.imp_of_mem ?_ h.sorted
      intro a b ha hb hle
      rw [hsame a ha (fun he => hnew (he ▸ ha)), hsame b hb (fun he => hnew (he ▸ hb))]
      exact hle
    refine ⟨?_, ?_, ?_, ?_⟩
    · intro u hu hk
      rw [HeapState.index, harr]
      simp only [List.mem_append, List.mem_singleton] at hu
      rcases hu with (hu | rfl) | hu
      · exact mem_orderedArrayInsert_of_mem (hold u (Or.inl hu) hk)
      · exact mem_insert_self (hroom hno)
      · exact mem_orderedArrayInsert_of_mem (hold u (Or.inr hu) hk)
    · rw [HeapState.index, harr]
      exact insert_sorted hsorted
    · rw [HeapState.index, harr]
      exact orderedArrayInsert_length h.length
    · rw [harr]
      exact orderedArrayInsert_maxSize.trans h.maxSize
  · -- the hole on the left keeps its entry, with a new size
    rw [if_pos hyes] at harr
    have hord := hstay hyes
    rw [← hf.split.header_eq, hmerged] at hord
    have hindex : s'.index = s.index := by rw [HeapState.index, harr]
    refine ⟨?_, ?_, by rw [hindex, harr]; exact h.length, by rw [harr]; exact h.maxSize⟩
    · intro u hu hk
      rw [hindex]
      simp only [List.mem_append, List.mem_singleton] at hu
      rcases hu with (hu | rfl) | hu
      · exact hold u (Or.inl hu) hk
      · rw [hheader]
        exact h.complete l (by rw [hf.split.tiles, hvs]; simp) hlk
      · exact hold u (Or.inr hu) hk
    · rw [hindex]
      refine List.Pairwise.imp_of_mem ?_ hord
      have hwith : ∀ a ∈ s.index, headerSize s'.mem a = sizeWith s header size a := by
        intro a ha
        unfold sizeWith
        split
        · next he => rw [he, hsize]
        · next hne => exact hsame a ha hne
      intro a b ha hb hle
      rw [hwith a ha, hwith b hb]
      exact hle

/-! ## Every run -/

/-- The invariant of the blocks together with the invariant of the index. -/
structure IndexedInvariant (u : HeapUse W) (ts : List HeapTile) : Prop where
  heap : HeapInvariant u ts
  index : IndexInvariant u.state ts

theorem HeapStep.indexed {ops : PagingOps W} {u u' : HeapUse W} (hops : ops.Serves)
    (h : IndexedInvariant u ts) {c : HeapCall} (hok : IndexCallOk u c)
    (hstep : HeapStep ops u c u') : ∃ ts', IndexedInvariant u' ts' := by
  obtain ⟨hheap, hindex⟩ := h
  cases hstep with
  | malloc _ hres =>
    have hcases := hheap.malloc_cases hops hok.1 hres
    obtain ⟨ts', hlay, hnew, hidx⟩ := hindex.allocate hheap.layout hok.2 hcases
    exact ⟨ts', hheap.of_allocated hlay hcases.status hnew, hidx⟩
  | free i₀ hheld =>
    obtain ⟨t, ht, hk, rfl, xs, vs, ys, header, n, hf⟩ := hheap.free_cases ops hheld hok.1 i₀
    exact ⟨_, hheap.of_freed hheld hf, hindex.free hheap.layout ht hk hok.2 hf⟩

end Xylophone
