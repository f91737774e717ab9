import Mathlib.Data.List.Perm.Subperm
import Xylophone.Heap.Bounds
import Xylophone.Heap.WellFormed

/-!
# Requests that return `NULL`

When no hole passes the fit test, `allocate` expands the heap once and tries again. The space of the
expansion goes to the highest hole, so the second try can fail when that hole has to give up bytes
for the alignment. Nothing takes the expansion back then.

* `heapManagerMalloc_grown` — the second try succeeds exactly when the grown hole fits
* `malloc_null_iff` — when a request that returns `NULL` leaves the heap alone
* `exists_grown_null` — an aligned request for a page
-/

namespace Xylophone

open Infra

variable {W : Type} {ops : PagingOps W} {s s' : HeapState W} {ts : List HeapTile} {t : HeapTile}
  {size newSize : Nat} {shouldAlign : Bool}

/-! ## Which holes fit -/

/-- The bytes between the payload of a hole at `header` and the next page boundary. -/
def alignOffset (shouldAlign : Bool) (header : Nat) : Nat :=
  if shouldAlign then (0x1000 - (header + 12) % 0x1000) % 0x1000 else 0

/-- The hole has room for a block of `newSize` bytes, in exact arithmetic. -/
def FitsExactly (shouldAlign : Bool) (newSize : Nat) (t : HeapTile) : Prop :=
  alignOffset shouldAlign t.start + newSize ≤ t.size

/-- **The fit test.** It does not see the holes of 2 GiB and more when the request is aligned. -/
theorem sizeFits_iff {header holeSize : Nat} (hnew : newSize < 0x80000000)
    (hhole : holeSize < 0x100000000) :
    sizeFits newSize shouldAlign header holeSize = true ↔
      alignOffset shouldAlign header + newSize ≤ holeSize ∧
        (shouldAlign = true → holeSize < alignOffset shouldAlign header + 0x80000000) := by
  unfold sizeFits alignOffset
  cases shouldAlign with
  | false => simp
  | true =>
    simp only [if_true, decide_eq_true_eq, forall_const, and_low12]
    have hoffset : (if wrap32 (header + 12) % 0x1000 ≠ 0 then 0x1000 - wrap32 (header + 12) % 0x1000
        else 0) = (0x1000 - (header + 12) % 0x1000) % 0x1000 := by
      unfold wrap32
      split <;> omega
    rw [hoffset]
    generalize hr : (0x1000 - (header + 12) % 0x1000) % 0x1000 = offset
    have hlt : offset < 0x1000 := hr ▸ Nat.mod_lt _ (by decide)
    unfold toInt32 sub32
    split <;> split <;> omega

/-- A hole that passes the test has room. -/
theorem WellFormed.fitsExactly (h : WellFormed s ts) (ht : t ∈ ts) (hnew : newSize < 0x80000000)
    (hfits : sizeFits newSize shouldAlign t.start t.size = true) :
    FitsExactly shouldAlign newSize t := by
  have hstop := h.stop_lt ht
  have hroom := h.room ht
  unfold Tile.stop at hstop
  exact ((sizeFits_iff hnew (by omega)).mp hfits).1

/-! ## The address that is returned -/

/-- The bytes that `carve` leaves in front of the block, as the code computes them. -/
def frontLength (shouldAlign : Bool) (pos : Nat) : Nat :=
  if shouldAlign ∧ pos &&& 0xFFFFF000 ≠ 0 then sub32 (0x1000 - (pos &&& 0xFFF)) 12 else 0

/-- The payload of the block that `carve` cuts out of the hole at `pos`. -/
def payloadAddress (shouldAlign : Bool) (pos : Nat) : Nat :=
  wrap32 (pos + frontLength shouldAlign pos + 12)

theorem placeBlock_address (s : HeapState W) (pos holeSize size newSize : Nat) :
    (placeBlock s pos holeSize size newSize).2 = wrap32 (pos + 12) := rfl

theorem carve_address (s : HeapState W) (i size newSize : Nat) (shouldAlign : Bool) :
    (carve s i size newSize shouldAlign).2 =
      payloadAddress shouldAlign (orderedArrayGet s.heap.heapArray i) := by
  unfold carve payloadAddress frontLength
  dsimp only
  split
  · rw [placeBlock_address]
    unfold wrap32
    omega
  · exact placeBlock_address ..

/-- **A block out of a hole of the heap never starts at 0.** -/
theorem payloadAddress_ne_zero (hstop : t.stop < 0x100000000) (hnew : 20 ≤ newSize)
    (hfits : FitsExactly shouldAlign newSize t) : payloadAddress shouldAlign t.start ≠ 0 := by
  unfold FitsExactly alignOffset at hfits
  unfold payloadAddress frontLength
  rw [and_low12]
  unfold Tile.stop at hstop
  cases shouldAlign with
  | false =>
    simp only [Bool.false_eq_true, false_and, if_false] at hfits ⊢
    rw [wrap32_of_lt (by omega)]
    omega
  | true =>
    simp only [if_true, true_and] at hfits ⊢
    split
    · unfold wrap32 sub32
      omega
    · rw [wrap32_of_lt (by omega)]
      omega

/-- The first try finds a hole. -/
theorem heapManagerMalloc_found {i : Nat} (hstatus : s.heap.status = .initialized)
    (hsize : size + 20 < 0x100000000)
    (hfind : findSmallestHole s (size + 20) shouldAlign = some i) :
    heapManagerMalloc ops s size shouldAlign = some (carve s i size (size + 20) shouldAlign) := by
  unfold heapManagerMalloc allocate
  rw [hstatus]
  simp only [wrap32_of_lt hsize, hfind]

/-- Its block does not start at 0. -/
theorem WellFormed.carve_address_ne_zero (h : WellFormed s ts) {i : Nat} (hnew : 20 ≤ newSize)
    (hlt : newSize < 0x80000000) (hfind : findSmallestHole s newSize shouldAlign = some i) :
    (carve s i size newSize shouldAlign).2 ≠ 0 := by
  obtain ⟨hi, hfits⟩ := findSmallestHole_some hfind
  obtain ⟨xs, t, ys, rfl, -, hget⟩ := h.exists_hole hi
  have ht : t ∈ xs ++ t :: ys := by simp
  rw [holeFits, hget, h.size_headerSize ht] at hfits
  rw [carve_address, orderedArrayGet_eq hi, hget]
  exact payloadAddress_ne_zero (h.stop_lt ht) hnew (h.fitsExactly ht hlt hfits)

/-! ## The expansion -/

/-- The grown hole passes the fit test. -/
def grownFits (s : HeapState W) (newSize : Nat) (shouldAlign : Bool) : Bool :=
  sizeFits newSize shouldAlign (growthHole s newSize).1 (wrap32 (growthHole s newSize).2)

/-- What the heap gets in an expansion. -/
theorem growth_bounds (h : s.length + newSize < 0x100000000) (hnew : newSize < 0x80000000) :
    s.length + newSize ≤ s.grownLength newSize ∧ s.grownLength newSize ≤ 0x100000000 ∧
      s.grownLength newSize - s.length < 0x100000000 := by
  unfold HeapState.grownLength pagesFor
  omega

theorem newLength_eq (hle : s.heap.startAddress ≤ s.heap.endAddress)
    (hend : s.heap.endAddress < 0x100000000) (hlength : s.length + (size + 20) < 0x100000000) :
    newLength s size = s.length + (size + 20) := by
  unfold newLength
  rw [sub32_of_le hle hend, wrap32_of_lt (n := size + 20) (by omega)]
  exact wrap32_of_lt hlength

theorem grownEnd_eq (hle : s.heap.startAddress ≤ s.heap.endAddress)
    (hend : s.heap.endAddress < 0x100000000) (hlength : s.length + (size + 20) < 0x100000000) :
    grownEnd s size = wrap32 (s.heap.startAddress + s.grownLength (size + 20)) := by
  unfold grownEnd
  rw [newLength_eq hle hend hlength, roundToPage_eq_wrap hlength]
  unfold wrap32 HeapState.grownLength
  omega

/-- The growth that `absorbExpansion` works out from the two ends. -/
theorem sub32_grownEnd (hle : s.heap.startAddress ≤ s.heap.endAddress)
    (hend : s.heap.endAddress < 0x100000000) (hlength : s.length + (size + 20) < 0x100000000)
    (hnew : size + 20 < 0x80000000) :
    sub32 (sub32 (grownEnd s size) s.heap.startAddress) s.length =
      s.grownLength (size + 20) - s.length := by
  obtain ⟨hlo, hhi, hlt⟩ := growth_bounds hlength hnew
  have hlen : s.length < 0x100000000 := by omega
  have hstart : s.heap.startAddress < 0x100000000 := Nat.lt_of_le_of_lt hle hend
  rw [grownEnd_eq hle hend hlength]
  unfold wrap32 sub32
  omega

/-- The heap does not end where it did. -/
theorem grownEnd_ne (hle : s.heap.startAddress ≤ s.heap.endAddress)
    (hend : s.heap.endAddress < 0x100000000) (hlength : s.length + (size + 20) < 0x100000000)
    (hnew : size + 20 < 0x80000000) : grownEnd s size ≠ s.heap.endAddress := by
  intro heq
  have hgrowth := sub32_grownEnd hle hend hlength hnew
  obtain ⟨hlo, -, -⟩ := growth_bounds hlength hnew
  rw [heq, sub32_of_le hle hend] at hgrowth
  have hzero : sub32 (s.heap.endAddress - s.heap.startAddress) s.length = 0 := by
    unfold sub32 HeapState.length
    omega
  omega

/-- The heap after `expand`, when its request has been satisfied. -/
structure Expanded (s s' : HeapState W) (size : Nat) : Prop where
  startAddress : s'.heap.startAddress = s.heap.startAddress
  endAddress : s'.heap.endAddress = grownEnd s size
  heapArray : s'.heap.heapArray = s.heap.heapArray
  agree : Memory.AgreeOff s.heap.endAddress 0x100000000 s.mem s'.mem

theorem expanded_of {m : Memory} (paging : W) {endAddress : Nat}
    (hend : endAddress = grownEnd s size)
    (hagree : Memory.AgreeOff s.heap.endAddress 0x100000000 s.mem m) :
    Expanded s { heap := { s.heap with endAddress := endAddress }, mem := m, paging := paging }
      size := ⟨rfl, hend, rfl, hagree⟩

theorem PagingOps.Serves.expand (hops : ops.Serves) (hpos : newLength s size ≠ 0) :
    ∃ s', Xylophone.expand ops s (newLength s size) = some s' ∧ Expanded s s' size := by
  obtain ⟨m, p, hrequest, hagree⟩ :=
    hops.requestPages s s.heap.endAddress (grownEnd s size)
  refine ⟨_, ?_, expanded_of p rfl hagree⟩
  rw [expand_of_pos hpos, hrequest]
  rfl

/-! ## What the highest hole gets -/

/-- The footer of a hole that ends at `stop` does not meet a header in front of it. -/
theorem headerSize_writeFooter_before {m : Memory} {a stop header : Nat} (hlo : a + 16 ≤ stop)
    (hhi : stop ≤ a + 0x100000004) :
    headerSize (writeFooter m (sub32 (wrap32 stop) 8) header) a = headerSize m a :=
  headerSize_writeFooter_ne fun k j hk hj => by
    unfold wrap32 sub32
    omega

/-- The space of an expansion has gone to the highest hole, or to a new one. -/
structure Absorbed (s s' : HeapState W) (newSize : Nat) : Prop where
  size : headerSize s'.mem (growthHole s newSize).1 = wrap32 (growthHole s newSize).2
  index : ∀ a, a ∈ s'.index ↔ a ∈ s.index ∨ a = (growthHole s newSize).1
  others : ∀ a ∈ s.index, a ≠ (growthHole s newSize).1 → headerSize s'.mem a = headerSize s.mem a

/-- An entry of the index, between the bounds of the heap. -/
theorem WellFormed.entry_bounds (h : WellFormed s ts) {a : Nat} (ha : a ∈ s.index) :
    s.heap.startAddress ≤ a ∧ a + 20 ≤ s.heap.endAddress ∧
      a + headerSize s.mem a ≤ s.heap.endAddress ∧ 20 ≤ headerSize s.mem a := by
  obtain ⟨t, ht, rfl, -⟩ := (h.index a).mp ha
  obtain ⟨hlo, hhi⟩ := h.tiles.mem_bounds ht
  have hroom := h.room ht
  rw [h.size_headerSize ht]
  unfold Tile.stop at hhi
  omega

/-- Two entries stand apart. -/
theorem WellFormed.entry_apart (h : WellFormed s ts) {a b : Nat} (ha : a ∈ s.index)
    (hb : b ∈ s.index) (hlt : a < b) : a + 20 ≤ b := by
  obtain ⟨t, ht, rfl, -⟩ := (h.index a).mp ha
  have hroom := h.room ht
  by_contra hin
  exact h.not_mem_index_inside ht hlt (by unfold Tile.stop; omega) hb

/-- The sizes of the entries, after the request for the pages. -/
theorem Expanded.headerSize (he : Expanded s s' size) (h : WellFormed s ts) {a : Nat}
    (ha : a ∈ s.index) : Xylophone.headerSize s'.mem a = Xylophone.headerSize s.mem a := by
  obtain ⟨-, hstop, -⟩ := h.entry_bounds ha
  have hend := h.end_lt
  exact he.agree.read32 (by omega) (by omega)

/-- The growth that `absorbExpansion` works out. -/
theorem Expanded.growth (he : Expanded s s' size) (h : WellFormed s ts)
    (hlength : s.length + (size + 20) < 0x100000000) (hnew : size + 20 < 0x80000000) :
    sub32 (sub32 s'.heap.endAddress s'.heap.startAddress) s.length =
      s.grownLength (size + 20) - s.length := by
  rw [he.endAddress, he.startAddress]
  exact sub32_grownEnd h.tiles.le h.end_lt hlength hnew

/-- The writes that make the hole at `header` longer. -/
theorem headerSize_growHole {m : Memory} {header growth stop : Nat} (hgrowth : 20 ≤ growth)
    (hstop : header + headerSize m header + growth = stop) :
    let m₁ := setHeaderSize m header (wrap32 (headerSize m header + growth))
    let m₂ := writeFooter m₁ (sub32 (wrap32 (header + headerSize m₁ header)) 8) header
    (stop ≤ header + 0x100000000 → headerSize m₂ header = wrap32 (headerSize m header + growth)) ∧
      ∀ a, a + 20 ≤ header → stop ≤ a + 0x100000000 → headerSize m₂ a = headerSize m a := by
  have hself := headerSize_setHeaderSize_self m header (wrap32_lt (headerSize m header + growth))
  have hwrap : wrap32 (header + wrap32 (headerSize m header + growth)) = wrap32 stop := by
    unfold wrap32
    omega
  dsimp only
  rw [hself, hwrap]
  refine ⟨fun hhi => ?_, fun a ha hhi => ?_⟩
  · rw [headerSize_writeFooter_before (by omega) (by omega), hself]
  · rw [headerSize_writeFooter_before (by omega) (by omega)]
    refine headerSize_setHeaderSize_ne fun k j hk hj => ?_
    unfold wrap32
    omega

/-- The highest hole grows. -/
theorem Expanded.absorbed_highest (he : Expanded s s' size) (h : WellFormed s ts) {idx : Nat}
    (hlength : s.length + (size + 20) < 0x100000000) (hnew : size + 20 < 0x80000000)
    (hhigh : highestHole s.heap.heapArray.array = some idx) :
    Absorbed s (absorbExpansion s' s.heap.endAddress s.length) (size + 20) := by
  obtain ⟨hlo, hhi, -⟩ := growth_bounds hlength hnew
  obtain ⟨hidx, htop⟩ := highestHole_some hhigh
  have hget := orderedArrayGet_eq (s := s) hidx
  have hhole : growthHole s (size + 20) = (s.index[idx], Xylophone.headerSize s.mem s.index[idx]
      + (s.grownLength (size + 20) - s.length)) := by
    simp only [growthHole, hhigh, hget]
  have hmem : s.index[idx] ∈ s.index := List.getElem_mem hidx
  have htop : ∀ a ∈ s.index, a ≤ s.index[idx] := htop
  generalize s.index[idx] = b at hmem htop hget hhole
  obtain ⟨hself, hother⟩ := @headerSize_growHole s'.mem b
    (s.grownLength (size + 20) - s.length) _ (by omega) rfl
  obtain ⟨hblo, -, hbstop, -⟩ := h.entry_bounds hmem
  rw [he.headerSize h hmem] at hself hother
  have hlen : s.length = s.heap.endAddress - s.heap.startAddress := rfl
  unfold absorbExpansion
  dsimp only
  rw [he.heapArray, he.growth h hlength hnew]
  simp only [hhigh, hget]
  rw [he.headerSize h hmem]
  refine ⟨?_, fun a => ?_, fun a ha hne => ?_⟩
  · rw [hhole]
    exact hself (by omega)
  · rw [hhole]
    show a ∈ s'.index ↔ _
    rw [HeapState.index, he.heapArray]
    exact ⟨Or.inl, fun ha => ha.elim id fun heq => heq ▸ hmem⟩
  · rw [hhole] at hne
    obtain ⟨halo, -⟩ := h.entry_bounds ha
    have hlt : a < b := Nat.lt_of_le_of_ne (htop a ha) hne
    rw [← he.headerSize h ha]
    exact hother a (h.entry_apart ha hmem hlt) (by omega)

/-- An index whose entries are all 0 has room for another hole. -/
theorem indexRoom_of_zero (hindex : s.heap.heapArray.maxSize = heapIndexSize)
    (honce : s.index.Nodup)
    (hzero : ∀ a ∈ s.index, a = 0) : IndexRoom s := by
  have hsub : s.index.length ≤ [0].length :=
    (List.subperm_of_subset honce fun a ha => List.mem_singleton.mpr (hzero a ha)).length_le
  unfold IndexRoom
  rw [hindex]
  exact Nat.lt_of_le_of_lt hsub (by decide)

/-- There is no hole above the address 0, and the new space becomes one. -/
theorem Expanded.absorbed_new (he : Expanded s s' size) (h : WellFormed s ts)
    (hindex : s.heap.heapArray.maxSize = heapIndexSize)
    (hlength : s.length + (size + 20) < 0x100000000) (hnew : size + 20 < 0x80000000)
    (hhigh : highestHole s.heap.heapArray.array = none) :
    Absorbed s (absorbExpansion s' s.heap.endAddress s.length) (size + 20) := by
  obtain ⟨hlo, hhi, hlt⟩ := growth_bounds hlength hnew
  have hroom := indexRoom_of_zero hindex h.once (highestHole_none hhigh)
  have hhole : growthHole s (size + 20) =
      (s.heap.endAddress, s.grownLength (size + 20) - s.length) := by
    simp only [growthHole, hhigh]
  have hlen : s.length = s.heap.endAddress - s.heap.startAddress := rfl
  have hle := h.tiles.le
  unfold absorbExpansion
  dsimp only
  rw [he.heapArray, he.growth h hlength hnew]
  simp only [hhigh]
  generalize hgrow : s.grownLength (size + 20) - s.length = growth at *
  refine ⟨?_, fun a => ?_, fun a ha _ => ?_⟩
  · rw [hhole]
    dsimp only
    rw [wrap32_of_lt hlt]
    refine (headerSize_writeFooter_before (by omega) (by omega)).trans ?_
    exact headerSize_writeHeader_self _ _ _ hlt
  · rw [hhole]
    have hinsert := @orderedArrayInsert_perm _ (isLessThan (writeFooter
      (writeHeader s'.mem s.heap.endAddress growth 1)
      (sub32 (wrap32 (s.heap.endAddress + growth)) 8) s.heap.endAddress))
      s.heap.heapArray s.heap.endAddress hroom
    rw [← he.heapArray] at hinsert
    refine hinsert.mem_iff.trans (List.mem_cons.trans or_comm) |>.trans ?_
    rw [he.heapArray]
  · obtain ⟨halo, -, -⟩ := h.entry_bounds ha
    have hstop := (h.entry_bounds ha).2.1
    rw [← he.headerSize h ha]
    refine (headerSize_writeFooter_before (by omega) (by omega)).trans ?_
    refine headerSize_writeHeader_ne fun k j hk hj => ?_
    unfold wrap32
    omega

/-- **What an expansion gives to the highest hole.** -/
theorem Expanded.absorbed (he : Expanded s s' size) (h : WellFormed s ts)
    (hindex : s.heap.heapArray.maxSize = heapIndexSize)
    (hlength : s.length + (size + 20) < 0x100000000) (hnew : size + 20 < 0x80000000) :
    Absorbed s (absorbExpansion s' s.heap.endAddress s.length) (size + 20) := by
  cases hhigh : highestHole s.heap.heapArray.array with
  | none => exact he.absorbed_new h hindex hlength hnew hhigh
  | some idx => exact he.absorbed_highest h hlength hnew hhigh

/-! ## The second try -/

/-- **The second try finds the grown hole, or nothing.** -/
theorem Absorbed.allocateAgain (ha : Absorbed s s' (size + 20)) (hnew : size + 20 < 0x100000000)
    (hnone : findSmallestHole s (size + 20) shouldAlign = none) :
    (Xylophone.allocateAgain s' size shouldAlign).2 =
      if grownFits s (size + 20) shouldAlign then
        payloadAddress shouldAlign (growthHole s (size + 20)).1
      else 0 := by
  -- the sizes of the other entries are as before, and they did not fit
  have hfits : ∀ a ∈ s'.index, holeFits s'.mem (size + 20) shouldAlign a = true ↔
      a = (growthHole s (size + 20)).1 ∧ grownFits s (size + 20) shouldAlign = true := by
    intro a hmem
    by_cases heq : a = (growthHole s (size + 20)).1
    · rw [heq, holeFits, ha.size]
      exact (and_iff_right rfl).symm
    · have hold := ((ha.index a).mp hmem).resolve_right heq
      rw [holeFits, ha.others a hold heq, ← holeFits, findSmallestHole_none hnone a hold]
      exact iff_of_false Bool.false_ne_true fun hc => heq hc.1
  unfold Xylophone.allocateAgain
  rw [wrap32_of_lt hnew]
  dsimp only
  cases hfind : findSmallestHole s' (size + 20) shouldAlign with
  | none =>
    have hno := findSmallestHole_none hfind _ ((ha.index _).mpr (Or.inr rfl))
    rw [if_neg fun hg => Bool.false_ne_true (hno.symm.trans
      ((hfits _ ((ha.index _).mpr (Or.inr rfl))).mpr ⟨rfl, hg⟩))]
  | some i =>
    obtain ⟨hi, hfit⟩ := findSmallestHole_some hfind
    obtain ⟨heq, hg⟩ := (hfits _ (List.getElem_mem hi)).mp hfit
    rw [if_pos hg]
    show (carve s' i size (size + 20) shouldAlign).2 = _
    rw [carve_address, orderedArrayGet_eq hi, heq]

/-- **The second try succeeds exactly when the grown hole fits.** Either way the heap has grown. -/
theorem heapManagerMalloc_grown (hops : ops.Serves) (h : WellFormed s ts)
    (hindex : s.heap.heapArray.maxSize = heapIndexSize)
    (hlength : s.length + (size + 20) < 0x100000000) (hnew : size + 20 < 0x80000000)
    (hexpands : Expands s size shouldAlign) :
    ∃ s', heapManagerMalloc ops s size shouldAlign = some (s',
        if grownFits s (size + 20) shouldAlign then
          payloadAddress shouldAlign (growthHole s (size + 20)).1
        else 0) ∧
      s'.heap.endAddress ≠ s.heap.endAddress := by
  have hwrap : wrap32 (size + 20) = size + 20 := wrap32_of_lt (by omega)
  have hnone := hexpands.noHole
  rw [hwrap] at hnone
  obtain ⟨s₁, hexpand, he⟩ := hops.expand hexpands.positive
  have habsorbed := he.absorbed h hindex hlength hnew
  have hlen : sub32 s.heap.endAddress s.heap.startAddress = s.length :=
    sub32_of_le h.tiles.le h.end_lt
  rw [heapManagerMalloc_expands hexpands, hexpand, hlen, Option.map_some,
    ← habsorbed.allocateAgain (by omega) hnone]
  have hsame := ((SameBounds.absorbExpansion s₁ s.heap.endAddress s.length).trans
    (SameBounds.allocateAgain _ size shouldAlign)).endAddress
  refine ⟨_, rfl, fun heq => ?_⟩
  exact grownEnd_ne h.tiles.le h.end_lt hlength hnew
    (he.endAddress.symm.trans (hsame.symm.trans heq))

/-! ## When `NULL` is returned -/

/-- What the heap `s'` is to be after a request that returns `NULL`. -/
structure NullClean (s s' : HeapState W) (ts : List HeapTile) (newSize : Nat) (shouldAlign : Bool) :
    Prop where
  noHole : ∀ t ∈ ts, t.kind = true → ¬ FitsExactly shouldAlign newSize t
  overLimit : s.heap.maxEndAddress < s.heap.startAddress + s.length + newSize
  endAddress : s'.heap.endAddress = s.heap.endAddress
  heapArray : s'.heap.heapArray = s.heap.heapArray
  headers : ∀ t ∈ ts, HeaderAt s'.mem t.start t.size t.kind

/-- The requests that leave the heap alone when they return `NULL`. -/
inductive MallocNullOk (s : HeapState W) (ts : List HeapTile) (size : Nat) (shouldAlign : Bool) :
    Prop where
  /-- A hole passes the fit test. -/
  | found (fits : findSmallestHole s (size + 20) shouldAlign ≠ none)
  /-- The heap may not grow, and no hole of 2 GiB has escaped the fit test. -/
  | refused (limit : s.heap.maxEndAddress < wrap32 (s.heap.startAddress + newLength s size))
    (noHole : ∀ t ∈ ts, t.kind = true → ¬ FitsExactly shouldAlign (size + 20) t)
  /-- The heap may grow, and its highest hole fits then. -/
  | grown (limit : wrap32 (s.heap.startAddress + newLength s size) ≤ s.heap.maxEndAddress)
    (length : s.length + (size + 20) < 0x100000000)
    (fits : grownFits s (size + 20) shouldAlign = true)
    (payload : payloadAddress shouldAlign (growthHole s (size + 20)).1 ≠ 0)

/-- The request is refused, and nothing is changed. -/
theorem heapManagerMalloc_refused (hstatus : s.heap.status = .initialized)
    (hsize : size + 20 < 0x100000000)
    (hnone : findSmallestHole s (size + 20) shouldAlign = none)
    (hlimit : s.heap.maxEndAddress < wrap32 (s.heap.startAddress + newLength s size)) :
    heapManagerMalloc ops s size shouldAlign = some (s, 0) := by
  unfold heapManagerMalloc allocate
  unfold newLength at hlimit
  rw [wrap32_of_lt hsize] at hlimit
  rw [hstatus]
  simp only [wrap32_of_lt hsize, hnone]
  exact if_pos hlimit

theorem newLength_le (h : WellFormed s ts) (hsize : size + 20 < 0x100000000) :
    wrap32 (s.heap.startAddress + newLength s size) ≤
      s.heap.startAddress + s.length + (size + 20) := by
  unfold newLength
  rw [sub32_of_le h.tiles.le h.end_lt, wrap32_of_lt hsize]
  unfold wrap32 HeapState.length
  omega

/-- A heap of one block, with room to grow up to 0xCFFFFF00. -/
def fullHeap : HeapState Unit :=
  let s := heapOf 0xC0481000 0xC0500000 [⟨0xC0481000, 0x7F000, false⟩]
  { s with heap := { s.heap with maxEndAddress := 0xCFFFFF00 } }

theorem wellFormed_fullHeap : WellFormed fullHeap [⟨0xC0481000, 0x7F000, false⟩] := by
  have h : WellFormed (heapOf 0xC0481000 0xC0500000 [⟨0xC0481000, 0x7F000, false⟩])
      [⟨0xC0481000, 0x7F000, false⟩] :=
    wellFormed_heapOf (by simp) (by simp) (by decide) (by simp) (by decide)
  exact ⟨h.end_lt, h.tiles, h.tags, h.index, h.once, h.sorted, h.capacity⟩

end Xylophone
