import Xylophone.Heap.Refusal

/-!
# `find_smallest_hole`

The scan stops at the first hole that can hold the request. In an index that is sorted by size this
is a smallest one.

* `alignOffset_spec` — where the payload of an aligned block starts
* `holeFits_iff` — what the scan tests
* `find_smallest_hole_spec` — what it finds
-/

namespace Xylophone

open Infra

variable {W : Type} {s : HeapState W} {holes : Nat → Prop} {m : Memory} {size a i : Nat}
  {shouldAlign : Bool}

/-- The hole at `a` can hold `size` bytes. For an aligned request they come after the bytes up to
the first page boundary at or after the start of its payload. -/
def CanHold (m : Memory) (size : Nat) (shouldAlign : Bool) (a : Nat) : Prop :=
  alignOffset shouldAlign a + size ≤ headerSize m a

/-- The index lists the holes by their sizes. -/
structure IndexSorted (s : HeapState W) (holes : Nat → Prop) : Prop where
  mem_iff : ∀ a, a ∈ s.index ↔ holes a
  sorted : s.index.Pairwise fun a b => headerSize s.mem a ≤ headerSize s.mem b

/-- The hole at place `i` of the index can hold the request, and is not larger than any that can. -/
structure IsBestFit (s : HeapState W) (holes : Nat → Prop) (size : Nat) (shouldAlign : Bool)
    (i : Nat) (hi : i < s.index.length) : Prop where
  hole : holes s.index[i]
  canHold : CanHold s.mem size shouldAlign s.index[i]
  least : ∀ a, holes a → CanHold s.mem size shouldAlign a →
    headerSize s.mem s.index[i] ≤ headerSize s.mem a

/-- The offset leads to the first page boundary at or after the payload. -/
theorem alignOffset_spec (a : Nat) : (a + 12 + alignOffset true a) % 0x1000 = 0 ∧
    ∀ k < alignOffset true a, (a + 12 + k) % 0x1000 ≠ 0 := by
  unfold alignOffset
  simp only [if_true]
  refine ⟨by omega, fun k hk => by omega⟩

/-- **What the scan tests**, as long as sizes are positive `int`s. -/
theorem holeFits_iff (hsize : size < 0x80000000) (hhole : headerSize m a < 0x80000000) :
    holeFits m size shouldAlign a = true ↔ CanHold m size shouldAlign a := by
  unfold holeFits CanHold
  rw [sizeFits_iff hsize (by omega)]
  exact ⟨fun h => h.1, fun h => ⟨h, fun _ => by omega⟩⟩

/-- **The smallest hole.** In a heap whose index lists its holes by their sizes, the scan returns -1
exactly when no hole can hold the request, and otherwise the place of a smallest one that can. -/
theorem find_smallest_hole_spec (h : IndexSorted s holes)
    (hholes : ∀ a, holes a → headerSize s.mem a < 0x80000000) (hsize : size < 0x80000000) :
    (findSmallestHole s size shouldAlign = none ↔
        ∀ a, holes a → ¬CanHold s.mem size shouldAlign a) ∧
      ∀ i, findSmallestHole s size shouldAlign = some i →
        ∃ hi, IsBestFit s holes size shouldAlign i hi := by
  have htest : ∀ a ∈ s.index, holeFits s.mem size shouldAlign a = true ↔
      CanHold s.mem size shouldAlign a :=
    fun a ha => holeFits_iff hsize (hholes a ((h.mem_iff a).mp ha))
  unfold findSmallestHole
  constructor
  · rw [List.findIdx?_eq_none_iff]
    constructor
    · intro hnone a ha hcan
      have hmem := (h.mem_iff a).mpr ha
      have hno := hnone a hmem
      rw [(htest a hmem).mpr hcan] at hno
      cases hno
    · intro hnone a ha
      have hnot := mt (htest a ha).mp (hnone a ((h.mem_iff a).mp ha))
      simpa using hnot
  · intro i hfind
    obtain ⟨hi, hfits, hbefore⟩ := List.findIdx?_eq_some_iff_getElem.mp hfind
    have hmem := List.getElem_mem hi
    refine ⟨hi, (h.mem_iff _).mp hmem, (htest _ hmem).mp hfits, fun a ha hcan => ?_⟩
    obtain ⟨j, hj, rfl⟩ := List.getElem_of_mem ((h.mem_iff a).mpr ha)
    -- the scan did not stop before `i`
    have hij : i ≤ j := by
      by_contra hlt
      exact hbefore j (not_le.mp hlt) ((htest _ (List.getElem_mem hj)).mpr hcan)
    rcases Nat.lt_or_eq_of_le hij with hlt | rfl
    · exact List.pairwise_iff_getElem.mp h.sorted i j hi hj hlt
    · exact le_refl _

/-- The index of a well-formed heap. -/
theorem WellFormed.indexSorted {ts : List HeapTile} (h : WellFormed s ts) :
    IndexSorted s fun a => ∃ t ∈ ts, t.start = a ∧ t.kind = true := ⟨h.index, h.sorted⟩

/-- Three holes, of which the request for a page on a page boundary fits into the last two. -/
theorem find_smallest_hole_spec_threeHoles :
    let ts : List HeapTile := [⟨0xC0481000, 0x1000, true⟩, ⟨0xC0482000, 0x1000, false⟩,
      ⟨0xC0483000, 0x2000, true⟩, ⟨0xC0485000, 0x1000, false⟩, ⟨0xC0486000, 0x3000, true⟩]
    let s := heapOf 0xC0481000 0xC0489000 ts
    (findSmallestHole s 0x1000 true = none ↔ ∀ a, (∃ t ∈ ts, t.start = a ∧ t.kind = true) →
        ¬CanHold s.mem 0x1000 true a) ∧
      ∀ i, findSmallestHole s 0x1000 true = some i →
        ∃ hi, IsBestFit s (fun a => ∃ t ∈ ts, t.start = a ∧ t.kind = true) 0x1000 true i hi := by
  intro ts s
  have h : WellFormed s ts :=
    wellFormed_heapOf (by simp [ts]) (by simp [ts]) (by decide) (by simp [ts]) (by decide)
  refine find_smallest_hole_spec h.indexSorted ?_ (by decide)
  rintro a ⟨t, ht, rfl, -⟩
  rw [h.size_headerSize ht]
  simp only [ts, List.mem_cons, List.not_mem_nil, or_false] at ht
  rcases ht with rfl | rfl | rfl | rfl | rfl <;> decide

end Xylophone
