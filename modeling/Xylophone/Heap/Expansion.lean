import Xylophone.Heap.Manager

/-!
# When the heap grows

`allocate` asks the paging manager for pages in one place only, and what it asks for depends on the
bounds of the heap and on the size of the request.

* `heapManagerMalloc_none_iff` — an allocation that does not return waits for the pages that it has
  asked for
* `heapManagerMalloc_congr` — two paging managers that answer alike
-/

namespace Xylophone

open Infra

variable {W : Type} {ops ops' : PagingOps W} {s : HeapState W} {size : Nat} {shouldAlign : Bool}

/-- `new_length` in `allocate`. -/
def newLength (s : HeapState W) (size : Nat) : Nat :=
  wrap32 (sub32 s.heap.endAddress s.heap.startAddress + wrap32 (size + 20))

/-- The end of the heap after an expansion. -/
def grownEnd (s : HeapState W) (size : Nat) : Nat :=
  wrap32 (s.heap.startAddress + roundToPage (newLength s size))

theorem grownEnd_lt (s : HeapState W) (size : Nat) : grownEnd s size < 0x100000000 := wrap32_lt _

/-- `allocate` expands the heap: no hole fits, and the limit test lets the request pass. -/
structure Expands (s : HeapState W) (size : Nat) (shouldAlign : Bool) : Prop where
  status : s.heap.status = .initialized
  noHole : findSmallestHole s (wrap32 (size + 20)) shouldAlign = none
  limit : wrap32 (s.heap.startAddress + newLength s size) ≤ s.heap.maxEndAddress
  positive : newLength s size ≠ 0

instance (s : HeapState W) (size : Nat) (shouldAlign : Bool) :
    Decidable (Expands s size shouldAlign) :=
  decidable_of_iff (_ ∧ _ ∧ _ ∧ _) ⟨fun h => ⟨h.1, h.2.1, h.2.2.1, h.2.2.2⟩,
    fun h => ⟨h.status, h.noHole, h.limit, h.positive⟩⟩

/-- Only the heap and its memory tell whether it is expanded. -/
theorem Expands.congr {s' : HeapState W} (hheap : s'.heap = s.heap) (hmem : s'.mem = s.mem)
    (h : Expands s size shouldAlign) : Expands s' size shouldAlign := by
  obtain ⟨heap, mem, paging⟩ := s
  obtain ⟨heap', mem', paging'⟩ := s'
  obtain rfl : heap' = heap := hheap
  obtain rfl : mem' = mem := hmem
  exact ⟨h.status, h.noHole, h.limit, h.positive⟩

theorem expand_of_pos (hpos : newLength s size ≠ 0) :
    expand ops s (newLength s size) =
      (requestPages ops s s.heap.endAddress (grownEnd s size)).map fun s' =>
        { s' with heap := { s'.heap with
            endAddress := wrap32 (s'.heap.startAddress + roundToPage (newLength s size)) } } := by
  unfold expand
  rw [if_neg hpos]
  rfl

/-- An allocation that expands the heap. -/
theorem heapManagerMalloc_expands (h : Expands s size shouldAlign) :
    heapManagerMalloc ops s size shouldAlign = (expand ops s (newLength s size)).map fun s' =>
      allocateAgain (absorbExpansion s' s.heap.endAddress
        (sub32 s.heap.endAddress s.heap.startAddress)) size shouldAlign := by
  have hlimit := Nat.not_lt.mpr h.limit
  unfold heapManagerMalloc allocate
  rw [h.status]
  simp only [h.noHole]
  exact if_neg hlimit

/-- An allocation that does not expand the heap asks for nothing. -/
theorem heapManagerMalloc_other (h : ¬ Expands s size shouldAlign) :
    ∃ r, ∀ ops, heapManagerMalloc ops s size shouldAlign = some r := by
  unfold heapManagerMalloc
  cases hstatus : s.heap.status with
  | uninitialized => exact ⟨_, fun _ => rfl⟩
  | bootstraped => exact ⟨_, fun _ => rfl⟩
  | initialized =>
    unfold allocate
    cases hfind : findSmallestHole s (wrap32 (size + 20)) shouldAlign with
    | some i =>
      refine ⟨carve s i size (wrap32 (size + 20)) shouldAlign, fun ops => ?_⟩
      simp only [hfind]
    | none =>
      by_cases hlimit : s.heap.maxEndAddress < wrap32 (s.heap.startAddress + newLength s size)
      · refine ⟨(s, 0), fun ops => ?_⟩
        simp only [hfind]
        exact if_pos hlimit
      · have hzero : newLength s size = 0 := by
          by_contra hpos
          exact h ⟨hstatus, hfind, Nat.le_of_not_lt hlimit, hpos⟩
        refine ⟨allocateAgain (absorbExpansion s s.heap.endAddress
          (sub32 s.heap.endAddress s.heap.startAddress)) size shouldAlign, fun ops => ?_⟩
        have hexpand : expand ops s (newLength s size) = some s := by
          unfold expand
          rw [if_pos hzero]
        simp only [hfind]
        exact (if_neg hlimit).trans (congrArg (Option.map _) hexpand)

/-- **An allocation that does not return waits for the pages that it has asked for.** -/
theorem heapManagerMalloc_none_iff : heapManagerMalloc ops s size shouldAlign = none ↔
    Expands s size shouldAlign ∧
      requestPages ops s s.heap.endAddress (grownEnd s size) = none := by
  by_cases h : Expands s size shouldAlign
  · rw [heapManagerMalloc_expands h, Option.map_eq_none_iff, expand_of_pos h.positive,
      Option.map_eq_none_iff]
    exact (and_iff_right h).symm
  · obtain ⟨r, hr⟩ := heapManagerMalloc_other h
    rw [hr]
    exact iff_of_false nofun fun hc => h hc.1

/-- **Two paging managers that answer alike.** -/
theorem heapManagerMalloc_congr (h : Expands s size shouldAlign →
      requestPages ops s s.heap.endAddress (grownEnd s size) =
        requestPages ops' s s.heap.endAddress (grownEnd s size)) :
    heapManagerMalloc ops s size shouldAlign = heapManagerMalloc ops' s size shouldAlign := by
  by_cases he : Expands s size shouldAlign
  · rw [heapManagerMalloc_expands he, heapManagerMalloc_expands he, expand_of_pos he.positive,
      expand_of_pos he.positive, h he]
  · obtain ⟨r, hr⟩ := heapManagerMalloc_other he
    rw [hr, hr]

/-! ## The heap in the beginning -/

/-- The state in which `heap_manager_init` asks for the pages of the heap. -/
def initFlags (s : HeapState W) (isSupervisor isReadonly useIdentityMapping : Bool) : HeapState W :=
  { s with
    heap := { s.heap with
      isSupervisor := isSupervisor
      isReadonly := isReadonly
      useIdentityMapping := useIdentityMapping } }

theorem insertHole_paging (s : HeapState W) (header : Nat) :
    (insertHole s header).paging = s.paging := rfl

/-- The heap after `heap_manager_init`: one hole between its bounds. -/
structure HeapInit (s s' : HeapState W) (first last limit : Nat) : Prop where
  status : s'.heap.status = .initialized
  startAddress : s'.heap.startAddress = heapStartAddress first
  endAddress : s'.heap.endAddress = last
  maxEndAddress : s'.heap.maxEndAddress = limit
  index : s'.heap.heapArray.array = [heapStartAddress first]
  size : headerSize s'.mem (heapStartAddress first) = sub32 last (heapStartAddress first)
  paging : s'.paging = s.paging

/-- `heap_manager_init` returns when it is given its pages. -/
theorem heapManagerInit_isSome {s₁ : HeapState W} {startAddress endAddress maxEndAddress : Nat}
    {isSupervisor isReadonly useIdentityMapping : Bool} (hboot : s.heap.status = .bootstraped)
    (hrequest : requestPages ops (initFlags s isSupervisor isReadonly useIdentityMapping)
      startAddress endAddress = some s₁) :
    ∃ s', heapManagerInit ops s startAddress endAddress maxEndAddress isSupervisor isReadonly
      useIdentityMapping = some s' := by
  unfold heapManagerInit
  rw [if_neg (by simp [hboot])]
  exact ⟨_, congrArg (Option.map _) hrequest⟩

/-- **The heap that `heap_manager_init` leaves.** -/
theorem heapManagerInit_of_request {s₁ s' : HeapState W}
    {startAddress endAddress maxEndAddress : Nat}
    {isSupervisor isReadonly useIdentityMapping : Bool} (hboot : s.heap.status = .bootstraped)
    (hroom : heapStartAddress startAddress + 12 ≤ 0x100000000)
    (hrequest : requestPages ops (initFlags s isSupervisor isReadonly useIdentityMapping)
      startAddress endAddress = some s₁)
    (hinit : heapManagerInit ops s startAddress endAddress maxEndAddress isSupervisor isReadonly
      useIdentityMapping = some s') :
    HeapInit s₁ s' startAddress endAddress maxEndAddress := by
  unfold heapManagerInit at hinit
  rw [if_neg (by simp [hboot])] at hinit
  simp only [] at hinit
  unfold initFlags at hrequest
  rw [hrequest, Option.map_some] at hinit
  have hheader := @headerAt_writeHeader (s₁.mem.zero startAddress (4 * heapIndexSize))
    (heapStartAddress startAddress) (sub32 endAddress (heapStartAddress startAddress)) true hroom
    (sub32_lt ..)
  rw [show (true : Bool).toNat = 1 from rfl] at hheader
  generalize writeHeader (s₁.mem.zero startAddress (4 * heapIndexSize))
    (heapStartAddress startAddress) (sub32 endAddress (heapStartAddress startAddress)) 1 = m
    at hheader hinit
  obtain rfl := Option.some.inj hinit
  refine ⟨rfl, rfl, rfl, rfl, orderedArrayInsert_init (by decide), hheader.size, ?_⟩
  rw [insertHole_paging]

end Xylophone
