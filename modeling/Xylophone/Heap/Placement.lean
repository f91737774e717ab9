import Xylophone.Heap.Isolation

/-!
# The heap before `heap_manager_init`

A bootstrapped heap hands out what comes behind `placement_address`, and nothing is given back.

* `heapManagerMalloc_bootstraped` — one request, as long as the address does not wrap
* `placement_run` — the blocks of a run of requests
-/

namespace Xylophone

open Infra

variable {W : Type} {s : HeapState W} {size p : Nat} {shouldAlign : Bool}

/-- A request: its size, and whether it is aligned. -/
structure PlacementRequest where
  size : Nat
  shouldAlign : Bool
deriving DecidableEq, Repr

/-- A block that was handed out for a request. -/
structure PlacedBlock where
  address : Nat
  request : PlacementRequest
deriving DecidableEq, Repr

/-- The end of the block. -/
def PlacedBlock.stop (b : PlacedBlock) : Nat := b.address + b.request.size

/-- The calls of `heap_manager_malloc`, one after the other. -/
def mallocAll (ops : PagingOps W) :
    HeapState W → List PlacementRequest → Option (HeapState W × List PlacedBlock)
  | s, [] => some (s, [])
  | s, r :: rs =>
    (heapManagerMalloc ops s r.size r.shouldAlign).bind fun (s', address) =>
      (mallocAll ops s' rs).map fun (s'', blocks) => (s'', ⟨address, r⟩ :: blocks)

/-- The bytes up to the next page are left out for an aligned request. -/
def padded (shouldAlign : Bool) (p : Nat) : Nat := if shouldAlign then pagesFor p else p

/-- Where the requests lead from `p` on, with the padding, in exact arithmetic. -/
def placementEnd : (p : Nat) → List PlacementRequest → Nat
  | p, [] => p
  | p, r :: rs => placementEnd (padded r.shouldAlign p + r.size) rs

theorem le_padded (shouldAlign : Bool) (p : Nat) : p ≤ padded shouldAlign p := by
  unfold padded
  split
  · exact le_pagesFor p
  · exact le_refl p

theorem padded_aligned (p : Nat) : padded true p % 0x1000 = 0 := pagesFor_mod p

theorem le_placementEnd (p : Nat) (rs : List PlacementRequest) : p ≤ placementEnd p rs := by
  induction rs generalizing p with
  | nil => exact le_refl p
  | cons r rs ih =>
    exact (Nat.le_add_right_of_le (le_padded r.shouldAlign p)).trans (ih _)

/-- **One request.** The block comes behind the padding, and the address behind the block. -/
theorem heapManagerMalloc_bootstraped (ops : PagingOps W) (hstatus : s.heap.status = .bootstraped)
    (hfits : padded shouldAlign s.heap.placementAddress + size < 0x100000000) :
    heapManagerMalloc ops s size shouldAlign = some
      ({ s with heap := { s.heap with
          placementAddress := padded shouldAlign s.heap.placementAddress + size } },
        padded shouldAlign s.heap.placementAddress) := by
  have hp : s.heap.placementAddress < 0x100000000 := by
    have hle := le_padded shouldAlign s.heap.placementAddress
    omega
  have hbase : (if shouldAlign = true ∧ s.heap.placementAddress &&& 0xFFF ≠ 0 then
      wrap32 ((s.heap.placementAddress &&& 0xFFFFF000) + 0x1000) else s.heap.placementAddress) =
      padded shouldAlign s.heap.placementAddress := by
    cases shouldAlign with
    | false => simp [padded]
    | true =>
      have hround := @roundToPage_eq s.heap.placementAddress (by simp [padded] at hfits; omega)
      unfold roundToPage at hround
      simpa [padded] using hround
  unfold heapManagerMalloc placementAllocate
  simp only [hstatus, hbase, wrap32_of_lt hfits]

/-- The blocks of a run, from any address on. -/
theorem mallocAll_bootstraped (ops : PagingOps W) {rs : List PlacementRequest}
    (hstatus : s.heap.status = .bootstraped)
    (hfits : placementEnd s.heap.placementAddress rs < 0x100000000) :
    ∃ s' blocks, mallocAll ops s rs = some (s', blocks) ∧
      blocks.map (·.request) = rs ∧
      s'.heap.placementAddress = placementEnd s.heap.placementAddress rs ∧
      (blocks.Pairwise fun b c => b.stop ≤ c.address) ∧
      ∀ b ∈ blocks, s.heap.placementAddress ≤ b.address ∧
        b.stop ≤ placementEnd s.heap.placementAddress rs ∧
        (b.request.shouldAlign = true → b.address % 0x1000 = 0) := by
  induction rs generalizing s with
  | nil => exact ⟨s, [], rfl, rfl, rfl, List.Pairwise.nil, fun b hb => by cases hb⟩
  | cons r rs ih =>
    have hle := le_placementEnd (padded r.shouldAlign s.heap.placementAddress + r.size) rs
    have hpad := le_padded r.shouldAlign s.heap.placementAddress
    have hfirst := heapManagerMalloc_bootstraped ops hstatus (lt_of_le_of_lt hle hfits)
    obtain ⟨s', blocks, hrest, hrequests, hend, hpairwise, hblocks⟩ := ih
      (s := { s with heap := { s.heap with
        placementAddress := padded r.shouldAlign s.heap.placementAddress + r.size } }) hstatus hfits
    refine ⟨s', ⟨padded r.shouldAlign s.heap.placementAddress, r⟩ :: blocks, ?_, ?_, hend,
      List.pairwise_cons.mpr ⟨fun b hb => (hblocks b hb).1, hpairwise⟩, ?_⟩
    · unfold mallocAll
      rw [hfirst]
      simp [hrest]
    · rw [List.map_cons, hrequests]
    · intro b hb
      rcases List.mem_cons.mp hb with rfl | hb
      · refine ⟨hpad, hle, fun halign => ?_⟩
        have haligned := padded_aligned s.heap.placementAddress
        rwa [← halign] at haligned
      · obtain ⟨hlo, hhi, halign⟩ := hblocks b hb
        exact ⟨hpad.trans ((Nat.le_add_right _ _).trans hlo), hhi, halign⟩

/-- **Runs of a bootstrapped heap.** As long as the requests with their padding stay below 2³²,
every one returns; the blocks come one behind the other, from the address on that the heap was
given and up to `placement_address`, and those of aligned requests start on a page. -/
theorem placement_run (ops : PagingOps W) (heap : HeapManager)
    (hstatus : heap.status = .uninitialized)
    (endAddress : Nat) {rs : List PlacementRequest}
    (hs : s.heap = heapManagerBootstrap heap endAddress)
    (hfits : placementEnd endAddress rs < 0x100000000) :
    ∃ s' blocks, mallocAll ops s rs = some (s', blocks) ∧
      blocks.map (·.request) = rs ∧
      (blocks.Pairwise fun b c => b.stop ≤ c.address) ∧
      ∀ b ∈ blocks, endAddress ≤ b.address ∧ b.stop ≤ s'.heap.placementAddress ∧
        (b.request.shouldAlign = true → b.address % 0x1000 = 0) := by
  have hboot : s.heap = { heap with placementAddress := endAddress, status := .bootstraped } := by
    rw [hs]
    exact if_pos hstatus
  have hplacement : s.heap.placementAddress = endAddress := by rw [hboot]
  rw [← hplacement] at hfits ⊢
  obtain ⟨s', blocks, hall, hrequests, hend, hpairwise, hblocks⟩ :=
    mallocAll_bootstraped ops (by rw [hboot]) hfits
  exact ⟨s', blocks, hall, hrequests, hpairwise, by rwa [hend]⟩

/-- Two requests, and between them one that is aligned. -/
theorem placement_run_threeRequests :
    let rs : List PlacementRequest := [⟨0x20, false⟩, ⟨0x1000, true⟩, ⟨8, false⟩]
    let s : HeapState Unit := ⟨bootHeap 0xC0200010, fun _ => 0, ()⟩
    ∃ s' blocks, mallocAll servingOps s rs = some (s', blocks) ∧
      blocks.map (·.request) = rs ∧
      (blocks.Pairwise fun b c => b.stop ≤ c.address) ∧
      ∀ b ∈ blocks, 0xC0200010 ≤ b.address ∧ b.stop ≤ s'.heap.placementAddress ∧
        (b.request.shouldAlign = true → b.address % 0x1000 = 0) :=
  placement_run servingOps
    { placementAddress := 0, status := .uninitialized, isSupervisor := false, isReadonly := false
      useIdentityMapping := false, startAddress := 0, endAddress := 0, maxEndAddress := 0
      heapArray := orderedArrayInit 0 } rfl 0xC0200010 rfl (by decide)

end Xylophone
