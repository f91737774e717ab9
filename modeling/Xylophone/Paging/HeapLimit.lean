import Xylophone.Paging.HeapGrowth

/-!
# The limit of the heap

`heap_manager_init` is told where the heap has to end at the latest. `allocate` compares the limit
with the end before it is rounded up to a page; `contract` and `heap_manager_free_all` leave at least
`HEAP_MIN_SIZE` bytes and do not look at the limit; and a range is mapped with the page of its end.

* `heap_below_limit` — the runs in which the heap stays below its limit
* `exists_heap_above_limit` — a heap that does not, after `heap_manager_free_all`
-/

namespace Xylophone

open Infra

variable {s s' s₀ : Kernel} {w₀ w w' : PagingWorld} {n limit size : Nat} {shouldAlign : Bool}
  {P : Nat → Prop}

/-- The heap stays below its limit, and no page from there on has been mapped since `w₀`. -/
structure BelowLimit (w₀ : PagingWorld) (limit : Nat) (s : Kernel) : Prop where
  maxEndAddress : s.heap.maxEndAddress = limit
  endAddress : s.heap.endAddress ≤ limit
  unmapped : ∀ page, limit ≤ page * 0x1000 → pageAt w₀ page = none → pageAt s.paging page = none

/-! ## The condition -/

/-- The pages that are mapped for the range begin below the limit. -/
def RangeBelow (limit startAddress endAddress : Nat) : Prop :=
  ∀ a ∈ rangeAddresses startAddress endAddress, pageNumber a * 0x1000 < limit

/-- The end of the heap, rounded up to a page, is still below the limit, and so are the pages. -/
structure GrowthBelow (s : Kernel) (size : Nat) : Prop where
  stop : grownEnd s size ≤ s.heap.maxEndAddress
  pages : canAllocate s.paging = true →
    RangeBelow s.heap.maxEndAddress s.heap.endAddress (grownEnd s size)

/-- The heap stays below its limit when a page table is taken for a page, and a frame that is given
back is a block of the manager. -/
def TableBelow (n : Nat) (s : Kernel) : PageOp → Prop
  | .map address _ _ _ => s.paging.directory.refTables (pageDirIdx address) = 0 →
    NewTable n s ∧ (Expands s 0x1000 true → GrowthBelow s 0x1000)
  | .unmap address shouldFree => FreesInside s.paging address shouldFree

/-- `heap_manager_init` maps no page at the limit. -/
def InitBelow (n : Nat) (s : Kernel) (startAddress endAddress limit : Nat) : Prop :=
  canAllocate s.paging = true → RangeBelow limit startAddress endAddress ∧
    PagesOk (heapTables n) (NewTableFor n) s (requestedPages s startAddress endAddress)

/-- The heap stays below its limit in this call, and gives back blocks of the manager only. -/
def ActionBelow (n : Nat) (s : Kernel) : HeapAction → Prop
  | .malloc size shouldAlign => Expands s size shouldAlign → GrowthBelow s size ∧
    (canAllocate s.paging = true → PagesOk (heapTables n) (TableBelow n) s
      (requestedPages s s.heap.endAddress (grownEnd s size)))
  | .free address => ∀ newSize, contraction s address = some newSize →
    contractedEnd s newSize ≤ s.heap.maxEndAddress ∧
      FreesBlocks s.paging (contractedAddresses s newSize)
  | .freeAll => resetEnd s ≤ s.heap.maxEndAddress ∧ FreesBlocks s.paging (freedByReset s)

/-! ## The pages -/

/-- No page from the limit on has been mapped since `w₀`. -/
structure PagesBelow (w₀ : PagingWorld) (limit : Nat) (w : PagingWorld) : Prop where
  apart : TablesApart w
  unmapped : ∀ page, limit ≤ page * 0x1000 → pageAt w₀ page = none → pageAt w page = none

theorem PagesBelow.added (h : PagesBelow w₀ limit w) (hadded : PagesAdded P w w')
    (hbelow : ∀ page, P page → page * 0x1000 < limit) : PagesBelow w₀ limit w' := by
  refine ⟨hadded.apart, fun page hpage hnone => ?_⟩
  by_contra hsome
  exact absurd (hbelow page (hadded.new page (h.unmapped page hpage hnone) hsome))
    (Nat.not_lt.mpr hpage)

theorem PagesBelow.freedPage {address : Nat} {shouldFree : Bool} (h : PagesBelow w₀ limit w)
    (hinside : FreesInside w address shouldFree) :
    PagesBelow w₀ limit (freePage w address shouldFree) := by
  refine ⟨apart_freePage h.apart hinside, fun page hpage hnone => ?_⟩
  rw [freePage_pages h.apart hinside]
  by_cases heq : page = pageNumber address
  · rw [heq, Function.update_self]
  · rw [Function.update_of_ne heq]
    exact h.unmapped page hpage hnone

/-- Freeing maps nothing. -/
theorem PagesBelow.freed {l : List Nat} (h : PagesBelow w₀ limit w) (hblocks : FreesBlocks w l) :
    PagesBelow w₀ limit (freeAddresses freeSingle w l) := by
  refine ⟨freeAddresses_apart h.apart hblocks, fun page hpage hnone => ?_⟩
  rw [freeAddresses_entry h.apart hblocks]
  split
  · rfl
  · exact h.unmapped page hpage hnone

/-- The pages that an allocation of a page table asks for. -/
theorem GrowthBelow.page (h : GrowthBelow s size) {page : Nat}
    (hpage : GrowthPage s size shouldAlign page) : page * 0x1000 < s.heap.maxEndAddress := by
  obtain ⟨-, hup, hmem⟩ := hpage
  obtain ⟨a, ha, rfl⟩ := List.mem_map.mp hmem
  exact h.pages hup a ha

/-! ## The invariant -/

structure LimitInvariant (w₀ : PagingWorld) (limit start : Nat) (s : Kernel) : Prop where
  startAddress : s.heap.startAddress = start
  maxEndAddress : s.heap.maxEndAddress = limit
  endAddress : s.heap.endAddress ≤ limit
  pages : PagesBelow w₀ limit s.paging

variable {start : Nat}

theorem LimitInvariant.below (h : LimitInvariant w₀ limit start s) : BelowLimit w₀ limit s :=
  ⟨h.maxEndAddress, h.endAddress, h.pages.unmapped⟩

/-- A page below the limit is mapped. -/
theorem LimitInvariant.page {op : PageOp} (h : LimitInvariant w₀ limit start s)
    (hok : TableBelow n s op ∧ op.page * 0x1000 < limit) (hstep : PageStep (heapTables n) s op s') :
    LimitInvariant w₀ limit start s' := by
  obtain ⟨htable, hpage⟩ := hok
  cases hstep with
  | unmap => exact ⟨h.startAddress, h.maxEndAddress, h.endAddress, h.pages.freedPage htable⟩
  | @map _ address _ _ _ result =>
    have htaken := allocatePage_taken h.pages.apart (fun hnone => (htable hnone).1) result
    refine ⟨htaken.startAddress.trans h.startAddress, htaken.maxEndAddress.trans h.maxEndAddress, ?_,
      h.pages.added htaken.added ?_⟩
    · rcases htaken.endAddress with hend | ⟨hnone, hexpands, hend⟩
      · rw [hend]
        exact h.endAddress
      · rw [hend, ← h.maxEndAddress]
        exact ((htable hnone).2 hexpands).stop
    · rintro page (rfl | ⟨hnone, hgrowth⟩)
      · exact hpage
      · rw [← h.maxEndAddress]
        exact ((htable hnone).2 hgrowth.1).page hgrowth

/-- A request for pages below the limit. -/
theorem LimitInvariant.request {startAddress endAddress : Nat} (h : LimitInvariant w₀ limit start s)
    (hend : endAddress < 0x100000000)
    (hbelow : canAllocate s.paging = true → RangeBelow limit startAddress endAddress ∧
      PagesOk (heapTables n) (TableBelow n) s (requestedPages s startAddress endAddress))
    (hrequest : requestPages (pagingOps (heapTables n)) s startAddress endAddress = some s') :
    LimitInvariant w₀ limit start s' := by
  rcases requestPages_run hend hrequest with ⟨-, rfl⟩ | ⟨hup, hrun⟩
  · exact h
  · obtain ⟨hrange, htables⟩ := hbelow hup
    refine PageRun.invariant (fun s op s' hs hok hstep => hs.page hok hstep) h
      (htables.and fun op hop => ?_) hrun
    obtain ⟨a, ha, -, -, -, rfl⟩ := mem_requestedPages hop
    exact hrange a ha

/-- Nothing has happened to the bounds and the pages. -/
theorem LimitInvariant.same (h : LimitInvariant w₀ limit start s) (hsame : SameBounds s s') :
    LimitInvariant w₀ limit start s' :=
  ⟨hsame.startAddress.trans h.startAddress, hsame.maxEndAddress.trans h.maxEndAddress,
    by rw [hsame.endAddress]; exact h.endAddress, by rw [hsame.paging]; exact h.pages⟩

theorem LimitInvariant.malloc {address : Nat} (h : LimitInvariant w₀ limit start s)
    (hok : ActionBelow n s (.malloc size shouldAlign))
    (hresult : heapManagerMalloc (pagingOps (heapTables n)) s size shouldAlign =
      some (s', address)) : LimitInvariant w₀ limit start s' := by
  rcases heapManagerMalloc_cases hresult with hsame | ⟨hexpands, s₁, hrequest, hsame⟩
  · exact h.same hsame
  · obtain ⟨hgrowth, htables⟩ := hok hexpands
    have h₁ := h.request (grownEnd_lt ..)
      (fun hup => ⟨by rw [← h.maxEndAddress]; exact hgrowth.pages hup, htables hup⟩) hrequest
    obtain ⟨-, hstart, hmax, hend, hpaging⟩ := hsame.moved
    refine ⟨hstart.trans h₁.startAddress, hmax.trans h₁.maxEndAddress, ?_,
      by rw [hpaging]; exact h₁.pages⟩
    rw [hend, h₁.startAddress, ← h.startAddress, ← h.maxEndAddress]
    exact hgrowth.stop

/-- The end of the heap has been moved back, and pages behind it have been freed. -/
theorem LimitInvariant.moved {freed : List Nat} (h : LimitInvariant w₀ limit start s)
    (hstart : s'.heap.startAddress = s.heap.startAddress)
    (hmax : s'.heap.maxEndAddress = s.heap.maxEndAddress)
    (hend : s'.heap.endAddress ≤ s.heap.maxEndAddress) (hblocks : FreesBlocks s.paging freed)
    (hpaging : s'.paging = freeAddresses freeSingle s.paging freed) :
    LimitInvariant w₀ limit start s' := by
  refine ⟨hstart.trans h.startAddress, hmax.trans h.maxEndAddress, ?_, ?_⟩
  · rw [← h.maxEndAddress]
    exact hend
  · rw [hpaging]
    exact h.pages.freed hblocks

/-- **What one call does.** -/
theorem LimitInvariant.step {c : HeapAction} (h : LimitInvariant w₀ limit start s)
    (hok : ActionBelow n s c) (hstep : ActionStep n s c s') :
    LimitInvariant w₀ limit start s' := by
  cases hstep with
  | malloc _ result => exact h.malloc hok result
  | @free address i₀ =>
    have hcases := heapManagerFree_cases (pagingOps (heapTables n)) s address i₀
    generalize heapManagerFree (pagingOps (heapTables n)) s address i₀ = s' at hcases ⊢
    rcases hcases with hsame | ⟨newSize, hcontraction, hresult⟩
    · exact h.same hsame
    · obtain ⟨hlimit, hblocks⟩ := hok newSize hcontraction
      exact h.moved hresult.startAddress hresult.maxEndAddress
        (hresult.endAddress.trans_le hlimit) hblocks hresult.paging
  | freeAll result =>
    rcases heapManagerFreeAll_cases result with rfl | ⟨-, hreset⟩
    · exact h
    · exact h.moved hreset.startAddress hreset.maxEndAddress (hreset.endAddress.trans_le hok.1)
        hok.2 hreset.paging

/-! ## `heap_manager_init` -/

/-- The state while `heap_manager_init` asks for its pages. There is no heap yet that could grow. -/
structure BootBelow (w₀ : PagingWorld) (limit : Nat) (s : Kernel) : Prop where
  status : s.heap.status = .bootstraped
  pages : PagesBelow w₀ limit s.paging

theorem BootBelow.page {op : PageOp} (h : BootBelow w₀ limit s)
    (hok : NewTableFor n s op ∧ op.page * 0x1000 < limit)
    (hstep : PageStep (heapTables n) s op s') :
    BootBelow w₀ limit s' := by
  obtain ⟨htable, hpage⟩ := hok
  cases hstep with
  | unmap => exact ⟨h.status, h.pages.freedPage htable⟩
  | @map _ address _ _ _ result =>
    have htaken := allocatePage_taken h.pages.apart htable result
    refine ⟨htaken.status.trans h.status, h.pages.added htaken.added ?_⟩
    rintro page (rfl | ⟨-, hgrowth⟩)
    · exact hpage
    · have hstatus := hgrowth.1.status
      rw [h.status] at hstatus
      cases hstatus

variable {startAddress endAddress : Nat} {isSupervisor isReadonly useIdentityMapping : Bool}

theorem LimitInvariant.init (hboot : s.heap.status = .bootstraped) (hapart : TablesApart s.paging)
    (hend : endAddress < 0x100000000) (hlimit : endAddress ≤ limit)
    (hbelow : InitBelow n (initFlags s isSupervisor isReadonly useIdentityMapping) startAddress
      endAddress limit)
    (hinit : heapManagerInit (pagingOps (heapTables n)) s startAddress endAddress limit isSupervisor
      isReadonly useIdentityMapping = some s') :
    LimitInvariant s.paging limit (heapStartAddress startAddress) s' := by
  obtain ⟨s₁, hrequest, hdone⟩ := heapManagerInit_cases hboot hinit
  have hbefore : BootBelow s.paging limit (initFlags s isSupervisor isReadonly useIdentityMapping) :=
    ⟨hboot, hapart, fun _ _ hnone => hnone⟩
  have hafter : BootBelow s.paging limit s₁ := by
    rcases requestPages_run hend hrequest with ⟨-, rfl⟩ | ⟨hup, hrun⟩
    · exact hbefore
    · obtain ⟨hrange, htables⟩ := hbelow hup
      refine PageRun.invariant (fun s op s' hs hok hstep => hs.page hok hstep) hbefore
        (htables.and fun op hop => ?_) hrun
      obtain ⟨a, ha, -, -, -, rfl⟩ := mem_requestedPages hop
      exact hrange a ha
  exact ⟨hdone.startAddress, hdone.maxEndAddress, by rw [hdone.endAddress]; exact hlimit,
    by rw [hdone.paging]; exact hafter.pages⟩

end Xylophone
