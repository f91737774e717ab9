import Xylophone.Heap.Expansion
import Xylophone.Infra.Loop
import Xylophone.Paging.Calls
import Xylophone.Paging.Frames
import Xylophone.Paging.OnePage

/-!
# Page tables from the heap that is growing

To map a page of a slot without page table the paging manager takes the table from the heap, also
when that page is to be a page of the same heap. The heap then grows in the middle of an expansion,
in which its end has not moved yet: it asks for the same pages again, and when one of these is in
the slot without page table it does so without end.

* `heapTables_depth` — an allocation of a page table that returns maps no page of a slot without
  page table
* `malloc_returns_iff` — the allocations that return
* `exists_endless_malloc` — one that does not, right after `heap_manager_init`
-/

namespace Xylophone

open Infra

variable {malloc : TableSource} {served : Kernel → Prop} {s s' s₁ : Kernel}
  {w w' : PagingWorld} {address frame table size : Nat} {isKernel isWriteable shouldAlign : Bool}

/-! ## One page -/

/-- A page of a slot with a page table needs nothing from the heap. -/
theorem allocatePage_of_table (h : s.paging.directory.refTables (pageDirIdx address) ≠ 0) :
    allocatePage malloc s address frame isKernel isWriteable =
      (ensurePage s.paging (s.paging.directory.refTables (pageDirIdx address)) address frame isKernel
        isWriteable).map fun w => { s with paging := w } := by
  unfold allocatePage ensureTable
  dsimp only
  rw [if_neg h]
  rfl

/-- A page of a slot without page table needs one from the heap. -/
theorem allocatePage_noTable (h : s.paging.directory.refTables (pageDirIdx address) = 0)
    (hmalloc : malloc s = none) :
    allocatePage malloc s address frame isKernel isWriteable = none := by
  unfold allocatePage ensureTable
  dsimp only
  rw [if_pos h, hmalloc]
  rfl

/-- A page is mapped when a page table that is missing can be served, and the page be made
present. -/
def PageServed (malloc : TableSource) (served : Kernel → Prop) (s : Kernel) : PageOp → Prop
  | .map address frame isKernel isWriteable =>
    (s.paging.directory.refTables (pageDirIdx address) = 0 → served s) ∧
      ∀ s₁ table, ensureTable malloc s address isKernel isWriteable = some (s₁, table) →
        CanMap s₁.paging table address frame
  | .unmap _ _ => True

theorem allocatePage_isSome_iff (hmalloc : ∀ s, (∃ r, malloc s = some r) ↔ served s) :
    (∃ s', allocatePage malloc s address frame isKernel isWriteable = some s') ↔
      PageServed malloc served s (.map address frame isKernel isWriteable) := by
  have htable : (∃ r, ensureTable malloc s address isKernel isWriteable = some r) ↔
      (s.paging.directory.refTables (pageDirIdx address) = 0 → served s) := by
    unfold ensureTable
    dsimp only
    split
    · next hnone =>
      rw [forall_prop_of_true hnone, ← hmalloc]
      exact ⟨fun ⟨r, hr⟩ => (Option.map_eq_some_iff.mp hr).imp fun _ h => h.1,
        fun ⟨r, hr⟩ => ⟨_, by rw [hr]; rfl⟩⟩
    · next hsome => exact iff_of_true ⟨_, rfl⟩ fun hnone => absurd hnone hsome
  unfold allocatePage PageServed
  dsimp only
  rw [← htable]
  constructor
  · rintro ⟨s', h⟩
    obtain ⟨⟨s₁, table⟩, hensure, hpage⟩ := Option.bind_eq_some_iff.mp h
    obtain ⟨w', hpage, -⟩ := Option.map_eq_some_iff.mp hpage
    refine ⟨⟨_, hensure⟩, fun s₂ table₂ h₂ => ?_⟩
    obtain ⟨rfl, rfl⟩ := Prod.mk.inj (Option.some.inj (hensure.symm.trans h₂))
    exact ensurePage_isSome_iff.mp ⟨w', hpage⟩
  · rintro ⟨⟨⟨s₁, table⟩, hensure⟩, hmap⟩
    obtain ⟨w', hpage⟩ := ensurePage_isSome_iff.mpr (hmap s₁ table hensure)
    exact ⟨{ s₁ with paging := w' }, by rw [hensure, Option.bind_some, hpage]; rfl⟩

/-! ## The pages of a request -/

/-- The pages that `paging_manager_allocate_range` or its identity variant maps for the heap. -/
def requestedPages (s : Kernel) (startAddress endAddress : Nat) : List PageOp :=
  (rangeAddresses startAddress endAddress).map fun a =>
    .map a (if s.heap.useIdentityMapping then a / 0x1000 else 0) s.heap.isSupervisor
      (!s.heap.isReadonly)

/-- A page of the heap is mapped. -/
def mapHeapPage (malloc : TableSource) (heap : HeapManager) (s : Kernel) (address : Nat) :
    Option Kernel :=
  allocatePage malloc s address (if heap.useIdentityMapping then address / 0x1000 else 0)
    heap.isSupervisor (!heap.isReadonly)

/-- What a request for pages comes to. -/
theorem requestPages_eq {startAddress endAddress : Nat} (hend : endAddress < 0x100000000) :
    requestPages (pagingOps malloc) s startAddress endAddress =
      if canAllocate s.paging then
        if RangeEnds startAddress endAddress then
          (rangeAddresses startAddress endAddress).foldlM (mapHeapPage malloc s.heap) s
        else none
      else some s := by
  obtain ⟨heap, hheap⟩ : ∃ heap, heap = s.heap := ⟨_, rfl⟩
  unfold requestPages
  rw [← hheap]
  split
  · next hidentity =>
    show identityAllocateRange malloc s startAddress endAddress _ _ = _
    unfold identityAllocateRange
    rw [rangeLoop_spec hend]
    have hmap : mapHeapPage malloc heap = fun s a =>
        allocatePage malloc s a (a / 0x1000) heap.isSupervisor (!heap.isReadonly) := by
      funext s₁ a
      rw [mapHeapPage, if_pos hidentity]
    rw [hmap]
    rfl
  · next hmapped =>
    show allocateRange malloc s startAddress endAddress _ _ = _
    unfold allocateRange
    rw [rangeLoop_spec hend]
    have hmap : mapHeapPage malloc heap = fun s a =>
        allocatePage malloc s a 0 heap.isSupervisor (!heap.isReadonly) := by
      funext s₁ a
      rw [mapHeapPage, if_neg hmapped]
    rw [hmap]
    rfl

theorem foldlM_isSome_iff (hmalloc : ∀ s, (∃ r, malloc s = some r) ↔ served s) (heap : HeapManager)
    {l : List Nat} :
    (∃ s', l.foldlM (mapHeapPage malloc heap) s = some s') ↔
      PagesOk malloc (PageServed malloc served) s (l.map fun a =>
        .map a (if heap.useIdentityMapping then a / 0x1000 else 0) heap.isSupervisor
          (!heap.isReadonly)) := by
  induction l generalizing s with
  | nil => exact iff_of_true ⟨s, rfl⟩ trivial
  | cons a l ih =>
    rw [List.map_cons]
    constructor
    · rintro ⟨s', h⟩
      obtain ⟨s₁, hfirst, hrest⟩ := foldlM_cons_some.mp h
      refine ⟨(allocatePage_isSome_iff hmalloc).mp ⟨s₁, hfirst⟩, fun s₂ hstep => ?_⟩
      cases hstep with
      | map result =>
        obtain rfl := Option.some.inj (hfirst.symm.trans result)
        exact ih.mp ⟨s', hrest⟩
    · rintro ⟨hok, hrest⟩
      obtain ⟨s₁, hfirst⟩ := (allocatePage_isSome_iff hmalloc).mpr hok
      obtain ⟨s', hs'⟩ := ih.mpr (hrest s₁ (.map hfirst))
      exact ⟨s', foldlM_cons_some.mpr ⟨s₁, hfirst, hs'⟩⟩

/-- An expansion for `size` bytes maps all of its pages. -/
def GrowthOk (malloc : TableSource) (served : Kernel → Prop) (s : Kernel) (size : Nat)
    (shouldAlign : Bool) : Prop :=
  Expands s size shouldAlign → canAllocate s.paging = true →
    RangeEnds s.heap.endAddress (grownEnd s size) ∧
      PagesOk malloc (PageServed malloc served) s
        (requestedPages s s.heap.endAddress (grownEnd s size))

/-- **The allocations that return, with page tables from a source of which is known what it
serves.** -/
theorem heapManagerMalloc_isSome_iff (hmalloc : ∀ s, (∃ r, malloc s = some r) ↔ served s) :
    (∃ r, heapManagerMalloc (pagingOps malloc) s size shouldAlign = some r) ↔
      GrowthOk malloc served s size shouldAlign := by
  rw [← Option.ne_none_iff_exists', ne_eq, heapManagerMalloc_none_iff,
    requestPages_eq (grownEnd_lt ..)]
  unfold GrowthOk requestedPages
  rw [← foldlM_isSome_iff hmalloc, not_and]
  refine forall_congr' fun _ => ?_
  by_cases hup : canAllocate s.paging = true
  · rw [if_pos hup, forall_prop_of_true hup]
    by_cases hends : RangeEnds s.heap.endAddress (grownEnd s size)
    · rw [if_pos hends, and_iff_right hends, ← Option.ne_none_iff_exists']
    · rw [if_neg hends]
      exact iff_of_false (fun h => h rfl) fun h => hends h.1
  · rw [if_neg hup]
    exact iff_of_true nofun fun h => absurd h hup

/-! ## The same heap again -/

/-- All that an expansion depends on is the same: pages that are made present do not matter. -/
structure SameHeap (s s' : Kernel) : Prop where
  heap : s'.heap = s.heap
  mem : s'.mem = s.mem
  refTables : s'.paging.directory.refTables = s.paging.directory.refTables
  canAllocate : canAllocate s'.paging = canAllocate s.paging

theorem SameHeap.refl (s : Kernel) : SameHeap s s := ⟨rfl, rfl, rfl, rfl⟩

theorem SameHeap.trans (h : SameHeap s s') (h' : SameHeap s' s₁) : SameHeap s s₁ :=
  ⟨h'.heap.trans h.heap, h'.mem.trans h.mem, h'.refTables.trans h.refTables,
    h'.canAllocate.trans h.canAllocate⟩

/-- A page of a slot with a page table is mapped. -/
theorem SameHeap.mapped (htable : s.paging.directory.refTables (pageDirIdx address) ≠ 0)
    (h : allocatePage malloc s address frame isKernel isWriteable = some s') : SameHeap s s' := by
  rw [allocatePage_of_table htable] at h
  obtain ⟨w', hpage, rfl⟩ := Option.map_eq_some_iff.mp h
  obtain ⟨hdirectory, hflags⟩ := ensurePage_same hpage
  exact ⟨rfl, rfl, congrArg PageDirectory.refTables hdirectory, hflags⟩

variable {malloc' : TableSource} {heap : HeapManager} {l : List Nat}

/-- Pages of slots with page tables: the source of page tables does not matter. -/
theorem foldlM_of_tables
    (h : ∀ a ∈ l, s.paging.directory.refTables (pageDirIdx a) ≠ 0) :
    l.foldlM (mapHeapPage malloc heap) s = l.foldlM (mapHeapPage malloc' heap) s := by
  induction l generalizing s with
  | nil => rfl
  | cons a l ih =>
    have hfirst : mapHeapPage malloc heap s a = mapHeapPage malloc' heap s a := by
      have ha := h a List.mem_cons_self
      unfold mapHeapPage
      rw [allocatePage_of_table ha, allocatePage_of_table ha]
    rw [List.foldlM_cons, List.foldlM_cons, hfirst]
    cases hmapped : mapHeapPage malloc' heap s a with
    | none => rfl
    | some s' =>
      have hsame := SameHeap.mapped (h a List.mem_cons_self) hmapped
      refine ih fun b hb => ?_
      rw [hsame.refTables]
      exact h b (List.mem_cons_of_mem _ hb)

/-- Pages of which one is in a slot without page table, and none is to be had. -/
theorem foldlM_missing (h : ∃ a ∈ l, s.paging.directory.refTables (pageDirIdx a) = 0)
    (hnone : ∀ s', SameHeap s s' → malloc s' = none) :
    l.foldlM (mapHeapPage malloc heap) s = none := by
  induction l generalizing s with
  | nil =>
    obtain ⟨a, ha, -⟩ := h
    cases ha
  | cons a l ih =>
    rw [List.foldlM_cons]
    by_cases ha : s.paging.directory.refTables (pageDirIdx a) = 0
    · rw [mapHeapPage, allocatePage_noTable ha (hnone s (SameHeap.refl s))]
      rfl
    cases hmapped : mapHeapPage malloc heap s a with
    | none => rfl
    | some s₁ =>
      have hsame := SameHeap.mapped ha hmapped
      obtain ⟨b, hb, hmissing⟩ := h
      refine ih ⟨b, ?_, by rw [hsame.refTables]; exact hmissing⟩
        fun s' hs' => hnone s' (hsame.trans hs')
      obtain rfl | hb := List.mem_cons.mp hb
      · exact absurd hmissing ha
      · exact hb

/-- A page that an expansion for `size` bytes asks for is in a slot without page table. -/
def MissesTable (s : Kernel) (size : Nat) : Prop :=
  ∃ a ∈ rangeAddresses s.heap.endAddress (grownEnd s size),
    s.paging.directory.refTables (pageDirIdx a) = 0

theorem SameHeap.missesTable (h : SameHeap s s') (hmisses : MissesTable s size) :
    MissesTable s' size := by
  unfold MissesTable grownEnd newLength at *
  rw [h.heap, h.refTables]
  exact hmisses

/-- An expansion for which page tables are missing and none is to be had. -/
theorem malloc_missing (hexpands : Expands s size shouldAlign) (hup : canAllocate s.paging = true)
    (hmisses : MissesTable s size) (hnone : ∀ s', SameHeap s s' → malloc s' = none) :
    heapManagerMalloc (pagingOps malloc) s size shouldAlign = none := by
  refine heapManagerMalloc_none_iff.mpr ⟨hexpands, ?_⟩
  rw [requestPages_eq (grownEnd_lt ..), if_pos hup]
  split
  · exact foldlM_missing hmisses hnone
  · rfl

/-- **An allocation of a page table that misses a page table itself never returns**: it is called
again with the same heap. -/
theorem heapTables_missing : ∀ (n : Nat) {s : Kernel}, Expands s 0x1000 true →
    canAllocate s.paging = true → MissesTable s 0x1000 → heapTables n s = none
  | 0, _, _, _, _ => rfl
  | n + 1, _, hexpands, hup, hmisses =>
    malloc_missing hexpands hup hmisses fun _ hs' =>
      heapTables_missing n (hexpands.congr hs'.heap hs'.mem) (hs'.canAllocate.trans hup)
        (hs'.missesTable hmisses)

/-- **An allocation of a page table that returns takes no page table on the way.** -/
theorem heapTables_depth {n : Nat} {r : Kernel × Nat} (h : heapTables n s = some r) :
    heapTables 1 s = some r := by
  cases n with
  | zero => cases h
  | succ n =>
    rw [← h]
    refine heapManagerMalloc_congr fun hexpands => ?_
    rw [requestPages_eq (grownEnd_lt ..), requestPages_eq (grownEnd_lt ..)]
    by_cases hup : canAllocate s.paging = true
    · rw [if_pos hup, if_pos hup]
      congr 1
      refine foldlM_of_tables fun a ha hmissing => ?_
      rw [heapTables_missing (n + 1) hexpands hup ⟨a, ha, hmissing⟩] at h
      cases h
    · rw [if_neg hup, if_neg hup]

/-- A page table can be allocated: the heap has a hole for it or the heap grows, with page tables
for all of the pages that it asks for. -/
def Served (s : Kernel) : Prop := GrowthOk (heapTables 0) (fun _ => False) s 0x1000 true

theorem heapTables_zero (s : Kernel) : heapTables 0 s = none := rfl

theorem heapTables_isSome_iff (s : Kernel) : (∃ r, heapTables 1 s = some r) ↔ Served s := by
  refine heapManagerMalloc_isSome_iff fun s₁ => iff_of_false ?_ id
  rintro ⟨r, h⟩
  rw [heapTables_zero] at h
  cases h

theorem allocatePage_mono (h : ∀ s r, malloc s = some r → malloc' s = some r)
    (hmapped : allocatePage malloc s address frame isKernel isWriteable = some s') :
    allocatePage malloc' s address frame isKernel isWriteable = some s' := by
  by_cases htable : s.paging.directory.refTables (pageDirIdx address) = 0
  · unfold allocatePage ensureTable at hmapped ⊢
    dsimp only at hmapped ⊢
    rw [if_pos htable] at hmapped ⊢
    obtain ⟨r, hensure, hpage⟩ := Option.bind_eq_some_iff.mp hmapped
    obtain ⟨r₁, hmalloc, heq⟩ := Option.map_eq_some_iff.mp hensure
    rw [h s r₁ hmalloc, Option.map_some, heq]
    exact hpage
  · rw [allocatePage_of_table htable] at hmapped ⊢
    exact hmapped

/-- **An allocation returns exactly when its expansion maps every page**: a page table that is
missing can be allocated in the state in which it is needed, and there is a block for the page. -/
theorem malloc_returns_iff (s : Kernel) (size : Nat) (shouldAlign : Bool) :
    (∃ fuel r, heapManagerMalloc (pagingOps (heapTables fuel)) s size shouldAlign = some r) ↔
      GrowthOk (heapTables 1) Served s size shouldAlign := by
  rw [← heapManagerMalloc_isSome_iff heapTables_isSome_iff]
  refine ⟨fun ⟨n, r, h⟩ => ?_, fun ⟨r, h⟩ => ⟨1, r, h⟩⟩
  rw [← Option.ne_none_iff_exists', ne_eq, heapManagerMalloc_none_iff]
  rintro ⟨hexpands, hrequest⟩
  have hsome : heapManagerMalloc (pagingOps (heapTables n)) s size shouldAlign ≠ none := by
    rw [h]
    nofun
  refine hsome (heapManagerMalloc_none_iff.mpr ⟨hexpands, ?_⟩)
  rw [requestPages_eq (grownEnd_lt ..)] at hrequest ⊢
  split at hrequest
  · next hup =>
    rw [if_pos hup]
    split at hrequest
    · next hends =>
      rw [if_pos hends]
      refine Option.eq_none_iff_forall_ne_some.mpr fun s' hs' => ?_
      have hmono := foldlM_mono (g := mapHeapPage (heapTables 1) s.heap)
        (fun s a s' hmapped => allocatePage_mono (fun _ _ => heapTables_depth) hmapped) hs'
      rw [hrequest] at hmono
      cases hmono
    · next hendless => rw [if_neg hendless]
  · cases hrequest

/-! ## An allocation that never returns -/

/-- Before `heap_manager_init` pages of the slot `0x300` only have been mapped. -/
structure BootSlot (s : Kernel) : Prop where
  status : s.heap.status = .bootstraped
  handler : s.paging.pmm.hasFailure = true
  up : canAllocate s.paging = true
  tables : ∀ i, i ≠ 0x300 → s.paging.directory.refTables i = 0

theorem allocateBlock_hasFailure (pmm : PhysicalMemoryManager) :
    (allocateBlock pmm).1.hasFailure = pmm.hasFailure := by
  unfold allocateBlock
  split
  · split <;> rfl
  · rfl

theorem ensurePage_hasFailure
    (h : ensurePage w table address frame isKernel isWriteable = some w') :
    w'.pmm.hasFailure = w.pmm.hasFailure := by
  unfold ensurePage at h
  dsimp only at h
  split at h
  · obtain rfl := Option.some.inj h
    rfl
  split at h
  · obtain rfl := Option.some.inj h
    rfl
  split at h
  · obtain rfl := Option.some.inj h
    exact allocateBlock_hasFailure w.pmm
  split at h
  · obtain rfl := Option.some.inj h
    exact allocateBlock_hasFailure w.pmm
  · cases h

/-- With a failure handler every page of the slot is mapped. -/
theorem BootSlot.mapped (h : BootSlot s) (hslot : pageDirIdx address = 0x300) :
    ∃ s', allocatePage (heapTables 1) s address frame isKernel isWriteable = some s' ∧
      BootSlot s' := by
  obtain ⟨s₁, table, hensure, hs₁⟩ : ∃ s₁ table,
      ensureTable (heapTables 1) s address isKernel isWriteable = some (s₁, table) ∧
        BootSlot s₁ := by
    unfold ensureTable
    dsimp only
    split
    · rw [heapTables_boot 0 h.status]
      refine ⟨_, _, rfl, h.status, h.handler, h.up, fun i hi => ?_⟩
      show Function.update _ (pageDirIdx address) _ i = 0
      rw [hslot, Function.update_of_ne hi]
      exact h.tables i hi
    · exact ⟨_, _, rfl, h⟩
  obtain ⟨w', hpage⟩ : ∃ w', ensurePage s₁.paging table address frame isKernel isWriteable = some w' :=
    ensurePage_isSome_iff.mpr
      (Or.inr (Or.inr (Or.inr ((allocateBlock_hasFailure _).trans hs₁.handler))))
  obtain ⟨hdirectory, hflags⟩ := ensurePage_same hpage
  refine ⟨{ s₁ with paging := w' }, ?_, hs₁.status, (ensurePage_hasFailure hpage).trans hs₁.handler,
    hflags.trans hs₁.up, fun i hi => ?_⟩
  · unfold allocatePage
    rw [hensure, Option.bind_some, hpage]
    rfl
  · show w'.directory.refTables i = 0
    rw [hdirectory]
    exact hs₁.tables i hi

/-- A heap in the slot: the pages of its index and of its first blocks are mapped, with frames from
the pool. -/
theorem bootSlot_init {first last limit : Nat} (hfirst : 0xC0000000 ≤ first)
    (hlast : last < 0xC03FF001) (hroom : heapStartAddress first + 12 ≤ 0x100000000) :
    ∃ s₁ s, (BootSlot s₁ ∧ PoolInvariant s₁) ∧
      heapManagerInit (pagingOps (heapTables 1)) (freshKernel 0xC0200000 0x800000) first last limit
        true false false = some s ∧ HeapInit s₁ s first last limit := by
  have hboot : (freshKernel 0xC0200000 0x800000).heap.status = .bootstraped := rfl
  have hup : canAllocate
      (initFlags (freshKernel 0xC0200000 0x800000) true false false).paging = true := rfl
  have hends : RangeEnds first last := by
    unfold RangeEnds
    omega
  obtain ⟨s₁, hrequest, hs₁⟩ : ∃ s₁, requestPages (pagingOps (heapTables 1))
      (initFlags (freshKernel 0xC0200000 0x800000) true false false) first last = some s₁ ∧
        BootSlot s₁ ∧ PoolInvariant s₁ := by
    rw [requestPages_eq (by omega), if_pos hup, if_pos hends]
    refine foldlM_total (P := fun s => BootSlot s ∧ PoolInvariant s) (fun s a ha hs => ?_)
      ⟨⟨rfl, rfl, rfl, fun _ _ => rfl⟩,
        poolInvariant_start (@freshKernel_fresh 0xC0200000 0x800000 (by decide)) rfl (by decide)
          (by decide)⟩
    rw [mem_rangeAddresses] at ha
    have hslot : pageDirIdx a = 0x300 := by
      rw [pageDirIdx_eq, pageNumber]
      omega
    obtain ⟨hs, hpool⟩ := hs
    obtain ⟨s', hmap, hs'⟩ := @BootSlot.mapped s a 0 true true hs hslot
    have hop : PoolOp (.map a 0 true true) := ⟨by omega, rfl⟩
    exact ⟨s', hmap, hs', hpool.step hop (.map hmap)⟩
  obtain ⟨s, hinit⟩ := @heapManagerInit_isSome _ _ _ _ first last limit true false false hboot hrequest
  exact ⟨s₁, s, hs₁, hinit, heapManagerInit_of_request hboot hroom hrequest hinit⟩

/--
A heap whose blocks end one page before a slot of 4 MiB. The first request that its hole is too
small for asks for the first page of that slot, and so does the allocation of the page table for it.
-/
theorem exists_endless_malloc : ∃ s : Kernel,
    heapManagerInit (pagingOps (heapTables 1)) (freshKernel 0xC0200000 0x800000)
      0xC037C000 0xC03FF000 0xC0800000 true false false = some s ∧
    s.heap.status = .initialized ∧
    ∀ fuel, heapManagerMalloc (pagingOps (heapTables fuel)) s 9000 false = none := by
  have hstart : heapStartAddress 0xC037C000 = 0xC03FD000 := by decide
  obtain ⟨s₁, s, ⟨hs₁, -⟩, hinit, h⟩ := @bootSlot_init 0xC037C000 0xC03FF000 0xC0800000 (by decide)
    (by decide) (by decide)
  have hindex := h.index
  have hsize := h.size
  rw [hstart] at hindex hsize
  -- the hole has 8192 bytes
  have hnoHole : ∀ n align, sizeFits n align 0xC03FD000 0x2000 = false →
      findSmallestHole s n align = none := by
    intro n align hfits
    unfold findSmallestHole
    rw [hindex, List.findIdx?_eq_none_iff]
    intro a ha
    rw [List.mem_singleton.mp ha, holeFits, hsize]
    exact hfits
  have hup : canAllocate s.paging = true := by
    rw [h.paging]
    exact hs₁.up
  have hbounds : s.heap.startAddress = 0xC03FD000 := h.startAddress.trans hstart
  have hexpands : ∀ size align, sizeFits (wrap32 (size + 20)) align 0xC03FD000 0x2000 = false →
      wrap32 (0xC03FD000 + wrap32 (0x2000 + wrap32 (size + 20))) ≤ 0xC0800000 →
      wrap32 (0x2000 + wrap32 (size + 20)) ≠ 0 → Expands s size align := by
    intro size align hfits hlimit hpos
    have hnew : newLength s size = wrap32 (0x2000 + wrap32 (size + 20)) := by
      rw [newLength, h.endAddress, hbounds]
      rfl
    exact ⟨h.status, hnoHole _ _ hfits, by rw [hnew, hbounds, h.maxEndAddress]; exact hlimit,
      by rw [hnew]; exact hpos⟩
  have hmisses : ∀ size, 0xC0400000 ≤ wrap32 (0xC03FD000 +
      roundToPage (wrap32 (0x2000 + wrap32 (size + 20)))) → MissesTable s size := by
    intro size hle
    have hgrown : grownEnd s size = wrap32 (0xC03FD000 +
        roundToPage (wrap32 (0x2000 + wrap32 (size + 20)))) := by
      rw [grownEnd, newLength, h.endAddress, hbounds]
      rfl
    refine ⟨0xC0400000, mem_rangeAddresses.mpr ?_, ?_⟩
    · rw [h.endAddress, hgrown]
      exact ⟨by decide, hle, by decide⟩
    · rw [h.paging]
      exact hs₁.tables _ (by decide)
  refine ⟨s, hinit, h.status, fun n => ?_⟩
  refine malloc_missing (hexpands 9000 false (by decide) (by decide) (by decide)) hup
    (hmisses 9000 (by decide)) fun s' hs' => ?_
  have hagain := (hexpands 0x1000 true (by decide) (by decide) (by decide)).congr hs'.heap hs'.mem
  exact heapTables_missing n hagain (hs'.canAllocate.trans hup)
    (hs'.missesTable (hmisses 0x1000 (by decide)))

end Xylophone
