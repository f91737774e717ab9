import Xylophone.Paging.Nesting

/-!
# When a page cannot be mapped

`allocate_page` can fail twice: the heap has no memory for a page table, or the physical memory
manager has no block. It looks for the second failure only.

* `failure_clean_iff` — nothing has changed after a failure, unless the page table is `NULL`
* `exists_null_table` — a page table at `NULL` is entered into the directory
-/

namespace Xylophone

open Infra

variable {malloc : TableSource} {s s' s₁ : Kernel} {address frame : Nat}
  {isKernel isWriteable : Bool}

/-- The page table of the slot is missing, and the heap gives none. -/
def NoTable (malloc : TableSource) (s : Kernel) (slot : Nat) : Prop :=
  s.paging.directory.refTables slot = 0 ∧ ∃ s₁, malloc s = some (s₁, 0)

/-- The state in which `allocate_page` goes on: the heap may have mapped pages of its own to
provide the page table. -/
def tableBase (malloc : TableSource) (s : Kernel) (slot : Nat) : Option Kernel :=
  if s.paging.directory.refTables slot = 0 then (malloc s).map Prod.fst else some s

/-- The heap gives a new page table for the slot, or `NULL`, and leaves the other page tables and
the failure handler alone. -/
def TableOutcome (malloc : TableSource) (s : Kernel) (slot : Nat) : Prop :=
  s.paging.directory.refTables slot = 0 → ∀ s₁ table, malloc s = some (s₁, table) →
    s₁.paging.directory.refTables = s.paging.directory.refTables ∧ PmmReady s₁.paging.pmm ∧
      s₁.paging.pmm.hasFailure = true ∧ (table ≠ 0 → ∀ i, s.paging.directory.refTables i ≠ table)

/-- A call that has not mapped its page leaves everything as it was. -/
structure FailureClean (s s' : Kernel) (slot : Nat) : Prop where
  translation : virtual2Physical s'.paging = virtual2Physical s.paging
  /-- A directory entry that is present has a page table. -/
  entry : (s'.paging.directory.tables slot).present = true →
    s'.paging.directory.refTables slot ≠ 0
  /-- The directory entries of other slots are not touched. -/
  others : ∀ i, i ≠ slot → s'.paging.directory.tables i = s.paging.directory.tables i ∧
    s'.paging.directory.refTables i = s.paging.directory.refTables i
  frames : s'.paging.pmm.bitmap = s.paging.pmm.bitmap

theorem TableReady.others {w w' : PagingWorld} {slot table i : Nat}
    (h : TableReady w w' slot table isKernel isWriteable) (hi : i ≠ slot) :
    w'.directory.tables i = w.directory.tables i ∧
      w'.directory.refTables i = w.directory.refTables i := by
  cases h with
  | old _ _ same => rw [same]; exact ⟨rfl, rfl⟩
  | new _ _ _ install =>
    rw [install]
    exact ⟨Function.update_of_ne hi .., Function.update_of_ne hi ..⟩

/-- When no block is to be had the bitmap stays as it is. -/
theorem allocateBlock_bitmap {pmm : PhysicalMemoryManager} (hready : PmmReady pmm)
    (h : frameFor pmm 0 = none) : (allocateBlock pmm).1.bitmap = pmm.bitmap := by
  obtain ⟨b, hb, -, -, halloc⟩ | ⟨-, halloc⟩ := allocateBlock_cases hready
  · have hvalid := @isValidBlock_of_lt _ (takeBlock_ready hready b) b hb
    unfold frameFor at h
    rw [if_neg (by simp), halloc, if_pos hvalid] at h
    cases h
  · rw [halloc]

/-- With a page table a failure leaves everything as it was. -/
theorem failureClean_of_fresh (hapart : TablesApart s.paging) (hready : PmmReady s.paging.pmm)
    (hfresh : FreshTable malloc s (pageNumber address / 1024))
    (h : allocatePage malloc s address frame isKernel isWriteable = some s')
    (hfailed : pageAt s'.paging (pageNumber address) = none) :
    FailureClean s s' (pageNumber address / 1024) := by
  obtain ⟨-, hflags, hpages⟩ := allocatePage_pages hapart hfresh h
  obtain ⟨w, table, htable, hresult⟩ := allocatePage_steps hfresh h
  obtain ⟨hdirectory, -⟩ := hresult.same
  obtain ⟨href, hne⟩ := htable.ref
  have hentry : mappedEntry s.paging (pageNumber address) frame isKernel isWriteable = none := by
    rw [← hfailed, hpages, Function.update_self]
  have habsent : pageAt s.paging (pageNumber address) = none := (Option.or_eq_none_iff.mp hentry).1
  refine ⟨virtual2Physical_congr hflags ?_, fun _ => ?_, fun i hi => ?_, ?_⟩
  · rw [hpages, hentry, ← habsent, Function.update_eq_self]
  · rw [hdirectory, href]
    exact hne
  · rw [hdirectory]
    exact htable.others hi
  · obtain ⟨hpmm, -⟩ := htable.same
    cases hresult with
    | kept _ same => rw [same, hpmm]
    | mapped _ f given =>
      -- a frame was given, so the page would be present
      have hnone := (Option.or_eq_none_iff.mp hentry).2
      rw [← hpmm, given] at hnone
      cases hnone
    | failed _ frame_eq none result =>
      rw [frame_eq] at none
      rw [result, ← hpmm]
      exact allocateBlock_bitmap (by rw [hpmm]; exact hready) none

/-! ## The call of the heap -/

/-- A heap that gives the same answer, and does nothing else. -/
def sameAnswer (malloc : TableSource) (s : Kernel) : TableSource := fun base =>
  (malloc s).map fun r => (base, r.2)

theorem allocatePage_base {base : Kernel}
    (hbase : tableBase malloc s (pageNumber address / 1024) = some base)
    (href : base.paging.directory.refTables = s.paging.directory.refTables) :
    allocatePage malloc s address frame isKernel isWriteable =
      allocatePage (sameAnswer malloc s) base address frame isKernel isWriteable := by
  unfold tableBase at hbase
  split at hbase
  · next hnone =>
    obtain ⟨⟨s₁, table⟩, hmalloc, rfl⟩ := Option.map_eq_some_iff.mp hbase
    unfold allocatePage ensureTable sameAnswer
    rw [pageDirIdx_eq]
    dsimp only at href ⊢
    rw [if_pos hnone, if_pos (by rw [href]; exact hnone), hmalloc]
    rfl
  · next hsome =>
    obtain rfl := Option.some.inj hbase
    rw [← pageDirIdx_eq] at hsome
    rw [allocatePage_of_table hsome, allocatePage_of_table hsome]

/-- The answer is a new page table. -/
theorem TableOutcome.fresh {slot : Nat} {base : Kernel} (h : TableOutcome malloc s slot)
    (hnull : ¬ NoTable malloc s slot)
    (href : base.paging.directory.refTables = s.paging.directory.refTables) :
    FreshTable (sameAnswer malloc s) base slot := by
  intro hnone s₂ table hanswer
  obtain ⟨⟨s₁, table'⟩, hmalloc, heq⟩ := Option.map_eq_some_iff.mp hanswer
  obtain ⟨rfl, rfl⟩ := Prod.mk.inj heq
  rw [href] at hnone ⊢
  obtain ⟨-, -, -, hnew⟩ := h hnone s₁ table' hmalloc
  have hne : table' ≠ 0 := by
    rintro rfl
    exact hnull ⟨hnone, s₁, hmalloc⟩
  exact ⟨rfl, hne, hnew hne⟩

/-- In the state in which `allocate_page` goes on the page tables are those of before. -/
theorem TableOutcome.base {slot : Nat} {base : Kernel} (h : TableOutcome malloc s slot)
    (hready : PmmReady s.paging.pmm) (hbase : tableBase malloc s slot = some base) :
    base.paging.directory.refTables = s.paging.directory.refTables ∧ PmmReady base.paging.pmm := by
  unfold tableBase at hbase
  split at hbase
  · next hnone =>
    obtain ⟨⟨s₁, table⟩, hmalloc, rfl⟩ := Option.map_eq_some_iff.mp hbase
    obtain ⟨href, hready₁, -⟩ := h hnone s₁ table hmalloc
    exact ⟨href, hready₁⟩
  · obtain rfl := Option.some.inj hbase
    exact ⟨rfl, hready⟩

/-- Without a page table the directory entry becomes present all the same. -/
theorem allocatePage_null (hnone : s.paging.directory.refTables (pageNumber address / 1024) = 0)
    (hmalloc : malloc s = some (s₁, 0)) (hhandler : s₁.paging.pmm.hasFailure = true) :
    ∃ s', allocatePage malloc s address frame isKernel isWriteable = some s' ∧
      pageAt s'.paging (pageNumber address) = none ∧
      s'.paging.directory.refTables (pageNumber address / 1024) = 0 ∧
      (s'.paging.directory.tables (pageNumber address / 1024)).present = true := by
  obtain ⟨w, hw⟩ : ∃ w, w = installTable s₁.paging (pageNumber address / 1024) 0 isKernel
    isWriteable := ⟨_, rfl⟩
  have hpmm : w.pmm.hasFailure = true := by
    rw [hw, ← hhandler]
    rfl
  have hslot : w.directory.refTables (pageNumber address / 1024) = 0 ∧
      (w.directory.tables (pageNumber address / 1024)).present = true := by
    rw [hw]
    unfold installTable
    dsimp only
    rw [Function.update_self, Function.update_self]
    exact ⟨rfl, rfl⟩
  obtain ⟨w', hpage⟩ : ∃ w', ensurePage w 0 address frame isKernel isWriteable = some w' :=
    ensurePage_isSome_iff.mpr (Or.inr (Or.inr (Or.inr ((allocateBlock_hasFailure _).trans hpmm))))
  obtain ⟨hdirectory, -⟩ := (ensurePage_result hpage).same
  have href' : w'.directory.refTables (pageNumber address / 1024) = 0 := by
    rw [hdirectory]
    exact hslot.1
  refine ⟨{ s₁ with paging := w' }, ?_, pageAt_of_noTable href', href', ?_⟩
  · unfold allocatePage ensureTable
    rw [pageDirIdx_eq]
    dsimp only
    rw [if_pos hnone, hmalloc, Option.map_some, Option.bind_some]
    dsimp only
    rw [← hw, hpage]
    rfl
  · show (w'.directory.tables _).present = true
    rw [hdirectory]
    exact hslot.2

/--
**After a failure nothing has changed, exactly when the page table is not `NULL`.** What the heap
does on its own to provide the page table is left out.
-/
theorem failure_clean_iff (hapart : TablesApart s.paging) (hready : PmmReady s.paging.pmm)
    (houtcome : TableOutcome malloc s (pageNumber address / 1024)) :
    (∀ base s', tableBase malloc s (pageNumber address / 1024) = some base →
      allocatePage malloc s address frame isKernel isWriteable = some s' →
        pageAt s'.paging (pageNumber address) = none →
          FailureClean base s' (pageNumber address / 1024)) ↔
      ¬ NoTable malloc s (pageNumber address / 1024) := by
  constructor
  · rintro hclean ⟨hnone, s₁, hmalloc⟩
    obtain ⟨-, -, hhandler, -⟩ := houtcome hnone s₁ 0 hmalloc
    obtain ⟨s', hs', hfailed, hnull, hpresent⟩ :=
      @allocatePage_null malloc s s₁ address frame isKernel isWriteable hnone hmalloc hhandler
    have hbase : tableBase malloc s (pageNumber address / 1024) = some s₁ := by
      rw [tableBase, if_pos hnone, hmalloc]
      rfl
    exact (hclean s₁ s' hbase hs' hfailed).entry hpresent hnull
  · intro hnull base s' hbase hs' hfailed
    obtain ⟨href, hready'⟩ := houtcome.base hready hbase
    have hapart' : TablesApart base.paging := by
      unfold TablesApart at *
      rw [href]
      exact hapart
    rw [allocatePage_base hbase href] at hs'
    exact failureClean_of_fresh hapart' hready' (houtcome.fresh hnull href) hs' hfailed

/-- A bootstrapped heap gives a page table. -/
theorem failure_clean_iff_freshKernel :
    ¬ NoTable (heapTables 1) (freshKernel 0xC0200000 0x20000) 768 ∧
    ∀ base s', tableBase (heapTables 1) (freshKernel 0xC0200000 0x20000) 768 = some base →
      allocatePage (heapTables 1) (freshKernel 0xC0200000 0x20000) 0xC0000000 0 true true = some s' →
        pageAt s'.paging 0xC0000 = none → FailureClean base s' 768 := by
  have hfresh : FreshWorld (freshKernel 0xC0200000 0x20000).paging := freshKernel_fresh (by decide)
  have htable : heapTables 1 (freshKernel 0xC0200000 0x20000) =
      some ({ freshKernel 0xC0200000 0x20000 with heap := bootHeap 0xC0201000 }, 0xC0200000) := rfl
  have hgiven : ¬ NoTable (heapTables 1) (freshKernel 0xC0200000 0x20000) 768 := by
    rintro ⟨-, s₁, hmalloc⟩
    obtain ⟨-, hnull⟩ := Prod.mk.inj (Option.some.inj (htable.symm.trans hmalloc))
    cases hnull
  refine ⟨hgiven, (@failure_clean_iff (heapTables 1) (freshKernel 0xC0200000 0x20000) 0xC0000000 0
    true true (fun _ _ hne => absurd rfl hne) hfresh.ready ?_).mpr hgiven⟩
  intro _ s₁ table hmalloc
  obtain ⟨rfl, rfl⟩ := Prod.mk.inj (Option.some.inj (htable.symm.trans hmalloc))
  exact ⟨rfl, hfresh.ready, rfl, fun hne i => Ne.symm hne⟩

/-- A kernel whose heap is at its limit, in one block that is in use. -/
def fullKernel : Kernel :=
  { freshKernel 0xC0200000 0x20000 with
    heap :=
      { bootHeap 0xC0200000 with
        status := .initialized, startAddress := 0xC0481000, endAddress := 0xC0500000
        maxEndAddress := 0xC0500000, heapArray := orderedArrayInit heapIndexSize }
    mem := writeFooter (writeHeader (fun _ => 0) 0xC0481000 0x7F000 0) 0xC04FFFF8 0xC0481000 }

/--
The heap has no memory for the page table of a page at 4 MiB: the directory entry of `NULL` becomes
present, and a frame is taken.
-/
theorem exists_null_table : ∃ s s',
    tableBase (heapTables 1) fullKernel 1 = some s ∧ s.paging = fullKernel.paging ∧
    allocatePage (heapTables 1) fullKernel 0x400000 0 true true = some s' ∧
    pageAt s'.paging 0x400 = none ∧ s'.paging.pmm.blockUsed = 1 ∧ ¬ FailureClean s s' 1 := by
  obtain ⟨s', hs', hnull, hpresent, hused⟩ : ∃ s',
      allocatePage (heapTables 1) fullKernel 0x400000 0 true true = some s' ∧
      s'.paging.directory.refTables 1 = 0 ∧
      (s'.paging.directory.tables 1).present = true ∧ s'.paging.pmm.blockUsed = 1 :=
    ⟨_, rfl, rfl, rfl, rfl⟩
  exact ⟨fullKernel, s', rfl, rfl, hs', pageAt_of_noTable hnull, hused,
    fun h => h.entry hpresent hnull⟩

end Xylophone
