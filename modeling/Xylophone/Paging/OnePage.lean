import Xylophone.Paging.Mapping

/-!
# One page

What `allocate_page` does to the mapping in any state of the physical memory manager.

* `ensurePage_isSome_iff` — when it comes back
* `allocatePage_pages` — the entry of the page afterwards, when the heap gives a new page table
-/

namespace Xylophone

open Infra

variable {malloc : TableSource} {s s' : Kernel} {w w' : PagingWorld}
  {address frame table : Nat} {isKernel isWriteable : Bool}

/-! ## When the page can be made present -/

/-- The page can be made present: it is, or its frame is given, or there is a block for it, or a
failure handler. -/
def CanMap (w : PagingWorld) (table address frame : Nat) : Prop :=
  (w.tables table (pageTblIdx address)).present = true ∨ frame ≠ 0 ∨
    isValidBlock (allocateBlock w.pmm).1 (allocateBlock w.pmm).2 = true ∨
    (allocateBlock w.pmm).1.hasFailure = true

theorem ensurePage_isSome_iff :
    (∃ w', ensurePage w table address frame isKernel isWriteable = some w') ↔
      CanMap w table address frame := by
  unfold ensurePage CanMap
  dsimp only
  split
  · next hpresent => exact iff_of_true ⟨_, rfl⟩ (Or.inl hpresent)
  next habsent =>
  split
  · next hframe => exact iff_of_true ⟨_, rfl⟩ (Or.inr (Or.inl hframe))
  next hzero =>
  split
  · next hvalid => exact iff_of_true ⟨_, rfl⟩ (Or.inr (Or.inr (Or.inl hvalid)))
  next hnone =>
  split
  · next hhandler => exact iff_of_true ⟨_, rfl⟩ (Or.inr (Or.inr (Or.inr hhandler)))
  · next hhalt =>
    refine iff_of_false nofun ?_
    rintro (h | h | h | h)
    · exact habsent h
    · exact hzero h
    · exact hnone h
    · exact hhalt h

/-- Making a page present changes neither the directory nor the flags. -/
theorem ensurePage_same (h : ensurePage w table address frame isKernel isWriteable = some w') :
    w'.directory = w.directory ∧ canAllocate w' = canAllocate w := by
  unfold ensurePage at h
  dsimp only at h
  split at h
  · obtain rfl := Option.some.inj h
    exact ⟨rfl, rfl⟩
  split at h
  · obtain rfl := Option.some.inj h
    exact ⟨rfl, rfl⟩
  split at h
  · obtain rfl := Option.some.inj h
    exact ⟨rfl, rfl⟩
  split at h
  · obtain rfl := Option.some.inj h
    exact ⟨rfl, rfl⟩
  · cases h

/-! ## The entry of the page -/

/-- The frame that an absent page is given: the one of the caller, or a block. -/
def frameFor (pmm : PhysicalMemoryManager) (frame : Nat) : Option Nat :=
  if frame ≠ 0 then some frame
  else if isValidBlock (allocateBlock pmm).1 (allocateBlock pmm).2 then some (allocateBlock pmm).2
  else none

/-- The entry of the page after `allocate_page`. -/
def mappedEntry (w : PagingWorld) (page frame : Nat) (isKernel isWriteable : Bool) :
    Option PageEntry :=
  (pageAt w page).or ((frameFor w.pmm frame).map fun f => newEntry f isKernel isWriteable)

/-- The flags of the paging manager, which nothing here writes. -/
structure SameFlags (w w' : PagingWorld) : Prop where
  isInitialized : w'.isInitialized = w.isInitialized
  hasHeapManager : w'.hasHeapManager = w.hasHeapManager
  isEnabled : w'.isEnabled = w.isEnabled

theorem SameFlags.refl (w : PagingWorld) : SameFlags w w := ⟨rfl, rfl, rfl⟩

theorem SameFlags.trans {w'' : PagingWorld} (h : SameFlags w w') (h' : SameFlags w' w'') :
    SameFlags w w'' :=
  ⟨h'.isInitialized.trans h.isInitialized, h'.hasHeapManager.trans h.hasHeapManager,
    h'.isEnabled.trans h.isEnabled⟩

theorem SameFlags.canAllocate (h : SameFlags w w') : canAllocate w' = canAllocate w := by
  unfold Xylophone.canAllocate
  rw [h.isInitialized, h.hasHeapManager]

/-- All that the second half of `allocate_page` can do. -/
inductive EnsureResult (w w' : PagingWorld) (table address frame : Nat)
    (isKernel isWriteable : Bool) : Prop where
  | kept (present : (w.tables table (pageTblIdx address)).present = true) (same : w' = w)
  | mapped (absent : (w.tables table (pageTblIdx address)).present ≠ true) (f : Nat)
    (given : frameFor w.pmm frame = some f) (pmm : PhysicalMemoryManager)
    (result : w' = setPage { w with pmm := pmm } table (pageTblIdx address) f isKernel isWriteable)
  | failed (absent : (w.tables table (pageTblIdx address)).present ≠ true)
    (frame_eq : frame = 0) (none : frameFor w.pmm frame = none)
    (result : w' = { w with pmm := { (allocateBlock w.pmm).1 with failed := true } })

theorem ensurePage_result
    (h : ensurePage w table address frame isKernel isWriteable = some w') :
    EnsureResult w w' table address frame isKernel isWriteable := by
  unfold ensurePage at h
  dsimp only at h
  split at h
  · next hpresent => exact .kept hpresent (Option.some.inj h).symm
  next habsent =>
  split at h
  · next hframe =>
    exact .mapped habsent frame (if_pos hframe) w.pmm (Option.some.inj h).symm
  next hzero =>
  split at h
  · next hvalid =>
    exact .mapped habsent _ ((if_neg hzero).trans (if_pos hvalid)) _ (Option.some.inj h).symm
  next hnone =>
  split at h
  · exact .failed habsent (not_not.mp hzero) ((if_neg hzero).trans (if_neg hnone))
      (Option.some.inj h).symm
  · cases h

theorem EnsureResult.same (h : EnsureResult w w' table address frame isKernel isWriteable) :
    w'.directory = w.directory ∧ SameFlags w w' := by
  cases h with
  | kept _ same => exact ⟨by rw [same], by rw [same]; exact SameFlags.refl w⟩
  | mapped _ _ _ _ result =>
    rw [result]
    exact ⟨rfl, rfl, rfl, rfl⟩
  | failed _ _ _ result =>
    rw [result]
    exact ⟨rfl, rfl, rfl, rfl⟩

/-- The entries, when the slot has a page table. -/
theorem EnsureResult.pages (h : EnsureResult w w' table address frame isKernel isWriteable)
    (hapart : TablesApart w) (href : w.directory.refTables (pageNumber address / 1024) = table)
    (hne : table ≠ 0) :
    pageAt w' = Function.update (pageAt w) (pageNumber address)
      (mappedEntry w (pageNumber address) frame isKernel isWriteable) := by
  have hat := pageAt_of_table href hne
  cases h with
  | kept present same =>
    rw [pageTblIdx_eq] at present
    rw [if_pos present] at hat
    rw [same, mappedEntry, hat, Option.some_or, ← hat, Function.update_eq_self]
  | mapped absent f given pmm result =>
    rw [pageTblIdx_eq] at absent result
    rw [if_neg absent] at hat
    rw [result, mappedEntry, hat, given]
    exact @setPage_pages { w with pmm := pmm } (pageNumber address) table f isKernel isWriteable
      hapart href hne
  | failed absent frame_eq none result =>
    rw [pageTblIdx_eq] at absent
    rw [if_neg absent] at hat
    rw [result, mappedEntry, hat, none]
    show pageAt w = _
    rw [Option.map_none, Option.or_none, ← hat, Function.update_eq_self]

/-- The page table at `NULL` holds no page of the mapping. -/
theorem pageAt_congr_null (href : w'.directory.refTables = w.directory.refTables)
    (htables : ∀ t, t ≠ 0 → w'.tables t = w.tables t) : pageAt w' = pageAt w := by
  funext q
  by_cases hq : w.directory.refTables (q / 1024) = 0
  · rw [pageAt_of_noTable hq, pageAt_of_noTable (by rw [href]; exact hq)]
  · rw [pageAt_of_table rfl hq, pageAt_of_table (by rw [href]) hq, htables _ hq]

theorem EnsureResult.pages_null (h : EnsureResult w w' 0 address frame isKernel isWriteable) :
    pageAt w' = pageAt w := by
  cases h with
  | kept _ same => rw [same]
  | mapped _ f _ pmm result =>
    rw [result]
    exact pageAt_congr_null rfl fun t ht => Function.update_of_ne ht ..
  | failed _ _ _ result =>
    rw [result]
    rfl

/-- The two halves of `allocate_page`, when the heap gives a new page table. -/
theorem allocatePage_steps (hfresh : FreshTable malloc s (pageNumber address / 1024))
    (h : allocatePage malloc s address frame isKernel isWriteable = some s') :
    ∃ w table, TableReady s.paging w (pageNumber address / 1024) table isKernel isWriteable ∧
      EnsureResult w s'.paging table address frame isKernel isWriteable := by
  obtain ⟨s₁, table, w', hensure, hpage, rfl⟩ := allocatePage_halves h
  exact ⟨s₁.paging, table, (ensureTable_cases hfresh hensure).1, ensurePage_result hpage⟩

/-- **The entry of the page after `allocate_page`**, when the heap gives a new page table. -/
theorem allocatePage_pages (hapart : TablesApart s.paging)
    (hfresh : FreshTable malloc s (pageNumber address / 1024))
    (h : allocatePage malloc s address frame isKernel isWriteable = some s') :
    TablesApart s'.paging ∧ SameFlags s.paging s'.paging ∧
      pageAt s'.paging = Function.update (pageAt s.paging) (pageNumber address)
        (mappedEntry s.paging (pageNumber address) frame isKernel isWriteable) := by
  obtain ⟨w, table, hready, hresult⟩ := allocatePage_steps hfresh h
  have hapart' := hready.apart hapart
  obtain ⟨hpmm, hinit, hmanager, henabled⟩ := hready.same
  obtain ⟨href, hne⟩ := hready.ref
  obtain ⟨hdirectory, hflags⟩ := hresult.same
  have hentry : mappedEntry w (pageNumber address) frame isKernel isWriteable =
      mappedEntry s.paging (pageNumber address) frame isKernel isWriteable := by
    unfold mappedEntry
    rw [hready.pages, hpmm]
  refine ⟨PageMapped.apart hdirectory hapart',
    SameFlags.trans ⟨hinit, hmanager, henabled⟩ hflags, ?_⟩
  rw [hresult.pages hapart' href hne, hentry, hready.pages]

/-- The translation of an address depends on its page and on whether paging is enabled. -/
theorem virtual2Physical_page (hflags : SameFlags w w') {a : Nat}
    (hpage : pageAt w' (pageNumber a) = pageAt w (pageNumber a)) :
    virtual2Physical w' a = virtual2Physical w a := by
  by_cases henabled : w.isEnabled = true
  · rw [virtual2Physical_enabled henabled,
      virtual2Physical_enabled (hflags.isEnabled.trans henabled), hpage]
  · have hdown : (!w.isEnabled) = true := by simpa using henabled
    have hdown' : (!w'.isEnabled) = true := by rw [hflags.isEnabled, hdown]
    unfold virtual2Physical
    rw [if_pos hdown, if_pos hdown']

theorem virtual2Physical_congr (hflags : SameFlags w w') (hpages : pageAt w' = pageAt w) :
    virtual2Physical w' = virtual2Physical w :=
  funext fun _ => virtual2Physical_page hflags (by rw [hpages])

end Xylophone
