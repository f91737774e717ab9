import Xylophone.Paging.HeapPages
import Xylophone.Paging.Nesting

/-!
# What the calls of the heap do to the pages

When the heap is expanded the pages between its two ends are mapped. A page table that is missing for
one of them is taken from the same heap, which may be expanded for it in turn, in the middle of the
expansion.

* `heapTables_taken` — an allocation of a page table
* `allocatePage_taken` — a page for which a page table may be allocated
* `PageRun.establish` — what the pages of a request come to, one after the other
* `freeAddresses_entry` — the pages that are given back
-/

namespace Xylophone

open Infra

variable {malloc : TableSource} {s s' s₁ : Kernel} {w w' w'' : PagingWorld} {n : Nat}
  {address frame table size : Nat} {isKernel isWriteable shouldAlign : Bool}
  {P Q : Nat → Prop}

/-! ## Pages that are added -/

/-- Pages have become present, only such as are `added`, and none has become absent. -/
structure PagesAdded (added : Nat → Prop) (w w' : PagingWorld) : Prop where
  apart : TablesApart w'
  flags : SameFlags w w'
  kept : ∀ page, pageAt w page ≠ none → pageAt w' page ≠ none
  new : ∀ page, pageAt w page = none → pageAt w' page ≠ none → added page

namespace PagesAdded

theorem refl (P : Nat → Prop) (hapart : TablesApart w) : PagesAdded P w w :=
  ⟨hapart, SameFlags.refl w, fun _ h => h, fun _ hnone hsome => absurd hnone hsome⟩

theorem trans (h : PagesAdded P w w') (h' : PagesAdded P w' w'') : PagesAdded P w w'' := by
  refine ⟨h'.apart, h.flags.trans h'.flags, fun page hpage => h'.kept page (h.kept page hpage),
    fun page hnone hsome => ?_⟩
  by_cases hmid : pageAt w' page = none
  · exact h'.new page hmid hsome
  · exact h.new page hnone hmid

theorem mono (h : PagesAdded P w w') (himp : ∀ page, P page → Q page) : PagesAdded Q w w' :=
  ⟨h.apart, h.flags, h.kept, fun page hnone hsome => himp page (h.new page hnone hsome)⟩

/-- Only the entries count. -/
theorem of_same (hapart : TablesApart w') (hflags : SameFlags w w')
    (hpages : pageAt w' = pageAt w) :
    PagesAdded P w w' :=
  ⟨hapart, hflags, fun page h => by rwa [hpages],
    fun page hnone hsome => absurd hnone (by rwa [hpages] at hsome)⟩

end PagesAdded

/-- Making a page present, in the page table of its slot. -/
theorem EnsureResult.added (h : EnsureResult w w' table address frame isKernel isWriteable)
    (hapart : TablesApart w)
    (href : table = 0 ∨ w.directory.refTables (pageNumber address / 1024) = table) :
    PagesAdded (· = pageNumber address) w w' := by
  obtain ⟨hdirectory, hflags⟩ := h.same
  have hapart' := PageMapped.apart hdirectory hapart
  by_cases hnull : table = 0
  · subst hnull
    exact .of_same hapart' hflags h.pages_null
  have href := href.resolve_left hnull
  have hpages := h.pages hapart href hnull
  refine ⟨hapart', hflags, fun page hpage => ?_, fun page hnone hsome => ?_⟩
  · rw [hpages]
    by_cases heq : page = pageNumber address
    · subst heq
      rw [Function.update_self, mappedEntry]
      simp [hpage]
    · rwa [Function.update_of_ne heq]
  · by_contra hne
    rw [hpages, Function.update_of_ne hne] at hsome
    exact hsome hnone

/-- The page is present when there is a frame for it. -/
theorem EnsureResult.present (h : EnsureResult w w' table address frame isKernel isWriteable)
    (hapart : TablesApart w) (href : w.directory.refTables (pageNumber address / 1024) = table)
    (hne : table ≠ 0)
    (hframe : pageAt w (pageNumber address) = none → frameFor w.pmm frame ≠ none) :
    pageAt w' (pageNumber address) ≠ none := by
  rw [h.pages hapart href hne, Function.update_self, mappedEntry]
  cases hbefore : pageAt w (pageNumber address) with
  | some entry => simp
  | none => simp [hframe hbefore]

/-! ## Pages of slots with page tables -/

/-- A page of a slot with a page table. -/
theorem allocatePage_added (hapart : TablesApart s.paging)
    (htable : s.paging.directory.refTables (pageDirIdx address) ≠ 0)
    (h : allocatePage malloc s address frame isKernel isWriteable = some s') :
    PagesAdded (· = pageNumber address) s.paging s'.paging := by
  rw [allocatePage_of_table htable] at h
  obtain ⟨w', hpage, rfl⟩ := Option.map_eq_some_iff.mp h
  exact (ensurePage_result hpage).added hapart (Or.inr (by rw [pageDirIdx_eq]))

/-- Without a source of page tables every page that is mapped is in a slot with a page table. -/
theorem table_of_allocatePage
    (h : allocatePage (heapTables 0) s address frame isKernel isWriteable = some s') :
    s.paging.directory.refTables (pageDirIdx address) ≠ 0 := by
  intro hnone
  rw [allocatePage_noTable hnone (heapTables_zero s)] at h
  cases h

/-- The pages that are mapped for the heap. -/
theorem pageRun_request {heap : HeapManager} {l : List Nat}
    (h : l.foldlM (mapHeapPage malloc heap) s = some s') :
    PageRun malloc (l.map fun a => .map a (if heap.useIdentityMapping then a / 0x1000 else 0)
      heap.isSupervisor (!heap.isReadonly)) s s' :=
  pageRun_map (fun a => if heap.useIdentityMapping then a / 0x1000 else 0) heap.isSupervisor
    (!heap.isReadonly) h

/-- Pages that are mapped without a source of page tables. -/
theorem foldlM_added {heap : HeapManager} {l : List Nat} (hapart : TablesApart s.paging)
    (h : l.foldlM (mapHeapPage (heapTables 0) heap) s = some s') :
    SameHeap s s' ∧ PagesAdded (· ∈ l.map pageNumber) s.paging s'.paging := by
  induction l generalizing s with
  | nil =>
    obtain rfl := Option.some.inj h
    exact ⟨SameHeap.refl s, .refl _ hapart⟩
  | cons a l ih =>
    obtain ⟨s₁, hfirst, hrest⟩ := foldlM_cons_some.mp h
    have htable := table_of_allocatePage hfirst
    have hadded := allocatePage_added hapart htable hfirst
    obtain ⟨hsame, hrest⟩ := ih hadded.apart hrest
    refine ⟨(SameHeap.mapped htable hfirst).trans hsame, (hadded.mono ?_).trans (hrest.mono ?_)⟩
    · rintro page rfl
      exact List.mem_cons_self
    · exact fun page hpage => List.mem_cons_of_mem _ hpage

/-! ## An allocation of a page table -/

/-- The pages that an allocation of `size` bytes asks for. -/
def GrowthPage (s : Kernel) (size : Nat) (shouldAlign : Bool) (page : Nat) : Prop :=
  Expands s size shouldAlign ∧ canAllocate s.paging = true ∧
    page ∈ (rangeAddresses s.heap.endAddress (grownEnd s size)).map pageNumber

/-- The bounds of the heap after an allocation of `size` bytes. -/
structure BoundsGrown (s s' : Kernel) (size : Nat) (shouldAlign : Bool) : Prop where
  status : s'.heap.status = s.heap.status
  startAddress : s'.heap.startAddress = s.heap.startAddress
  maxEndAddress : s'.heap.maxEndAddress = s.heap.maxEndAddress
  endAddress : s'.heap.endAddress = s.heap.endAddress ∨
    Expands s size shouldAlign ∧ s'.heap.endAddress = grownEnd s size

/-- A request that comes back. -/
theorem requestPages_some {startAddress endAddress : Nat} (hend : endAddress < 0x100000000)
    (h : requestPages (pagingOps malloc) s startAddress endAddress = some s') :
    canAllocate s.paging ≠ true ∧ s' = s ∨ canAllocate s.paging = true ∧
      (rangeAddresses startAddress endAddress).foldlM (mapHeapPage malloc s.heap) s = some s' := by
  rw [requestPages_eq hend] at h
  split at h
  · next hup =>
    split at h
    · exact Or.inr ⟨hup, h⟩
    · cases h
  · next hdown => exact Or.inl ⟨hdown, (Option.some.inj h).symm⟩

/-- The bounds once the end has been moved. -/
theorem SameBounds.moved {e : Nat} (h : SameBounds (s.moveEnd e) s') :
    s'.heap.status = s.heap.status ∧ s'.heap.startAddress = s.heap.startAddress ∧
      s'.heap.maxEndAddress = s.heap.maxEndAddress ∧ s'.heap.endAddress = e ∧
      s'.paging = s.paging :=
  ⟨h.status, h.startAddress, h.maxEndAddress, h.endAddress, h.paging⟩

/-- **An allocation of a page table** maps pages of slots with page tables only. -/
theorem heapTables_taken (hapart : TablesApart s.paging) (h : heapTables n s = some (s₁, table)) :
    BoundsGrown s s₁ 0x1000 true ∧
      s₁.paging.directory.refTables = s.paging.directory.refTables ∧
      PagesAdded (GrowthPage s 0x1000 true) s.paging s₁.paging := by
  have h : heapManagerMalloc (pagingOps (heapTables 0)) s 0x1000 true = some (s₁, table) :=
    heapTables_depth h
  rcases heapManagerMalloc_cases h with same | ⟨hexpands, s₂, hrequest, same⟩
  · have hpaging := same.paging
    exact ⟨⟨same.status, same.startAddress, same.maxEndAddress, Or.inl same.endAddress⟩,
      by rw [hpaging], by rw [hpaging]; exact .refl _ hapart⟩
  · obtain ⟨hstatus, hstart, hmax, hend, hpaging⟩ := same.moved
    obtain ⟨hheap, htables, hadded⟩ : s₂.heap = s.heap ∧
        s₂.paging.directory.refTables = s.paging.directory.refTables ∧
        PagesAdded (GrowthPage s 0x1000 true) s.paging s₂.paging := by
      rcases requestPages_some (grownEnd_lt ..) hrequest with ⟨-, rfl⟩ | ⟨hup, hpages⟩
      · exact ⟨rfl, rfl, .refl _ hapart⟩
      · obtain ⟨hsame, hadded⟩ := foldlM_added hapart hpages
        exact ⟨hsame.heap, hsame.refTables, hadded.mono fun page hpage => ⟨hexpands, hup, hpage⟩⟩
    rw [hheap] at hstatus hstart hmax hend
    rw [hpaging]
    exact ⟨⟨hstatus, hstart, hmax, Or.inr ⟨hexpands, hend⟩⟩, htables, hadded⟩

/-! ## A page for which a page table may be allocated -/

/-- A page table that is handed out is not in use. (`NULL` is no page table.) -/
def NewTable (n : Nat) (s : Kernel) : Prop :=
  ∀ s₁ table, heapTables n s = some (s₁, table) →
    table = 0 ∨ ∀ i, s.paging.directory.refTables i ≠ table

/-- A page table that is taken for a page is a new one, and a frame that is given back is a block of
the manager. -/
def NewTableFor (n : Nat) (s : Kernel) : PageOp → Prop
  | .map address _ _ _ => s.paging.directory.refTables (pageDirIdx address) = 0 → NewTable n s
  | .unmap address shouldFree => FreesInside s.paging address shouldFree

/-- The page gets a page table, if it has none, and a frame. -/
structure PageGiven (n : Nat) (s : Kernel) (address frame : Nat) : Prop where
  table : s.paging.directory.refTables (pageDirIdx address) = 0 → ∀ s₁ table,
    heapTables n s = some (s₁, table) → table ≠ 0 ∧ frameFor s₁.paging.pmm frame ≠ none
  frame : s.paging.directory.refTables (pageDirIdx address) ≠ 0 →
    pageAt s.paging (pageNumber address) = none → frameFor s.paging.pmm frame ≠ none

/-- What mapping a page does when the heap gives the page tables. -/
structure PageTaken (n : Nat) (s s' : Kernel) (address frame : Nat) : Prop where
  status : s'.heap.status = s.heap.status
  startAddress : s'.heap.startAddress = s.heap.startAddress
  maxEndAddress : s'.heap.maxEndAddress = s.heap.maxEndAddress
  endAddress : s'.heap.endAddress = s.heap.endAddress ∨
    s.paging.directory.refTables (pageDirIdx address) = 0 ∧ Expands s 0x1000 true ∧
      s'.heap.endAddress = grownEnd s 0x1000
  added : PagesAdded (fun page => page = pageNumber address ∨
    s.paging.directory.refTables (pageDirIdx address) = 0 ∧ GrowthPage s 0x1000 true page)
    s.paging s'.paging
  present : PageGiven n s address frame → pageAt s'.paging (pageNumber address) ≠ none

/-- Entering a new page table changes no page. -/
theorem installTable_added {slot : Nat} (hapart : TablesApart w)
    (hslot : w.directory.refTables slot = 0)
    (hnew : table = 0 ∨ ∀ i, w.directory.refTables i ≠ table) :
    PagesAdded P w (installTable w slot table isKernel isWriteable) := by
  by_cases hnull : table = 0
  · subst hnull
    have href : (installTable w slot 0 isKernel isWriteable).directory.refTables =
        w.directory.refTables := by
      show Function.update w.directory.refTables slot 0 = _
      rw [← hslot, Function.update_eq_self]
    refine .of_same ?_ ⟨rfl, rfl, rfl⟩
      (pageAt_congr_null href fun t ht => Function.update_of_ne ht ..)
    unfold TablesApart
    rw [href]
    exact hapart
  · have hready : TableReady w (installTable w slot table isKernel isWriteable) slot table isKernel
        isWriteable := .new hslot hnull (hnew.resolve_left hnull) rfl
    obtain ⟨-, hinit, hmanager, henabled⟩ := hready.same
    exact .of_same (hready.apart hapart) ⟨hinit, hmanager, henabled⟩ hready.pages

/-- **A page for which a page table may be allocated.** -/
theorem allocatePage_taken (hapart : TablesApart s.paging)
    (hnew : s.paging.directory.refTables (pageDirIdx address) = 0 → NewTable n s)
    (h : allocatePage (heapTables n) s address frame isKernel isWriteable = some s') :
    PageTaken n s s' address frame := by
  by_cases htable : s.paging.directory.refTables (pageDirIdx address) = 0
  swap
  · have hheap := (SameHeap.mapped htable h).heap
    refine ⟨by rw [hheap], by rw [hheap], by rw [hheap], Or.inl (by rw [hheap]),
      (allocatePage_added hapart htable h).mono fun page => Or.inl, fun hserved => ?_⟩
    rw [allocatePage_of_table htable] at h
    obtain ⟨w', hpage, rfl⟩ := Option.map_eq_some_iff.mp h
    exact (ensurePage_result hpage).present hapart (by rw [pageDirIdx_eq]) htable
      (hserved.frame htable)
  unfold allocatePage ensureTable at h
  dsimp only at h
  rw [if_pos htable] at h
  obtain ⟨r, hensure, hmap⟩ := Option.bind_eq_some_iff.mp h
  obtain ⟨⟨s₁, table⟩, hmalloc, rfl⟩ := Option.map_eq_some_iff.mp hensure
  obtain ⟨w', hpage, rfl⟩ := Option.map_eq_some_iff.mp hmap
  obtain ⟨hbounds, href, hadded⟩ := heapTables_taken hapart hmalloc
  have hfresh := hnew htable s₁ table hmalloc
  rw [← href] at hfresh
  have hinstalled := @installTable_added s₁.paging table isKernel isWriteable
    (GrowthPage s 0x1000 true) (pageDirIdx address) hadded.apart (by rw [href]; exact htable) hfresh
  have hmapped := (ensurePage_result hpage).added hinstalled.apart
    (Or.inr (by rw [← pageDirIdx_eq]; exact Function.update_self (pageDirIdx address) _ _))
  refine ⟨hbounds.status, hbounds.startAddress, hbounds.maxEndAddress, ?_, ?_, fun hserved => ?_⟩
  · rcases hbounds.endAddress with heq | ⟨hexpands, heq⟩
    · exact Or.inl heq
    · exact Or.inr ⟨htable, hexpands, heq⟩
  · exact ((hadded.trans hinstalled).mono fun page hpage => Or.inr ⟨htable, hpage⟩).trans
      (hmapped.mono fun page => Or.inl)
  · obtain ⟨hne, hframe⟩ := hserved.table htable s₁ table hmalloc
    exact (ensurePage_result hpage).present hinstalled.apart
      (by rw [← pageDirIdx_eq]; exact Function.update_self (pageDirIdx address) _ _) hne
      fun _ => hframe

/-! ## A request for pages -/

variable {ok : Kernel → PageOp → Prop} {ops : List PageOp}

/-- A request that comes back is the run of its pages, unless the paging manager is down. -/
theorem requestPages_run {startAddress endAddress : Nat} (hend : endAddress < 0x100000000)
    (h : requestPages (pagingOps malloc) s startAddress endAddress = some s') :
    canAllocate s.paging ≠ true ∧ s' = s ∨ canAllocate s.paging = true ∧
      PageRun malloc (requestedPages s startAddress endAddress) s s' :=
  (requestPages_some hend h).imp id fun ⟨hup, hpages⟩ => ⟨hup, pageRun_request hpages⟩

theorem mem_requestedPages {startAddress endAddress : Nat} {op : PageOp}
    (h : op ∈ requestedPages s startAddress endAddress) :
    ∃ a ∈ rangeAddresses startAddress endAddress, ∃ frame isKernel isWriteable,
      op = .map a frame isKernel isWriteable := by
  obtain ⟨a, ha, rfl⟩ := List.mem_map.mp h
  exact ⟨a, ha, _, _, _, rfl⟩

/-- A condition on the states, and one on the operations. -/
theorem PagesOk.and {P : PageOp → Prop} (h : PagesOk malloc ok s ops) (hP : ∀ op ∈ ops, P op) :
    PagesOk malloc (fun s op => ok s op ∧ P op) s ops := by
  induction ops generalizing s with
  | nil => trivial
  | cons op ops ih =>
    exact ⟨⟨h.1, hP op List.mem_cons_self⟩,
      fun s₁ hstep => ih (h.2 s₁ hstep) fun o ho => hP o (List.mem_cons_of_mem _ ho)⟩

/-- **What every operation brings about holds in the end**, when later ones do not undo it. -/
theorem PageRun.establish {I : Kernel → Prop} {P : PageOp → Kernel → Prop}
    (hstep : ∀ s op s', I s → ok s op → PageStep malloc s op s' →
      I s' ∧ P op s' ∧ ∀ o, P o s → P o s')
    (hI : I s) (hok : PagesOk malloc ok s ops) (h : PageRun malloc ops s s') :
    I s' ∧ (∀ op ∈ ops, P op s') ∧ ∀ o, P o s → P o s' := by
  induction ops generalizing s with
  | nil =>
    obtain rfl : s = s' := h
    exact ⟨hI, fun op hop => absurd hop List.not_mem_nil, fun _ ho => ho⟩
  | cons op ops ih =>
    obtain ⟨s₁, hfirst, hrest⟩ := h
    obtain ⟨hI₁, hP, hkept⟩ := hstep s op s₁ hI hok.1 hfirst
    obtain ⟨hI', hPs, hkept'⟩ := ih hI₁ (hok.2 s₁ hfirst) hrest
    refine ⟨hI', fun o ho => ?_, fun o ho => hkept' o (hkept o ho)⟩
    rcases List.mem_cons.mp ho with rfl | ho
    · exact hkept' o hP
    · exact hPs o ho

/-! ## Pages that are given back -/

/-- **The pages of the addresses are absent**, when the manager is up. -/
theorem freeAddresses_entry {l : List Nat} (hapart : TablesApart w) (hblocks : FreesBlocks w l)
    (page : Nat) :
    pageAt (freeAddresses freeSingle w l) page =
      if w.isInitialized = true ∧ page ∈ l.map pageNumber then none else pageAt w page := by
  by_cases hup : w.isInitialized = true
  · rw [(freeAddresses_pages hup hapart hblocks).2]
    simp only [hup, true_and]
  · rw [freeAddresses_down hup, if_neg fun h => hup h.1]

/-! ## Calls of the heap -/

inductive HeapAction where
  | malloc (size : Nat) (shouldAlign : Bool)
  | free (address : Nat)
  | freeAll
deriving DecidableEq, Repr

/-- One call of the heap, with page tables from this heap. -/
inductive ActionStep (n : Nat) : Kernel → HeapAction → Kernel → Prop where
  | malloc {s s' : Kernel} {size address : Nat} {shouldAlign : Bool} (word : size < 0x100000000)
    (result : heapManagerMalloc (pagingOps (heapTables n)) s size shouldAlign =
      some (s', address)) : ActionStep n s (.malloc size shouldAlign) s'
  | free {s : Kernel} {address : Nat} (i₀ : Nat) :
    ActionStep n s (.free address) (heapManagerFree (pagingOps (heapTables n)) s address i₀)
  | freeAll {s s' : Kernel}
    (result : heapManagerFreeAll (pagingOps (heapTables n)) s = some s') :
    ActionStep n s .freeAll s'

/-! ## A heap in one slot -/

/-- There are page tables and blocks for all pages of the slot. -/
theorem bootSlot_supply {first last : Nat} (hfirst : 0xC0000000 ≤ first)
    (hlast : last < 0xC03FF001) : Supply (rangeAddresses first last).length
      (initFlags (freshKernel 0xC0200000 0x800000) true false false) := by
  have hblocks : (freshKernel 0xC0200000 0x800000).paging.pmm.bitmap.bitCount = 2048 := rfl
  have hcount : (rangeAddresses first last).length ≤ 2048 := by
    unfold rangeAddresses
    split
    · rw [List.length_range']
      omega
    · exact Nat.zero_le _
  have hfresh := @freshKernel_supply 0x800000 (rangeAddresses first last).length (by decide)
    (hcount.trans_eq hblocks.symm)
  generalize freshKernel 0xC0200000 0x800000 = s at hfresh
  obtain ⟨next, hroom⟩ := hfresh.room
  exact ⟨hfresh.apart, hfresh.ready, ⟨next, hroom.status, hroom.round, hroom.aligned, hroom.pos,
    hroom.room, hroom.below⟩, hfresh.blocks⟩

/-- While there is a supply, page tables are new ones. -/
theorem Supply.freshTable {fuel count : Nat} (h : Supply count s)
    (haddress : address < 0x100000000) :
    FreshTable (heapTables (fuel + 1)) s (pageDirIdx address) := by
  obtain ⟨next, hroom⟩ := h.room
  rw [pageDirIdx_eq]
  exact hroom.fresh fuel (slot_mem_range haddress)

theorem Supply.newTableFor {fuel count : Nat} (h : Supply count s)
    (haddress : address < 0x100000000) :
    NewTableFor (fuel + 1) s (.map address frame isKernel isWriteable) := by
  intro hnone s₁ table hmalloc
  obtain ⟨-, -, hnew⟩ := h.freshTable haddress hnone s₁ table hmalloc
  exact Or.inr hnew

/-- While there is a supply, there is a frame. -/
theorem Supply.given {fuel count : Nat} (h : Supply (count + 1) s)
    (haddress : address < 0x100000000) :
    PageGiven (fuel + 1) s address frame where
  table := by
    intro hnone s₁ table hmalloc
    obtain ⟨hpaging, hne, -⟩ := h.freshTable haddress hnone s₁ table hmalloc
    rw [hpaging]
    exact ⟨hne, h.frameFor⟩
  frame := fun _ _ => h.frameFor

end Xylophone
