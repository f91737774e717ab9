import Xylophone.Paging.Frames

/-!
# Frames that the caller chooses

A page can be mapped to a frame of the caller's choice (`identity_allocate_single`,
`identity_allocate_range`, `allocate_to_physical`). Such a frame is not marked in the bitmap, but
`free_page` treats it like a frame from the pool. As long as neither matters (`FrameOk`), no block
of the pool is handed out while a page holds it.

* `pool_exclusive` — in every run whose operations meet `FrameOk`
* `exists_shared_frame` — a frame that is mapped first and taken from the pool afterwards
-/

namespace Xylophone

open Infra

/-! ## The property -/

/-- The block that the next page from the pool would get is not held by a page. -/
def NextBlockFree (w : PagingWorld) : Prop :=
  ∀ page entry, pageAt w page = some entry → isValidBlock w.pmm (allocateBlock w.pmm).2 = true →
    entry.frame ≠ (allocateBlock w.pmm).2

/-- The pool hands out no block that is held, and counts its blocks. -/
structure PoolExclusive (w : PagingWorld) : Prop where
  next : NextBlockFree w
  count : CountExact w.pmm

/--
An operation that keeps the pool and the frames chosen by callers apart. A frame that is mapped
by choice is no free block of the pool; a frame that is given back to the pool came from it, and
no other page holds it.
-/
def FrameOk (malloc : TableSource) (s : Kernel) : PageOp → Prop
  | .map address frame _ _ => FreshTable malloc s (pageNumber address / 1024) ∧
      (frame ≠ 0 → pageAt s.paging (pageNumber address) = none →
        frame % 0x100000 < s.paging.pmm.bitmap.bitCount →
        frame % 0x100000 ∈ s.paging.pmm.bitmap.bits)
  | .unmap address shouldFree => shouldFree = true →
      ∀ entry, pageAt s.paging (pageNumber address) = some entry →
        entry.frame ∈ s.paging.pmm.bitmap.bits ∧
        ∀ page entry', page ≠ pageNumber address → pageAt s.paging page = some entry' →
          entry'.frame ≠ entry.frame

/-! ## The invariant -/

/-- The blocks of the pool that pages hold are marked in the bitmap. -/
def HeldMarked (w : PagingWorld) : Prop :=
  ∀ page entry, pageAt w page = some entry → entry.frame < w.pmm.bitmap.bitCount →
    entry.frame ∈ w.pmm.bitmap.bits

structure MarkedInvariant (w : PagingWorld) : Prop where
  apart : TablesApart w
  ready : PmmReady w.pmm
  held : HeldMarked w
  count : CountExact w.pmm

variable {malloc : TableSource} {s s' : Kernel} {w w' : PagingWorld}

theorem MarkedInvariant.exclusive (h : MarkedInvariant w) : PoolExclusive w where
  count := h.count
  next := by
    intro page entry hpage hvalid heq
    rcases allocateBlock_cases h.ready with ⟨block, hlt, hfree, -, halloc⟩ | ⟨-, halloc⟩
    · rw [halloc] at heq
      have hblock : entry.frame = block := heq
      rw [← hblock] at hlt hfree
      exact hfree (h.held page entry hpage hlt)
    · rw [halloc, isValidBlock_noBlock h.ready] at hvalid
      cases hvalid

theorem markedInvariant_start (hw : FreshWorld w) : MarkedInvariant w where
  apart := by
    intro i j hi
    rw [hw.directory] at hi
    exact absurd rfl hi
  ready := hw.ready
  held := by
    intro page entry hpage
    rw [pageAt_cleared hw.directory] at hpage
    cases hpage
  count := by
    unfold CountExact
    rw [hw.bits, hw.blockUsed, Finset.card_empty]

/-- A page gets a new entry. -/
theorem HeldMarked.update {page : Nat} {entry : PageEntry} (h : HeldMarked w)
    (hpages : pageAt w' = Function.update (pageAt w) page (some entry))
    (hcount : w'.pmm.bitmap.bitCount = w.pmm.bitmap.bitCount)
    (hbits : w.pmm.bitmap.bits ⊆ w'.pmm.bitmap.bits)
    (hentry : entry.frame < w'.pmm.bitmap.bitCount → entry.frame ∈ w'.pmm.bitmap.bits) :
    HeldMarked w' := by
  intro q e hq hlt
  rw [hpages] at hq
  by_cases hqp : q = page
  · rw [hqp, Function.update_self] at hq
    obtain rfl := Option.some.inj hq
    exact hentry hlt
  · rw [Function.update_of_ne hqp] at hq
    rw [hcount] at hlt
    exact hbits (h q e hq hlt)

/-- Mapping a page, once the slot has a page table. -/
theorem MarkedInvariant.mapped {page frame : Nat} {isKernel isWriteable : Bool}
    (h : MarkedInvariant w) (hdir : w'.directory = w.directory)
    (hok : frame ≠ 0 → pageAt w page = none → frame % 0x100000 < w.pmm.bitmap.bitCount →
      frame % 0x100000 ∈ w.pmm.bitmap.bits)
    (hm : PageMapped w w' page frame isKernel isWriteable) : MarkedInvariant w' := by
  have hapart : TablesApart w' := PageMapped.apart hdir h.apart
  cases hm with
  | kept _ _ same =>
    rw [same]
    exact h
  | explicit absent frame_ne pages pmm =>
    refine ⟨hapart, by rw [pmm]; exact h.ready, ?_, by rw [pmm]; exact h.count⟩
    refine h.held.update pages (by rw [pmm]) (by rw [pmm]) ?_
    rw [pmm]
    exact hok frame_ne absent
  | taken block absent _ lt free _ pages pmm =>
    have hbits := takeBlock_bits h.ready lt
    refine ⟨hapart, by rw [pmm]; exact takeBlock_ready h.ready block, ?_,
      by rw [pmm]; exact h.count.take h.ready lt free⟩
    refine h.held.update pages (by rw [pmm]; rfl) ?_ ?_
    · rw [pmm, hbits]
      exact Finset.subset_insert _ _
    · intro _
      rw [newEntry_frame h.ready lt, pmm, hbits]
      exact Finset.mem_insert_self _ _
  | exhausted _ _ _ same =>
    have hpages : pageAt w' = pageAt w := by
      rw [same]
      exact pageAt_congr rfl rfl
    have hbitmap : w'.pmm.bitmap = w.pmm.bitmap := by rw [same]
    refine ⟨hapart, ?_, ?_, ?_⟩
    · rw [same]
      exact ⟨h.ready.initialized, h.ready.words, h.ready.bitCount_le⟩
    · unfold HeldMarked
      rw [hpages, hbitmap]
      exact h.held
    · rw [same]
      exact h.count

/-- Freeing a page. -/
theorem MarkedInvariant.freed (h : MarkedInvariant w) {address : Nat} {shouldFree : Bool}
    (hok : shouldFree = true → ∀ entry, pageAt w (pageNumber address) = some entry →
      entry.frame ∈ w.pmm.bitmap.bits ∧
      ∀ page entry', page ≠ pageNumber address → pageAt w page = some entry' →
        entry'.frame ≠ entry.frame) : MarkedInvariant (freePage w address shouldFree) := by
  have hinside : FreesInside w address shouldFree := fun hfree entry hentry =>
    isValidBlock_of_mem h.ready (hok hfree entry hentry).1
  have hapart := apart_freePage h.apart hinside
  cases hpage : pageAt w (pageNumber address) with
  | none =>
    rw [freePage_absent shouldFree hpage]
    exact h
  | some entry =>
    obtain ⟨hpages, hpmm⟩ := freePage_present h.apart hinside hpage
    -- a page that is still present was present before, and is another one
    have hstill : ∀ q e, pageAt (freePage w address shouldFree) q = some e →
        q ≠ pageNumber address ∧ pageAt w q = some e := by
      intro q e hq
      rw [hpages] at hq
      by_cases hqa : q = pageNumber address
      · rw [hqa, Function.update_self] at hq
        cases hq
      · rw [Function.update_of_ne hqa] at hq
        exact ⟨hqa, hq⟩
    cases shouldFree with
    | false =>
      have hsame : (freePage w address false).pmm = w.pmm := hpmm
      refine ⟨hapart, by rw [hsame]; exact h.ready, ?_, by rw [hsame]; exact h.count⟩
      intro q e hq
      rw [hsame]
      exact h.held q e (hstill q e hq).2
    | true =>
      obtain ⟨hmarked, hother⟩ := hok rfl entry hpage
      rw [if_pos rfl] at hpmm
      refine ⟨hapart, ?_, ?_, ?_⟩
      · rw [hpmm]
        exact freeBlock_ready h.ready _
      · intro q e hq hlt
        obtain ⟨hne, hbefore⟩ := hstill q e hq
        rw [hpmm, freeBlock_bitCount] at hlt
        rw [hpmm, freeBlock_bits h.ready]
        exact Finset.mem_erase.mpr ⟨hother q e hne hbefore, h.held q e hbefore hlt⟩
      · rw [hpmm]
        exact h.count.free h.ready hmarked

theorem MarkedInvariant.step {op : PageOp} (h : MarkedInvariant s.paging)
    (hok : FrameOk malloc s op) (hstep : PageStep malloc s op s') : MarkedInvariant s'.paging := by
  cases hstep with
  | @map _ address frame isKernel isWriteable result =>
    obtain ⟨hfresh, hframe⟩ := hok
    have ha := allocatePage_cases h.apart h.ready hfresh result
    obtain ⟨w₁, table, hready, hmapped, hdir⟩ := ha.steps
    obtain ⟨hpmm, -⟩ := hready.same
    -- the page table of the slot changes no page and nothing of the pool
    have h₁ : MarkedInvariant w₁ := by
      refine ⟨hready.apart h.apart, by rw [hpmm]; exact h.ready, ?_, by rw [hpmm]; exact h.count⟩
      unfold HeldMarked
      rw [hready.pages, hpmm]
      exact h.held
    refine h₁.mapped hdir ?_ hmapped
    rw [hready.pages, hpmm]
    exact hframe
  | unmap => exact h.freed hok

/-! ## Every run -/

/--
**No block is handed out while a page holds it**, and the pool counts its blocks, in every run of
mapping and freeing calls from a cleared directory and a fresh physical memory manager in which
every operation meets `FrameOk`; also in the middle of a call.
-/
theorem pool_exclusive (hw : FreshWorld s.paging)
    (hrun : Run (CallStep malloc) (fun s c => PagesOk malloc (FrameOk malloc) s c.pages) s s') :
    PoolExclusive s'.paging ∧
      ∀ (c : PagingCall) (done rest : List PageOp) (s₁ : Kernel), c.pages = done ++ rest →
        PagesOk malloc (FrameOk malloc) s' c.pages → PageRun malloc done s' s₁ →
        PoolExclusive s₁.paging := by
  have hinv : MarkedInvariant s'.paging :=
    callRun_invariant (I := fun s => MarkedInvariant s.paging) (fun _ _ _ hI hok hs => hI.step hok hs)
      (markedInvariant_start hw) hrun
  refine ⟨hinv.exclusive, fun c done rest s₁ hpages hok hdone => ?_⟩
  rw [hpages] at hok
  exact (PageRun.invariant (I := fun s => MarkedInvariant s.paging)
    (fun _ _ _ hI ho hs => hI.step ho hs) hinv (PagesOk.left hok) hdone).exclusive

/-- A page with a frame above the memory, and then a page from the pool. -/
theorem pool_exclusive_freshKernel : ∃ s s',
    callWith (heapTables 1) (freshKernel 0xC0200000 0x20000)
      (.allocateToPhysical 0xC0000000 0xB8000 true true) = some s ∧
    callWith (heapTables 1) s (.allocateSingle 0xC0001000 true true) = some s' ∧
    PoolExclusive s'.paging := by
  have hfresh : FreshWorld (freshKernel 0xC0200000 0x20000).paging := freshKernel_fresh (by decide)
  have hroom := @tableRoom_start (Finset.range 1024) (freshKernel 0xC0200000 0x20000)
    rfl hfresh.directory (by decide) (by simp) (by rw [Finset.card_range]; decide)
  obtain ⟨s, s', hfirst, htable, hsecond⟩ : ∃ s s',
      callWith (heapTables 1) (freshKernel 0xC0200000 0x20000)
        (.allocateToPhysical 0xC0000000 0xB8000 true true) = some s ∧
      s.paging.directory.refTables 768 = 0xC0200000 ∧
      callWith (heapTables 1) s (.allocateSingle 0xC0001000 true true) = some s' :=
    ⟨_, _, rfl, rfl, rfl⟩
  have hrun : Run (CallStep (heapTables 1))
      (fun s c => PagesOk (heapTables 1) (FrameOk (heapTables 1)) s c.pages)
      (freshKernel 0xC0200000 0x20000) s' := by
    have hok₁ : FrameOk (heapTables 1) (freshKernel 0xC0200000 0x20000)
        (.map 0xC0000000 0xB8 true true) :=
      ⟨hroom.fresh 0 (slot_mem_range (by decide)), fun _ _ hlt => absurd hlt (by decide)⟩
    have hok₂ : FrameOk (heapTables 1) s (.map 0xC0001000 0 true true) := by
      refine ⟨fun hnone => ?_, fun hne => absurd rfl hne⟩
      rw [show pageNumber 0xC0001000 / 1024 = 768 from rfl, htable] at hnone
      cases hnone
    exact (Run.single (a := .allocateToPhysical 0xC0000000 0xB8000 true true)
      ⟨hok₁, fun _ _ => trivial⟩ (callWith_step hfirst)).tail
      (a := .allocateSingle 0xC0001000 true true) ⟨hok₂, fun _ _ => trivial⟩ (callWith_step hsecond)
  exact ⟨s, s', hfirst, hsecond, (pool_exclusive hfresh hrun).1⟩

/--
Page 1 is mapped to frame 1, which is not marked. Block 0 goes to the next page, and then block 1
is the first free one.
-/
theorem exists_shared_frame : FreshWorld (freshKernel 0xC0200000 0x20000).paging ∧
    ∃ s', Run (CallStep (heapTables 1)) (fun _ _ => True) (freshKernel 0xC0200000 0x20000) s' ∧
      ¬ PoolExclusive s'.paging := by
  refine ⟨freshKernel_fresh (by decide), ?_⟩
  obtain ⟨s', hrun, hpage, hvalid, hnext⟩ : ∃ s', runList (callWith (heapTables 1)) (fun _ _ => True)
      (freshKernel 0xC0200000 0x20000)
      [.identityAllocateSingle 0x1000 true true, .allocateSingle 0xC0000000 true true] = some s' ∧
      pageAt s'.paging 1 = some (newEntry 1 true true) ∧
      isValidBlock s'.paging.pmm (allocateBlock s'.paging.pmm).2 = true ∧
      (allocateBlock s'.paging.pmm).2 = 1 := ⟨_, rfl, rfl, by decide +kernel, by decide +kernel⟩
  refine ⟨s', Run.of_runList callWith_step hrun, fun h => ?_⟩
  exact h.next 1 _ hpage hvalid hnext.symm

end Xylophone
