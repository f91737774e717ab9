import Xylophone.Infra.Allotment
import Xylophone.Paging.BootHeap

/-!
# Page entries and the bitmap

While pages are mapped with frames from the pool only, and freed with `should_free` set, page
entries and bitmap say the same: the frames that present entries hold are the bits that are set,
no frame is held twice, and `block_used` counts them (`FramesExact`).

* `frames_exact` — this holds in every run from a cleared directory and a fresh physical memory
  manager, and freeing a page that was just mapped restores everything, as long as no page table
  is placed at address 0.
* `exists_lost_frame` — a bootstrapped heap that begins at address 0 hands out the first page
  table at `NULL`, and the frame in it is lost.
-/

namespace Xylophone

open Infra

/-! ## The property -/

/-- The frame of each present page. -/
def frameOf (w : PagingWorld) (page : Nat) : Option Nat := (pageAt w page).map PageEntry.frame

/-- Page entries, bitmap and count agree. -/
structure FramesExact (w : PagingWorld) : Prop where
  /-- No two present entries hold the same frame, and the bits that are set are the frames held. -/
  allots : Allots (frameOf w) w.pmm.bitmap.bits
  count : CountExact w.pmm

/-- What freeing a page gives back: the bitmap, the count and every translation. -/
structure Restored (w w' : PagingWorld) : Prop where
  bitmap : w'.pmm.bitmap = w.pmm.bitmap
  blockUsed : w'.pmm.blockUsed = w.pmm.blockUsed
  translation : virtual2Physical w' = virtual2Physical w

/-- The calls that take frames from the pool and give them back to it. -/
def PoolCall : PagingCall → Prop
  | .allocateSingle _ _ _ | .allocateRange _ _ _ _ => True
  | .freeSingle _ shouldFree | .freeRange _ _ shouldFree => shouldFree = true
  | .identityAllocateSingle _ _ _ | .identityAllocateRange _ _ _ _
  | .allocateToPhysical _ _ _ _ => False

instance : (c : PagingCall) → Decidable (PoolCall c)
  | .allocateSingle _ _ _ | .allocateRange _ _ _ _ => inferInstanceAs (Decidable True)
  | .freeSingle _ _ | .freeRange _ _ _ => inferInstanceAs (Decidable (_ = true))
  | .identityAllocateSingle _ _ _ | .identityAllocateRange _ _ _ _
  | .allocateToPhysical _ _ _ _ => inferInstanceAs (Decidable False)

/-- The operations of such calls. -/
def PoolOp : PageOp → Prop
  | .map address frame _ _ => address < 0x100000000 ∧ frame = 0
  | .unmap _ shouldFree => shouldFree = true

/-- A paging manager with a cleared directory, and a physical memory manager that is new. -/
structure FreshWorld (w : PagingWorld) : Prop where
  directory : w.directory = clearedDirectory
  ready : PmmReady w.pmm
  bits : w.pmm.bitmap.bits = ∅
  blockUsed : w.pmm.blockUsed = 0

/-- `paging_manager_init` and `physical_memory_manager_init` make such a world. -/
theorem freshWorld_init (w : PagingWorld) {pmm : PhysicalMemoryManager} {memorySize : Nat}
    (hasHeapManager hasFailure : Bool) (array : Nat → BitVec 32) (hnew : pmm.isInitialized = false)
    (hsize : memorySize < 0x100000000) :
    FreshWorld (pagingManagerInit w hasHeapManager
      (physicalMemoryManagerInit pmm memorySize hasFailure (some array))) where
  directory := rfl
  ready := physicalMemoryManagerInit_ready hasFailure array hnew hsize
  bits := (physicalMemoryManagerInit_bits hasFailure array hnew hsize).1
  blockUsed := (physicalMemoryManagerInit_bits hasFailure array hnew hsize).2

/-! ## The invariant -/

structure PoolInvariant (s : Kernel) : Prop where
  apart : TablesApart s.paging
  ready : PmmReady s.paging.pmm
  exact : FramesExact s.paging
  room : ∃ next, TableRoom (Finset.range 1024) s next

variable {s s' : Kernel} {w w' : PagingWorld} {fuel : Nat}

theorem frameOf_update {page : Nat} {entry : Option PageEntry}
    (h : pageAt w' = Function.update (pageAt w) page entry) :
    frameOf w' = Function.update (frameOf w) page (entry.map PageEntry.frame) := by
  have : frameOf w' = Option.map PageEntry.frame ∘ pageAt w' := rfl
  rw [this, h, Function.comp_update]
  rfl

theorem frameOf_eq_none {page : Nat} (h : pageAt w page = none) : frameOf w page = none := by
  rw [frameOf, h]
  rfl

/-- A block has a frame number of 20 bits. -/
theorem newEntry_frame (hr : PmmReady w.pmm) {block : Nat} (hlt : block < w.pmm.bitmap.bitCount)
    (isKernel isWriteable : Bool) : (newEntry block isKernel isWriteable).frame = block :=
  Nat.mod_eq_of_lt (Nat.lt_of_lt_of_le hlt hr.bitCount_le)

/-- Mapping a page with a frame from the pool. -/
theorem FramesExact.mapped {page : Nat} {isKernel isWriteable : Bool} (h : FramesExact w)
    (hr : PmmReady w.pmm) (hm : PageMapped w w' page 0 isKernel isWriteable) :
    FramesExact w' ∧ PmmReady w'.pmm := by
  cases hm with
  | kept _ _ same =>
    rw [same]
    exact ⟨h, hr⟩
  | explicit _ frame_ne _ _ => exact absurd rfl frame_ne
  | taken block absent _ lt free _ pages pmm =>
    refine ⟨⟨?_, ?_⟩, by rw [pmm]; exact takeBlock_ready hr block⟩
    · rw [pmm, takeBlock_bits hr lt, frameOf_update pages, Option.map_some, newEntry_frame hr lt]
      exact h.allots.give free (frameOf_eq_none absent)
    · rw [pmm]
      exact h.count.take hr lt free
  | exhausted _ _ _ same =>
    rw [same]
    exact ⟨⟨h.allots, h.count⟩, hr.initialized, hr.words, hr.bitCount_le⟩

/-- A set bit is the bit of a block of the manager. -/
theorem isValidBlock_of_mem {pmm : PhysicalMemoryManager} (hr : PmmReady pmm) {block : Nat}
    (h : block ∈ pmm.bitmap.bits) : isValidBlock pmm block = true :=
  isValidBlock_of_lt hr (mem_bits.mp h).1

/-- Frames from the pool are given back to it. -/
theorem FramesExact.freesInside (h : FramesExact w) (hr : PmmReady w.pmm) (address : Nat)
    (shouldFree : Bool) : FreesInside w address shouldFree := by
  intro _ entry hpage
  refine isValidBlock_of_mem hr ((h.allots.range _).mpr ⟨pageNumber address, ?_⟩)
  rw [frameOf, hpage]
  rfl

/-- Freeing a page whose frame came from the pool. -/
theorem FramesExact.freed (h : FramesExact w) (hr : PmmReady w.pmm) (hapart : TablesApart w)
    (address : Nat) :
    FramesExact (freePage w address true) ∧ PmmReady (freePage w address true).pmm := by
  cases hpage : pageAt w (pageNumber address) with
  | none =>
    rw [freePage_absent true hpage]
    exact ⟨h, hr⟩
  | some entry =>
    obtain ⟨hpages, hpmm⟩ := freePage_present hapart (h.freesInside hr address true) hpage
    rw [if_pos rfl] at hpmm
    have hframe : frameOf w (pageNumber address) = some entry.frame := by
      rw [frameOf, hpage]
      rfl
    have hused : entry.frame ∈ w.pmm.bitmap.bits := (h.allots.range _).mpr ⟨_, hframe⟩
    refine ⟨⟨?_, ?_⟩, by rw [hpmm]; exact freeBlock_ready hr _⟩
    · rw [hpmm, freeBlock_bits hr, frameOf_update hpages]
      exact h.allots.take hframe
    · rw [hpmm]
      exact h.count.free hr hused

theorem framesExact_congr (hpages : pageAt w' = pageAt w) (hpmm : w'.pmm = w.pmm)
    (h : FramesExact w) :
    FramesExact w' := by
  have hframe : frameOf w' = frameOf w := by
    unfold frameOf
    rw [hpages]
  exact ⟨by rw [hframe, hpmm]; exact h.allots, by rw [hpmm]; exact h.count⟩

theorem apart_freePage {address : Nat} {shouldFree : Bool} (h : TablesApart w)
    (hinside : FreesInside w address shouldFree) : TablesApart (freePage w address shouldFree) :=
  PageMapped.apart (freePage_directory hinside) h

theorem freePage_ready (hr : PmmReady w.pmm) (address : Nat) (shouldFree : Bool) :
    PmmReady (freePage w address shouldFree).pmm := by
  cases hpage : pageAt w (pageNumber address) with
  | none =>
    rw [freePage_absent shouldFree hpage]
    exact hr
  | some entry =>
    rw [freePage_pmm shouldFree hpage]
    split
    · exact freeBlock_ready hr _
    · exact hr

theorem slot_mem_range {address : Nat} (h : address < 0x100000000) :
    pageNumber address / 1024 ∈ Finset.range 1024 := by
  rw [Finset.mem_range]
  unfold pageNumber
  omega

theorem PoolInvariant.step {op : PageOp} (h : PoolInvariant s) (hok : PoolOp op)
    (hstep : PageStep (heapTables (fuel + 1)) s op s') : PoolInvariant s' := by
  obtain ⟨next, hroom⟩ := h.room
  cases hstep with
  | @map _ address frame _ _ result =>
    obtain ⟨haddress, rfl⟩ := hok
    have hslot := slot_mem_range haddress
    have ha := allocatePage_cases h.apart h.ready (hroom.fresh fuel hslot) result
    obtain ⟨w₁, table, hready, hmapped, -⟩ := ha.steps
    obtain ⟨hpmm, -⟩ := hready.same
    have hexact := framesExact_congr hready.pages hpmm h.exact
    obtain ⟨hexact', hready'⟩ := hexact.mapped (by rw [hpmm]; exact h.ready) hmapped
    obtain ⟨next', -, hroom'⟩ := hroom.allocated hslot ha
    exact ⟨ha.apart, hready', hexact', next', hroom'⟩
  | @unmap address shouldFree =>
    obtain rfl : shouldFree = true := hok
    obtain ⟨hexact, hready⟩ := h.exact.freed h.ready h.apart address
    have hinside := h.exact.freesInside h.ready address true
    exact ⟨apart_freePage h.apart hinside, hready, hexact, next, hroom.freed hinside⟩

/-! ## Mapping a page and freeing it again -/

/-- Freeing a page that was absent and has just been mapped restores everything. -/
theorem PoolInvariant.restored {address : Nat} {isKernel isWriteable : Bool} (h : PoolInvariant s)
    (haddress : address < 0x100000000) (habsent : pageAt s.paging (pageNumber address) = none)
    (hmap : allocateSingle (heapTables (fuel + 1)) s address isKernel isWriteable = some s') :
    Restored s.paging (freeSingle s'.paging address true) := by
  have htranslate : ∀ {w w' : PagingWorld}, w'.isEnabled = w.isEnabled → pageAt w' = pageAt w →
      virtual2Physical w' = virtual2Physical w := by
    intro w w' hen hpages
    funext a
    cases he : w.isEnabled with
    | false => simp only [virtual2Physical, hen, he, Bool.not_false, if_true]
    | true => rw [virtual2Physical_enabled (hen.trans he), virtual2Physical_enabled he, hpages]
  obtain ⟨next, hroom⟩ := h.room
  unfold allocateSingle at hmap
  split at hmap
  · next hcan =>
    have hslot := slot_mem_range haddress
    have ha := allocatePage_cases h.apart h.ready (hroom.fresh fuel hslot) hmap
    obtain ⟨w₁, table, hready, hmapped, -⟩ := ha.steps
    obtain ⟨hpmm, -⟩ := hready.same
    have hpages := hready.pages
    have hinit : s'.paging.isInitialized = true := by
      rw [ha.isInitialized]
      unfold canAllocate at hcan
      simp only [Bool.and_eq_true] at hcan
      exact hcan.1
    unfold freeSingle
    rw [if_pos hinit]
    have henabled := (freePage_flags s'.paging address true).2.2.trans ha.isEnabled
    cases hmapped with
    | kept _ present _ =>
      rw [hpages, habsent] at present
      cases present
    | explicit _ frame_ne _ _ => exact absurd rfl frame_ne
    | taken block absent _ lt free _ pages pmm =>
      rw [hpmm] at pmm lt free
      have hat : pageAt s'.paging (pageNumber address) =
          some (newEntry block isKernel isWriteable) := by
        rw [pages, Function.update_self]
      have hinside : FreesInside s'.paging address true := by
        intro _ entry hentry
        obtain rfl := Option.some.inj (hat.symm.trans hentry)
        rw [newEntry_frame h.ready lt, pmm]
        exact isValidBlock_of_lt (takeBlock_ready h.ready block) lt
      obtain ⟨hfreed, hfpmm⟩ := freePage_present ha.apart hinside hat
      rw [if_pos rfl, newEntry_frame h.ready lt, pmm] at hfpmm
      have hclear : bitmapTest s.paging.pmm.bitmap block = false := by
        by_contra hset
        exact free (mem_bits.mpr ⟨lt, by simpa using hset⟩)
      have hle := card_bits_le s.paging.pmm
      have hcount := h.ready.bitCount_le
      have hused := h.exact.count
      refine ⟨?_, ?_, htranslate henabled ?_⟩
      · rw [hfpmm, freeBlock, if_pos (takeBlock_ready h.ready block).initialized]
        exact bitmapReset_set h.ready.words hclear
      · rw [hfpmm, freeBlock_blockUsed (takeBlock_ready h.ready block)]
        show sub32 (wrap32 (s.paging.pmm.blockUsed + 1)) 1 = s.paging.pmm.blockUsed
        unfold CountExact at hused
        rw [wrap32_of_lt (by omega), sub32_of_le (by omega) (by omega)]
        omega
      · rw [hfreed, pages, Function.update_idem, hpages, ← habsent, Function.update_eq_self]
    | exhausted absent _ full same =>
      have hstill : pageAt s'.paging = pageAt s.paging := by
        rw [← hpages, same]
        exact pageAt_congr rfl rfl
      rw [freePage_absent true (by rw [hstill]; exact habsent)] at henabled ⊢
      refine ⟨?_, ?_, htranslate henabled hstill⟩
      · rw [same, ← hpmm]
      · rw [same, ← hpmm]
  · next hcan =>
    obtain rfl := Option.some.inj hmap
    unfold freeSingle
    split
    · rw [freePage_absent true habsent]
      exact ⟨rfl, rfl, rfl⟩
    · exact ⟨rfl, rfl, rfl⟩

/-! ## Every run -/

theorem pagesOk_of_forall {malloc : TableSource} {ok : PageOp → Prop} :
    ∀ {ops : List PageOp} {s : Kernel}, (∀ op ∈ ops, ok op) → PagesOk malloc (fun _ op => ok op) s ops
  | [], _, _ => trivial
  | op :: _, _, h =>
    ⟨h op (List.mem_cons_self ..), fun _ _ => pagesOk_of_forall fun o ho => h o (List.mem_cons_of_mem _ ho)⟩

/-- The operations of a pool call are pool operations. -/
theorem PoolCall.pages {c : PagingCall} (hwords : c.Words) (h : PoolCall c) :
    ∀ op ∈ c.pages, PoolOp op := by
  intro op hop
  cases c with
  | identityAllocateSingle _ _ _ => exact absurd h id
  | identityAllocateRange _ _ _ _ => exact absurd h id
  | allocateToPhysical _ _ _ _ => exact absurd h id
  | allocateSingle a k w =>
    rw [List.mem_singleton.mp hop]
    exact ⟨hwords, rfl⟩
  | allocateRange a b k w =>
    obtain ⟨x, hx, rfl⟩ := List.mem_map.mp hop
    exact ⟨Nat.lt_of_le_of_lt (mem_rangeAddresses.mp hx).2.1 hwords.2, rfl⟩
  | freeSingle a f =>
    rw [List.mem_singleton.mp hop]
    exact h
  | freeRange a b f =>
    obtain ⟨x, hx, rfl⟩ := List.mem_map.mp hop
    exact h

theorem PoolInvariant.call {c : PagingCall} (h : PoolInvariant s) (hok : PoolCall c)
    (hstep : CallStep (heapTables (fuel + 1)) s c s') : PoolInvariant s' :=
  hstep.invariant (fun _ op _ hI (ho : PoolOp op) hs => hI.step ho hs) h
    (pagesOk_of_forall (hok.pages hstep.words))

theorem poolInvariant_start (hw : FreshWorld s.paging) (hstatus : s.heap.status = .bootstraped)
    (hpos : 0 < s.heap.placementAddress)
    (hroom : pagesFor s.heap.placementAddress + 0x400000 ≤ 0x100000000) : PoolInvariant s where
  apart := by
    intro i j hi
    rw [hw.directory] at hi
    exact absurd rfl hi
  ready := hw.ready
  exact := by
    have hnone : frameOf s.paging = fun _ => none := by
      funext page
      exact frameOf_eq_none (by rw [pageAt_cleared hw.directory])
    refine ⟨?_, ?_⟩
    · rw [hnone, hw.bits]
      exact Allots.empty
    · unfold CountExact
      rw [hw.bits, hw.blockUsed, Finset.card_empty]
  room := ⟨_, tableRoom_start hstatus hw.directory hpos (by simp)
    (by rw [Finset.card_range]; exact hroom)⟩

/--
**Page entries and bitmap agree.** In every run of `allocate_single`, `allocate_range`,
`free_single(.., 1)` and `free_range(.., 1)` from a cleared directory and a fresh physical memory
manager, with page tables from a bootstrapped heap that has room for 1024 of them between
address 0 and the end of the address space.
-/
theorem frames_exact (hw : FreshWorld s.paging) (hstatus : s.heap.status = .bootstraped)
    (hpos : 0 < s.heap.placementAddress)
    (hroom : pagesFor s.heap.placementAddress + 0x400000 ≤ 0x100000000)
    (hrun : Run (CallStep (heapTables (fuel + 1))) (fun _ c => PoolCall c) s s') :
    FramesExact s'.paging ∧
      ∀ (address : Nat) (isKernel isWriteable : Bool) (s₁ : Kernel), address < 0x100000000 →
        pageAt s'.paging (pageNumber address) = none →
        allocateSingle (heapTables (fuel + 1)) s' address isKernel isWriteable = some s₁ →
        Restored s'.paging (freeSingle s₁.paging address true) := by
  have hinv : PoolInvariant s' :=
    hrun.invariant (fun _ _ _ hI hok hs => hI.call hok hs)
      (poolInvariant_start hw hstatus hpos hroom)
  exact ⟨hinv.exact, fun address k w s₁ haddress habsent hmap => hinv.restored haddress habsent hmap⟩

/-! ## A fresh kernel -/

/--
A kernel with `memorySize` bytes of memory and nothing mapped, whose heap is bootstrapped at
`placementAddress`.
-/
def freshKernel (placementAddress memorySize : Nat) : Kernel where
  heap := bootHeap placementAddress
  mem := fun _ => 0
  paging :=
    let pmm : PhysicalMemoryManager :=
      { bitmap := bitmapInit 4, isInitialized := false, blockUsed := 0, failed := false
        hasFailure := false }
    pagingManagerInit
      { directory := clearedDirectory, tables := fun _ => clearedTable, pmm := pmm
        isInitialized := false, hasHeapManager := false, isEnabled := false }
      true (physicalMemoryManagerInit pmm memorySize true (some fun _ => 0))

theorem freshKernel_fresh {placementAddress memorySize : Nat} (h : memorySize < 0x100000000) :
    FreshWorld (freshKernel placementAddress memorySize).paging :=
  freshWorld_init _ true true (fun _ => 0) rfl h

/-- Four pages are mapped and one of them is freed. -/
theorem frames_exact_freshKernel : ∃ s', runList (callWith (heapTables 1)) (fun _ c => PoolCall c)
      (freshKernel 0xC0200000 0x20000)
      [.allocateRange 0xC0000000 0xC0003000 true true, .freeSingle 0xC0001000 true] = some s' ∧
    FramesExact s'.paging := by
  have hrun : (runList (callWith (heapTables 1)) (fun _ c => PoolCall c)
      (freshKernel 0xC0200000 0x20000)
      [.allocateRange 0xC0000000 0xC0003000 true true, .freeSingle 0xC0001000 true]).isSome = true := by
    decide +kernel
  obtain ⟨s', hs'⟩ := Option.isSome_iff_exists.mp hrun
  exact ⟨s', hs', (frames_exact (freshKernel_fresh (by decide)) rfl (by decide) (by decide)
    (Run.of_runList callWith_step hs')).1⟩

/--
The placement address rounds up to 2^32, which is 0: the page table is at `NULL`. The frame of
the page is marked in the bitmap, and no page entry that can be reached holds it.
-/
theorem exists_lost_frame : FreshWorld (freshKernel 0xFFFFF800 0x20000).paging ∧
    (freshKernel 0xFFFFF800 0x20000).heap.status = .bootstraped ∧
    ∃ s', Run (CallStep (heapTables 1)) (fun _ c => PoolCall c) (freshKernel 0xFFFFF800 0x20000) s' ∧
      ¬ FramesExact s'.paging := by
  refine ⟨freshKernel_fresh (by decide), rfl, ?_⟩
  obtain ⟨s', hcall, href, hbit⟩ : ∃ s', callWith (heapTables 1) (freshKernel 0xFFFFF800 0x20000)
      (.allocateSingle 0xC0000000 true true) = some s' ∧
      s'.paging.directory.refTables = Function.update (fun _ => 0) 768 0 ∧
      0 ∈ s'.paging.pmm.bitmap.bits := ⟨_, rfl, rfl, by decide +kernel⟩
  refine ⟨s', Run.single (show PoolCall (.allocateSingle 0xC0000000 true true) from trivial)
    (callWith_step hcall), fun hexact => ?_⟩
  obtain ⟨page, hpage⟩ := (hexact.allots.range 0).mp hbit
  rw [frameOf_eq_none (pageAt_of_noTable (by rw [href]; simp [Function.update_apply]))] at hpage
  cases hpage

end Xylophone
