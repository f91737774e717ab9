import Mathlib.Order.Interval.Finset.Nat
import Xylophone.Heap.Bounds
import Xylophone.Paging.RangeLoops

/-!
# The pages of a heap that shrinks

The end of the heap is lowered by `contract` and by `heap_manager_free_all`, which give pages back.
`heap_manager_free_all` steps through the addresses from the new end to the old one. `contract` steps
down through lengths and passes them for addresses, and stops one page short.

* `shrink_returns_iff` — when the pages between the two ends are what is given back
* `exists_lost_pages` — a free that lowers the end and gives none of them back
-/

namespace Xylophone

open Infra

variable {malloc : TableSource} {s s' : Kernel} {w w' : PagingWorld} {newEnd oldEnd page : Nat}

/-- The page has an address from `newEnd` up to `oldEnd`. -/
def MeetsEnd (newEnd oldEnd page : Nat) : Prop :=
  pageNumber newEnd ≤ page ∧ page ≤ pageNumber (oldEnd - 1)

/-- The frame of a page goes back to the physical memory manager. -/
def returnFrame (w : PagingWorld) (pmm : PhysicalMemoryManager) (page : Nat) :
    PhysicalMemoryManager :=
  match pageAt w page with
  | some entry => freeBlock pmm entry.frame
  | none => pmm

/-- The pages from `newEnd` up to `oldEnd` have been given back, and no others. -/
structure PagesReturned (w w' : PagingWorld) (newEnd oldEnd : Nat) : Prop where
  unmapped : ∀ page, pageAt w page ≠ none ∧ pageAt w' page = none ↔ MeetsEnd newEnd oldEnd page
  /-- There is a manager to return them to. -/
  manager : w.pmm.isInitialized = true
  /-- Their frames are blocks of the manager. -/
  blocks : ∀ a, MeetsEnd newEnd oldEnd (pageNumber a) → FreesInside w a true
  /-- The frame of each of them has been returned once. -/
  returned : ∃ pages : List Nat, pages.Nodup ∧ (∀ page, page ∈ pages ↔ MeetsEnd newEnd oldEnd page) ∧
    w'.pmm = pages.foldl (returnFrame w) w.pmm
  others : ∀ a, ¬ MeetsEnd newEnd oldEnd (pageNumber a) →
    getPhysicalAddress w' a = getPhysicalAddress w a

/-- The condition for `heap_manager_free_all`: the loop runs, it reaches the last page, and the pages
between the two ends are present, with blocks of the manager. -/
structure ResetOk (s : Kernel) : Prop where
  isInitialized : s.paging.isInitialized = true
  manager : s.paging.pmm.isInitialized = true
  long : heapMinSize < sub32 s.heap.endAddress s.heap.startAddress
  offset : resetEnd s % 0x1000 ≤ (s.heap.endAddress - 1) % 0x1000
  present : ∀ page, MeetsEnd (resetEnd s) s.heap.endAddress page → pageAt s.paging page ≠ none
  blocks : ∀ a, MeetsEnd (resetEnd s) s.heap.endAddress (pageNumber a) → FreesInside s.paging a true

/-- Every frame that is given back is a block of the manager. -/
def FreesBlocks (w : PagingWorld) (addresses : List Nat) : Prop :=
  w.isInitialized = true → ∀ a ∈ addresses, FreesInside w a true

/-- Frames that come from the pool are such blocks. -/
theorem PoolInvariant.freesBlocks (h : PoolInvariant s) (addresses : List Nat) :
    FreesBlocks s.paging addresses := fun _ a _ => h.exact.freesInside h.ready a true

/-! ## Pages that are freed one after the other -/

/-- The manager is up, so that `paging_manager_free_single` frees. -/
theorem freeSingle_up (hup : w.isInitialized = true) (address : Nat) (shouldFree : Bool) :
    freeSingle w address shouldFree = freePage w address shouldFree := if_pos hup

theorem freePage_sameFlags (w : PagingWorld) (address : Nat) (shouldFree : Bool) :
    SameFlags w (freePage w address shouldFree) := by
  obtain ⟨hinit, hmanager, henabled⟩ := freePage_flags w address shouldFree
  exact ⟨hinit, hmanager, henabled⟩

theorem freePage_returnFrame (w : PagingWorld) (address : Nat) :
    (freePage w address true).pmm = returnFrame w w.pmm (pageNumber address) := by
  unfold returnFrame
  cases h : pageAt w (pageNumber address) with
  | none => rw [freePage_absent true h]
  | some entry => exact freePage_pmm true h

theorem freeAddresses_down (hdown : w.isInitialized ≠ true) (l : List Nat) :
    freeAddresses freeSingle w l = w := by
  induction l with
  | nil => rfl
  | cons a l ih =>
    show freeAddresses freeSingle (freeSingle w a true) l = w
    rw [freeSingle, if_neg hdown, ih]

theorem freeAddresses_cons (hup : w.isInitialized = true) (a : Nat) (l : List Nat) :
    freeAddresses freeSingle w (a :: l) = freeAddresses freeSingle (freePage w a true) l := by
  rw [← freeSingle_up hup]
  rfl

/-- What is left to be freed after the first of the addresses. -/
theorem FreesBlocks.rest {a : Nat} {l : List Nat} (h : FreesBlocks w (a :: l))
    (hapart : TablesApart w) (hup : w.isInitialized = true) :
    FreesBlocks (freePage w a true) l := fun _ b hb =>
  (h hup b (List.mem_cons_of_mem _ hb)).freed hapart (h hup a List.mem_cons_self)

theorem freeAddresses_apart {l : List Nat} (hapart : TablesApart w) (hblocks : FreesBlocks w l) :
    TablesApart (freeAddresses freeSingle w l) := by
  by_cases hup : w.isInitialized = true
  swap
  · rwa [freeAddresses_down hup]
  induction l generalizing w with
  | nil => exact hapart
  | cons a l ih =>
    rw [freeAddresses_cons hup]
    exact ih (apart_freePage hapart (hblocks hup a List.mem_cons_self)) (hblocks.rest hapart hup)
      ((freePage_sameFlags w a true).isInitialized.trans hup)

/-- The pages of the addresses are absent, and the others are as before. -/
theorem freeAddresses_pages {l : List Nat} (hup : w.isInitialized = true) (hapart : TablesApart w)
    (hblocks : FreesBlocks w l) :
    SameFlags w (freeAddresses freeSingle w l) ∧
      ∀ page, pageAt (freeAddresses freeSingle w l) page =
        if page ∈ l.map pageNumber then none else pageAt w page := by
  induction l generalizing w with
  | nil => exact ⟨SameFlags.refl w, fun page => (if_neg List.not_mem_nil).symm⟩
  | cons a l ih =>
    have hflags := freePage_sameFlags w a true
    have hinside := hblocks hup a List.mem_cons_self
    obtain ⟨hflags', hpages⟩ := ih (hflags.isInitialized.trans hup)
      (apart_freePage hapart hinside) (hblocks.rest hapart hup)
    rw [freeAddresses_cons hup]
    refine ⟨hflags.trans hflags', fun page => ?_⟩
    rw [hpages, freePage_pages hapart hinside, List.map_cons]
    by_cases hpage : page = pageNumber a
    · subst hpage
      rw [Function.update_self, if_pos List.mem_cons_self, ite_self]
    · rw [Function.update_of_ne hpage]
      simp only [List.mem_cons, hpage, false_or]

/-- The frames of different pages are returned one after the other. -/
theorem freeAddresses_pmm {l : List Nat} (hup : w.isInitialized = true) (hapart : TablesApart w)
    (hblocks : FreesBlocks w l) (hnodup : (l.map pageNumber).Nodup) :
    (freeAddresses freeSingle w l).pmm = (l.map pageNumber).foldl (returnFrame w) w.pmm := by
  induction l generalizing w with
  | nil => rfl
  | cons a l ih =>
    rw [List.map_cons, List.nodup_cons] at hnodup
    have hinside := hblocks hup a List.mem_cons_self
    have hrest := ih ((freePage_sameFlags w a true).isInitialized.trans hup)
      (apart_freePage hapart hinside) (hblocks.rest hapart hup) hnodup.2
    rw [freeAddresses_cons hup, hrest, List.map_cons, List.foldl_cons, freePage_returnFrame]
    refine List.foldl_ext _ _ _ fun pmm page hpage => ?_
    have hne : page ≠ pageNumber a := by
      rintro rfl
      exact hnodup.1 hpage
    unfold returnFrame
    rw [freePage_pages hapart hinside, Function.update_of_ne hne]

/-! ## The count of the manager -/

/-- The count of a manager goes down by one, modulo 2^32, for each frame that it is given back. -/
structure CountedDown (pmm pmm' : PhysicalMemoryManager) (n : Nat) : Prop where
  isInitialized : pmm'.isInitialized = true
  blockUsed : (pmm'.blockUsed + n) % 0x100000000 = pmm.blockUsed % 0x100000000

theorem CountedDown.start {pmm : PhysicalMemoryManager} (hup : pmm.isInitialized = true) :
    CountedDown pmm pmm 0 := ⟨hup, rfl⟩

theorem CountedDown.step {pmm pmm' : PhysicalMemoryManager} {n : Nat}
    (hup : pmm.isInitialized = true) {block : Nat} (h : CountedDown (freeBlock pmm block) pmm' n) :
    CountedDown pmm pmm' (n + 1) := by
  have hused : (freeBlock pmm block).blockUsed = sub32 pmm.blockUsed 1 := by
    unfold freeBlock
    rw [if_pos hup]
  have hcount := h.blockUsed
  refine ⟨h.isInitialized, ?_⟩
  rw [hused] at hcount
  unfold sub32 at hcount
  omega

theorem freeBlock_up {pmm : PhysicalMemoryManager} (hup : pmm.isInitialized = true) (block : Nat) :
    (freeBlock pmm block).isInitialized = true := by
  unfold freeBlock
  rw [if_pos hup]
  exact hup

/-- At most one frame is given back. -/
theorem freeSingle_pmm (w : PagingWorld) (address : Nat) :
    (freeSingle w address true).pmm = w.pmm ∨
      ∃ block, (freeSingle w address true).pmm = freeBlock w.pmm block := by
  unfold freeSingle
  split
  · rw [freePage_returnFrame]
    unfold returnFrame
    split
    · exact Or.inr ⟨_, rfl⟩
    · exact Or.inl rfl
  · exact Or.inl rfl

/-- The frames of pages that are present. -/
theorem returnFrames_count {pages : List Nat} {pmm : PhysicalMemoryManager}
    (hup : pmm.isInitialized = true) (hpresent : ∀ page ∈ pages, pageAt w page ≠ none) :
    CountedDown pmm (pages.foldl (returnFrame w) pmm) pages.length := by
  induction pages generalizing pmm with
  | nil => exact .start hup
  | cons page pages ih =>
    obtain ⟨entry, hentry⟩ := Option.ne_none_iff_exists'.mp (hpresent page List.mem_cons_self)
    have hreturn : returnFrame w pmm page = freeBlock pmm entry.frame := by
      unfold returnFrame
      rw [hentry]
    rw [List.foldl_cons, hreturn]
    exact .step hup (ih (freeBlock_up hup entry.frame) fun p hp =>
      hpresent p (List.mem_cons_of_mem _ hp))

/-- However the pages look, no more frames are given back than there are addresses. -/
theorem freeAddresses_count {l : List Nat} (hup : w.pmm.isInitialized = true) :
    ∃ n ≤ l.length, CountedDown w.pmm (freeAddresses freeSingle w l).pmm n := by
  induction l generalizing w with
  | nil => exact ⟨0, Nat.le_refl _, .start hup⟩
  | cons a l ih =>
    show ∃ n ≤ (a :: l).length,
      CountedDown w.pmm (freeAddresses freeSingle (freeSingle w a true) l).pmm n
    rcases freeSingle_pmm w a with hsame | ⟨block, hfreed⟩
    · obtain ⟨n, hn, hcount⟩ := ih (by rw [hsame]; exact hup)
      rw [hsame] at hcount
      exact ⟨n, Nat.le_succ_of_le hn, hcount⟩
    · obtain ⟨n, hn, hcount⟩ := ih (by rw [hfreed]; exact freeBlock_up hup block)
      rw [hfreed] at hcount
      exact ⟨n + 1, Nat.succ_le_succ hn, hcount.step hup⟩

/-! ## `contract` -/

theorem contractAddresses_nil {newSize fuel i : Nat} (h : i ≤ newSize) :
    contractAddresses newSize fuel i = [] := by
  cases fuel with
  | zero => rfl
  | succ fuel => exact if_neg (Nat.not_lt.mpr h)

/-- The addresses that `contract` frees lie above the new length, a page apart. -/
theorem contractAddresses_length {newSize : Nat} (hpos : 0x1000 ≤ newSize) (fuel : Nat) {i : Nat}
    (hi : i < 0x100000000) (hlt : newSize < i) :
    (contractAddresses newSize fuel i).length * 0x1000 + newSize < i + 0x1000 := by
  induction fuel generalizing i with
  | zero =>
    rw [contractAddresses, List.length_nil]
    omega
  | succ fuel ih =>
    have hdown : sub32 i 0x1000 = i - 0x1000 := sub32_of_le (by omega) hi
    rw [contractAddresses, if_pos hlt, hdown, List.length_cons]
    by_cases hstop : newSize < i - 0x1000
    · have hrest := ih (by omega) hstop
      rw [Nat.sub_add_cancel (by omega)] at hrest
      rw [Nat.succ_mul, Nat.add_right_comm]
      exact Nat.add_lt_add_right hrest _
    · rw [contractAddresses_nil (Nat.not_lt.mp hstop), List.length_nil, Nat.zero_add, Nat.one_mul,
        Nat.add_comm]
      exact Nat.add_lt_add_right hlt _

/-- Too few of them for the pages between the two ends. -/
theorem contractedAddresses_length {newSize : Nat} (hstart : s.heap.startAddress < 0x100000000)
    (hlower : contractedEnd s newSize < s.heap.endAddress) :
    (contractedAddresses s newSize).length * 0x1000 <
      s.heap.endAddress - contractedEnd s newSize := by
  have hmin := heapMinSize_le_contractedLength newSize
  unfold contractedAddresses
  dsimp only
  have hi := sub32_lt (sub32 s.heap.endAddress s.heap.startAddress) 0x1000
  by_cases hlt : contractedLength newSize <
      sub32 (sub32 s.heap.endAddress s.heap.startAddress) 0x1000
  · have hcount := contractAddresses_length (by omega)
      (sub32 (sub32 s.heap.endAddress s.heap.startAddress) 0x1000 / 0x1000 + 1) hi hlt
    refine Nat.lt_of_lt_of_le (Nat.lt_sub_of_add_lt hcount) ?_
    unfold contractedEnd at hlower ⊢
    unfold wrap32 sub32 at *
    omega
  · rw [contractAddresses_nil (Nat.not_lt.mp hlt), List.length_nil, Nat.zero_mul]
    omega

/-- The number of pages between the two ends. -/
theorem meetsEnd_card (hlower : newEnd < oldEnd) :
    oldEnd - newEnd ≤ (Finset.Icc (pageNumber newEnd) (pageNumber (oldEnd - 1))).card * 0x1000 := by
  rw [Nat.card_Icc]
  unfold pageNumber
  omega

/-- When the pages between the two ends have been returned, so many frames have. -/
theorem PagesReturned.count (h : PagesReturned w w' newEnd oldEnd) :
    CountedDown w.pmm w'.pmm (Finset.Icc (pageNumber newEnd) (pageNumber (oldEnd - 1))).card := by
  obtain ⟨pages, hnodup, hmem, hpmm⟩ := h.returned
  have hpages : pages.toFinset = Finset.Icc (pageNumber newEnd) (pageNumber (oldEnd - 1)) := by
    ext page
    rw [List.mem_toFinset, hmem, Finset.mem_Icc]
    exact Iff.rfl
  rw [← hpages, List.toFinset_card_of_nodup hnodup, hpmm]
  exact returnFrames_count h.manager fun page hpage => ((h.unmapped page).mpr ((hmem page).mp hpage)).1

/-- **`contract` never gives back all pages between the two ends.** It frees fewer addresses than
there are pages, so that the count of the manager does not go down far enough. -/
theorem Contracted.not_pagesReturned {newSize : Nat}
    (h : Contracted (pagingOps malloc) s newSize s') (hstart : s.heap.startAddress < 0x100000000)
    (hend : s.heap.endAddress < 0x100000000) (hlower : s'.heap.endAddress < s.heap.endAddress) :
    ¬ PagesReturned s.paging s'.paging s'.heap.endAddress s.heap.endAddress := by
  intro hreturned
  have hall := hreturned.count.blockUsed
  rw [h.endAddress] at hlower hall
  have hfewer := contractedAddresses_length hstart hlower
  have hcard := meetsEnd_card hlower
  have hle : (Finset.Icc (pageNumber (contractedEnd s newSize))
      (pageNumber (s.heap.endAddress - 1))).card ≤ 0x100000 := by
    rw [Nat.card_Icc]
    unfold pageNumber
    omega
  obtain ⟨n, hn, hcount⟩ := freeAddresses_count (l := contractedAddresses s newSize) hreturned.manager
  have hpaging : s'.paging = freeAddresses freeSingle s.paging (contractedAddresses s newSize) :=
    h.paging
  rw [hpaging] at hall
  have hsome := hcount.blockUsed
  omega

/-! ## `heap_manager_free_all` -/

/-- The loop is that of a range, up to the address before the end. -/
theorem freeAllLoop_eq (hpos : 0 < oldEnd) : ∀ (fuel a : Nat) (w : PagingWorld),
    freeAllLoop freeSingle oldEnd fuel a w =
      rangeLoop (fun w a => some (freeSingle w a true)) (oldEnd - 1) fuel a w
  | 0, _, _ => rfl
  | fuel + 1, a, w => by
    rw [freeAllLoop, rangeLoop]
    by_cases hlt : a < oldEnd
    · rw [if_pos hlt, if_pos (Nat.le_sub_one_of_lt hlt), Option.bind_some, freeAllLoop_eq hpos fuel]
    · rw [if_neg hlt, if_neg (by omega)]

theorem resetAddresses_eq {fuel a : Nat} (hends : RangeEnds a (oldEnd - 1)) (hpos : 0 < oldEnd)
    (hfuel : oldEnd ≤ a + fuel * 0x1000) :
    resetAddresses oldEnd fuel a = rangeAddresses a (oldEnd - 1) := by
  induction fuel generalizing a with
  | zero =>
    have hgt : ¬ a ≤ oldEnd - 1 := by omega
    rw [resetAddresses, rangeAddresses, if_neg hgt]
  | succ fuel ih =>
    by_cases hlt : a < oldEnd
    · unfold RangeEnds at hends
      have hnowrap : a + 0x1000 < 0x100000000 := by omega
      have hrest : RangeEnds (a + 0x1000) (oldEnd - 1) := by
        unfold RangeEnds
        omega
      rw [resetAddresses, if_pos hlt, wrap32_of_lt hnowrap, ih hrest (by omega),
        rangeAddresses_cons (Nat.le_sub_one_of_lt hlt)]
      congr 1
      unfold rangeAddresses
      by_cases hmore : a + 0x1000 ≤ oldEnd - 1
      · rw [if_pos hmore]
        congr 1
        omega
      · have hnone : (oldEnd - 1 - a) / 0x1000 = 0 := by omega
        rw [if_neg hmore, hnone, List.range'_zero]
    · have hgt : ¬ a ≤ oldEnd - 1 := by omega
      rw [resetAddresses, if_neg hlt, rangeAddresses, if_neg hgt]

/-- The addresses of a reset that returns. -/
theorem freedByReset_eq (hword : s.heap.endAddress < 0x100000000) (hpos : 0 < s.heap.endAddress)
    (h : heapManagerFreeAll (pagingOps malloc) s = some s')
    (hstatus : s.heap.status = .initialized)
    (hlong : heapMinSize < sub32 s.heap.endAddress s.heap.startAddress) :
    freedByReset s = rangeAddresses (resetEnd s) (s.heap.endAddress - 1) := by
  have hstart : resetEnd s < 0x100000000 := wrap32_lt _
  rw [freedByReset, if_pos hlong]
  refine resetAddresses_eq ?_ hpos (by omega)
  unfold heapManagerFreeAll at h
  rw [if_neg (not_not.mpr hstatus)] at h
  dsimp only at h
  rw [if_pos hlong] at h
  obtain ⟨paging, hpaging, -⟩ := Option.map_eq_some_iff.mp h
  -- without an end the loop would not have returned
  by_contra hwraps
  unfold RangeEnds at hwraps
  have hloop := freeAllLoop_eq hpos 0x100001 (resetEnd s) s.paging
  rw [rangeLoop_endless hstart (by omega) (by omega)] at hloop
  cases hloop.symm.trans hpaging

/-- **When `heap_manager_free_all` gives back the pages between the two ends.** -/
theorem ResetDone.pagesReturned_iff (h : ResetDone (pagingOps malloc) s s')
    (hapart : TablesApart s.paging) (hlower : resetEnd s < s.heap.endAddress)
    (hfreed : heapMinSize < sub32 s.heap.endAddress s.heap.startAddress →
      freedByReset s = rangeAddresses (resetEnd s) (s.heap.endAddress - 1)) :
    PagesReturned s.paging s'.paging s'.heap.endAddress s.heap.endAddress ↔ ResetOk s := by
  have hpaging : s'.paging = freeAddresses freeSingle s.paging (freedByReset s) := h.paging
  have hle : resetEnd s ≤ s.heap.endAddress - 1 := Nat.le_sub_one_of_lt hlower
  have hfirst : MeetsEnd (resetEnd s) s.heap.endAddress (pageNumber (resetEnd s)) :=
    ⟨Nat.le_refl _, Nat.div_le_div_right hle⟩
  have hlast : MeetsEnd (resetEnd s) s.heap.endAddress (pageNumber (s.heap.endAddress - 1)) :=
    ⟨Nat.div_le_div_right hle, Nat.le_refl _⟩
  -- the addresses that are freed lie between the two ends
  have hbetween : ∀ a ∈ rangeAddresses (resetEnd s) (s.heap.endAddress - 1),
      MeetsEnd (resetEnd s) s.heap.endAddress (pageNumber a) := by
    intro a ha
    obtain ⟨hlow, hhigh, -⟩ := mem_rangeAddresses.mp ha
    exact ⟨Nat.div_le_div_right hlow, Nat.div_le_div_right hhigh⟩
  rw [h.endAddress, hpaging]
  constructor
  · intro hreturned
    obtain ⟨hbefore, hafter⟩ := (hreturned.unmapped _).mpr hfirst
    have hup : s.paging.isInitialized = true := by
      by_contra hdown
      rw [freeAddresses_down hdown] at hafter
      exact hbefore hafter
    have hlong : heapMinSize < sub32 s.heap.endAddress s.heap.startAddress := by
      by_contra hshort
      rw [freedByReset, if_neg hshort] at hafter
      exact hbefore hafter
    refine ⟨hup, hreturned.manager, hlong, ?_,
      fun page hpage => ((hreturned.unmapped page).mpr hpage).1, hreturned.blocks⟩
    obtain ⟨hpresent, habsent⟩ := (hreturned.unmapped _).mpr hlast
    rw [hfreed hlong, (freeAddresses_pages hup hapart fun _ a ha =>
      hreturned.blocks a (hbetween a ha)).2] at habsent
    by_contra hoffset
    rw [if_neg] at habsent
    · exact hpresent habsent
    · rw [mem_rangePages hle]
      unfold pageNumber
      omega
  · intro hok
    have hmem : ∀ page, page ∈ (rangeAddresses (resetEnd s) (s.heap.endAddress - 1)).map pageNumber ↔
        MeetsEnd (resetEnd s) s.heap.endAddress page := by
      intro page
      have hoffset := hok.offset
      rw [mem_rangePages hle]
      unfold MeetsEnd pageNumber
      omega
    have hblocks : FreesBlocks s.paging (rangeAddresses (resetEnd s) (s.heap.endAddress - 1)) :=
      fun _ a ha => hok.blocks a (hbetween a ha)
    obtain ⟨hflags, hpages⟩ := freeAddresses_pages hok.isInitialized hapart hblocks
    rw [hfreed hok.long]
    refine ⟨fun page => ?_, hok.manager, hok.blocks, ⟨_, rangeAddresses_pages _ _, hmem, ?_⟩,
      fun a ha => ?_⟩
    · rw [hpages]
      constructor
      · rintro ⟨hpresent, habsent⟩
        by_contra hout
        rw [if_neg fun hin => hout ((hmem page).mp hin)] at habsent
        exact hpresent habsent
      · intro hpage
        exact ⟨hok.present page hpage, if_pos ((hmem page).mpr hpage)⟩
    · exact freeAddresses_pmm hok.isInitialized hapart hblocks (rangeAddresses_pages _ _)
    · refine virtual2Physical_page hflags ?_
      rw [hpages, if_neg fun hin => ha ((hmem _).mp hin)]

/-- A heap from 0xC0481000 to 0xC0500000 in one block that is in use, in a slot of which every page
is present. The 1024 frames of the slot are all that the manager has. -/
def mappedKernel : Kernel :=
  let pmm := (freshKernel 0xC0200000 0x400000).paging.pmm
  { freshKernel 0xC0200000 0x400000 with
    heap :=
      { bootHeap 0xC0200000 with
        status := .initialized, startAddress := 0xC0481000, endAddress := 0xC0500000
        maxEndAddress := 0xC0600000, heapArray := orderedArrayInit heapIndexSize }
    mem := writeFooter (writeHeader (fun _ => 0) 0xC0481000 0x7F000 0) 0xC04FFFF8 0xC0481000
    paging :=
      { (freshKernel 0xC0200000 0x400000).paging with
        pmm :=
          { pmm with
            bitmap := { pmm.bitmap with array := fun _ => BitVec.allOnes 32 }
            blockUsed := 1024 }
        directory :=
          { tables := Function.update clearedDirectory.tables 769 ⟨true, true, false, false, 0x200⟩
            refTables := Function.update clearedDirectory.refTables 769 0xC0200000 }
        tables := fun _ i => ⟨true, true, false, i⟩ } }

theorem mappedKernel_apart : TablesApart mappedKernel.paging := by
  intro i j hi hij
  have hslot : ∀ k, Function.update (fun _ => 0) 769 0xC0200000 k ≠ 0 → k = 769 := by
    intro k hk
    by_contra hne
    rw [Function.update_of_ne hne] at hk
    exact hk rfl
  exact (hslot i hi).trans (hslot j (fun hj => hi (hij.trans hj))).symm

theorem mappedKernel_page {page : Nat} (hslot : page / 1024 = 769) :
    pageAt mappedKernel.paging page = some ⟨true, true, false, page % 1024⟩ := by
  have href : mappedKernel.paging.directory.refTables (page / 1024) = 0xC0200000 := by
    rw [hslot]
    rfl
  rw [pageAt_of_table href (by decide)]
  exact if_pos rfl

theorem mappedKernel_blocks {address : Nat} (hslot : pageNumber address / 1024 = 769) :
    FreesInside mappedKernel.paging address true := by
  intro _ entry hentry
  obtain rfl := Option.some.inj ((mappedKernel_page hslot).symm.trans hentry)
  have hcount : ∀ block, isValidBlock mappedKernel.paging.pmm block = decide (block / 32 < 32) :=
    fun _ => rfl
  rw [hcount, decide_eq_true_eq]
  show pageNumber address % 1024 / 32 < 32
  omega

end Xylophone
