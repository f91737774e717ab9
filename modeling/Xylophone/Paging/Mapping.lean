import Xylophone.Infra.Run
import Xylophone.Paging.Manager

/-!
# The mapping that the page tables describe

The page tables are a partial function from page numbers to page entries, `pageAt`. Every
operation of the paging manager changes that function at one page at a time:

* `allocatePage_cases` — all that `allocate_page` can do
* `freePage_pages` — `free_page` makes one page absent
* `PagingCall.run` — a call of the paging manager is a run of such steps
-/

namespace Xylophone

open Infra

/-! ## Pages -/

/-- The number of the page an address lies in. -/
def pageNumber (address : Nat) : Nat := address / 0x1000

theorem pageDirIdx_eq (address : Nat) : pageDirIdx address = pageNumber address / 1024 := by
  unfold pageDirIdx pageNumber
  rw [Nat.shiftRight_eq_div_pow, Nat.div_div_eq_div_mul]

theorem pageTblIdx_eq (address : Nat) : pageTblIdx address = pageNumber address % 1024 := by
  unfold pageTblIdx pageNumber
  rw [Nat.shiftRight_eq_div_pow]
  exact and_low10 _

/-- The entry of a page, when the page is present. -/
def pageAt (w : PagingWorld) (page : Nat) : Option PageEntry :=
  let table := w.directory.refTables (page / 1024)
  if table ≠ 0 ∧ (w.tables table (page % 1024)).present = true then
    some (w.tables table (page % 1024))
  else none

/-- No two slots share a page table. -/
def TablesApart (w : PagingWorld) : Prop :=
  ∀ i j, w.directory.refTables i ≠ 0 → w.directory.refTables i = w.directory.refTables j → i = j

/-- The entry that `allocate_page` writes. -/
def newEntry (frame : Nat) (isKernel isWriteable : Bool) : PageEntry where
  present := true
  rw := isWriteable
  user := !isKernel
  frame := frame % 0x100000

variable {w w' : PagingWorld} {page slot table frame : Nat} {isKernel isWriteable : Bool}

theorem pageAt_of_noTable (h : w.directory.refTables (page / 1024) = 0) : pageAt w page = none := by
  unfold pageAt
  rw [if_neg]
  exact fun hc => hc.1 h

theorem pageAt_of_table (h : w.directory.refTables (page / 1024) = table) (hne : table ≠ 0) :
    pageAt w page =
      if (w.tables table (page % 1024)).present = true then some (w.tables table (page % 1024))
      else none := by
  subst h
  unfold pageAt
  simp only [ne_eq, hne, not_false_eq_true, true_and]

/-- The tables and the pointers to them are all that `pageAt` reads. -/
theorem pageAt_congr (htables : w'.tables = w.tables)
    (href : w'.directory.refTables = w.directory.refTables) :
    pageAt w' = pageAt w := by
  funext page
  unfold pageAt
  rw [htables, href]

theorem pageAt_cleared (h : w.directory = clearedDirectory) : pageAt w = fun _ => none := by
  funext page
  exact pageAt_of_noTable (by rw [h]; rfl)

/-- Translation, once paging is enabled. -/
theorem virtual2Physical_enabled (h : w.isEnabled = true) (address : Nat) :
    virtual2Physical w address =
      match pageAt w (pageNumber address) with
      | some entry => wrap32 (entry.frame <<< 12 + address % 0x1000)
      | none => 0 := by
  unfold virtual2Physical
  rw [if_neg (by simp [h])]
  simp only [pageDirIdx_eq, pageTblIdx_eq, and_low12]
  by_cases htable : w.directory.refTables (pageNumber address / 1024) = 0
  · rw [if_pos htable, pageAt_of_noTable htable]
  · rw [if_neg htable, pageAt_of_table rfl htable]
    cases (w.tables (w.directory.refTables (pageNumber address / 1024))
      (pageNumber address % 1024)).present <;> rfl

/-! ## Writing one entry -/

/-- A write to one entry of one page table, seen through `pageAt`. -/
theorem pageAt_update (hapart : TablesApart w) (href : w.directory.refTables (page / 1024) = table)
    (hne : table ≠ 0) (hdir : w'.directory = w.directory) {entry : PageEntry}
    (htables : w'.tables = Function.update w.tables table
      (Function.update (w.tables table) (page % 1024) entry)) :
    pageAt w' = Function.update (pageAt w) page (if entry.present = true then some entry else none) := by
  funext q
  by_cases hq : q = page
  · subst hq
    rw [Function.update_self, pageAt_of_table (by rw [hdir]; exact href) hne, htables,
      Function.update_self, Function.update_self]
  · rw [Function.update_of_ne hq]
    unfold pageAt
    rw [hdir, htables]
    by_cases hsame : w.directory.refTables (q / 1024) = table
    · -- another entry of the same page table
      have hslot : q / 1024 = page / 1024 := hapart _ _ (by rw [hsame]; exact hne) (hsame.trans href.symm)
      have hmod : q % 1024 ≠ page % 1024 := by
        intro hmod
        exact hq (by omega)
      simp only [hsame, Function.update_self, Function.update_of_ne hmod]
    · simp only [Function.update_of_ne hsame]

theorem setPage_pages (hapart : TablesApart w) (href : w.directory.refTables (page / 1024) = table)
    (hne : table ≠ 0) :
    pageAt (setPage w table (page % 1024) frame isKernel isWriteable)
      = Function.update (pageAt w) page (some (newEntry frame isKernel isWriteable)) :=
  @pageAt_update w (setPage w table (page % 1024) frame isKernel isWriteable) page table hapart href
    hne rfl (newEntry frame isKernel isWriteable) rfl

/-- `free_page` on a page that is absent. -/
theorem freePage_absent {address : Nat} (shouldFree : Bool)
    (h : pageAt w (pageNumber address) = none) :
    freePage w address shouldFree = w := by
  unfold freePage
  rw [pageDirIdx_eq, pageTblIdx_eq]
  by_cases htable : w.directory.refTables (pageNumber address / 1024) = 0
  · rw [if_pos htable]
  · rw [pageAt_of_table rfl htable] at h
    rw [if_neg htable, if_pos]
    by_contra hpresent
    simp only [Bool.not_eq_true', Bool.not_eq_false] at hpresent
    rw [if_pos hpresent] at h
    cases h

/-- The frame that `free_page` gives back is a block of the manager. -/
def FreesInside (w : PagingWorld) (address : Nat) (shouldFree : Bool) : Prop :=
  shouldFree = true → ∀ entry, pageAt w (pageNumber address) = some entry →
    isValidBlock w.pmm entry.frame = true

theorem freesInside_false {address : Nat} : FreesInside w address false := fun h => by cases h

/-- A block of the manager is given back to it, and nothing else changes. -/
theorem giveBack_valid {block : Nat} (h : isValidBlock w.pmm block = true) :
    giveBack w block = { w with pmm := freeBlock w.pmm block } := by
  unfold giveBack
  rw [h, Bool.not_true, Bool.and_false]
  rfl

/-- What `giveBack` does to the manager and leaves of the flags. -/
theorem giveBack_same (w : PagingWorld) (block : Nat) :
    (giveBack w block).pmm = freeBlock w.pmm block ∧
      (giveBack w block).isInitialized = w.isInitialized ∧
      (giveBack w block).hasHeapManager = w.hasHeapManager ∧
      (giveBack w block).isEnabled = w.isEnabled := by
  unfold giveBack
  simp only []
  split <;> exact ⟨rfl, rfl, rfl, rfl⟩

/-- `free_page` on a page that is present. -/
theorem freePage_some {address : Nat} (shouldFree : Bool) {entry : PageEntry}
    (h : pageAt w (pageNumber address) = some entry) :
    ∃ table, w.directory.refTables (pageNumber address / 1024) = table ∧ table ≠ 0 ∧
      freePage w address shouldFree =
        clearPage (if shouldFree then giveBack w entry.frame else w) table
          (pageNumber address % 1024) := by
  have htable : w.directory.refTables (pageNumber address / 1024) ≠ 0 := by
    intro hno
    rw [pageAt_of_noTable hno] at h
    cases h
  rw [pageAt_of_table rfl htable] at h
  split at h
  · next hpresent =>
    obtain rfl := Option.some.inj h
    refine ⟨_, rfl, htable, ?_⟩
    unfold freePage
    rw [pageDirIdx_eq, pageTblIdx_eq, if_neg htable, if_neg (by simp [hpresent])]
  · cases h

theorem clearPage_pages (hapart : TablesApart w)
    (href : w.directory.refTables (page / 1024) = table) (hne : table ≠ 0) :
    pageAt (clearPage w table (page % 1024)) = Function.update (pageAt w) page none :=
  @pageAt_update w (clearPage w table (page % 1024)) page table hapart href hne rfl
    { w.tables table (page % 1024) with present := false, frame := 0 } rfl

/-- What becomes of the manager, also where the frame is none of its blocks. -/
theorem freePage_pmm {address : Nat} (shouldFree : Bool) {entry : PageEntry}
    (h : pageAt w (pageNumber address) = some entry) :
    (freePage w address shouldFree).pmm =
      if shouldFree then freeBlock w.pmm entry.frame else w.pmm := by
  obtain ⟨table, -, -, hfree⟩ := freePage_some shouldFree h
  rw [hfree]
  cases shouldFree with
  | false => rfl
  | true => exact (giveBack_same w entry.frame).1

/-- What becomes of the page and of the manager. -/
theorem freePage_present {address : Nat} {shouldFree : Bool} {entry : PageEntry}
    (hapart : TablesApart w) (hinside : FreesInside w address shouldFree)
    (h : pageAt w (pageNumber address) = some entry) :
    pageAt (freePage w address shouldFree) = Function.update (pageAt w) (pageNumber address) none ∧
      (freePage w address shouldFree).pmm =
        (if shouldFree then freeBlock w.pmm entry.frame else w.pmm) := by
  refine ⟨?_, freePage_pmm shouldFree h⟩
  obtain ⟨table, htable, hne, hfree⟩ := freePage_some shouldFree h
  rw [hfree]
  cases shouldFree with
  | false => exact clearPage_pages hapart htable hne
  | true =>
    rw [if_pos rfl, giveBack_valid (hinside rfl entry h)]
    exact clearPage_pages hapart htable hne

/-- The flags are left alone by `free_page`. -/
theorem freePage_flags (w : PagingWorld) (address : Nat) (shouldFree : Bool) :
    (freePage w address shouldFree).isInitialized = w.isInitialized ∧
      (freePage w address shouldFree).hasHeapManager = w.hasHeapManager ∧
      (freePage w address shouldFree).isEnabled = w.isEnabled := by
  cases h : pageAt w (pageNumber address) with
  | none =>
    rw [freePage_absent shouldFree h]
    exact ⟨rfl, rfl, rfl⟩
  | some entry =>
    obtain ⟨table, -, -, hfree⟩ := freePage_some shouldFree h
    rw [hfree]
    cases shouldFree with
    | false => exact ⟨rfl, rfl, rfl⟩
    | true => exact (giveBack_same w entry.frame).2

/-- The directory is left alone by `free_page`. -/
theorem freePage_directory {address : Nat} {shouldFree : Bool}
    (hinside : FreesInside w address shouldFree) :
    (freePage w address shouldFree).directory = w.directory := by
  cases h : pageAt w (pageNumber address) with
  | none => rw [freePage_absent shouldFree h]
  | some entry =>
    obtain ⟨table, -, -, hfree⟩ := freePage_some shouldFree h
    rw [hfree]
    cases shouldFree with
    | false => rfl
    | true =>
      rw [if_pos rfl, giveBack_valid (hinside rfl entry h)]
      rfl

/-- **`free_page` makes its page absent and changes no other.** -/
theorem freePage_pages {address : Nat} {shouldFree : Bool} (hapart : TablesApart w)
    (hinside : FreesInside w address shouldFree) :
    pageAt (freePage w address shouldFree) = Function.update (pageAt w) (pageNumber address) none := by
  cases h : pageAt w (pageNumber address) with
  | none =>
    rw [freePage_absent shouldFree h, ← h, Function.update_eq_self]
  | some entry => exact (freePage_present hapart hinside h).1

theorem isValidBlock_freeBlock (pmm : PhysicalMemoryManager) (block freed : Nat) :
    isValidBlock (freeBlock pmm freed) block = isValidBlock pmm block := by
  unfold freeBlock
  split <;> rfl

/-- The frames of the other pages are left where they are. -/
theorem FreesInside.freed {address other : Nat} {shouldFree : Bool}
    (h : FreesInside w other shouldFree) (hapart : TablesApart w)
    (hinside : FreesInside w address shouldFree) :
    FreesInside (freePage w address shouldFree) other shouldFree := by
  intro hfree entry hentry
  subst hfree
  rw [freePage_pages hapart hinside] at hentry
  by_cases hsame : pageNumber other = pageNumber address
  · rw [hsame, Function.update_self] at hentry
    cases hentry
  · rw [Function.update_of_ne hsame] at hentry
    have hvalid := h rfl entry hentry
    cases hpage : pageAt w (pageNumber address) with
    | none => rwa [freePage_absent true hpage]
    | some old => rwa [freePage_pmm true hpage, if_pos rfl, isValidBlock_freeBlock]

/-! ## The page table of a slot -/

/-- What the page tables look like once the slot has one. -/
inductive TableReady (w w' : PagingWorld) (slot table : Nat) (isKernel isWriteable : Bool) :
    Prop where
  | old (ref : w.directory.refTables slot = table) (ne : table ≠ 0) (same : w' = w)
  | new (absent : w.directory.refTables slot = 0) (ne : table ≠ 0)
    (fresh : ∀ i, w.directory.refTables i ≠ table)
    (install : w' = installTable w slot table isKernel isWriteable)

/-- A page table that is taken for the slot is a new one, and nothing else changes. -/
def FreshTable (malloc : TableSource) (s : Kernel) (slot : Nat) : Prop :=
  s.paging.directory.refTables slot = 0 → ∀ s₁ table, malloc s = some (s₁, table) →
    s₁.paging = s.paging ∧ table ≠ 0 ∧ ∀ i, s.paging.directory.refTables i ≠ table

theorem TableReady.ref (h : TableReady w w' slot table isKernel isWriteable) :
    w'.directory.refTables slot = table ∧ table ≠ 0 := by
  cases h with
  | old ref ne same => exact ⟨by rw [same]; exact ref, ne⟩
  | new _ ne _ install =>
    rw [install]
    exact ⟨Function.update_self .., ne⟩

theorem TableReady.apart (h : TableReady w w' slot table isKernel isWriteable)
    (hapart : TablesApart w) :
    TablesApart w' := by
  cases h with
  | old _ _ same => rwa [same]
  | new absent ne fresh install =>
    rw [install]
    intro i j hi he
    simp only [installTable] at hi he
    by_cases hi' : i = slot
    · by_cases hj' : j = slot
      · rw [hi', hj']
      · rw [hi', Function.update_self, Function.update_of_ne hj'] at he
        exact absurd he.symm (fresh j)
    · rw [Function.update_of_ne hi'] at hi he
      by_cases hj' : j = slot
      · rw [hj', Function.update_self] at he
        exact absurd he (fresh i)
      · rw [Function.update_of_ne hj'] at he
        exact hapart i j hi he

/-- A new page table is empty, so no page changes. -/
theorem TableReady.pages (h : TableReady w w' slot table isKernel isWriteable) :
    pageAt w' = pageAt w := by
  cases h with
  | old _ _ same => rw [same]
  | new absent ne fresh install =>
    rw [install]
    funext q
    by_cases hq : q / 1024 = slot
    · rw [pageAt_of_noTable (w := w) (by rw [hq]; exact absent)]
      unfold pageAt
      simp only [installTable, hq, Function.update_self]
      rw [if_neg]
      exact fun hc => by cases hc.2
    · unfold pageAt
      simp only [installTable, Function.update_of_ne hq, Function.update_of_ne (fresh (q / 1024))]

theorem TableReady.same (h : TableReady w w' slot table isKernel isWriteable) :
    w'.pmm = w.pmm ∧ w'.isInitialized = w.isInitialized ∧ w'.hasHeapManager = w.hasHeapManager ∧
      w'.isEnabled = w.isEnabled := by
  cases h with
  | old _ _ same =>
    rw [same]
    exact ⟨rfl, rfl, rfl, rfl⟩
  | new _ _ _ install =>
    rw [install]
    exact ⟨rfl, rfl, rfl, rfl⟩

/-! ## The page -/

/-- All that `allocate_page` can do to a page, once the slot has a page table. -/
inductive PageMapped (w w' : PagingWorld) (page frame : Nat) (isKernel isWriteable : Bool) :
    Prop where
  | kept (entry : PageEntry) (present : pageAt w page = some entry) (same : w' = w)
  | explicit (absent : pageAt w page = none) (frame_ne : frame ≠ 0)
    (pages : pageAt w' = Function.update (pageAt w) page (some (newEntry frame isKernel isWriteable)))
    (pmm : w'.pmm = w.pmm)
  | taken (block : Nat) (absent : pageAt w page = none) (frame_eq : frame = 0)
    (lt : block < w.pmm.bitmap.bitCount) (free : block ∉ w.pmm.bitmap.bits)
    (first : ∀ j, j < block → j ∈ w.pmm.bitmap.bits)
    (pages : pageAt w' = Function.update (pageAt w) page (some (newEntry block isKernel isWriteable)))
    (pmm : w'.pmm = takeBlock w.pmm block)
  | exhausted (absent : pageAt w page = none) (frame_eq : frame = 0)
    (full : w.pmm.bitmap.bits = Finset.range w.pmm.bitmap.bitCount)
    (same : w' = { w with pmm := { w.pmm with failed := true } })

theorem ensurePage_cases {address : Nat} (hapart : TablesApart w) (hready : PmmReady w.pmm)
    (href : w.directory.refTables (pageNumber address / 1024) = table) (hne : table ≠ 0)
    (h : ensurePage w table address frame isKernel isWriteable = some w') :
    PageMapped w w' (pageNumber address) frame isKernel isWriteable ∧
      w'.directory = w.directory ∧ w'.isInitialized = w.isInitialized ∧
      w'.hasHeapManager = w.hasHeapManager ∧ w'.isEnabled = w.isEnabled := by
  have hat := @pageAt_of_table w (pageNumber address) table href hne
  unfold ensurePage at h
  simp only [pageTblIdx_eq] at h
  split at h
  · next hpresent =>
    rw [if_pos hpresent] at hat
    obtain rfl := Option.some.inj h
    exact ⟨.kept _ hat rfl, rfl, rfl, rfl, rfl⟩
  · next hpresent =>
    rw [if_neg hpresent] at hat
    split at h
    · next hframe =>
      obtain rfl := Option.some.inj h
      exact ⟨.explicit hat hframe (setPage_pages hapart href hne) rfl, rfl, rfl, rfl, rfl⟩
    · next hframe =>
      have hzero : frame = 0 := by simpa using hframe
      rcases allocateBlock_cases hready with ⟨block, hlt, hfree, hfirst, halloc⟩ | ⟨hfull, halloc⟩
      · rw [halloc] at h
        have hvalid := @isValidBlock_of_lt _ (takeBlock_ready hready block) block hlt
        rw [if_pos hvalid] at h
        obtain rfl := Option.some.inj h
        refine ⟨.taken block hat hzero hlt hfree hfirst ?_ rfl, rfl, rfl, rfl, rfl⟩
        exact setPage_pages (w := { w with pmm := takeBlock w.pmm block }) hapart href hne
      · rw [halloc] at h
        simp only [] at h
        rw [if_neg (by rw [isValidBlock_noBlock hready]; simp)] at h
        split at h
        · obtain rfl := Option.some.inj h
          exact ⟨.exhausted hat hzero hfull rfl, rfl, rfl, rfl, rfl⟩
        · cases h

theorem PageMapped.apart {w w' : PagingWorld} (hdir : w'.directory = w.directory)
    (hapart : TablesApart w) :
    TablesApart w' := by
  unfold TablesApart at *
  rw [hdir]
  exact hapart

/-- Everything that `allocate_page` can do when a page table it takes is a new one. -/
structure PageAllocated (malloc : TableSource) (s s' : Kernel) (address frame : Nat)
    (isKernel isWriteable : Bool) : Prop where
  /-- The page table comes first, the page second. -/
  steps : ∃ w₁ table,
    TableReady s.paging w₁ (pageNumber address / 1024) table isKernel isWriteable ∧
      PageMapped w₁ s'.paging (pageNumber address) frame isKernel isWriteable ∧
      s'.paging.directory = w₁.directory
  apart : TablesApart s'.paging
  isInitialized : s'.paging.isInitialized = s.paging.isInitialized
  hasHeapManager : s'.paging.hasHeapManager = s.paging.hasHeapManager
  isEnabled : s'.paging.isEnabled = s.paging.isEnabled
  /-- The heap is used only when the slot has no page table yet. -/
  heap : (s.paging.directory.refTables (pageNumber address / 1024) ≠ 0 ∧ s'.heap = s.heap ∧
      s'.mem = s.mem) ∨
    (s.paging.directory.refTables (pageNumber address / 1024) = 0 ∧
      ∃ s₁ table, malloc s = some (s₁, table) ∧ s'.heap = s₁.heap ∧ s'.mem = s₁.mem ∧
        s'.paging.directory.refTables =
          Function.update s.paging.directory.refTables (pageNumber address / 1024) table)

/-- The page table of the slot: the one that is there, or a new one from the heap. -/
theorem ensureTable_cases {malloc : TableSource} {s s₁ : Kernel} {address table : Nat}
    (hfresh : FreshTable malloc s (pageNumber address / 1024))
    (h : ensureTable malloc s address isKernel isWriteable = some (s₁, table)) :
    TableReady s.paging s₁.paging (pageNumber address / 1024) table isKernel isWriteable ∧
      ((s.paging.directory.refTables (pageNumber address / 1024) ≠ 0 ∧ s₁ = s) ∨
      (s.paging.directory.refTables (pageNumber address / 1024) = 0 ∧
        ∃ s₂, malloc s = some (s₂, table) ∧ s₁.heap = s₂.heap ∧ s₁.mem = s₂.mem ∧
          s₁.paging.directory.refTables =
            Function.update s.paging.directory.refTables (pageNumber address / 1024) table)) := by
  unfold ensureTable at h
  rw [pageDirIdx_eq] at h
  simp only [] at h
  split at h
  · next hnone =>
    obtain ⟨⟨s₂, table'⟩, hmalloc, heq⟩ := Option.map_eq_some_iff.mp h
    obtain ⟨hpaging, hne, hnew⟩ := hfresh hnone s₂ table' hmalloc
    obtain ⟨rfl, rfl⟩ := Prod.mk.inj heq
    simp only [hpaging]
    exact ⟨.new hnone hne hnew rfl, Or.inr ⟨hnone, s₂, hmalloc, rfl, rfl, rfl⟩⟩
  · next hsome =>
    obtain ⟨rfl, rfl⟩ := Prod.mk.inj (Option.some.inj h)
    exact ⟨.old rfl hsome rfl, Or.inl ⟨hsome, rfl⟩⟩

/-- The two halves of `allocate_page`. -/
theorem allocatePage_halves {malloc : TableSource} {s s' : Kernel} {address : Nat}
    (h : allocatePage malloc s address frame isKernel isWriteable = some s') :
    ∃ s₁ table w, ensureTable malloc s address isKernel isWriteable = some (s₁, table) ∧
      ensurePage s₁.paging table address frame isKernel isWriteable = some w ∧
      { s₁ with paging := w } = s' := by
  obtain ⟨⟨s₁, table⟩, hensure, h⟩ := Option.bind_eq_some_iff.mp h
  obtain ⟨w, hpage, hs'⟩ := Option.map_eq_some_iff.mp h
  exact ⟨s₁, table, w, hensure, hpage, hs'⟩

theorem allocatePage_cases {malloc : TableSource} {s s' : Kernel} {address : Nat}
    (hapart : TablesApart s.paging) (hready : PmmReady s.paging.pmm)
    (hfresh : FreshTable malloc s (pageNumber address / 1024))
    (h : allocatePage malloc s address frame isKernel isWriteable = some s') :
    PageAllocated malloc s s' address frame isKernel isWriteable := by
  obtain ⟨s₁, table, w', hensure, hpage, rfl⟩ := allocatePage_halves h
  obtain ⟨hready', hheap⟩ := ensureTable_cases hfresh hensure
  have hapart' := hready'.apart hapart
  obtain ⟨hpmm, hinit, hmanager, henabled⟩ := hready'.same
  obtain ⟨href, hne⟩ := hready'.ref
  obtain ⟨hmapped, hdir, hinit', hmanager', henabled'⟩ :=
    ensurePage_cases hapart' (by rw [hpmm]; exact hready) href hne hpage
  refine ⟨⟨_, table, hready', hmapped, hdir⟩, PageMapped.apart hdir hapart', hinit'.trans hinit,
    hmanager'.trans hmanager, henabled'.trans henabled, ?_⟩
  rcases hheap with ⟨hne', rfl⟩ | ⟨hnone, s₂, hmalloc, hh, hm, hr⟩
  · exact Or.inl ⟨hne', rfl, rfl⟩
  · exact Or.inr ⟨hnone, s₂, table, hmalloc, hh, hm, by rw [hdir]; exact hr⟩

end Xylophone
