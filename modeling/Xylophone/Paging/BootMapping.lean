import Mathlib.Order.Interval.Finset.Nat
import Xylophone.Paging.Frames

/-!
# The boot mapping

`kernel_main` maps the kernel with one `paging_manager_allocate_range(0xC0000000, end)` before
paging is on, and then switches to the new directory. Nothing says which frame a page gets; the
pages get the frames 0, 1, 2, ... because the loop over the addresses and the first-fit search of
the physical memory manager move in step.

* `boot_mapping` — a mapped address translates to itself minus `0xC0000000`, and the directory has
  an entry for its page table, which names the table's address minus `0xC0000000`.
-/

namespace Xylophone

open Infra

/-- The slots that hold the pages from `0xC0000000` up to `endAddress`. -/
def bootSlots (endAddress : Nat) : Finset Nat := Finset.Icc 768 (pageNumber endAddress / 1024)

/-- The number of pages from `0xC0000000` up to `endAddress`. -/
def bootPages (endAddress : Nat) : Nat :=
  if 0xC0000000 ≤ endAddress then (endAddress - 0xC0000000) / 0x1000 + 1 else 0

/-! ## A page can be mapped -/

variable {s s' : Kernel} {isKernel isWriteable : Bool}

theorem ensurePage_isSome {w : PagingWorld} (table address : Nat) (hready : PmmReady w.pmm)
    {block : Nat}
    (hlt : block < w.pmm.bitmap.bitCount) (hfree : block ∉ w.pmm.bitmap.bits) :
    ∃ w', ensurePage w table address 0 isKernel isWriteable = some w' := by
  unfold ensurePage
  simp only []
  split
  · exact ⟨_, rfl⟩
  · rw [if_neg (by simp)]
    rcases allocateBlock_cases hready with ⟨b, hb, -, -, halloc⟩ | ⟨hfull, -⟩
    · rw [halloc]
      rw [if_pos (@isValidBlock_of_lt _ (takeBlock_ready hready b) b hb)]
      exact ⟨_, rfl⟩
    · rw [hfull] at hfree
      exact absurd (Finset.mem_range.mpr hlt) hfree

/-- With a bootstrapped heap and a free block `allocate_page` returns. -/
theorem allocatePage_isSome (fuel address : Nat) (hstatus : s.heap.status = .bootstraped)
    (hready : PmmReady s.paging.pmm) {block : Nat} (hlt : block < s.paging.pmm.bitmap.bitCount)
    (hfree : block ∉ s.paging.pmm.bitmap.bits) :
    ∃ s', allocatePage (heapTables (fuel + 1)) s address 0 isKernel isWriteable = some s' := by
  have hensure : ∃ s₁ table, ensureTable (heapTables (fuel + 1)) s address isKernel isWriteable =
      some (s₁, table) ∧ s₁.paging.pmm = s.paging.pmm := by
    unfold ensureTable
    simp only []
    split
    · rw [heapTables_boot fuel hstatus]
      exact ⟨_, _, rfl, rfl⟩
    · exact ⟨_, _, rfl, rfl⟩
  obtain ⟨s₁, table, hs₁, hpmm⟩ := hensure
  obtain ⟨w', hw'⟩ := @ensurePage_isSome isKernel isWriteable s₁.paging table address
    (by rw [hpmm]; exact hready) _
    (by rw [hpmm]; exact hlt) (by rw [hpmm]; exact hfree)
  refine ⟨{ s₁ with paging := w' }, ?_⟩
  unfold allocatePage
  rw [hs₁, Option.bind_some, hw']
  rfl

/-! ## The loop -/

/-- A page table is entered in the directory with its address minus `0xC0000000`. -/
structure TableEntered (directory : PageDirectory) (slot : Nat) : Prop where
  present : directory.refTables slot ≠ 0 → (directory.tables slot).present = true
  address : (directory.tables slot).present = true →
    (directory.tables slot).frame * 0x1000 + 0xC0000000 = directory.refTables slot

/-- The entry and the pointer of the slot are all that counts. -/
theorem TableEntered.congr {directory directory' : PageDirectory} {slot : Nat}
    (h : TableEntered directory slot) (htables : directory'.tables slot = directory.tables slot)
    (hrefs : directory'.refTables slot = directory.refTables slot) : TableEntered directory' slot := by
  constructor
  · rw [htables, hrefs]
    exact h.present
  · rw [htables, hrefs]
    exact h.address

theorem TableEntered.frame {directory : PageDirectory} {slot : Nat}
    (h : TableEntered directory slot) (hpresent : (directory.tables slot).present = true) :
    (directory.tables slot).frame = (directory.refTables slot - 0xC0000000) >>> 12 := by
  have haddress := h.address hpresent
  rw [Nat.shiftRight_eq_div_pow]
  omega

theorem tableEntered_cleared (slot : Nat) : TableEntered clearedDirectory slot where
  present := by
    intro hne
    exact absurd rfl hne
  address := by
    intro hpresent
    cases hpresent

/-- The first `n` pages from `0xC0000000` on have the frames 0, 1, ..., n - 1. -/
structure BootInvariant (slots : Finset Nat) (isKernel isWriteable : Bool) (blocks n : Nat)
    (s : Kernel) :
    Prop where
  apart : TablesApart s.paging
  ready : PmmReady s.paging.pmm
  disabled : s.paging.isEnabled = false
  blocks : s.paging.pmm.bitmap.bitCount = blocks
  bits : s.paging.pmm.bitmap.bits = Finset.range n
  pages : ∀ page, pageAt s.paging page =
    if 0xC0000 ≤ page ∧ page < 0xC0000 + n then some (newEntry (page - 0xC0000) isKernel isWriteable)
    else none
  room : ∃ next, 0xC0000000 ≤ next ∧ TableRoom slots s next
  entered : ∀ i, TableEntered s.paging.directory i

/-- A page table above `0xC0000000` is entered with its address minus `0xC0000000`. -/
theorem installTable_frame {w : PagingWorld} {slot table : Nat} (hdisabled : w.isEnabled = false)
    (hle : 0xC0000000 ≤ table) (hlt : table < 0x100000000) :
    ((installTable w slot table isKernel isWriteable).directory.tables slot).frame =
      (table - 0xC0000000) >>> 12 := by
  have hphys : virtual2Physical { w with tables := Function.update w.tables table clearedTable } table
      = table - 0xC0000000 := by
    unfold virtual2Physical
    simp only [hdisabled, Bool.not_false, if_true]
    exact sub32_of_le hle hlt
  unfold installTable
  simp only [hphys, Function.update_self]
  rw [Nat.shiftRight_eq_div_pow]
  omega

/-- The slot that gets the page table has an entry for it, the others keep theirs. -/
theorem installTable_entered {w : PagingWorld} {slot table : Nat} (hdisabled : w.isEnabled = false)
    (hle : 0xC0000000 ≤ table) (hlt : table < 0x100000000) (haligned : table % 0x1000 = 0)
    (h : ∀ i, TableEntered w.directory i) (i : Nat) :
    TableEntered (installTable w slot table isKernel isWriteable).directory i := by
  by_cases hi : i = slot
  · subst hi
    have hframe := @installTable_frame isKernel isWriteable w i table hdisabled hle hlt
    have href : (installTable w i table isKernel isWriteable).directory.refTables i = table :=
      Function.update_self ..
    have hentry : (installTable w i table isKernel isWriteable).directory.tables i =
        { frame := (virtual2Physical { w with tables := Function.update w.tables table clearedTable }
            table >>> 12) % 0x100000
          present := true, rw := isWriteable, user := !isKernel, pageSize := false } :=
      Function.update_self ..
    refine ⟨?_, ?_⟩
    · intro _
      rw [hentry]
    · intro _
      rw [hframe, href, Nat.shiftRight_eq_div_pow]
      omega
  · exact (h i).congr (Function.update_of_ne hi _ _) (Function.update_of_ne hi _ _)

theorem BootInvariant.step {slots : Finset Nat} {fuel blocks n : Nat}
    (h : BootInvariant slots isKernel isWriteable blocks n s) (hn : n < blocks)
    (hslot : (0xC0000 + n) / 1024 ∈ slots) :
    ∃ s', allocatePage (heapTables (fuel + 1)) s (0xC0000000 + 0x1000 * n) 0 isKernel isWriteable =
        some s' ∧ BootInvariant slots isKernel isWriteable blocks (n + 1) s' := by
  obtain ⟨next, hnext, hroom⟩ := h.room
  have hfree : n ∉ s.paging.pmm.bitmap.bits := by
    rw [h.bits]
    exact Finset.notMem_range_self
  have hlt : n < s.paging.pmm.bitmap.bitCount := by
    rw [h.blocks]
    exact hn
  have hpage : pageNumber (0xC0000000 + 0x1000 * n) = 0xC0000 + n := by
    unfold pageNumber
    omega
  obtain ⟨s', hs'⟩ := @allocatePage_isSome s isKernel isWriteable fuel
    (0xC0000000 + 0x1000 * n) hroom.status h.ready _ hlt hfree
  refine ⟨s', hs', ?_⟩
  have hslot' : pageNumber (0xC0000000 + 0x1000 * n) / 1024 ∈ slots := by
    rw [hpage]
    exact hslot
  have ha := allocatePage_cases h.apart h.ready (hroom.fresh fuel hslot') hs'
  obtain ⟨next', hle, hroom'⟩ := hroom.allocated hslot' ha
  obtain ⟨w₁, table, hready, hmapped, hdir⟩ := ha.steps
  rw [hpage] at hready hmapped
  obtain ⟨hpmm, -⟩ := hready.same
  have hpages := hready.pages
  have habsent : pageAt w₁ (0xC0000 + n) = none := by
    rw [hpages, h.pages, if_neg (by omega)]
  -- the first free block is block `n`
  cases hmapped with
  | kept entry present _ =>
    rw [habsent] at present
    cases present
  | explicit _ frame_ne _ _ => exact absurd rfl frame_ne
  | exhausted _ _ full _ =>
    rw [hpmm, h.bits, h.blocks] at full
    have := congrArg Finset.card full
    rw [Finset.card_range, Finset.card_range] at this
    omega
  | taken block _ _ lt free first pages pmm =>
    rw [hpmm] at lt free first pmm
    obtain rfl : block = n := by
      rw [h.bits, Finset.mem_range] at free
      by_contra hne
      have hmem := first n (by omega)
      rw [h.bits] at hmem
      exact Finset.notMem_range_self hmem
    refine ⟨ha.apart, by rw [pmm]; exact takeBlock_ready h.ready _, ha.isEnabled.trans h.disabled,
      by rw [pmm]; exact h.blocks, ?_, ?_, ⟨next', Nat.le_trans hnext hle, hroom'⟩, ?_⟩
    · rw [pmm, takeBlock_bits h.ready lt, h.bits, ← Finset.range_add_one]
    · intro page
      rw [pages, hpages]
      by_cases hp : page = 0xC0000 + block
      · rw [hp, Function.update_self, if_pos (by omega), Nat.add_sub_cancel_left]
      · rw [Function.update_of_ne hp, h.pages]
        have hiff : (0xC0000 ≤ page ∧ page < 0xC0000 + (block + 1)) ↔
            (0xC0000 ≤ page ∧ page < 0xC0000 + block) := by omega
        simp only [hiff]
    · intro i
      rw [hdir]
      cases hready with
      | old _ _ same =>
        rw [same]
        exact h.entered i
      | new absent ne fresh install =>
        -- the page table is the next one of the heap
        have hmissing := missingTables_pos hslot absent
        have hroom'' := hroom.room
        have htable : table = next := by
          rcases ha.heap with ⟨hsome, -, -⟩ | ⟨-, s₁, t', hmalloc, -, -, href⟩
          · rw [hpage] at hsome
            exact absurd absent hsome
          · have hbase : roundToPage s.heap.placementAddress = next := by
              rw [hroom.round, wrap32_of_lt (by omega)]
            rw [heapTables_boot fuel hroom.status, hbase] at hmalloc
            obtain ⟨-, rfl⟩ := Prod.mk.inj (Option.some.inj hmalloc)
            rw [hdir, install, hpage] at href
            have := congrFun href ((0xC0000 + block) / 1024)
            simpa [installTable] using this
        rw [install, htable]
        exact installTable_entered h.disabled hnext (by omega) hroom.aligned h.entered i

/-- The loop over `m` more pages. -/
theorem BootInvariant.loop {slots : Finset Nat} {fuel blocks : Nat} : ∀ (m n : Nat) (s : Kernel),
    BootInvariant slots isKernel isWriteable blocks n s → n + m ≤ blocks →
    (∀ k, k < n + m → (0xC0000 + k) / 1024 ∈ slots) →
    ∃ s', (List.range' (0xC0000000 + 0x1000 * n) m 0x1000).foldlM
        (fun s address => allocatePage (heapTables (fuel + 1)) s address 0 isKernel isWriteable) s =
          some s' ∧ BootInvariant slots isKernel isWriteable blocks (n + m) s'
  | 0, n, s, h, _, _ => ⟨s, rfl, h⟩
  | m + 1, n, s, h, hle, hslots => by
    obtain ⟨s₁, hs₁, h₁⟩ := @BootInvariant.step _ _ _ _ fuel _ _ h (by omega) (hslots n (by omega))
    obtain ⟨s', hs', h'⟩ := BootInvariant.loop m (n + 1) s₁ h₁ (by omega)
      (fun k hk => hslots k (by omega))
    refine ⟨s', ?_, by rw [show n + (m + 1) = n + 1 + m by omega]; exact h'⟩
    rw [List.range'_succ, List.foldlM_cons, hs₁]
    rw [show 0xC0000000 + 0x1000 * n + 0x1000 = 0xC0000000 + 0x1000 * (n + 1) by omega]
    exact hs'

/-! ## The boot mapping -/

/-- What the page tables say after the boot mapping. -/
structure BootMapped (w : PagingWorld) (endAddress : Nat) : Prop where
  /-- Every page up to the end address is mapped. -/
  mapped : ∀ a, 0xC0000000 ≤ a → pageNumber a ≤ pageNumber endAddress →
    pageAt w (pageNumber a) ≠ none
  /-- A mapped address translates to itself minus `0xC0000000`. -/
  translation : ∀ a, a < 0x100000000 → pageAt w (pageNumber a) ≠ none →
    virtual2Physical { w with isEnabled := true } a = a - 0xC0000000
  /-- That is what it translated to before. -/
  unchanged : ∀ a, a < 0x100000000 → pageAt w (pageNumber a) ≠ none →
    virtual2Physical { w with isEnabled := true } a = virtual2Physical w a
  /-- A directory entry that is present names the physical address of the slot's page table. -/
  directory : ∀ i, (w.directory.tables i).present = true →
    (w.directory.tables i).frame = (w.directory.refTables i - 0xC0000000) >>> 12
  /-- The directory entry of a mapped page is present, and the processor finds at its frame the
  page table that translates the page. -/
  entered : ∀ a, a < 0x100000000 → pageAt w (pageNumber a) ≠ none →
    (w.directory.tables (pageNumber a / 1024)).present = true ∧
      (w.directory.tables (pageNumber a / 1024)).frame * 0x1000 =
        w.directory.refTables (pageNumber a / 1024) - 0xC0000000

theorem bootInvariant_start {slots : Finset Nat} {next : Nat} (hw : FreshWorld s.paging)
    (hdisabled : s.paging.isEnabled = false) (hnext : 0xC0000000 ≤ next)
    (hroom : TableRoom slots s next) :
    BootInvariant slots isKernel isWriteable s.paging.pmm.bitmap.bitCount 0 s where
  apart := by
    intro i j hi
    rw [hw.directory] at hi
    exact absurd rfl hi
  ready := hw.ready
  disabled := hdisabled
  blocks := rfl
  bits := by rw [hw.bits, Finset.range_zero]
  pages := by
    intro page
    rw [pageAt_cleared hw.directory, if_neg (by omega)]
  room := ⟨next, hnext, hroom⟩
  entered := by
    rw [hw.directory]
    exact tableEntered_cleared

/-- Page `0xC0000 + k` with frame `k` moves an address down by `0xC0000000`. -/
theorem translate_newEntry {a : Nat} (ha : a < 0x100000000) (hle : 0xC0000 ≤ pageNumber a) :
    wrap32 ((newEntry (pageNumber a - 0xC0000) isKernel isWriteable).frame <<< 12 + a % 0x1000) =
      a - 0xC0000000 := by
  unfold pageNumber at hle
  have hframe : (newEntry (pageNumber a - 0xC0000) isKernel isWriteable).frame = a / 0x1000 - 0xC0000 :=
    Nat.mod_eq_of_lt (by unfold pageNumber; omega)
  have hshift : (a / 0x1000 - 0xC0000) * 2 ^ 12 + a % 0x1000 = a - 0xC0000000 := by omega
  rw [hframe, Nat.shiftLeft_eq, hshift]
  exact wrap32_of_lt (by omega)

theorem BootInvariant.mapped {slots : Finset Nat} {blocks n endAddress : Nat}
    (h : BootInvariant slots isKernel isWriteable blocks n s)
    (hcount : ∀ a, 0xC0000000 ≤ a → pageNumber a ≤ pageNumber endAddress → pageNumber a < 0xC0000 + n) :
    BootMapped s.paging endAddress := by
  have hin : ∀ a, pageAt s.paging (pageNumber a) ≠ none →
      0xC0000 ≤ pageNumber a ∧ pageNumber a < 0xC0000 + n := by
    intro a ha
    rw [h.pages] at ha
    by_contra hno
    exact ha (if_neg hno)
  have htranslation : ∀ a, a < 0x100000000 → pageAt s.paging (pageNumber a) ≠ none →
      virtual2Physical { s.paging with isEnabled := true } a = a - 0xC0000000 := by
    intro a ha hpage
    have hbounds := hin a hpage
    have hsame : pageAt { s.paging with isEnabled := true } = pageAt s.paging := pageAt_congr rfl rfl
    rw [virtual2Physical_enabled rfl, hsame, h.pages, if_pos hbounds]
    exact translate_newEntry ha hbounds.1
  refine ⟨?_, htranslation, ?_, fun i => (h.entered i).frame, ?_⟩
  · intro a ha hle
    have hlow : 0xC0000 ≤ pageNumber a := by
      unfold pageNumber
      omega
    rw [h.pages, if_pos ⟨hlow, hcount a ha hle⟩]
    exact Option.some_ne_none _
  · intro a ha hpage
    have hlow := (hin a hpage).1
    have hle : 0xC0000000 ≤ a := by
      unfold pageNumber at hlow
      omega
    rw [htranslation a ha hpage, virtual2Physical, if_pos (by simp [h.disabled]), sub32_of_le hle ha]
  · intro a _ hpage
    have htable : s.paging.directory.refTables (pageNumber a / 1024) ≠ 0 := by
      intro hno
      exact hpage (pageAt_of_noTable hno)
    have hslot := h.entered (pageNumber a / 1024)
    have hpresent := hslot.present htable
    exact ⟨hpresent, Nat.eq_sub_of_add_eq (hslot.address hpresent)⟩

/--
**The boot mapping does not change a translation.** With a cleared directory, a physical memory
manager of which no block is used and that has enough blocks, and a bootstrapped heap at or above
`0xC0000000` with room for the page tables, `allocate_range(0xC0000000, end)` returns, and the
page tables map every address from `0xC0000000` to `end` to itself minus `0xC0000000`. Every page
table that does so is entered in the directory.
-/
theorem boot_mapping {fuel endAddress : Nat} (hw : FreshWorld s.paging)
    (hcan : canAllocate s.paging = true) (hdisabled : s.paging.isEnabled = false)
    (hstatus : s.heap.status = .bootstraped) (hplacement : 0xC0000000 ≤ s.heap.placementAddress)
    (hroom : pagesFor s.heap.placementAddress + 0x1000 * (bootSlots endAddress).card ≤ 0x100000000)
    (hend : endAddress < 0xFFFFF000)
    (hblocks : bootPages endAddress ≤ s.paging.pmm.bitmap.bitCount) :
    ∃ s', allocateRange (heapTables (fuel + 1)) s 0xC0000000 endAddress isKernel isWriteable = some s' ∧
      BootMapped s'.paging endAddress := by
  unfold allocateRange
  rw [if_pos hcan, rangeLoop_spec (by omega)]
  unfold bootPages at hblocks
  by_cases hle : 0xC0000000 ≤ endAddress
  · rw [if_pos hle] at hblocks
    rw [if_pos (Or.inr (by omega)), rangeAddresses, if_pos hle]
    have hslots : 0 < (bootSlots endAddress).card := by
      unfold bootSlots pageNumber
      rw [Nat.card_Icc]
      omega
    have hplace := le_pagesFor s.heap.placementAddress
    have hstart := tableRoom_start hstatus hw.directory (by omega)
      hslots hroom
    have hinv := @bootInvariant_start _ isKernel isWriteable _ _ hw hdisabled
      (Nat.le_trans hplacement hplace) hstart
    obtain ⟨s', hs', h'⟩ := @BootInvariant.loop _ _ _ fuel _
      ((endAddress - 0xC0000000) / 0x1000 + 1) 0 s hinv (by omega) (by
        intro k hk
        unfold bootSlots pageNumber
        rw [Finset.mem_Icc]
        omega)
    rw [Nat.mul_zero, Nat.add_zero] at hs'
    rw [Nat.zero_add] at h'
    refine ⟨s', hs', h'.mapped ?_⟩
    intro a ha hpage
    unfold pageNumber at *
    omega
  · -- nothing to map
    rw [if_pos (Or.inl (by omega)), rangeAddresses, if_neg hle]
    refine ⟨s, rfl, ?_, ?_, ?_, ?_, ?_⟩
    · intro a ha hpage
      unfold pageNumber at *
      omega
    · intro a _ hpage
      exact absurd (congrFun (pageAt_cleared hw.directory) _) hpage
    · intro a _ hpage
      exact absurd (congrFun (pageAt_cleared hw.directory) _) hpage
    · intro i hi
      rw [hw.directory] at hi
      cases hi
    · intro a _ hpage
      exact absurd (congrFun (pageAt_cleared hw.directory) _) hpage

/-- The boot mapping of a small kernel. -/
theorem boot_mapping_freshKernel : ∃ s',
    allocateRange (heapTables 1) (freshKernel 0xC0200000 0x1000000) 0xC0000000 0xC0402000 true true =
      some s' ∧ BootMapped s'.paging 0xC0402000 :=
  boot_mapping (freshKernel_fresh (by decide)) rfl rfl rfl (by decide) (by decide) (by decide)
    (by decide)

end Xylophone
