import Xylophone.Paging.RangeLoops

/-!
# Pages for which the caller chooses the frame

`paging_manager_allocate_to_physical` and the identity mapping pass the frame to `allocate_page`,
for which frame 0 means any free block.

* `chosen_frame_translates` — `allocate_to_physical` and `free_single` as a law on translations,
  for every frame but frame 0
* `frame_zero_iff` — when frame 0 is what the page gets
* `exists_other_frame` — page 0 mapped to itself, which becomes frame 1
-/

namespace Xylophone

open Infra

variable {malloc : TableSource} {s s' : Kernel} {w : PagingWorld}
  {address frame page virtualAddress physicalAddress startAddress endAddress : Nat}
  {isKernel isWriteable : Bool}

/-- A heap that gives a new page table when the slot has none, and does nothing else. -/
structure TableGiven (malloc : TableSource) (s : Kernel) (slot : Nat) : Prop where
  fresh : FreshTable malloc s slot
  returns : s.paging.directory.refTables slot = 0 → ∃ r, malloc s = some r

/-- The addresses of the page translate to those of the page at `base`. -/
def TranslatesTo (w : PagingWorld) (page base : Nat) : Prop :=
  ∀ a, pageNumber a = page → getPhysicalAddress w a = base + (a &&& 0xFFF)

/-- The block that is allocated next has frame number 0. -/
def NextIsZero (pmm : PhysicalMemoryManager) : Prop :=
  ∃ block, frameFor pmm 0 = some block ∧ block % 0x100000 = 0

/-! ## Translation of one page -/

theorem wrap32_frame {offset : Nat} (h : offset < 0x1000) :
    wrap32 (frame <<< 12 + offset) = frame % 0x100000 * 0x1000 + offset := by
  have hshift : frame <<< 12 = frame * 0x1000 := Nat.shiftLeft_eq frame 12
  rw [hshift, wrap32]
  omega

theorem translatesTo_iff (henabled : w.isEnabled = true) {n : Nat} (hn : n < 0x100000) :
    TranslatesTo w page (n * 0x1000) ↔
      ∃ entry, pageAt w page = some entry ∧ entry.frame % 0x100000 = n := by
  unfold TranslatesTo getPhysicalAddress
  constructor
  · intro h
    have hone := h (page * 0x1000 + 1) (by unfold pageNumber; omega)
    rw [virtual2Physical_enabled henabled, and_low12] at hone
    rw [show pageNumber (page * 0x1000 + 1) = page by unfold pageNumber; omega] at hone
    cases hentry : pageAt w page with
    | none =>
      rw [hentry] at hone
      dsimp only at hone
      omega
    | some entry =>
      rw [hentry] at hone
      dsimp only at hone
      refine ⟨entry, rfl, ?_⟩
      rw [wrap32_frame (Nat.mod_lt _ (by decide))] at hone
      omega
  · rintro ⟨entry, hentry, rfl⟩ a rfl
    rw [virtual2Physical_enabled henabled, hentry, and_low12]
    dsimp only
    exact wrap32_frame (Nat.mod_lt _ (by decide))

theorem mappedEntry_of_absent (h : pageAt w page = none) (frame : Nat) :
    mappedEntry w page frame isKernel isWriteable =
      (frameFor w.pmm frame).map fun f => newEntry f isKernel isWriteable := by
  rw [mappedEntry, h, Option.none_or]

theorem frameFor_of_ne (pmm : PhysicalMemoryManager) (h : frame ≠ 0) :
    frameFor pmm frame = some frame := if_pos h

/-- With a page table, and a frame for a page that is absent, `allocate_page` returns. -/
theorem allocatePage_given (hgiven : TableGiven malloc s (pageNumber address / 1024))
    (hframe : pageAt s.paging (pageNumber address) = none → frameFor s.paging.pmm frame ≠ none) :
    ∃ s', allocatePage malloc s address frame isKernel isWriteable = some s' := by
  have hcan : ∀ {w : PagingWorld} (table : Nat), w.pmm = s.paging.pmm →
      frameFor s.paging.pmm frame ≠ none →
      ∃ w', ensurePage w table address frame isKernel isWriteable = some w' := by
    intro w table hpmm hsome
    rw [← hpmm] at hsome
    rw [ensurePage_isSome_iff]
    unfold frameFor at hsome
    split at hsome
    · next hne => exact Or.inr (Or.inl hne)
    split at hsome
    · next hvalid => exact Or.inr (Or.inr (Or.inl hvalid))
    · exact absurd rfl hsome
  unfold allocatePage ensureTable
  rw [pageDirIdx_eq]
  dsimp only
  split
  · next hnone =>
    obtain ⟨⟨s₁, table⟩, hmalloc⟩ := hgiven.returns hnone
    obtain ⟨hpaging, -⟩ := hgiven.fresh hnone s₁ table hmalloc
    rw [hmalloc, Option.map_some, Option.bind_some]
    obtain ⟨w', hw'⟩ := hcan (w := installTable s₁.paging (pageNumber address / 1024) table isKernel
      isWriteable) table (show s₁.paging.pmm = s.paging.pmm by rw [hpaging])
      (hframe (pageAt_of_noTable hnone))
    exact ⟨_, by rw [hw']; rfl⟩
  · next hsome =>
    rw [Option.bind_some]
    obtain ⟨w', hw'⟩ : ∃ w', ensurePage s.paging
        (s.paging.directory.refTables (pageNumber address / 1024)) address frame isKernel
        isWriteable = some w' := by
      by_cases hpresent : (s.paging.tables (s.paging.directory.refTables (pageNumber address / 1024))
          (pageTblIdx address)).present = true
      · exact ensurePage_isSome_iff.mpr (Or.inl hpresent)
      · rw [pageTblIdx_eq] at hpresent
        refine hcan _ rfl (hframe ?_)
        rw [pageAt_of_table rfl hsome, if_neg hpresent]
    exact ⟨_, by rw [hw']; rfl⟩

/-! ## A chosen frame -/

/-- The law of `allocate_to_physical`. -/
structure ChosenFrame (w w' : PagingWorld) (virtualAddress physicalAddress : Nat) : Prop where
  inside : ∀ a, pageNumber a = pageNumber virtualAddress →
    getPhysicalAddress w' a = (physicalAddress &&& 0xFFFFF000) + (a &&& 0xFFF)
  outside : ∀ a, pageNumber a ≠ pageNumber virtualAddress →
    getPhysicalAddress w' a = getPhysicalAddress w a
  restored : ∀ a, getPhysicalAddress (freeSingle w' virtualAddress false) a = getPhysicalAddress w a

/-- The page of an absent page after `allocate_to_physical`. -/
theorem allocateToPhysical_pages (hapart : TablesApart s.paging)
    (hup : canAllocate s.paging = true)
    (hfresh : FreshTable malloc s (pageNumber virtualAddress / 1024))
    (habsent : pageAt s.paging (pageNumber virtualAddress) = none)
    (h : allocateToPhysical malloc s virtualAddress physicalAddress isKernel isWriteable = some s') :
    TablesApart s'.paging ∧ SameFlags s.paging s'.paging ∧
      pageAt s'.paging = Function.update (pageAt s.paging) (pageNumber virtualAddress)
        ((frameFor s.paging.pmm (physicalAddress / 0x1000)).map fun f =>
          newEntry f isKernel isWriteable) := by
  rw [allocateToPhysical, if_pos hup, Nat.shiftRight_eq_div_pow] at h
  rw [← mappedEntry_of_absent habsent]
  exact allocatePage_pages hapart hfresh h

/--
**The page is mapped to the chosen frame, nothing else changes, and freeing it restores all.**
-/
theorem chosen_frame_translates (henabled : s.paging.isEnabled = true)
    (hup : canAllocate s.paging = true) (hapart : TablesApart s.paging)
    (habsent : pageAt s.paging (pageNumber virtualAddress) = none)
    (hgiven : TableGiven malloc s (pageNumber virtualAddress / 1024))
    (hphysical : physicalAddress < 0x100000000) (hframe : 0x1000 ≤ physicalAddress) :
    ∃ s', allocateToPhysical malloc s virtualAddress physicalAddress isKernel isWriteable = some s' ∧
      ChosenFrame s.paging s'.paging virtualAddress physicalAddress := by
  have hpage : physicalAddress / 0x1000 ≠ 0 := by omega
  have hsome := frameFor_of_ne s.paging.pmm hpage
  obtain ⟨s', hs'⟩ : ∃ s', allocateToPhysical malloc s virtualAddress physicalAddress isKernel
      isWriteable = some s' := by
    rw [allocateToPhysical, if_pos hup, Nat.shiftRight_eq_div_pow]
    exact allocatePage_given hgiven fun _ => by rw [hsome]; exact Option.some_ne_none _
  obtain ⟨hapart', hflags, hpages⟩ := allocateToPhysical_pages hapart hup hgiven.fresh habsent hs'
  rw [hsome, Option.map_some] at hpages
  have henabled' : s'.paging.isEnabled = true := hflags.isEnabled.trans henabled
  refine ⟨s', hs', ?_, ?_, ?_⟩
  · intro a ha
    have htranslates : TranslatesTo s'.paging (pageNumber virtualAddress)
        (physicalAddress / 0x1000 * 0x1000) := by
      rw [translatesTo_iff henabled' (by omega), hpages, Function.update_self]
      refine ⟨_, rfl, ?_⟩
      show physicalAddress / 0x1000 % 0x100000 % 0x100000 = _
      omega
    rw [htranslates a ha, and_high20 hphysical]
    omega
  · intro a ha
    unfold getPhysicalAddress
    rw [virtual2Physical_enabled henabled, virtual2Physical_enabled henabled', hpages,
      Function.update_of_ne ha]
  · intro a
    have hinit : s'.paging.isInitialized = true := by
      rw [hflags.isInitialized]
      exact (Bool.and_eq_true_iff.mp hup).1
    obtain ⟨-, -, hsame⟩ := freePage_flags s'.paging virtualAddress false
    unfold getPhysicalAddress
    rw [freeSingle, if_pos hinit, virtual2Physical_enabled henabled,
      virtual2Physical_enabled (hsame.trans henabled'), freePage_pages hapart' freesInside_false,
      hpages,
      Function.update_idem, ← habsent, Function.update_eq_self]

/-- A fresh kernel in which paging is enabled. -/
def enabledKernel : Kernel :=
  { freshKernel 0xC0200000 0x20000 with
    paging := { (freshKernel 0xC0200000 0x20000).paging with isEnabled := true } }

/-- Enabling paging takes nothing away. -/
theorem Supply.enabled {n : Nat} (h : Supply n s) :
    Supply n { s with paging := { s.paging with isEnabled := true } } := by
  obtain ⟨next, hroom⟩ := h.room
  exact ⟨h.apart, h.ready, ⟨next, hroom.status, hroom.round, hroom.aligned, hroom.pos, hroom.room,
    hroom.below⟩, h.blocks⟩

theorem enabledKernel_supply : Supply 2 enabledKernel :=
  Supply.enabled (freshKernel_supply (by decide) (by decide))

/-- The page tables of a bootstrapped heap are given. -/
theorem Supply.tableGiven {n fuel : Nat} (h : Supply n s) (haddress : address < 0x100000000) :
    TableGiven (heapTables (fuel + 1)) s (pageNumber address / 1024) := by
  obtain ⟨next, hroom⟩ := h.room
  exact ⟨hroom.fresh fuel (slot_mem_range haddress), fun _ => ⟨_, heapTables_boot fuel hroom.status⟩⟩

/-- The screen memory at the first page of the kernel. -/
theorem chosen_frame_translates_enabledKernel : ∃ s',
    allocateToPhysical (heapTables 1) enabledKernel 0xC0000000 0xB8000 true true = some s' ∧
    ChosenFrame enabledKernel.paging s'.paging 0xC0000000 0xB8000 :=
  chosen_frame_translates rfl rfl enabledKernel_supply.apart rfl
    (enabledKernel_supply.tableGiven (by decide)) (by decide) (by decide)

/-! ## Frame 0 -/

/-- A page without an entry is mapped to the page of the physical address. -/
def MapsToPhysical (malloc : TableSource) (s : Kernel) (virtualAddress physicalAddress : Nat)
    (isKernel isWriteable : Bool) : Prop :=
  ∃ s', allocateToPhysical malloc s virtualAddress physicalAddress isKernel isWriteable = some s' ∧
    TranslatesTo s'.paging (pageNumber virtualAddress) (physicalAddress &&& 0xFFFFF000)

/-- The pages of the range that are absent are mapped to themselves. -/
def MapsToItself (malloc : TableSource) (s : Kernel) (startAddress endAddress : Nat)
    (isKernel isWriteable : Bool) : Prop :=
  ∃ s', identityAllocateRange malloc s startAddress endAddress isKernel isWriteable = some s' ∧
    ∀ a, startAddress ≤ a → pageNumber a ≤ pageNumber endAddress →
      pageAt s.paging (pageNumber a) = none → getPhysicalAddress s'.paging a = a

/-- The page tables for the operations are given. -/
def TablesGiven (malloc : TableSource) (s : Kernel) : PageOp → Prop
  | .map address _ _ _ => TableGiven malloc s (pageNumber address / 1024)
  | .unmap _ _ => True

/-- The frame of a new entry is the one that was asked for, or the block that is next. -/
theorem newEntry_frame_iff {n : Nat} (hn : n < 0x100000) (pmm : PhysicalMemoryManager) :
    (∃ entry, ((frameFor pmm n).map fun f => newEntry f isKernel isWriteable) = some entry ∧
        entry.frame % 0x100000 = n) ↔ (n = 0 → NextIsZero pmm) := by
  have hframe : ∀ f, (newEntry f isKernel isWriteable).frame % 0x100000 = f % 0x100000 :=
    fun f => Nat.mod_mod _ _
  by_cases hzero : n = 0
  · subst hzero
    rw [forall_prop_of_true rfl]
    constructor
    · rintro ⟨entry, hentry, hmod⟩
      obtain ⟨f, hf, rfl⟩ := Option.map_eq_some_iff.mp hentry
      exact ⟨f, hf, (hframe f).symm.trans hmod⟩
    · rintro ⟨f, hf, hmod⟩
      exact ⟨_, by rw [hf]; rfl, (hframe f).trans hmod⟩
  · refine iff_of_true ⟨newEntry n isKernel isWriteable, ?_, ?_⟩ fun h => absurd h hzero
    · rw [frameFor_of_ne pmm hzero]
      rfl
    · rw [hframe]
      exact Nat.mod_eq_of_lt hn

/-- `allocate_to_physical`, exactly. -/
theorem mapsToPhysical_iff (henabled : s.paging.isEnabled = true)
    (hup : canAllocate s.paging = true) (hapart : TablesApart s.paging)
    (habsent : pageAt s.paging (pageNumber virtualAddress) = none)
    (hgiven : TableGiven malloc s (pageNumber virtualAddress / 1024))
    (hphysical : physicalAddress < 0x100000000) :
    MapsToPhysical malloc s virtualAddress physicalAddress isKernel isWriteable ↔
      (physicalAddress < 0x1000 → NextIsZero s.paging.pmm) := by
  have hn : physicalAddress / 0x1000 < 0x100000 := by omega
  have hbase : physicalAddress &&& 0xFFFFF000 = physicalAddress / 0x1000 * 0x1000 := by
    rw [and_high20 hphysical]
    omega
  have hzero : physicalAddress < 0x1000 ↔ physicalAddress / 0x1000 = 0 := by omega
  have hmaps : ∀ s', allocateToPhysical malloc s virtualAddress physicalAddress isKernel isWriteable =
      some s' → (TranslatesTo s'.paging (pageNumber virtualAddress) (physicalAddress &&& 0xFFFFF000) ↔
        (physicalAddress < 0x1000 → NextIsZero s.paging.pmm)) := by
    intro s' hs'
    obtain ⟨-, hflags, hpages⟩ := allocateToPhysical_pages hapart hup hgiven.fresh habsent hs'
    rw [hbase, translatesTo_iff (hflags.isEnabled.trans henabled) hn, hpages, Function.update_self,
      newEntry_frame_iff hn, hzero]
  constructor
  · rintro ⟨s', hs', htranslates⟩
    exact (hmaps s' hs').mp htranslates
  · intro hnext
    have hframe : frameFor s.paging.pmm (physicalAddress / 0x1000) ≠ none := by
      obtain ⟨entry, hentry, -⟩ :=
        (@newEntry_frame_iff isKernel isWriteable _ hn s.paging.pmm).mpr fun h => hnext (hzero.mpr h)
      intro hnone
      rw [hnone] at hentry
      cases hentry
    obtain ⟨s', hs'⟩ : ∃ s', allocateToPhysical malloc s virtualAddress physicalAddress isKernel
        isWriteable = some s' := by
      rw [allocateToPhysical, if_pos hup, Nat.shiftRight_eq_div_pow]
      exact allocatePage_given hgiven fun _ => hframe
    exact ⟨s', hs', (hmaps s' hs').mpr hnext⟩

/-! ## The identity mapping -/

/-- A turn of `identity_allocate_range`. -/
def mapIdentity (malloc : TableSource) (isKernel isWriteable : Bool) (s : Kernel) (address : Nat) :
    Option Kernel :=
  allocatePage malloc s address (address / 0x1000) isKernel isWriteable

/-- Behind page 0 every turn maps its page to itself. -/
theorem mapIdentity_loop {l : List Nat} (hpos : ∀ a ∈ l, 0x1000 ≤ a)
    (hapart : TablesApart s.paging)
    (hgiven : PagesOk malloc (TablesGiven malloc) s
      (l.map fun a => .map a (a / 0x1000) isKernel isWriteable)) :
    ∃ s', l.foldlM (mapIdentity malloc isKernel isWriteable) s = some s' ∧
      SameFlags s.paging s'.paging ∧
      ∀ page, pageAt s'.paging page = (pageAt s.paging page).or
        (if page ∈ l.map pageNumber then some (newEntry page isKernel isWriteable) else none) := by
  induction l generalizing s with
  | nil =>
    refine ⟨s, rfl, SameFlags.refl _, fun page => ?_⟩
    rw [List.map_nil, if_neg List.not_mem_nil, Option.or_none]
  | cons a l ih =>
    obtain ⟨hfirst, hrest⟩ := hgiven
    have hne : a / 0x1000 ≠ 0 := by
      have := hpos a List.mem_cons_self
      omega
    obtain ⟨s₁, hs₁⟩ := @allocatePage_given malloc s a (a / 0x1000) isKernel isWriteable hfirst
      (fun _ => by rw [frameFor_of_ne _ hne]; exact Option.some_ne_none _)
    obtain ⟨hapart', hflags, hpages⟩ := allocatePage_pages hapart hfirst.fresh hs₁
    obtain ⟨s', hs', hflags', hpages'⟩ := ih (fun b hb => hpos b (List.mem_cons_of_mem _ hb)) hapart'
      (hrest s₁ (.map hs₁))
    refine ⟨s', foldlM_cons_some.mpr ⟨s₁, hs₁, hs'⟩, hflags.trans hflags', fun page => ?_⟩
    rw [hpages', hpages]
    by_cases hpage : page = pageNumber a
    · subst hpage
      rw [Function.update_self, mappedEntry, frameFor_of_ne _ hne, Option.or_assoc, List.map_cons,
        if_pos List.mem_cons_self]
      rfl
    · rw [Function.update_of_ne hpage]
      have hmem : page ∈ (a :: l).map pageNumber ↔ page ∈ l.map pageNumber := by
        rw [List.map_cons, List.mem_cons]
        exact or_iff_right hpage
      simp only [hmem]

/-- A page is mapped to itself. -/
theorem translatesTo_self (henabled : w.isEnabled = true) (hpage : page < 0x100000) :
    (∀ a, pageNumber a = page → getPhysicalAddress w a = a) ↔
      ∃ entry, pageAt w page = some entry ∧ entry.frame % 0x100000 = page := by
  rw [← translatesTo_iff henabled hpage]
  unfold TranslatesTo
  refine forall_congr' fun a => forall_congr' fun ha => ?_
  have hsum : page * 0x1000 + (a &&& 0xFFF) = a := by
    rw [and_low12, ← ha]
    unfold pageNumber
    omega
  rw [hsum]

theorem identityAllocateRange_eq (hup : canAllocate s.paging = true)
    (hend : endAddress < 0x100000000) :
    identityAllocateRange malloc s startAddress endAddress isKernel isWriteable =
      if RangeEnds startAddress endAddress then
        (rangeAddresses startAddress endAddress).foldlM (mapIdentity malloc isKernel isWriteable) s
      else none := by
  rw [identityAllocateRange, if_pos hup]
  exact rangeLoop_spec hend startAddress s

/-- The entries after the loop, once its first turn has returned. -/
theorem identityAllocateRange_pages {s₁ : Kernel} (hup : canAllocate s.paging = true)
    (hapart : TablesApart s.paging) (hend : endAddress < 0x100000000)
    (hle : startAddress ≤ endAddress) (hends : RangeEnds startAddress endAddress)
    (hgiven : PagesOk malloc (TablesGiven malloc) s
      (PagingCall.identityAllocateRange startAddress endAddress isKernel isWriteable).pages)
    (hfirst : mapIdentity malloc isKernel isWriteable s startAddress = some s₁) :
    ∃ s', identityAllocateRange malloc s startAddress endAddress isKernel isWriteable = some s' ∧
      SameFlags s.paging s'.paging ∧
      ∀ page, pageAt s'.paging page =
        if page ∈ (rangeAddresses startAddress endAddress).map pageNumber then
          mappedEntry s.paging page page isKernel isWriteable
        else pageAt s.paging page := by
  rw [identityAllocateRange_eq hup hend, if_pos hends]
  have hnodup := rangeAddresses_pages startAddress endAddress
  dsimp only [PagingCall.pages] at hgiven
  rw [rangeAddresses_cons hle] at hgiven hnodup ⊢
  obtain ⟨hgiven₁, hrest⟩ := hgiven
  obtain ⟨hapart', hflags, hpages⟩ := allocatePage_pages hapart hgiven₁.fresh hfirst
  have hpos : ∀ a ∈ List.range' (startAddress + 0x1000) ((endAddress - startAddress) / 0x1000) 0x1000,
      0x1000 ≤ a := by
    intro a ha
    obtain ⟨i, -, rfl⟩ := List.mem_range'.mp ha
    omega
  obtain ⟨s', hs', hflags', hpages'⟩ := mapIdentity_loop hpos hapart' (hrest s₁ (.map hfirst))
  refine ⟨s', foldlM_cons_some.mpr ⟨s₁, hfirst, hs'⟩, hflags.trans hflags', fun page => ?_⟩
  rw [List.map_cons, List.nodup_cons] at hnodup
  rw [hpages', hpages, List.map_cons]
  by_cases hpage : page = pageNumber startAddress
  · subst hpage
    rw [if_neg hnodup.1, Option.or_none, Function.update_self, if_pos List.mem_cons_self]
    rfl
  · rw [Function.update_of_ne hpage]
    simp only [List.mem_cons, hpage, false_or]
    split
    · next hmem =>
      obtain ⟨a, ha, rfl⟩ := List.mem_map.mp hmem
      have hne : pageNumber a ≠ 0 := by
        have := hpos a ha
        unfold pageNumber
        omega
      rw [mappedEntry, frameFor_of_ne _ hne]
      rfl
    · rw [Option.or_none]

/-- `identity_allocate_range`, exactly. -/
theorem mapsToItself_iff (henabled : s.paging.isEnabled = true)
    (hup : canAllocate s.paging = true) (hapart : TablesApart s.paging)
    (hstart : startAddress % 0x1000 = 0) (hend : endAddress % 0x1000 = 0)
    (hword : endAddress < 0x100000000)
    (hgiven : PagesOk malloc (TablesGiven malloc) s
      (PagingCall.identityAllocateRange startAddress endAddress isKernel isWriteable).pages) :
    MapsToItself malloc s startAddress endAddress isKernel isWriteable ↔
      RangeEnds startAddress endAddress ∧
        (startAddress = 0 → pageAt s.paging 0 = none → NextIsZero s.paging.pmm) := by
  by_cases hle : startAddress ≤ endAddress
  swap
  · -- nothing to map
    refine iff_of_true ?_ ⟨Or.inl (by omega), by omega⟩
    have hnone : rangeAddresses startAddress endAddress = [] := if_neg hle
    refine ⟨s, ?_, fun a ha ha' => ?_⟩
    · have hends : RangeEnds startAddress endAddress := Or.inl (by omega)
      rw [identityAllocateRange_eq hup hword, if_pos hends, hnone]
      rfl
    · unfold pageNumber at ha'
      omega
  have hmem : ∀ page, page ∈ (rangeAddresses startAddress endAddress).map pageNumber ↔
      pageNumber startAddress ≤ page ∧ page ≤ pageNumber endAddress := by
    intro page
    rw [mem_rangePages hle]
    unfold pageNumber
    omega
  have hpage : ∀ page, page ≤ pageNumber endAddress → page < 0x100000 := by
    intro page hpage
    unfold pageNumber at hpage
    omega
  -- what the entries say, once the first turn has returned
  have hself : ∀ s' : Kernel, SameFlags s.paging s'.paging → (∀ page, pageAt s'.paging page =
        if page ∈ (rangeAddresses startAddress endAddress).map pageNumber then
          mappedEntry s.paging page page isKernel isWriteable
        else pageAt s.paging page) →
      ∀ page, pageNumber startAddress ≤ page → page ≤ pageNumber endAddress →
        pageAt s.paging page = none →
        ((∀ a, pageNumber a = page → getPhysicalAddress s'.paging a = a) ↔
          (page = 0 → NextIsZero s.paging.pmm)) := by
    intro s' hflags hpages page h1 h2 habsent
    rw [translatesTo_self (hflags.isEnabled.trans henabled) (hpage page h2), hpages,
      if_pos ((hmem page).mpr ⟨h1, h2⟩), mappedEntry_of_absent habsent,
      newEntry_frame_iff (hpage page h2)]
  have hzero : startAddress = 0 ↔ pageNumber startAddress = 0 := by
    unfold pageNumber
    omega
  have hlast : pageNumber startAddress ≤ pageNumber endAddress := Nat.div_le_div_right hle
  constructor
  · rintro ⟨s', hs', hmaps⟩
    have hends : RangeEnds startAddress endAddress := by
      by_contra hno
      rw [identityAllocateRange_eq hup hword, if_neg hno] at hs'
      cases hs'
    refine ⟨hends, fun h0 habsent => ?_⟩
    obtain ⟨s₁, hfirst⟩ : ∃ s₁, mapIdentity malloc isKernel isWriteable s startAddress = some s₁ := by
      rw [identityAllocateRange_eq hup hword, if_pos hends, rangeAddresses_cons hle] at hs'
      obtain ⟨s₁, hfirst, -⟩ := foldlM_cons_some.mp hs'
      exact ⟨s₁, hfirst⟩
    obtain ⟨s₂, hs₂, hflags, hpages⟩ :=
      identityAllocateRange_pages hup hapart hword hle hends hgiven hfirst
    obtain rfl := Option.some.inj (hs'.symm.trans hs₂)
    refine (hself s' hflags hpages 0 ?_ (Nat.zero_le _) habsent).mp (fun a ha => ?_) rfl
    · rw [hzero.mp h0]
    · refine hmaps a (by rw [h0]; exact Nat.zero_le _) (by rw [ha]; exact Nat.zero_le _) ?_
      rw [ha]
      exact habsent
  · rintro ⟨hends, hnext⟩
    have hgiven₁ : TableGiven malloc s (pageNumber startAddress / 1024) := by
      dsimp only [PagingCall.pages] at hgiven
      rw [rangeAddresses_cons hle] at hgiven
      exact hgiven.1
    obtain ⟨s₁, hfirst⟩ : ∃ s₁, mapIdentity malloc isKernel isWriteable s startAddress = some s₁ := by
      refine allocatePage_given hgiven₁ fun habsent hnone => ?_
      by_cases h0 : startAddress = 0
      · subst h0
        obtain ⟨block, hblock, -⟩ := hnext rfl habsent
        rw [Nat.zero_div, hblock] at hnone
        cases hnone
      · have hne : startAddress / 0x1000 ≠ 0 := fun hdiv => h0 (hzero.mpr hdiv)
        rw [frameFor_of_ne _ hne] at hnone
        cases hnone
    obtain ⟨s', hs', hflags, hpages⟩ :=
      identityAllocateRange_pages hup hapart hword hle hends hgiven hfirst
    refine ⟨s', hs', fun a ha ha' habsent => ?_⟩
    have hlow : pageNumber startAddress ≤ pageNumber a := Nat.div_le_div_right ha
    refine (hself s' hflags hpages _ hlow ha' habsent).mpr (fun h0 => ?_) a rfl
    have hstart0 : startAddress = 0 := by
      rw [hzero]
      omega
    exact hnext hstart0 (by rw [← h0]; exact habsent)

/--
**Frame 0 is taken for a request of any frame**: the law holds exactly when the address is in
another frame, or the next block happens to be block 0.
-/
theorem frame_zero_iff (henabled : s.paging.isEnabled = true)
    (hup : canAllocate s.paging = true) (hapart : TablesApart s.paging) :
    (startAddress % 0x1000 = 0 → endAddress % 0x1000 = 0 → endAddress < 0x100000000 →
      PagesOk malloc (TablesGiven malloc) s
        (PagingCall.identityAllocateRange startAddress endAddress isKernel isWriteable).pages →
      (MapsToItself malloc s startAddress endAddress isKernel isWriteable ↔
        RangeEnds startAddress endAddress ∧
          (startAddress = 0 → pageAt s.paging 0 = none → NextIsZero s.paging.pmm))) ∧
    (pageAt s.paging (pageNumber virtualAddress) = none →
      TableGiven malloc s (pageNumber virtualAddress / 1024) → physicalAddress < 0x100000000 →
      (MapsToPhysical malloc s virtualAddress physicalAddress isKernel isWriteable ↔
        (physicalAddress < 0x1000 → NextIsZero s.paging.pmm))) :=
  ⟨mapsToItself_iff henabled hup hapart, mapsToPhysical_iff henabled hup hapart⟩

/-- Block 0 is free: pages 0 and 1 are mapped to themselves, and a page to frame 0. -/
theorem frame_zero_iff_enabledKernel :
    MapsToItself (heapTables 1) enabledKernel 0 0x1000 true true ∧
      MapsToPhysical (heapTables 1) enabledKernel 0xC0000000 0 true true := by
  have hnext : NextIsZero enabledKernel.paging.pmm := ⟨0, by decide +kernel, rfl⟩
  have hgiven := @Supply.pagesOk true true 0 (TablesGiven (heapTables 1)) (· / 0x1000)
    (fun _ _ _ h ha => h.tableGiven ha) [0, 0x1000] _ enabledKernel_supply (by decide)
  have h := @frame_zero_iff (heapTables 1) enabledKernel 0xC0000000 0 0 0x1000 true true rfl rfl
    enabledKernel_supply.apart
  refine ⟨(h.1 rfl rfl (by decide) hgiven).mpr ⟨by decide, fun _ _ => hnext⟩, ?_⟩
  exact (h.2 rfl (enabledKernel_supply.tableGiven (by decide)) (by decide)).mpr fun _ => hnext

/-- Block 0 is taken by another page: page 0 is mapped to frame 1, and so is a page for which frame
0 is asked. -/
theorem exists_other_frame : ∃ s : Kernel,
    allocateSingle (heapTables 1) enabledKernel 0xC0000000 true true = some s ∧
    pageAt s.paging 0 = none ∧
    ¬ MapsToItself (heapTables 1) s 0 0 true true ∧
    ¬ MapsToPhysical (heapTables 1) s 0 0 true true := by
  obtain ⟨s, s₁, s₂, hs, habsent, hs₁, hone, hs₂, hone'⟩ : ∃ s s₁ s₂,
      allocateSingle (heapTables 1) enabledKernel 0xC0000000 true true = some s ∧
      pageAt s.paging 0 = none ∧
      identityAllocateRange (heapTables 1) s 0 0 true true = some s₁ ∧
      getPhysicalAddress s₁.paging 0 = 0x1000 ∧
      allocateToPhysical (heapTables 1) s 0 0 true true = some s₂ ∧
      getPhysicalAddress s₂.paging 0 = 0x1000 :=
    ⟨_, _, _, rfl, rfl, rfl, by decide +kernel, rfl, by decide +kernel⟩
  refine ⟨s, hs, habsent, ?_, ?_⟩
  · rintro ⟨s', hs', hmaps⟩
    obtain rfl := Option.some.inj (hs₁.symm.trans hs')
    have h := hmaps 0 (Nat.le_refl _) (Nat.le_refl _) habsent
    rw [hone] at h
    cases h
  · rintro ⟨s', hs', hmaps⟩
    obtain rfl := Option.some.inj (hs₂.symm.trans hs')
    have h := hmaps 0 rfl
    rw [hone'] at h
    cases h

end Xylophone
