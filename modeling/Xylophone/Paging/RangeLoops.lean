import Xylophone.Infra.Loop
import Xylophone.Paging.Frames
import Xylophone.Paging.OnePage

/-!
# Ranges

`paging_manager_allocate_range`, `paging_manager_identity_allocate_range` and
`paging_manager_free_range` step from `start_address` to `end_address` by pages, without aligning
either of them. The address is a 32-bit word and wraps around behind the last page.

* `range_loops_end_iff` — when the loops end, and that they then visit no page twice
* `range_covered_iff` — when every page of the range is visited
* `exists_endless_range`, `exists_missed_page` — the last page of the address space, and a last page
  that is missed
-/

namespace Xylophone

open Infra

variable {malloc : TableSource} {s s' s₁ : Kernel} {startAddress endAddress : Nat}
  {isKernel isWriteable shouldFree : Bool}

/-! ## The loops -/

/-- The three loops end after the addresses `visited`, no two of which are in the same page. -/
structure RangeVisits (startAddress endAddress : Nat) (visited : List Nat) : Prop where
  /-- The loop makes one turn for each of the addresses, and no more. -/
  turns : ∃ fuel, ∀ {σ : Type} (f : σ → Nat → Option σ) (s : σ),
    rangeLoop f endAddress fuel startAddress s = visited.foldlM f s
  inside : ∀ a ∈ visited, startAddress ≤ a ∧ a ≤ endAddress
  once : (visited.map pageNumber).Nodup
  identityAllocateRange : ∀ malloc s isKernel isWriteable, canAllocate s.paging = true →
    Xylophone.identityAllocateRange malloc s startAddress endAddress isKernel isWriteable =
      visited.foldlM (fun s a => allocatePage malloc s a (a / 0x1000) isKernel isWriteable) s
  allocateRange : ∀ malloc s isKernel isWriteable, canAllocate s.paging = true →
    Xylophone.allocateRange malloc s startAddress endAddress isKernel isWriteable =
      visited.foldlM (fun s a => allocatePage malloc s a 0 isKernel isWriteable) s
  freeRange : ∀ w shouldFree, w.isInitialized = true →
    Xylophone.freeRange w startAddress endAddress shouldFree =
      visited.foldlM (fun w a => some (freePage w a shouldFree)) w

/-- The first turn of a loop over a range. -/
theorem rangeAddresses_cons (hle : startAddress ≤ endAddress) :
    rangeAddresses startAddress endAddress = startAddress ::
      List.range' (startAddress + 0x1000) ((endAddress - startAddress) / 0x1000) 0x1000 := by
  rw [rangeAddresses, if_pos hle, List.range'_succ]

/-- The addresses of a range are in different pages. -/
theorem rangeAddresses_pages (startAddress endAddress : Nat) :
    ((rangeAddresses startAddress endAddress).map pageNumber).Nodup := by
  unfold rangeAddresses
  split
  · rw [List.Nodup, List.pairwise_map]
    refine List.Pairwise.imp_of_mem ?_
      (List.pairwise_lt_range' 0x1000 (by decide))
    intro a b ha hb hlt
    obtain ⟨i, -, rfl⟩ := List.mem_range'.mp ha
    obtain ⟨j, -, rfl⟩ := List.mem_range'.mp hb
    unfold pageNumber
    omega
  · exact List.nodup_nil

/-- **Behind the last page the address is small again**, and the loop never ends. -/
theorem rangeLoop_endless {σ : Type} {f : σ → Nat → Option σ} {a : Nat} (ha : a < 0x100000000)
    (hend : endAddress < 0x100000000) (hlast : 0xFFFFF000 + a % 0x1000 ≤ endAddress) :
    ∀ (fuel : Nat) (s : σ), rangeLoop f endAddress fuel a s = none := by
  intro fuel
  induction fuel generalizing a with
  | zero =>
    intro s
    rfl
  | succ fuel ih =>
    intro s
    -- the offset in the page stays the same when the address wraps around
    have hoffset : wrap32 (a + 0x1000) % 0x1000 = a % 0x1000 := by
      unfold wrap32
      omega
    have hrest := ih (wrap32_lt (a + 0x1000)) (by rw [hoffset]; exact hlast)
    rw [rangeLoop, if_pos (by omega)]
    cases f s a with
    | none => rfl
    | some s' => exact hrest s'

theorem RangeVisits.ends {visited : List Nat} (h : RangeVisits startAddress endAddress visited)
    (hstart : startAddress < 0x100000000) (hend : endAddress < 0x100000000) :
    RangeEnds startAddress endAddress := by
  by_contra hwraps
  unfold RangeEnds at hwraps
  have hlast : 0xFFFFF000 + startAddress % 0x1000 ≤ endAddress := by omega
  obtain ⟨fuel, hturns⟩ := h.turns
  have hnone := rangeLoop_endless (f := fun (_ : Unit) _ => some ()) hstart hend hlast fuel ()
  obtain ⟨u, hsome, -⟩ := foldlM_total (f := fun (_ : Unit) (_ : Nat) => some ())
    (P := fun _ => True) (l := visited) (fun _ _ _ _ => ⟨(), rfl, trivial⟩) (s := ()) trivial
  rw [hturns, hsome] at hnone
  cases hnone

/-- **The loops end exactly when the address does not wrap around**, and then visit each page at
most once. -/
theorem range_loops_end_iff (hstart : startAddress < 0x100000000)
    (hend : endAddress < 0x100000000) :
    (∃ visited, RangeVisits startAddress endAddress visited) ↔
      RangeEnds startAddress endAddress := by
  constructor
  · rintro ⟨visited, h⟩
    exact h.ends hstart hend
  · intro hends
    have hspec : ∀ {σ : Type} (f : σ → Nat → Option σ) (s : σ),
        rangeLoop f endAddress (rangeFuel startAddress endAddress) startAddress s =
          (rangeAddresses startAddress endAddress).foldlM f s := by
      intro σ f s
      rw [rangeLoop_spec hend]
      exact if_pos hends
    refine ⟨rangeAddresses startAddress endAddress, ⟨_, hspec⟩, ?_, rangeAddresses_pages _ _, ?_, ?_,
      ?_⟩
    · intro a ha
      obtain ⟨hle, hle', -⟩ := mem_rangeAddresses.mp ha
      exact ⟨hle, hle'⟩
    · intro malloc s k w hup
      rw [Xylophone.identityAllocateRange, if_pos hup]
      exact hspec _ s
    · intro malloc s k w hup
      rw [Xylophone.allocateRange, if_pos hup]
      exact hspec _ s
    · intro w f hup
      rw [Xylophone.freeRange, if_pos hup]
      exact hspec _ w

/-- Four pages at the front of the kernel. -/
theorem range_loops_end_iff_kernel : ∃ visited, RangeVisits 0xC0000000 0xC0003000 visited :=
  (range_loops_end_iff (by decide) (by decide)).mpr (by decide)

/-- The last page of the address space is visited, and then all others again. -/
theorem exists_endless_range : ¬ ∃ visited, RangeVisits 0xFFFFF000 0xFFFFFFFF visited := by
  rintro ⟨visited, h⟩
  have hends := h.ends (by decide) (by decide)
  revert hends
  decide

/-! ## The pages of a range -/

/-- The page that an operation is about. -/
def PageOp.page : PageOp → Nat
  | .map address _ _ _ => pageNumber address
  | .unmap address _ => pageNumber address

/-- Whether the operation makes its page present. -/
def PageOp.makesPresent : PageOp → Bool
  | .map _ _ _ _ => true
  | .unmap _ _ => false

/-- The requests of an operation are satisfied: a page table that is missing is a new one, there is a
frame for a page that is absent, and a frame that is given back is a block of the manager. -/
def Satisfied (malloc : TableSource) (s : Kernel) : PageOp → Prop
  | .map address frame _ _ => FreshTable malloc s (pageNumber address / 1024) ∧
      (pageAt s.paging (pageNumber address) = none → frameFor s.paging.pmm frame ≠ none)
  | .unmap address shouldFree => FreesInside s.paging address shouldFree

/-- The pages that meet the range are present afterwards, or absent, and the other pages keep their
entries. -/
structure CoversRange (startAddress endAddress : Nat) (w w' : PagingWorld) (present : Bool) :
    Prop where
  covered : ∀ a, startAddress ≤ a → a ≤ endAddress →
    (pageAt w' (pageNumber a)).isSome = present
  others : ∀ page, (∀ a, startAddress ≤ a → a ≤ endAddress → pageNumber a ≠ page) →
    pageAt w' page = pageAt w page

/-- The last page of the range is reached, or already as it should be. -/
def LastPageOk (startAddress endAddress : Nat) (w : PagingWorld) (present : Bool) : Prop :=
  startAddress % 0x1000 ≤ endAddress % 0x1000 ∨ (pageAt w (pageNumber endAddress)).isSome = present

/-- What one operation does to the pages. -/
theorem PageStep.pages {op : PageOp} (hapart : TablesApart s.paging) (hok : Satisfied malloc s op)
    (h : PageStep malloc s op s') :
    TablesApart s'.paging ∧ (pageAt s'.paging op.page).isSome = op.makesPresent ∧
      ∀ page, page ≠ op.page → pageAt s'.paging page = pageAt s.paging page := by
  cases h with
  | @map _ address frame isKernel isWriteable result =>
    obtain ⟨hfresh, hframe⟩ := hok
    obtain ⟨hapart', -, hpages⟩ := allocatePage_pages hapart hfresh result
    refine ⟨hapart', ?_, fun page hne => by rw [hpages]; exact Function.update_of_ne hne ..⟩
    show (pageAt s'.paging (pageNumber address)).isSome = true
    rw [hpages, Function.update_self, mappedEntry]
    cases hbefore : pageAt s.paging (pageNumber address) with
    | some entry => rfl
    | none =>
      obtain ⟨f, hf⟩ := Option.ne_none_iff_exists'.mp (hframe hbefore)
      rw [hf]
      rfl
  | @unmap address shouldFree =>
    have hpages := freePage_pages hapart hok
    refine ⟨apart_freePage hapart hok, ?_, fun page hne => ?_⟩
    · show (pageAt (freePage s.paging address shouldFree) (pageNumber address)).isSome = false
      rw [hpages, Function.update_self]
      rfl
    · show pageAt (freePage s.paging address shouldFree) page = _
      rw [hpages]
      exact Function.update_of_ne hne ..

/-- What a list of operations of one kind does to the pages. -/
theorem PageRun.pages {present : Bool} : ∀ {ops : List PageOp} {s s' : Kernel},
    TablesApart s.paging → PagesOk malloc (Satisfied malloc) s ops →
    (∀ op ∈ ops, op.makesPresent = present) → PageRun malloc ops s s' →
      (∀ page ∈ ops.map PageOp.page, (pageAt s'.paging page).isSome = present) ∧
        ∀ page, page ∉ ops.map PageOp.page → pageAt s'.paging page = pageAt s.paging page
  | [], s, s', _, _, _, h => by
    obtain rfl : s = s' := h
    exact ⟨fun page hpage => absurd hpage List.not_mem_nil, fun _ _ => rfl⟩
  | op :: ops, s, s', hapart, ⟨hok, hrest⟩, hkind, ⟨s₁, hstep, hrun⟩ => by
    obtain ⟨hapart', hself, hother⟩ := hstep.pages hapart hok
    obtain ⟨hin, hout⟩ := PageRun.pages hapart' (hrest s₁ hstep)
      (fun op hop => hkind op (List.mem_cons_of_mem _ hop)) hrun
    refine ⟨fun page hpage => ?_, fun page hpage => ?_⟩
    · -- a page of a later operation, or the page of this one only
      by_cases hlater : page ∈ ops.map PageOp.page
      · exact hin page hlater
      · rcases List.mem_cons.mp hpage with rfl | hmem
        · rw [hout _ hlater, hself]
          exact hkind op List.mem_cons_self
        · exact absurd hmem hlater
    · obtain ⟨hne, hlater⟩ := not_or.mp fun h => hpage (List.mem_cons.mpr h)
      rw [hout page hlater, hother page hne]

theorem mem_rangePages {page : Nat} (hle : startAddress ≤ endAddress) :
    page ∈ (rangeAddresses startAddress endAddress).map pageNumber ↔
      pageNumber startAddress ≤ page ∧
        page ≤ pageNumber startAddress + (endAddress - startAddress) / 0x1000 := by
  rw [List.mem_map]
  constructor
  · rintro ⟨a, ha, rfl⟩
    obtain ⟨h1, h2, h3⟩ := mem_rangeAddresses.mp ha
    unfold pageNumber
    omega
  · rintro ⟨h1, h2⟩
    refine ⟨startAddress + (page - pageNumber startAddress) * 0x1000, mem_rangeAddresses.mpr ?_, ?_⟩
    · omega
    · unfold pageNumber at *
      omega

/-- The pages that meet a range are the pages that its loop visits, and the page of its end. -/
theorem coversRange_iff {w w' : PagingWorld} {present : Bool} (hle : startAddress ≤ endAddress)
    (hpages : (∀ page ∈ (rangeAddresses startAddress endAddress).map pageNumber,
        (pageAt w' page).isSome = present) ∧
      ∀ page, page ∉ (rangeAddresses startAddress endAddress).map pageNumber →
        pageAt w' page = pageAt w page) :
    CoversRange startAddress endAddress w w' present ↔
      LastPageOk startAddress endAddress w present := by
  obtain ⟨hin, hout⟩ := hpages
  unfold LastPageOk
  constructor
  · intro h
    by_cases hoffset : startAddress % 0x1000 ≤ endAddress % 0x1000
    · exact Or.inl hoffset
    · right
      rw [← hout, h.covered endAddress hle (Nat.le_refl _)]
      rw [mem_rangePages hle]
      unfold pageNumber
      omega
  · intro hlast
    refine ⟨fun a ha ha' => ?_, fun page hpage => hout page fun hmem => ?_⟩
    · by_cases hmem : pageNumber a ∈ (rangeAddresses startAddress endAddress).map pageNumber
      · exact hin _ hmem
      · -- the loop has missed the page of the end
        have hlow : endAddress % 0x1000 < startAddress % 0x1000 ∧
            pageNumber a = pageNumber endAddress := by
          rw [mem_rangePages hle] at hmem
          unfold pageNumber at *
          omega
        rw [hout _ hmem, hlow.2]
        rcases hlast with hoffset | hsame
        · exact absurd hoffset (Nat.not_le.mpr hlow.1)
        · exact hsame
    · obtain ⟨a, ha, heq⟩ := List.mem_map.mp hmem
      obtain ⟨h1, h2, -⟩ := mem_rangeAddresses.mp ha
      exact hpage a h1 h2 heq

/-- The run of a loop over a range. -/
theorem rangeRun_covers {op : Nat → PageOp} {present : Bool} (hle : startAddress ≤ endAddress)
    (hapart : TablesApart s.paging) (hpage : ∀ a, (op a).page = pageNumber a)
    (hkind : ∀ a, (op a).makesPresent = present)
    (hok : PagesOk malloc (Satisfied malloc) s ((rangeAddresses startAddress endAddress).map op))
    (hrun : PageRun malloc ((rangeAddresses startAddress endAddress).map op) s s') :
    CoversRange startAddress endAddress s.paging s'.paging present ↔
      LastPageOk startAddress endAddress s.paging present := by
  refine coversRange_iff hle ?_
  have hpages := @PageRun.pages malloc present _ s s' hapart hok (fun o ho => ?_) hrun
  · rwa [List.map_map, show PageOp.page ∘ op = pageNumber from funext hpage] at hpages
  · obtain ⟨a, -, rfl⟩ := List.mem_map.mp ho
    exact hkind a

/-- A list of pages can be freed when the frames that they have in the beginning are blocks of the
manager. -/
theorem pagesOk_unmap {l : List Nat} {s : Kernel} (hapart : TablesApart s.paging)
    (hinside : ∀ a ∈ l, FreesInside s.paging a shouldFree) :
    PagesOk malloc (Satisfied malloc) s (l.map fun a => .unmap a shouldFree) := by
  induction l generalizing s with
  | nil => trivial
  | cons a l ih =>
    have ha := hinside a List.mem_cons_self
    refine ⟨ha, fun s₁ hstep => ?_⟩
    cases hstep with
    | unmap =>
      exact ih (apart_freePage hapart ha) fun b hb =>
        (hinside b (List.mem_cons_of_mem _ hb)).freed hapart ha

/--
**After a call every page that meets the range is as it should be, exactly when its last page is**:
the offset of the start is at most that of the end, or the page of the end was so before.
-/
theorem range_covered_iff (hle : startAddress ≤ endAddress) (hend : endAddress < 0x100000000)
    (hapart : TablesApart s.paging) :
    (∀ s' isKernel isWriteable, canAllocate s.paging = true →
      PagesOk malloc (Satisfied malloc) s
        (PagingCall.identityAllocateRange startAddress endAddress isKernel isWriteable).pages →
      identityAllocateRange malloc s startAddress endAddress isKernel isWriteable = some s' →
        (CoversRange startAddress endAddress s.paging s'.paging true ↔
          LastPageOk startAddress endAddress s.paging true)) ∧
    (∀ s' isKernel isWriteable, canAllocate s.paging = true →
      PagesOk malloc (Satisfied malloc) s
        (PagingCall.allocateRange startAddress endAddress isKernel isWriteable).pages →
      allocateRange malloc s startAddress endAddress isKernel isWriteable = some s' →
        (CoversRange startAddress endAddress s.paging s'.paging true ↔
          LastPageOk startAddress endAddress s.paging true)) ∧
    (∀ w' shouldFree, s.paging.isInitialized = true →
      (∀ a ∈ rangeAddresses startAddress endAddress, FreesInside s.paging a shouldFree) →
      freeRange s.paging startAddress endAddress shouldFree = some w' →
        (CoversRange startAddress endAddress s.paging w' false ↔
          LastPageOk startAddress endAddress s.paging false)) := by
  refine ⟨fun s' k w hup hok h => ?_, fun s' k w hup hok h => ?_,
    fun w' f hup hinside h => ?_⟩
  · rw [identityAllocateRange, if_pos hup] at h
    exact rangeRun_covers hle hapart (fun _ => rfl) (fun _ => rfl) hok
      (pageRun_map (· / 0x1000) k w (rangeLoop_some hend h))
  · rw [allocateRange, if_pos hup] at h
    exact rangeRun_covers hle hapart (fun _ => rfl) (fun _ => rfl) hok
      (pageRun_map (fun _ => 0) k w (rangeLoop_some hend h))
  · rw [freeRange, if_pos hup] at h
    have hrun : PageRun malloc _ s { s with paging := w' } :=
      pageRun_unmap f (rangeLoop_some hend h)
    exact @rangeRun_covers malloc s _ startAddress endAddress (fun a => .unmap a f) false hle hapart
      (fun _ => rfl) (fun _ => rfl) (pagesOk_unmap hapart hinside) hrun

/-! ## A kernel that satisfies all requests -/

/-- A bootstrapped heap with room for all page tables, and `n` free blocks. -/
structure Supply (n : Nat) (s : Kernel) : Prop where
  apart : TablesApart s.paging
  ready : PmmReady s.paging.pmm
  room : ∃ next, TableRoom (Finset.range 1024) s next
  blocks : s.paging.pmm.bitmap.bits.card + n ≤ s.paging.pmm.bitmap.bitCount

theorem Supply.frameFor {n frame : Nat} (h : Supply (n + 1) s) :
    frameFor s.paging.pmm frame ≠ none := by
  unfold Xylophone.frameFor
  split
  · exact Option.some_ne_none _
  obtain ⟨b, hb, -, -, halloc⟩ | ⟨hfull, -⟩ := allocateBlock_cases h.ready
  · rw [halloc, if_pos (@isValidBlock_of_lt _ (takeBlock_ready h.ready b) b hb)]
    exact Option.some_ne_none _
  · have hblocks := h.blocks
    rw [hfull, Finset.card_range] at hblocks
    omega

theorem Supply.mapped {n fuel address frame : Nat} (h : Supply (n + 1) s)
    (haddress : address < 0x100000000)
    (hmapped : allocatePage (heapTables (fuel + 1)) s address frame isKernel isWriteable = some s') :
    Supply n s' := by
  obtain ⟨next, hroom⟩ := h.room
  have hslot := slot_mem_range haddress
  have ha := allocatePage_cases h.apart h.ready (hroom.fresh fuel hslot) hmapped
  obtain ⟨next', -, hroom'⟩ := hroom.allocated hslot ha
  obtain ⟨w₁, table, hready, hpage, -⟩ := ha.steps
  obtain ⟨hpmm, -⟩ := hready.same
  have hblocks := h.blocks
  refine ⟨ha.apart, ?_, ⟨next', hroom'⟩, ?_⟩
  · cases hpage with
    | kept _ _ same =>
      rw [same, hpmm]
      exact h.ready
    | explicit _ _ _ pmm =>
      rw [pmm, hpmm]
      exact h.ready
    | taken block _ _ _ _ _ _ pmm =>
      rw [pmm, hpmm]
      exact takeBlock_ready h.ready block
    | exhausted _ _ _ same =>
      rw [same, hpmm]
      exact ⟨h.ready.initialized, h.ready.words, h.ready.bitCount_le⟩
  · cases hpage with
    | kept _ _ same =>
      rw [same, hpmm]
      omega
    | explicit _ _ _ pmm =>
      rw [pmm, hpmm]
      omega
    | taken block _ _ lt free _ _ pmm =>
      rw [hpmm] at lt free
      rw [pmm, hpmm, takeBlock_bits h.ready lt, Finset.card_insert_of_notMem free]
      show _ ≤ s.paging.pmm.bitmap.bitCount
      omega
    | exhausted _ _ _ same =>
      rw [same, hpmm]
      show s.paging.pmm.bitmap.bits.card + n ≤ s.paging.pmm.bitmap.bitCount
      omega

/-- A condition that holds as long as there is a supply. -/
theorem Supply.pagesOk {fuel : Nat} {ok : Kernel → PageOp → Prop} (frameOf : Nat → Nat)
    (hok : ∀ (n : Nat) (s : Kernel) (a : Nat), Supply (n + 1) s → a < 0x100000000 →
      ok s (.map a (frameOf a) isKernel isWriteable)) : ∀ {l : List Nat} {s : Kernel},
    Supply l.length s → (∀ a ∈ l, a < 0x100000000) →
    PagesOk (heapTables (fuel + 1)) ok s (l.map fun a => .map a (frameOf a) isKernel isWriteable)
  | [], _, _, _ => trivial
  | a :: l, s, h, hwords => by
    have ha := hwords a List.mem_cons_self
    refine ⟨hok _ s a h ha, fun s₁ hstep => ?_⟩
    cases hstep with
    | map result =>
      exact Supply.pagesOk frameOf hok (h.mapped ha result) fun b hb =>
        hwords b (List.mem_cons_of_mem _ hb)

/-- Every request is satisfied when there is a block for each of the pages. -/
theorem Supply.satisfied {fuel : Nat} (frameOf : Nat → Nat) {l : List Nat}
    (h : Supply l.length s) (hwords : ∀ a ∈ l, a < 0x100000000) :
    PagesOk (heapTables (fuel + 1)) (Satisfied (heapTables (fuel + 1))) s
      (l.map fun a => .map a (frameOf a) isKernel isWriteable) := by
  refine Supply.pagesOk frameOf (fun n s a hs ha => ?_) h hwords
  obtain ⟨next, hroom⟩ := hs.room
  exact ⟨hroom.fresh fuel (slot_mem_range ha), fun _ => hs.frameFor⟩

/-- A kernel in which nothing is mapped, with enough blocks for a range in the first slots. -/
theorem freshKernel_supply {memorySize n : Nat} (h : memorySize < 0x100000000)
    (hn : n ≤ (freshKernel 0xC0200000 memorySize).paging.pmm.bitmap.bitCount) :
    Supply n (freshKernel 0xC0200000 memorySize) where
  apart := fun _ _ hne => absurd rfl hne
  ready := (freshKernel_fresh h).ready
  room := by
    have hplacement : (freshKernel 0xC0200000 memorySize).heap.placementAddress = 0xC0200000 := rfl
    refine ⟨_, tableRoom_start rfl (freshKernel_fresh h).directory ?_ ?_ ?_⟩
    · rw [hplacement]
      decide
    · rw [Finset.card_range]
      decide
    · rw [Finset.card_range, hplacement]
      decide
  blocks := by
    rw [(freshKernel_fresh h).bits, Finset.card_empty, Nat.zero_add]
    exact hn

/-- Pages 1, 2 and 3, although neither end is aligned. They are mapped and given back. -/
theorem range_covered_iff_freshKernel : ∃ s' w',
    allocateRange (heapTables 1) (freshKernel 0xC0200000 0x20000) 0x1400 0x3800 true true = some s' ∧
    CoversRange 0x1400 0x3800 (freshKernel 0xC0200000 0x20000).paging s'.paging true ∧
    freeRange s'.paging 0x1400 0x3800 true = some w' ∧
    CoversRange 0x1400 0x3800 s'.paging w' false := by
  have hsupply : Supply 3 (freshKernel 0xC0200000 0x20000) :=
    freshKernel_supply (by decide) (by decide)
  have hstart : PoolInvariant (freshKernel 0xC0200000 0x20000) :=
    poolInvariant_start (@freshKernel_fresh 0xC0200000 0x20000 (by decide)) rfl (by decide)
      (by decide)
  obtain ⟨s', w', hs', hup, hw'⟩ : ∃ s' w', allocateRange (heapTables 1)
      (freshKernel 0xC0200000 0x20000) 0x1400 0x3800 true true = some s' ∧
      s'.paging.isInitialized = true ∧ freeRange s'.paging 0x1400 0x3800 true = some w' :=
    ⟨_, _, rfl, rfl, rfl⟩
  have hpool : PoolInvariant s' :=
    @PoolInvariant.call _ _ 0 (.allocateRange 0x1400 0x3800 true true) hstart trivial
      (callWith_step hs')
  have hok := @Supply.satisfied _ true true 0 (fun _ => 0) [0x1400, 0x2400, 0x3400] hsupply
    (by decide)
  have hmapped := @range_covered_iff (heapTables 1) (freshKernel 0xC0200000 0x20000) 0x1400 0x3800
    (by decide) (by decide) hsupply.apart
  have hfreed := @range_covered_iff (heapTables 1) s' 0x1400 0x3800 (by decide) (by decide)
    hpool.apart
  exact ⟨s', w', hs', (hmapped.2.1 s' true true rfl hok hs').mpr (Or.inl (by decide)), hw',
    (hfreed.2.2 w' true hup (fun a _ => hpool.exact.freesInside hpool.ready a true) hw').mpr
      (Or.inl (by decide))⟩

/-- From 0x1800 to 0x3400 the loop visits 0x1800 and 0x2800. The last page is page 3. -/
theorem exists_missed_page : ∃ s',
    PagesOk (heapTables 1) (Satisfied (heapTables 1)) (freshKernel 0xC0200000 0x20000)
      (PagingCall.allocateRange 0x1800 0x3400 true true).pages ∧
    allocateRange (heapTables 1) (freshKernel 0xC0200000 0x20000) 0x1800 0x3400 true true = some s' ∧
    pageAt s'.paging 3 = none ∧
    ¬ CoversRange 0x1800 0x3400 (freshKernel 0xC0200000 0x20000).paging s'.paging true := by
  have hsupply : Supply 2 (freshKernel 0xC0200000 0x20000) :=
    freshKernel_supply (by decide) (by decide)
  obtain ⟨s', hs', hmissed⟩ : ∃ s', allocateRange (heapTables 1) (freshKernel 0xC0200000 0x20000)
      0x1800 0x3400 true true = some s' ∧ pageAt s'.paging 3 = none := ⟨_, rfl, by decide +kernel⟩
  have hok := @Supply.satisfied _ true true 0 (fun _ => 0) [0x1800, 0x2800] hsupply (by decide)
  refine ⟨s', hok, hs', hmissed, fun h => ?_⟩
  have hlast := h.covered 0x3400 (by decide) (by decide)
  rw [show pageNumber 0x3400 = 3 from rfl, hmissed] at hlast
  cases hlast

end Xylophone
