import Mathlib.Data.Finset.Filter
import Xylophone.Paging.Calls

/-!
# Page tables from a bootstrapped heap

Before `heap_manager_init` the heap hands out memory by moving its placement address up. A page
table then always starts at a page boundary, `roundToPage placementAddress`, and no two page
tables are the same, unless the address wraps around to 0. There are at most 1024 page tables, so
`TableRoom` keeps count of those that are missing.
-/

namespace Xylophone

open Infra

/-- The number of slots without a page table, among the given ones. -/
def missingTables (slots : Finset Nat) (w : PagingWorld) : Nat :=
  (slots.filter fun i => w.directory.refTables i = 0).card

/--
The heap is bootstrapped, the next page table comes at `next`, and there is room up to the end of
the address space for all that are missing among `slots`.
-/
structure TableRoom (slots : Finset Nat) (s : Kernel) (next : Nat) : Prop where
  status : s.heap.status = .bootstraped
  round : roundToPage s.heap.placementAddress = wrap32 next
  aligned : next % 0x1000 = 0
  pos : 0 < next
  room : next + 0x1000 * missingTables slots s.paging ≤ 0x100000000
  below : ∀ i, s.paging.directory.refTables i < next

variable {slots : Finset Nat} {s s' : Kernel} {next slot : Nat}

theorem placementAllocate_eq (heap : HeapManager) (size : Nat) :
    placementAllocate heap size true =
      ({ heap with placementAddress := wrap32 (roundToPage heap.placementAddress + size) },
        roundToPage heap.placementAddress) := by
  unfold placementAllocate roundToPage
  simp only [true_and]

/-- A page table from a bootstrapped heap. -/
theorem heapTables_boot (fuel : Nat) (h : s.heap.status = .bootstraped) :
    heapTables (fuel + 1) s =
      some ({ s with heap := { s.heap with
        placementAddress := wrap32 (roundToPage s.heap.placementAddress + 0x1000) } },
        roundToPage s.heap.placementAddress) := by
  unfold heapTables heapManagerMalloc
  rw [h]
  simp only [placementAllocate_eq]

theorem missingTables_cleared {w : PagingWorld} (h : w.directory = clearedDirectory) :
    missingTables slots w = slots.card := by
  unfold missingTables
  rw [Finset.filter_true_of_mem]
  intro i _
  rw [h]
  rfl

/-- There is room in the beginning. -/
theorem tableRoom_start (hstatus : s.heap.status = .bootstraped)
    (hclear : s.paging.directory = clearedDirectory) (hpos : 0 < s.heap.placementAddress)
    (hslots : 0 < slots.card)
    (hroom : pagesFor s.heap.placementAddress + 0x1000 * slots.card ≤ 0x100000000) :
    TableRoom slots s (pagesFor s.heap.placementAddress) where
  status := hstatus
  round := by
    rw [roundToPage_eq (by omega), wrap32_of_lt (by omega)]
  aligned := pagesFor_mod _
  pos := Nat.lt_of_lt_of_le hpos (le_pagesFor _)
  room := by
    rw [missingTables_cleared hclear]
    exact hroom
  below := by
    intro i
    rw [hclear]
    exact Nat.lt_of_lt_of_le hpos (le_pagesFor _)

theorem missingTables_pos {w : PagingWorld} (hslot : slot ∈ slots)
    (h : w.directory.refTables slot = 0) : 0 < missingTables slots w :=
  Finset.card_pos.mpr ⟨slot, Finset.mem_filter.mpr ⟨hslot, h⟩⟩

/-- While there is room, a page table is a new one. -/
theorem TableRoom.fresh (h : TableRoom slots s next) (fuel : Nat) (hslot : slot ∈ slots) :
    FreshTable (heapTables (fuel + 1)) s slot := by
  intro hnone s₁ table hmalloc
  have hmissing := missingTables_pos hslot hnone
  have hroom := h.room
  have hbase : roundToPage s.heap.placementAddress = next := by
    rw [h.round, wrap32_of_lt (by omega)]
  rw [heapTables_boot fuel h.status, hbase] at hmalloc
  obtain ⟨rfl, rfl⟩ := Prod.mk.inj (Option.some.inj hmalloc)
  exact ⟨rfl, Nat.ne_of_gt h.pos, fun i => Nat.ne_of_lt (h.below i)⟩

/-- A slot gets its page table: one less is missing. -/
theorem missingTables_install {w w' : PagingWorld} {table : Nat} (hslot : slot ∈ slots)
    (hnone : w.directory.refTables slot = 0) (hne : table ≠ 0)
    (href : w'.directory.refTables = Function.update w.directory.refTables slot table) :
    missingTables slots w' + 1 = missingTables slots w := by
  unfold missingTables
  have herase : slots.filter (fun i => w'.directory.refTables i = 0) =
      (slots.filter fun i => w.directory.refTables i = 0).erase slot := by
    ext i
    rw [Finset.mem_erase, Finset.mem_filter, Finset.mem_filter, href]
    by_cases hi : i = slot
    · rw [hi, Function.update_self]
      exact ⟨fun h => absurd h.2 hne, fun h => absurd rfl h.1⟩
    · rw [Function.update_of_ne hi]
      exact ⟨fun h => ⟨hi, h⟩, fun h => h.2⟩
  rw [herase, Finset.card_erase_add_one]
  exact Finset.mem_filter.mpr ⟨hslot, hnone⟩

theorem roundToPage_wrap32 {n : Nat} (haligned : n % 0x1000 = 0) :
    roundToPage (wrap32 n) = wrap32 n := by
  rw [roundToPage_eq_wrap (wrap32_lt n)]
  unfold wrap32 pagesFor
  omega

/-- Mapping a page keeps the room. -/
theorem TableRoom.allocated {fuel address frame : Nat} {isKernel isWriteable : Bool}
    (h : TableRoom slots s next) (hslot : pageNumber address / 1024 ∈ slots)
    (ha : PageAllocated (heapTables (fuel + 1)) s s' address frame isKernel isWriteable) :
    ∃ next', next ≤ next' ∧ TableRoom slots s' next' := by
  obtain ⟨w₁, table', hready, -, hdir⟩ := ha.steps
  rcases ha.heap with ⟨hsome, hheap, -⟩ | ⟨hnone, s₁, table, hmalloc, hheap, -, href⟩
  · -- the slot had a page table
    have hrefs : s'.paging.directory.refTables = s.paging.directory.refTables := by
      cases hready with
      | old _ _ same => rw [hdir, same]
      | new absent _ _ _ => exact absurd absent hsome
    refine ⟨next, Nat.le_refl _, by rw [hheap]; exact h.status, by rw [hheap]; exact h.round,
      h.aligned, h.pos, ?_, ?_⟩
    · unfold missingTables
      rw [hrefs]
      exact h.room
    · rw [hrefs]
      exact h.below
  · have hmissing := missingTables_pos hslot hnone
    have hroom := h.room
    have haligned := h.aligned
    have hbase : roundToPage s.heap.placementAddress = next := by
      rw [h.round, wrap32_of_lt (by omega)]
    rw [heapTables_boot fuel h.status, hbase] at hmalloc
    obtain ⟨rfl, rfl⟩ := Prod.mk.inj (Option.some.inj hmalloc)
    have hinstall := missingTables_install hslot hnone (Nat.ne_of_gt h.pos) href
    refine ⟨next + 0x1000, by omega, by rw [hheap]; exact h.status, ?_, by omega, by omega, by omega, ?_⟩
    · rw [hheap]
      exact roundToPage_wrap32 (by omega)
    · intro i
      rw [href]
      by_cases hi : i = pageNumber address / 1024
      · rw [hi, Function.update_self]
        omega
      · rw [Function.update_of_ne hi]
        have := h.below i
        omega

/-- Freeing a page keeps the room. -/
theorem TableRoom.freed {address : Nat} {shouldFree : Bool} (h : TableRoom slots s next)
    (hinside : FreesInside s.paging address shouldFree) :
    TableRoom slots { s with paging := freePage s.paging address shouldFree } next := by
  have hdir := freePage_directory hinside
  refine ⟨h.status, h.round, h.aligned, h.pos, ?_, ?_⟩
  · unfold missingTables
    rw [hdir]
    exact h.room
  · intro i
    show (freePage s.paging address shouldFree).directory.refTables i < next
    rw [hdir]
    exact h.below i

end Xylophone
